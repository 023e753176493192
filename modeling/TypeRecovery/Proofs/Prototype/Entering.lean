import TypeRecovery.Proofs.Stateful
import TypeRecovery.Prototype.Recording

/-! How a concrete node is recorded, step by step. A handle met for the first time stands for a type
that is there, or stands for nothing known, or takes an identifier before its references are
recorded in their order and its own node is put in the table. -/
namespace TypeRecovery

/-- The type node that a concrete node becomes when its references become the given nodes. -/
inductive Concrete.Mirrors : Concrete → List NodeId → TypeNode → Prop where
  | void : Mirrors .void [] .void
  | bool : Mirrors .bool [] .bool
  | char (width : Nat) : Mirrors (.char width) [] (.char width)
  | int (width : Nat) (signed : Bool) : Mirrors (.int width signed) [] (.int width signed)
  | float (width : Nat) : Mirrors (.float width) [] (.float width)
  | pointer (target : Option Handle) (size : Nat) (pointee : NodeId) :
    Mirrors (.pointer target size) [pointee] (.pointer (some pointee))
  | array (member : Option Handle) (length : Nat) (element : NodeId) :
    Mirrors (.array member length) [element] (.array element length)
  | struct (name : Option String) {size : Nat} {fields : List Field} {ids : List NodeId}
    (typed : (fields.getLast?.bind Field.type).isSome) :
    Mirrors (.struct name size fields) ids (.struct size ((fields.map Field.offset).zip ids))
  | cut (name : Option String) (size : Nat) {fields : List Field} {ids : List NodeId}
    (untyped : fields.getLast?.bind Field.type = none) :
    Mirrors (.struct name size fields) ids (.struct 0 ((fields.map Field.offset).zip ids))
  | function (ret : Option Handle) (params : List (Option Handle)) (result : NodeId)
    (args : List NodeId) :
    Mirrors (.function ret params) (result :: args) (.function (some result) (args.map some))

namespace Recording

def reserve (s : Recording) (h : Handle) : Recording :=
  { s with supply := s.supply.fresh.2, images := s.images.insert h s.supply.fresh.1 }

def put (s : Recording) (id : NodeId) (node : TypeNode) : Recording :=
  { s with target := { s.target with types := s.target.types.insert id node } }

def blank (s : Recording) : Recording :=
  { s with supply := s.supply.fresh.2 }.put s.supply.fresh.1 (.unknown 0)

end Recording

namespace Recorder

/-- References recorded one after another, each from the state that the one before left. -/
inductive Threads (go : Option Handle → Recorder NodeId) :
    List (Option Handle) → List NodeId → Recording → Recording → Prop where
  | nil (s : Recording) : Threads go [] [] s s
  | cons {ref : Option Handle} {refs : List (Option Handle)} {id : NodeId} {ids : List NodeId}
    {s t u : Recording} (first : go ref s = .ok id t) (rest : Threads go refs ids t u) :
    Threads go (ref :: refs) (id :: ids) s u

variable {go : Option Handle → Recorder NodeId} {arena : Arena} {s t : Recording}

private theorem threads_of_recordFields {fields : List Field} {recorded : List (Nat × NodeId)}
    (done : recordFields go fields s = .ok recorded t) :
    ∃ ids, Threads go (fields.map Field.type) ids s t ∧
      recorded = (fields.map Field.offset).zip ids := by
  induction fields generalizing s recorded with
  | nil =>
    obtain ⟨rfl, rfl⟩ := pure_eq_ok done
    exact ⟨[], .nil t, rfl⟩
  | cons field rest ih =>
    obtain ⟨id, u, first, done⟩ := bind_eq_ok done
    obtain ⟨more, v, later, done⟩ := bind_eq_ok done
    obtain ⟨rfl, rfl⟩ := pure_eq_ok done
    obtain ⟨ids, threads, rfl⟩ := ih later
    exact ⟨id :: ids, .cons first threads, rfl⟩

private theorem threads_of_recordParams {params : List (Option Handle)}
    {recorded : List (Option NodeId)} (done : recordParams go params s = .ok recorded t) :
    ∃ ids, Threads go params ids s t ∧ recorded = ids.map some := by
  induction params generalizing s recorded with
  | nil =>
    obtain ⟨rfl, rfl⟩ := pure_eq_ok done
    exact ⟨[], .nil t, rfl⟩
  | cons param rest ih =>
    obtain ⟨id, u, first, done⟩ := bind_eq_ok done
    obtain ⟨more, v, later, done⟩ := bind_eq_ok done
    obtain ⟨rfl, rfl⟩ := pure_eq_ok done
    obtain ⟨ids, threads, rfl⟩ := ih later
    exact ⟨id :: ids, .cons first threads, rfl⟩

/-- How a node comes to be recorded: as a type that is there, as one without an image, or as a new
one whose references are recorded after its identifier is taken. A pointer is in the table before
its target is recorded. -/
inductive Enters (arena : Arena) (go : Option Handle → Recorder NodeId) (h : Handle)
    (node : Concrete) (s : Recording) : NodeId → Recording → Prop where
  | sealed {origin : NodeId} (shape : node = .sealed origin)
    (known : s.target.types.contains origin) :
    Enters arena go h node s origin { s with images := s.images.insert h origin }
  | foreign {origin : NodeId} {notices : List Notice} (shape : node = .sealed origin)
    (foreign : ¬ s.target.types.contains origin) :
    Enters arena go h node s s.supply.fresh.1 { s with notices := notices }.blank
  | through {target : Option Handle} {size : Nat} {origin : NodeId}
    (shape : node = .pointer target size)
    (known : origin? arena s.target.types target = some origin) :
    Enters arena go h node s origin { s with images := s.images.insert h origin }
  | pointer {target : Option Handle} {size : Nat} {pointee : NodeId} {u : Recording}
    (shape : node = .pointer target size)
    (unknown : origin? arena s.target.types target = none)
    (recorded : Threads go node.refs [pointee]
      ((s.reserve h).put s.supply.fresh.1 (.pointer none)) u) :
    Enters arena go h node s s.supply.fresh.1
      { u with target :=
        { u.target with types := u.target.types.setPointee s.supply.fresh.1 pointee } }
  | whole {ids : List NodeId} {copy : TypeNode} {u : Recording}
    (closed : ∀ target size, node ≠ .pointer target size)
    (mirrors : node.Mirrors ids copy) (recorded : Threads go node.refs ids (s.reserve h) u) :
    Enters arena go h node s s.supply.fresh.1 (u.put s.supply.fresh.1 copy)

theorem enters_of_recordNode {h : Handle} {node : Concrete} {id : NodeId}
    (done : recordNode arena go h node s = .ok id t) : Enters arena go h node s id t := by
  have scalar {copy : TypeNode} (empty : node.refs = [])
      (closed : ∀ target size, node ≠ .pointer target size) (mirrors : node.Mirrors [] copy)
      (added : addNode h copy s = .ok id t) : Enters arena go h node s id t := by
    obtain ⟨rfl, rfl⟩ := EStateM.Result.ok.inj added
    exact .whole closed mirrors (empty ▸ .nil _)
  cases node with
  | void => exact scalar rfl (by simp) .void done
  | bool => exact scalar rfl (by simp) .bool done
  | char width => exact scalar rfl (by simp) (.char width) done
  | int width signed => exact scalar rfl (by simp) (.int width signed) done
  | float width => exact scalar rfl (by simp) (.float width) done
  | pointer target size =>
    obtain ⟨_, _, state, done⟩ := bind_eq_ok done
    obtain ⟨rfl, rfl⟩ := EStateM.Result.ok.inj state
    cases known : origin? arena s.target.types target with
    | some origin =>
      simp only [known] at done
      obtain ⟨rfl, rfl⟩ := EStateM.Result.ok.inj done
      exact .through rfl known
    | none =>
      simp only [known] at done
      obtain ⟨_, _, added, done⟩ := bind_eq_ok done
      obtain ⟨rfl, rfl⟩ := EStateM.Result.ok.inj added
      obtain ⟨pointee, u, first, done⟩ := bind_eq_ok done
      obtain ⟨rfl, rfl⟩ := EStateM.Result.ok.inj done
      exact .pointer rfl known (.cons first (.nil u))
  | array member length =>
    obtain ⟨_, _, added, done⟩ := bind_eq_ok done
    obtain ⟨rfl, rfl⟩ := EStateM.Result.ok.inj added
    obtain ⟨element, u, first, done⟩ := bind_eq_ok done
    obtain ⟨rfl, rfl⟩ := EStateM.Result.ok.inj done
    exact .whole (by simp) (.array member length element) (.cons first (.nil u))
  | struct name size fields =>
    obtain ⟨_, _, added, done⟩ := bind_eq_ok done
    obtain ⟨rfl, rfl⟩ := EStateM.Result.ok.inj added
    obtain ⟨recorded, u, later, done⟩ := bind_eq_ok done
    obtain ⟨rfl, rfl⟩ := EStateM.Result.ok.inj done
    obtain ⟨ids, threads, rfl⟩ := threads_of_recordFields later
    refine .whole (by simp) ?_ threads
    cases typed : fields.getLast?.bind Field.type with
    | none => exact .cut name size typed
    | some last => exact .struct name (by rw [typed]; rfl)
  | function ret params =>
    obtain ⟨_, _, added, done⟩ := bind_eq_ok done
    obtain ⟨rfl, rfl⟩ := EStateM.Result.ok.inj added
    obtain ⟨result, u, first, done⟩ := bind_eq_ok done
    obtain ⟨recorded, v, later, done⟩ := bind_eq_ok done
    obtain ⟨rfl, rfl⟩ := EStateM.Result.ok.inj done
    obtain ⟨ids, threads, rfl⟩ := threads_of_recordParams later
    exact .whole (by simp) (.function ret params result ids) (.cons first threads)
  | sealed origin =>
    obtain ⟨_, _, state, done⟩ := bind_eq_ok done
    obtain ⟨rfl, rfl⟩ := EStateM.Result.ok.inj state
    by_cases known : s.target.types.contains origin
    · simp only [known, if_true] at done
      obtain ⟨rfl, rfl⟩ := EStateM.Result.ok.inj done
      exact .sealed rfl known
    · simp only [known] at done
      obtain ⟨rfl, rfl⟩ := EStateM.Result.ok.inj done
      exact .foreign rfl known
  | union name members =>
    cases show EStateM.Result.error _ s = .ok id t from done

end Recorder

end TypeRecovery
