import Mathlib.Data.Finset.Card
import Mathlib.Data.Finset.Range
import Mathlib.Logic.Relation
import TypeRecovery.Proofs.Concrete.Arenas
import TypeRecovery.Proofs.Prototype.Entering

/-! When recording fails, and what it leaves then. Recording a reference covers all that it leads
to, except for what a union or a handle outside the arena hides, and those stop it. The images that
are there cut the search, and so do pointers to sealed types, but neither hides anything: what has
an image was covered before, and sealed types lead nowhere. So success depends on the arena alone.
Up to a failure, only nodes with new identifiers are written. -/
namespace TypeRecovery
open Relation

namespace Arena
variable {arena : Arena} {h : Handle} {node : Concrete}

/-- A node leads to what it refers to, unless it is a union. -/
def Leads (a : Arena) (h r : Handle) : Prop :=
  ∃ node, a.get? h = some node ∧ (∀ name members, node ≠ .union name members) ∧ some r ∈ node.refs

/-- A handle that cannot be recorded: outside the arena, or a union. -/
def Refuses (a : Arena) (h : Handle) : Prop :=
  a.get? h = none ∨ ∃ name members, a.get? h = some (.union name members)

def Faulty (a : Arena) (ref : Option Handle) : Prop :=
  ∃ root h, ref = some root ∧ ReflTransGen a.Leads root h ∧ a.Refuses h

private theorem Faulty.of_refs {ref : Option Handle} (found : arena.get? h = some node)
    (plain : ∀ name members, node ≠ .union name members) (inside : ref ∈ node.refs)
    (faulty : arena.Faulty ref) : arena.Faulty (some h) := by
  obtain ⟨root, last, rfl, path, refuses⟩ := faulty
  exact ⟨h, last, rfl, .head ⟨node, found, plain, inside⟩ path, refuses⟩

private theorem Grounded.not_faulty {allowed : NodeId → Prop} (grounded : arena.Grounded allowed)
    (inside : h < arena.size) : ¬ arena.Faulty (some h) := by
  intro faulty
  obtain ⟨root, last, same, path, refuses⟩ := faulty
  obtain rfl := Option.some.inj same
  have held : last < arena.size := by
    clear refuses
    induction path with
    | refl => exact inside
    | tail _ leads ih =>
      obtain ⟨node, found, _, refers⟩ := leads
      exact ((grounded _ node found).2.1 _ refers).trans ih
  obtain ⟨node, found⟩ := lt_size_iff.mp held
  rcases refuses with outside | ⟨name, members, union⟩
  · cases found.symm.trans outside
  · exact (grounded last _ union).1 name members rfl

end Arena

def Inferred.Faulty (inferred : Inferred) : Prop :=
  ∃ v root, inferred.roots.get? v = some root ∧ inferred.arena.Faulty (some root)

namespace Recording

/-- Nothing is changed but nodes with identifiers that were not taken before. -/
structure Kept (r s : Recording) : Prop where
  supply : r.supply.next ≤ s.supply.next
  types : ∀ id, id.value < r.supply.next → s.target.types.get? id = r.target.types.get? id
  prototypes : s.target.prototypes = r.target.prototypes

theorem Kept.refl (r : Recording) : r.Kept r := ⟨Nat.le_refl _, fun _ _ => rfl, rfl⟩

theorem Kept.put {r s : Recording} {id : NodeId} (kept : r.Kept s) (new : r.supply.next ≤ id.value)
    (node : TypeNode) : r.Kept (s.put id node) := by
  refine ⟨kept.supply, fun other old => ?_, kept.prototypes⟩
  have apart : other ≠ id := by
    rintro rfl
    exact Nat.not_lt.mpr new old
  rw [← kept.types other old]
  exact OrdMap.get?_insert_of_ne _ _ apart

theorem Kept.reserve {r s : Recording} (kept : r.Kept s) (h : Handle) : r.Kept (s.reserve h) :=
  ⟨kept.supply.trans (Nat.le_succ _), kept.types, kept.prototypes⟩

theorem Kept.blank {r s : Recording} (kept : r.Kept s) : r.Kept s.blank := by
  have taken : r.Kept { s with supply := s.supply.fresh.2 } :=
    ⟨kept.supply.trans (Nat.le_succ _), kept.types, kept.prototypes⟩
  exact taken.put kept.supply (.unknown 0)

section
variable (arena : Arena)

def Settled (s : Recording) (ref : Option Handle) : Prop :=
  ∀ h, ref = some h → s.images.contains h ∨ ∃ origin, arena.get? h = some (.sealed origin)

def Done (s : Recording) (h : Handle) : Prop :=
  ∃ node, arena.get? h = some node ∧ (∀ name members, node ≠ .union name members) ∧
    ∀ ref ∈ node.refs, s.Settled arena ref

/-- Images are only added, for nodes that are done in the end. -/
structure Advances (s t : Recording) : Prop where
  grows : ∀ h, s.images.contains h → t.images.contains h
  done : ∀ h, t.images.contains h → s.images.contains h ∨ t.Done arena h

def pending (s : Recording) : Finset Handle :=
  (Finset.range arena.size).filter fun h => ¬ s.images.contains h

end

variable {arena : Arena} {s t u : Recording} {ref : Option Handle} {h : Handle}

theorem Settled.mono (settled : s.Settled arena ref)
    (grows : ∀ h, s.images.contains h → t.images.contains h) : t.Settled arena ref :=
  fun h same => (settled h same).imp_left (grows h)

theorem Done.mono (done : s.Done arena h)
    (grows : ∀ h, s.images.contains h → t.images.contains h) : t.Done arena h := by
  obtain ⟨node, found, plain, settled⟩ := done
  exact ⟨node, found, plain, fun ref inside => (settled ref inside).mono grows⟩

private theorem settled_none : s.Settled arena none := by
  intro h same
  contradiction

private theorem settled_of_image (known : s.images.contains h) : s.Settled arena (some h) := by
  rintro h' ⟨⟩
  exact .inl known

private theorem settled_of_sealed {origin : NodeId} (shape : arena.get? h = some (.sealed origin)) :
    s.Settled arena (some h) := by
  rintro h' ⟨⟩
  exact .inr ⟨origin, shape⟩

private theorem advances_of_images_eq (same : t.images = s.images) : s.Advances arena t :=
  ⟨fun _ known => same ▸ known, fun _ known => .inl (same ▸ known)⟩

theorem Advances.trans (first : s.Advances arena t) (second : t.Advances arena u) :
    s.Advances arena u := by
  refine ⟨fun h known => second.grows h (first.grows h known), fun h known => ?_⟩
  rcases second.done h known with before | done
  · exact (first.done h before).imp_right fun done => done.mono second.grows
  · exact .inr done

private theorem Advances.after_image {id : NodeId} (later : u.Advances arena t)
    (image : u.images = s.images.insert h id) (done : t.Done arena h) : s.Advances arena t := by
  have inserted (k : Handle) : u.images.contains k ↔ k = h ∨ s.images.contains k := by
    rw [image]
    exact OrdMap.contains_insert
  refine ⟨fun k known => later.grows k ((inserted k).mpr (.inr known)), fun k known => ?_⟩
  rcases later.done k known with before | finished
  · rcases (inserted k).mp before with rfl | old
    · exact .inr done
    · exact .inl old
  · exact .inr finished

theorem mem_pending : h ∈ s.pending arena ↔ h < arena.size ∧ ¬ s.images.contains h := by
  rw [pending, Finset.mem_filter, Finset.mem_range]

private theorem card_pending_le : (s.pending arena).card ≤ arena.size :=
  (Finset.card_filter_le _ _).trans_eq (Finset.card_range _)

private theorem pending_subset (grows : ∀ h, s.images.contains h → t.images.contains h) :
    t.pending arena ⊆ s.pending arena := by
  intro h unknown
  obtain ⟨bound, absent⟩ := mem_pending.mp unknown
  exact mem_pending.mpr ⟨bound, fun known => absent (grows h known)⟩

private theorem card_pending_lt (grows : ∀ h, s.images.contains h → t.images.contains h)
    (waits : h ∈ s.pending arena) (known : t.images.contains h) :
    (t.pending arena).card < (s.pending arena).card := by
  apply Finset.card_lt_card
  rw [Finset.ssubset_iff_of_subset (pending_subset grows)]
  exact ⟨h, waits, fun later => (mem_pending.mp later).2 known⟩

private theorem Settled.not_faulty (settled : t.Settled arena ref)
    (done : ∀ h, t.images.contains h → t.Done arena h) : ¬ arena.Faulty ref := by
  intro faulty
  obtain ⟨root, last, rfl, path, refuses⟩ := faulty
  -- Being settled passes from a handle to what it leads to, for a sealed type leads nowhere.
  have reached : t.Settled arena (some last) := by
    clear refuses
    induction path with
    | refl => exact settled
    | @tail x y _ leads ih =>
      obtain ⟨node, found, plain, inside⟩ := leads
      rcases ih x rfl with known | ⟨origin, shape⟩
      · obtain ⟨node', found', _, all⟩ := done x known
        obtain rfl := Option.some.inj (found.symm.trans found')
        exact all _ inside
      · obtain rfl := Option.some.inj (found.symm.trans shape)
        contradiction
  rcases reached last rfl with known | ⟨origin, shape⟩
  · obtain ⟨node, found, plain, _⟩ := done last known
    rcases refuses with outside | ⟨name, members, shape⟩
    · cases found.symm.trans outside
    · exact plain name members (Option.some.inj (found.symm.trans shape))
  · rcases refuses with outside | ⟨name, members, union⟩
    · cases shape.symm.trans outside
    · cases shape.symm.trans union

end Recording

namespace Recorder
variable {β γ : Type} {arena : Arena} {r s : Recording} {depth : Nat} {h : Handle} {node : Concrete}
  {refs more : List (Option Handle)} {go : Option Handle → Recorder NodeId}

/-- From a state on, the work settles references, unless one of them leads to what cannot be
recorded. -/
def Settles (arena : Arena) (r s : Recording) (refs : List (Option Handle)) (work : Recorder β) :
    Prop :=
  Ends work s
    (fun _ t => r.Kept t ∧ s.Advances arena t ∧ ∀ ref ∈ refs, t.Settled arena ref)
    (fun t => r.Kept t ∧ ∃ ref ∈ refs, arena.Faulty ref)

/-- The work settles references from every state. It may enter nodes one below the other as long as
there are handles without an image. -/
def Sweeps (arena : Arena) (r : Recording) (depth : Nat) (refs : List (Option Handle))
    (work : Recorder β) : Prop :=
  ∀ s, r.Kept s → (s.pending arena).card ≤ depth → Settles arena r s refs work

private theorem sweeps_modify {f : Recording → Recording} (kept : ∀ s, r.Kept s → r.Kept (f s))
    (same : ∀ s, (f s).images = s.images) : Sweeps arena r depth [] (modify f) := by
  intro s before _
  exact ⟨kept s before, Recording.advances_of_images_eq (same s), by simp⟩

theorem Sweeps.pure (a : β) : Sweeps arena r depth [] (pure a) := by
  intro s kept _
  exact ⟨kept, Recording.advances_of_images_eq rfl, by simp⟩

theorem Sweeps.bind {work : Recorder β} {next : β → Recorder γ}
    (first : Sweeps arena r depth refs work) (later : ∀ a, Sweeps arena r depth more (next a)) :
    Sweeps arena r depth (refs ++ more) (work >>= next) := by
  intro s kept few
  refine Ends.bind ((first s kept few).mono (fun _ _ given => given) fun t failed => ?_) ?_
  · obtain ⟨kept, ref, inside, faulty⟩ := failed
    exact ⟨kept, ref, List.mem_append_left _ inside, faulty⟩
  · intro a t given
    obtain ⟨kept, advances, settled⟩ := given
    have fewer := (Finset.card_le_card (Recording.pending_subset advances.grows)).trans few
    refine (later a t kept fewer).mono (fun b u given => ?_) fun u failed => ?_
    · obtain ⟨kept, further, others⟩ := given
      refine ⟨kept, advances.trans further, fun ref inside => ?_⟩
      rcases List.mem_append.mp inside with before | after
      · exact (settled ref before).mono further.grows
      · exact others ref after
    · obtain ⟨kept, ref, inside, faulty⟩ := failed
      exact ⟨kept, ref, List.mem_append_right _ inside, faulty⟩

theorem Sweeps.last {work : Recorder β} {next : β → Recorder γ}
    (first : Sweeps arena r depth refs work) (later : ∀ a, Sweeps arena r depth [] (next a)) :
    Sweeps arena r depth refs (work >>= next) :=
  List.append_nil refs ▸ first.bind later

private theorem sweeps_setType {id : NodeId} (new : r.supply.next ≤ id.value) (node : TypeNode) :
    Sweeps arena r depth [] (setType id node) :=
  sweeps_modify (fun _ kept => kept.put new node) fun _ => rfl

private theorem sweeps_setPointee {pointer : NodeId} (new : r.supply.next ≤ pointer.value)
    (pointee : NodeId) : Sweeps arena r depth [] (setPointee pointer pointee) := by
  refine sweeps_modify (fun s kept => ?_) fun _ => rfl
  simp only [TypeTable.setPointee]
  split
  · exact kept.put new _
  · exact kept

private theorem sweeps_note (notice : Notice) : Sweeps arena r depth [] (note notice) :=
  sweeps_modify (fun _ kept => ⟨kept.supply, kept.types, kept.prototypes⟩) fun _ => rfl

private theorem sweeps_recordFields (goes : ∀ ref, Sweeps arena r depth [ref] (go ref))
    (fields : List Field) :
    Sweeps arena r depth (fields.map Field.type) (recordFields go fields) := by
  induction fields with
  | nil => exact .pure _
  | cons field rest ih => exact (goes field.type).bind fun _ => ih.last fun _ => .pure _

private theorem sweeps_recordParams (goes : ∀ ref, Sweeps arena r depth [ref] (go ref))
    (params : List (Option Handle)) : Sweeps arena r depth params (recordParams go params) := by
  induction params with
  | nil => exact .pure _
  | cons param rest ih => exact (goes param).bind fun _ => ih.last fun _ => .pure _

private theorem settles_reserve {work : NodeId → Recorder β} (kept : r.Kept s)
    (few : (s.pending arena).card ≤ depth + 1) (absent : ¬ s.images.contains h)
    (found : arena.get? h = some node) (plain : ∀ name members, node ≠ .union name members)
    (sweeps : ∀ id, r.supply.next ≤ id.value → Sweeps arena r depth node.refs (work id)) :
    Settles arena r s [some h] (reserve h >>= work) := by
  have known : (s.reserve h).images.contains h := OrdMap.contains_insert.mpr (.inl rfl)
  have grows (k : Handle) (before : s.images.contains k) : (s.reserve h).images.contains k :=
    OrdMap.contains_insert.mpr (.inr before)
  have waits := Recording.mem_pending.mpr ⟨Arena.lt_size_iff.mpr ⟨node, found⟩, absent⟩
  have fewer := (Recording.card_pending_lt grows waits known).trans_le few
  have swept := sweeps s.supply.fresh.1 kept.supply _ (kept.reserve h) (Nat.le_of_lt_succ fewer)
  have taken {bad : Recording → Prop} : Ends (reserve h) s
      (fun id t => id = s.supply.fresh.1 ∧ t = s.reserve h) bad := ⟨rfl, rfl⟩
  refine taken.bind fun id u same => ?_
  obtain ⟨rfl, rfl⟩ := same
  refine Ends.mono swept ?_ ?_
  · intro a t given
    obtain ⟨kept, advances, settled⟩ := given
    refine ⟨kept, advances.after_image rfl ⟨node, found, plain, settled⟩, ?_⟩
    exact List.forall_mem_singleton.mpr (Recording.settled_of_image (advances.grows h known))
  · intro t failed
    obtain ⟨kept, ref, inside, faulty⟩ := failed
    exact ⟨kept, some h, List.mem_cons_self, faulty.of_refs found plain inside⟩

private theorem settles_setImage (kept : r.Kept s) (found : arena.get? h = some node)
    (plain : ∀ name members, node ≠ .union name members)
    (settled : ∀ ref ∈ node.refs, s.Settled arena ref) (id : NodeId) :
    Settles arena r s [some h] (do setImage h id; return id) := by
  have grows (k : Handle) (before : s.images.contains k) :
      (s.images.insert h id).contains k := OrdMap.contains_insert.mpr (.inr before)
  have known : (s.images.insert h id).contains h := OrdMap.contains_insert.mpr (.inl rfl)
  refine ⟨⟨kept.supply, kept.types, kept.prototypes⟩, ?_, ?_⟩
  · refine (Recording.advances_of_images_eq rfl).after_image rfl ⟨node, found, plain, ?_⟩
    exact fun ref inside => (settled ref inside).mono grows
  · exact List.forall_mem_singleton.mpr (Recording.settled_of_image known)

private theorem sweeps_addUnknown : Sweeps arena r depth [none] addUnknown := by
  intro s kept _
  exact ⟨kept.blank, Recording.advances_of_images_eq rfl,
    List.forall_mem_singleton.mpr Recording.settled_none⟩

private theorem settled_of_origin? {table : TypeTable} {target : Option Handle} {origin : NodeId}
    (known : origin? arena table target = some origin) : s.Settled arena target := by
  cases target with
  | none => exact Recording.settled_none
  | some h =>
    simp only [origin?, Option.bind_some] at known
    split at known
    next shape => exact Recording.settled_of_sealed shape
    next => contradiction

private theorem settles_recordNode (goes : ∀ ref, Sweeps arena r depth [ref] (go ref))
    (kept : r.Kept s)
    (few : (s.pending arena).card ≤ depth + 1) (absent : ¬ s.images.contains h)
    (found : arena.get? h = some node) :
    Settles arena r s [some h] (recordNode arena go h node) := by
  cases node with
  | void | bool | char | int | float =>
    refine settles_reserve kept few absent found (by simp) fun id new => ?_
    exact (sweeps_setType new _).last fun _ => .pure _
  | pointer target size =>
    apply ends_get_bind
    cases known : origin? arena s.target.types target with
    | some origin =>
      refine settles_setImage kept found (by simp) (fun ref inside => ?_) origin
      obtain rfl := List.mem_singleton.mp inside
      exact settled_of_origin? known
    | none =>
      simp only [addNode, bind_assoc, pure_bind]
      refine settles_reserve kept few absent found (by simp) fun id new => ?_
      refine (sweeps_setType new _).bind fun _ => (goes target).last fun pointee => ?_
      exact (sweeps_setPointee new pointee).last fun _ => .pure _
  | array member length =>
    refine settles_reserve kept few absent found (by simp) fun id new => ?_
    exact (goes member).last fun element => (sweeps_setType new _).last fun _ => .pure _
  | struct name size fields =>
    refine settles_reserve kept few absent found (by simp) fun id new => ?_
    refine (sweeps_recordFields goes fields).last fun recorded => ?_
    exact (sweeps_setType new _).last fun _ => .pure _
  | function ret params =>
    refine settles_reserve kept few absent found (by simp) fun id new => ?_
    refine (goes ret).bind fun result => (sweeps_recordParams goes params).last fun recorded => ?_
    exact (sweeps_setType new _).last fun _ => .pure _
  | union name members =>
    exact ⟨kept, some h, List.mem_cons_self, h, h, rfl, .refl, .inr ⟨name, members, found⟩⟩
  | sealed origin =>
    apply ends_get_bind
    split
    · exact settles_setImage kept found (by simp) (by simp [Concrete.refs]) origin
    · -- The sealed type gets no image. Its handle is settled all the same, for it leads nowhere.
      have swept := (sweeps_note (.foreignSealed origin s.target.name)).bind (fun _ =>
        sweeps_addUnknown) s kept few
      refine Ends.mono swept (fun id t given => ?_) fun t failed => ?_
      · obtain ⟨kept, advances, _⟩ := given
        exact ⟨kept, advances, List.forall_mem_singleton.mpr (Recording.settled_of_sealed found)⟩
      · obtain ⟨_, ref, inside, root, _, rfl, _⟩ := failed
        simp at inside

private theorem sweeps_recordRef
    (enters : ∀ s h node, r.Kept s → (s.pending arena).card ≤ depth → ¬ s.images.contains h →
      arena.get? h = some node → Settles arena r s [some h] (recordNode arena go h node))
    (ref : Option Handle) : Sweeps arena r depth [ref] (recordRef arena go ref) := by
  cases ref with
  | none => exact sweeps_addUnknown
  | some h =>
    intro s kept few
    apply ends_get_bind
    cases known : s.images.get? h with
    | some id =>
      have imaged : s.images.contains h := (OrdMap.contains_iff _ _).mpr ⟨id, known⟩
      exact ⟨kept, Recording.advances_of_images_eq rfl,
        List.forall_mem_singleton.mpr (Recording.settled_of_image imaged)⟩
    | none =>
      cases found : arena.get? h with
      | none => exact ⟨kept, some h, List.mem_cons_self, h, h, rfl, .refl, .inl found⟩
      | some node =>
        have absent : ¬ s.images.contains h := by simp [OrdMap.contains, known]
        exact enters s h node kept few absent found

private theorem sweeps_recordTo (depth : Nat) (ref : Option Handle) :
    Sweeps arena r depth [ref] (recordTo arena depth ref) := by
  induction depth generalizing ref with
  | zero =>
    -- Every handle of the arena has an image by now, so that no node is entered.
    refine sweeps_recordRef (fun s h node kept few absent found => ?_) ref
    have waits := Recording.mem_pending.mpr ⟨Arena.lt_size_iff.mpr ⟨node, found⟩, absent⟩
    exact absurd few (Nat.not_le.mpr (Finset.card_pos.mpr ⟨h, waits⟩))
  | succ depth ih =>
    exact sweeps_recordRef (fun s h node kept few absent found =>
      settles_recordNode ih kept few absent found) ref

private theorem sweeps_recordRoots (functions : OrdMap String NodeId)
    (prototypes : OrdMap NodeId NodeId)
    (roots : List (TypeVar × Handle)) :
    Sweeps arena r arena.size (roots.map fun root => some root.2)
      (recordRoots arena functions prototypes roots) := by
  induction roots generalizing prototypes with
  | nil => exact .pure _
  | cons root rest ih =>
    refine (sweeps_recordTo arena.size (some root.2)).bind fun type => ?_
    split
    · exact ih _
    · intro s kept few
      apply ends_get_bind
      exact (sweeps_note _).bind (fun _ => ih prototypes) _ kept few

/-- Recording settles all roots, or it fails because of one of them and keeps what was there. -/
theorem ends_recordInferred (inferred : Inferred) (s : Recording) :
    Ends (recordInferred inferred) s
      (fun _ _ => ∃ t, s.Advances inferred.arena t ∧
        ∀ v root, inferred.roots.get? v = some root → t.Settled inferred.arena (some root))
      (fun t => s.Kept t ∧ inferred.Faulty) := by
  have few : (s.pending inferred.arena).card ≤ inferred.arena.size := Recording.card_pending_le
  have swept := sweeps_recordRoots (functionsByName s.target) ∅ inferred.roots.entries s
    (.refl s) few
  apply ends_get_bind
  refine Ends.bind (Ends.mono swept (fun _ _ given => given) ?_) ?_
  · intro t failed
    obtain ⟨kept, ref, inside, faulty⟩ := failed
    obtain ⟨⟨v, root⟩, listed, rfl⟩ := List.mem_map.mp inside
    exact ⟨kept, v, root, (OrdMap.get?_eq_some_iff _ _ _).mpr listed, faulty⟩
  · intro prototypes t given
    obtain ⟨_, advances, settled⟩ := given
    refine ⟨t, advances, fun v root found => settled _ ?_⟩
    have listed := (OrdMap.get?_eq_some_iff _ _ _).mp found
    exact List.mem_map.mpr ⟨(v, root), listed, rfl⟩

theorem recordInferred_error {inferred : Inferred} {s t : Recording} {e : Error}
    (failed : recordInferred inferred s = .error e t) : s.Kept t ∧ inferred.Faulty := by
  have ends := ends_recordInferred inferred s
  simpa only [Ends, failed] using ends

theorem recordInferred_ok {inferred : Inferred} {s t : Recording} (new : s.images = ∅)
    (done : recordInferred inferred s = .ok () t) : ¬ inferred.Faulty := by
  have ends := ends_recordInferred inferred s
  simp only [Ends, done] at ends
  obtain ⟨u, advances, settled⟩ := ends
  intro faulty
  obtain ⟨v, root, found, leads⟩ := faulty
  refine (settled v root found).not_faulty (fun h known => ?_) leads
  refine (advances.done h known).resolve_left fun before => ?_
  rw [new] at before
  contradiction

theorem completes_recordInferred {allowed : NodeId → Prop} {inferred : Inferred}
    (grounded : inferred.arena.Grounded allowed)
    (inside : ∀ v h, inferred.roots.get? v = some h → h < inferred.arena.size) :
    Completes (recordInferred inferred) := by
  intro s
  cases outcome : recordInferred inferred s with
  | ok a t => exact ⟨a, t, rfl⟩
  | error e t =>
    obtain ⟨_, v, root, found, faulty⟩ := recordInferred_error outcome
    exact absurd faulty (grounded.not_faulty (inside v root found))

end Recorder
end TypeRecovery
