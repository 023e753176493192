import TypeRecovery.Proofs.Prototype.Walks

/-! What the prototype of a function tells, which does not depend on what was read before it. Reading
all prototypes of a module collects what each of them tells, in the order of the functions. -/
namespace TypeRecovery
namespace CodeModule
open Reader
variable (m : CodeModule)

/-- The name and the constraints that a function's prototype tells on its own, if it can be read. -/
def told? (function : NodeId) : Option (String × ConstraintSet) :=
  match m.readFunction function {} with
  | .ok found _ => found
  | .error _ _ => none

/-- The outcome of reading a function is that of reading it on its own, up to the reason of a
failure. No pointer is followed afterwards. -/
inductive Tells (function : NodeId) :
    EStateM.Result Error Reading (Option (String × ConstraintSet)) → Prop where
  | ok {t : Reading} (idle : t.following = []) : Tells function (.ok (m.told? function) t)
  | error {e : Error} {t : Reading} (idle : t.following = []) (silent : m.told? function = none) :
    Tells function (.error e t)

structure Prototyped (function : NodeId) (name : String) (ret : Option NodeId)
    (params : List (Option NodeId)) : Prop where
  known : ∃ f, m.function? function = some f ∧ m.functionName f = name
  recorded : ∃ type, m.prototypes.get? function = some type ∧
    m.types.get? type = some (.function ret params)

variable {m} {function : NodeId}

theorem Prototyped.readFunction {name : String} {ret : Option NodeId}
    {params : List (Option NodeId)}
    (given : m.Prototyped function name ret params) (s : Reading) :
    m.readFunction function s = match m.readPrototype name ret params s with
      | .ok constraints t => .ok (some (name, constraints)) t
      | .error e t => .error e t := by
  obtain ⟨⟨f, known, rfl⟩, type, recorded, prototype⟩ := given
  exact readFunction_eq_readPrototype m recorded known prototype s

private theorem readFunction_of_not_prototyped
    (none : ∀ name ret params, ¬ m.Prototyped function name ret params) (s : Reading) :
    ∃ notices, m.readFunction function s = .ok .none { s with notices := notices } := by
  unfold CodeModule.readFunction
  cases recorded : m.prototypes.get? function with
  | none => exact ⟨s.notices, rfl⟩
  | some type =>
    cases known : m.function? function with
    | none => exact ⟨_, rfl⟩
    | some f =>
      dsimp only
      cases found : m.types.get? type with
      | none => exact ⟨_, rfl⟩
      | some node =>
        cases node with
        | function ret params =>
          exact absurd ⟨⟨f, known, rfl⟩, type, recorded, found⟩ (none _ ret params)
        | _ => exact ⟨_, rfl⟩

theorem told?_of_prototyped {name : String} {ret : Option NodeId} {params : List (Option NodeId)}
    (given : m.Prototyped function name ret params) :
    (∃ set, m.told? function = some (name, set) ∧
      ¬ (m.prototypeReport name ret params).faulty ∧
      ∀ c, c ∈ set ↔ (m.prototypeReport name ret params).finds c) ∨
    m.told? function = none ∧ (m.prototypeReport name ret params).faulty := by
  obtain ⟨outcome, covered, read⟩ := readPrototype_covers m name ret params {} rfl
  rw [told?, given.readFunction, read]
  cases covered with
  | ok kept sound exact sealing =>
    refine .inl ⟨_, rfl, sound, fun c => ?_⟩
    rw [OrdSet.mem_ofList, exact]
  | error kept faulty grown sealing => exact .inr ⟨rfl, faulty⟩

theorem told?_of_not_prototyped
    (none : ∀ name ret params, ¬ m.Prototyped function name ret params) :
    m.told? function = .none := by
  obtain ⟨_, alone⟩ := readFunction_of_not_prototyped none {}
  rw [told?, alone]

/-- A function tells what the walks of its prototype yield, unless one of them comes to a fault. -/
theorem told?_eq_some_iff {name : String} {set : ConstraintSet} :
    m.told? function = some (name, set) ↔ ∃ ret params, m.Prototyped function name ret params ∧
      ¬ (m.prototypeReport name ret params).faulty ∧
      ∀ c, c ∈ set ↔ (m.prototypeReport name ret params).finds c := by
  constructor
  · intro told
    by_cases given : ∃ name ret params, m.Prototyped function name ret params
    · obtain ⟨name', ret, params, given⟩ := given
      rcases told?_of_prototyped given with ⟨set', told', clear, members⟩ | ⟨silent, _⟩
      · obtain ⟨rfl, rfl⟩ := Prod.mk.inj (Option.some.inj (told.symm.trans told'))
        exact ⟨ret, params, given, clear, members⟩
      · rw [silent] at told
        contradiction
    · rw [told?_of_not_prototyped fun name ret params here => given ⟨name, ret, params, here⟩] at told
      contradiction
  · intro described
    obtain ⟨ret, params, given, clear, members⟩ := described
    rcases told?_of_prototyped given with ⟨set', told, _, members'⟩ | ⟨_, faulty⟩
    · have same : set = set' := by
        apply OrdSet.ext_mem
        intro c
        rw [members, members']
      rw [told, same]
    · exact absurd faulty clear

/-- With a prototype, the outcome of reading a function is what the walks say. -/
theorem readFunction_covers (function : NodeId) {s : Reading} (idle : s.following = []) :
    (∃ name ret params outcome, m.Prototyped function name ret params ∧
      Covers s (m.prototypeReport name ret params) outcome ∧
      m.readFunction function s = match outcome with
        | .ok found t => .ok (some (name, OrdSet.ofList found)) t
        | .error e t => .error e t) ∨
    m.told? function = none ∧
      ∃ notices, m.readFunction function s = .ok none { s with notices := notices } := by
  by_cases given : ∃ name ret params, m.Prototyped function name ret params
  · obtain ⟨name, ret, params, given⟩ := given
    obtain ⟨outcome, covered, read⟩ := readPrototype_covers m name ret params s idle
    refine .inl ⟨name, ret, params, outcome, given, covered, ?_⟩
    rw [given.readFunction, read]
    cases outcome <;> rfl
  · have none (name : String) (ret : Option NodeId) (params : List (Option NodeId)) :
        ¬ m.Prototyped function name ret params :=
      fun here => given ⟨name, ret, params, here⟩
    exact .inr ⟨told?_of_not_prototyped none, readFunction_of_not_prototyped none s⟩

theorem readFunction_tells (function : NodeId) {s : Reading} (idle : s.following = []) :
    m.Tells function (m.readFunction function s) := by
  obtain ⟨name, ret, params, outcome, given, covered, read⟩ | ⟨silent, notices, read⟩ :=
    readFunction_covers (m := m) function idle
  · rw [read]
    cases covered with
    | @ok found t kept sound exact sealing =>
      have told : m.told? function = some (name, OrdSet.ofList found) := by
        apply told?_eq_some_iff.mpr
        refine ⟨ret, params, given, sound, fun c => ?_⟩
        rw [OrdSet.mem_ofList, exact]
      dsimp only
      rw [← told]
      exact .ok (kept.trans idle)
    | error kept faulty grown sealing =>
      rcases told?_of_prototyped given with ⟨_, _, clear, _⟩ | ⟨silent, _⟩
      · exact absurd faulty clear
      · exact .error (kept.trans idle) silent
  · rw [read, ← silent]
    exact .ok idle

private theorem readInto_eq {all result : OrdMap String ConstraintSet} {functions : List NodeId}
    {s t : Reading} (idle : s.following = [])
    (read : m.readInto all functions s = .ok result t) :
    result = all.insertAll (functions.filterMap m.told?) := by
  induction functions generalizing all s with
  | nil => exact (EStateM.Result.ok.inj read).1.symm
  | cons function rest ih =>
    have first := readFunction_tells (m := m) function idle
    simp only [readInto] at read
    generalize m.readFunction function s = outcome at first read
    cases first with
    | ok idle =>
      cases told : m.told? function with
      | none =>
        rw [told] at read
        rw [List.filterMap_cons_none told]
        exact ih idle read
      | some entry =>
        rw [told] at read
        rw [List.filterMap_cons_some told]
        exact ih idle read
    | error idle silent =>
      dsimp only at read
      split at read
      next =>
        rw [List.filterMap_cons_none silent]
        apply ih _ read
        exact idle
      next => contradiction

/-- The constraints of a module are those that its functions tell; of those with one name, the last
one counts. -/
theorem readPrototypes_eq {all : OrdMap String ConstraintSet} {s : Reading}
    (read : m.readPrototypes {} = .ok all s) :
    all = OrdMap.ofList (m.prototypes.keys.filterMap m.told?) :=
  readInto_eq rfl read

theorem exists_told? {all : OrdMap String ConstraintSet} {s : Reading} {name : String}
    {set : ConstraintSet} (read : m.readPrototypes {} = .ok all s)
    (given : all.get? name = some set) : ∃ function, m.told? function = some (name, set) := by
  rw [readPrototypes_eq read, OrdMap.get?_ofList_eq] at given
  have listed := OrdMap.mem_valuesAt.mp (List.mem_of_getLast? given)
  obtain ⟨function, _, told⟩ := List.mem_filterMap.mp listed
  exact ⟨function, told⟩

end CodeModule
end TypeRecovery
