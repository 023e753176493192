import TypeRecovery.Binary.CallGraph
import TypeRecovery.Proofs.Graph

/-! What the call graph tells of a binary. Every function has an entry, and every entry stands for a
call from a block of the one function to a block of the other. But a block speaks for one function
only, the last that has it: a call from or to a block that functions share is missing at the
others. -/
namespace TypeRecovery

namespace Graph
variable {α : Type} [Ord α] [Std.TransOrd α] [Std.LawfulEqOrd α] [DecidableEq α]
variable {g : Graph α} {edges : List (α × α)} {a b : α}

private theorem foldl_addEdge_edge :
    (edges.foldl (fun g edge => g.addEdge edge.1 edge.2) g).Edge a b ↔
    (a, b) ∈ edges ∨ g.Edge a b := by
  rw [edge_iff, edge_iff]
  exact OrdMap.holds_putAll

theorem foldl_addEdge_contains :
    (edges.foldl (fun g edge => g.addEdge edge.1 edge.2) g).contains a ↔
    (∃ b, (a, b) ∈ edges) ∨ g.contains a :=
  OrdMap.contains_putAll

end Graph

namespace Binary
variable {b : Binary} {name caller callee : String} {block source target : NodeId}

def HasBlock (b : Binary) (name : String) (block : NodeId) : Prop :=
  ∃ m ∈ b.modules, ∃ f ∈ m.functions, m.functionName f = name ∧ block ∈ f.blocks

/-- The last function that has the block is of the name. -/
def OwnsBlock (b : Binary) (name : String) (block : NodeId) : Prop :=
  ∃ before f after, b.namedFunctions = before ++ (name, f) :: after ∧ block ∈ f.blocks ∧
    ∀ later ∈ after, block ∉ later.2.blocks

/-- There is a call from block to block, and neither stands for code outside. -/
def CallsBlock (b : Binary) (source target : NodeId) : Prop :=
  ∃ e ∈ b.edges, e.kind = .call ∧ e.source = source ∧ e.target = target ∧
    ¬ b.isProxy source ∧ ¬ b.isProxy target

theorem mem_namedFunctions {f : Routine} : (name, f) ∈ b.namedFunctions ↔
    ∃ m ∈ b.modules, f ∈ m.functions ∧ m.functionName f = name := by
  simp only [namedFunctions, List.mem_flatMap, List.mem_map, Prod.mk.injEq]
  constructor
  · intro given
    obtain ⟨m, listed, f, inside, named, rfl⟩ := given
    exact ⟨m, listed, inside, named⟩
  · intro given
    obtain ⟨m, listed, inside, named⟩ := given
    exact ⟨m, listed, f, inside, named, rfl⟩

theorem hasBlock_iff : b.HasBlock name block ↔
    ∃ f, (name, f) ∈ b.namedFunctions ∧ block ∈ f.blocks := by
  simp only [mem_namedFunctions]
  constructor
  · intro given
    obtain ⟨m, listed, f, inside, named, holds⟩ := given
    exact ⟨f, ⟨m, listed, inside, named⟩, holds⟩
  · intro given
    obtain ⟨f, ⟨m, listed, inside, named⟩, holds⟩ := given
    exact ⟨m, listed, f, inside, named, holds⟩

theorem ownerName?_eq_some_iff : b.ownerName? block = some name ↔ b.OwnsBlock name block := by
  simp only [ownerName?, Option.map_eq_some_iff, List.find?_eq_some_iff_append, decide_eq_true_eq,
    Bool.not_eq_true', decide_eq_false_iff_not, List.reverse_eq_append_iff, List.reverse_cons,
    List.append_assoc, List.singleton_append]
  constructor
  · intro given
    obtain ⟨⟨_, f⟩, ⟨holds, later, before, split, none⟩, rfl⟩ := given
    refine ⟨before.reverse, f, later.reverse, split, holds, fun entry inside => ?_⟩
    exact none entry (List.mem_reverse.mp inside)
  · intro given
    obtain ⟨before, f, after, split, holds, none⟩ := given
    refine ⟨(name, f), ⟨holds, after.reverse, before.reverse, ?_, fun entry inside => ?_⟩, rfl⟩
    · rw [split, List.reverse_reverse, List.reverse_reverse]
    · exact none entry (List.mem_reverse.mp inside)

private theorem OwnsBlock.hasBlock (owns : b.OwnsBlock name block) : b.HasBlock name block := by
  obtain ⟨before, f, after, split, holds, _⟩ := owns
  exact hasBlock_iff.mpr ⟨f, by simp [split], holds⟩

private theorem HasBlock.exists_ownsBlock (given : b.HasBlock name block) :
    ∃ owner, b.OwnsBlock owner block := by
  obtain ⟨f, listed, holds⟩ := hasBlock_iff.mp given
  cases found : b.ownerName? block with
  | some owner => exact ⟨owner, ownerName?_eq_some_iff.mp found⟩
  | none =>
    rw [ownerName?, Option.map_eq_none_iff, List.find?_eq_none] at found
    exact absurd (decide_eq_true holds) (found (name, f) (List.mem_reverse.mpr listed))

theorem mem_callPairs : (caller, callee) ∈ b.calls.filterMap b.callPair? ↔
    ∃ source target, b.CallsBlock source target ∧ b.OwnsBlock caller source ∧
      b.OwnsBlock callee target := by
  have pair (e : Edge) : b.callPair? e = some (caller, callee) ↔
      b.OwnsBlock caller e.source ∧ b.OwnsBlock callee e.target := by
    rw [← ownerName?_eq_some_iff, ← ownerName?_eq_some_iff, callPair?]
    cases b.ownerName? e.source <;> cases b.ownerName? e.target <;> simp
  simp only [List.mem_filterMap, pair, calls, List.mem_filter, Bool.and_eq_true, decide_eq_true_eq,
    Bool.not_eq_true', ← Bool.not_eq_true]
  constructor
  · intro given
    obtain ⟨e, ⟨listed, ⟨kind, inner⟩, inner'⟩, owners⟩ := given
    exact ⟨e.source, e.target, ⟨e, listed, kind, rfl, rfl, inner, inner'⟩, owners⟩
  · intro given
    obtain ⟨_, _, ⟨e, listed, kind, rfl, rfl, inner, inner'⟩, owners⟩ := given
    exact ⟨e, ⟨listed, ⟨kind, inner⟩, inner'⟩, owners⟩

/-- Before calls are added, every function has an entry and none of them calls another. -/
def blankCalls (b : Binary) : CallGraph :=
  OrdMap.ofList (b.namedFunctions.map fun entry => (entry.1, ∅))

theorem blankCalls_contains : b.blankCalls.contains name ↔ ∃ f, (name, f) ∈ b.namedFunctions := by
  rw [OrdMap.contains, blankCalls, OrdMap.get?_ofList_eq, List.getLast?_isSome, Ne,
    List.eq_nil_iff_forall_not_mem]
  simp [OrdMap.mem_valuesAt]

private theorem not_blankCalls_edge : ¬ b.blankCalls.Edge caller callee := by
  rw [Graph.edge_iff]
  intro given
  obtain ⟨callees, found, inside⟩ := given
  rw [blankCalls, OrdMap.get?_ofList_eq] at found
  have listed := OrdMap.mem_valuesAt.mp (List.mem_of_getLast? found)
  obtain ⟨_, _, same⟩ := List.mem_map.mp listed
  rw [← (Prod.mk.inj same).2] at inside
  exact OrdSet.not_mem_empty inside

theorem callGraph_edge_iff : b.callGraph.Edge caller callee ↔
    ∃ source target, b.CallsBlock source target ∧ b.OwnsBlock caller source ∧
      b.OwnsBlock callee target := by
  rw [← mem_callPairs]
  exact Graph.foldl_addEdge_edge.trans (or_iff_left not_blankCalls_edge)

theorem callGraph_contains_iff : b.callGraph.contains name ↔
    ∃ m ∈ b.modules, ∃ f ∈ m.functions, m.functionName f = name := by
  have known : b.callGraph.contains name ↔ ∃ f, (name, f) ∈ b.namedFunctions := by
    refine Graph.foldl_addEdge_contains.trans (Iff.trans (or_iff_right_of_imp ?_) blankCalls_contains)
    intro given
    obtain ⟨callee, listed⟩ := given
    obtain ⟨_, _, _, owns, _⟩ := mem_callPairs.mp listed
    obtain ⟨f, inside, _⟩ := hasBlock_iff.mp owns.hasBlock
    exact blankCalls_contains.mpr ⟨f, inside⟩
  rw [known]
  simp only [mem_namedFunctions]
  constructor
  · intro given
    obtain ⟨f, m, listed, inside, named⟩ := given
    exact ⟨m, listed, f, inside, named⟩
  · intro given
    obtain ⟨m, listed, f, inside, named⟩ := given
    exact ⟨f, m, listed, inside, named⟩

theorem OwnsBlock.of_single
    (single : ∀ name other block, b.HasBlock name block → b.HasBlock other block → name = other)
    (given : b.HasBlock name block) : b.OwnsBlock name block := by
  obtain ⟨owner, owns⟩ := given.exists_ownsBlock
  rwa [single name owner block given owns.hasBlock]

/-- The call graph has an entry for just the names of functions. Calls are entered between the last
functions that have their blocks, so what is entered is a call between functions of these names, and
all such calls are entered where no two functions of different names share a block. -/
theorem callGraph_tells (b : Binary) :
    (∀ name, b.callGraph.contains name ↔
      ∃ m ∈ b.modules, ∃ f ∈ m.functions, m.functionName f = name) ∧
    (∀ caller callee, b.callGraph.Edge caller callee ↔
      ∃ source target, b.CallsBlock source target ∧ b.OwnsBlock caller source ∧
        b.OwnsBlock callee target) ∧
    (∀ caller callee, b.callGraph.Edge caller callee →
      ∃ source target, b.CallsBlock source target ∧ b.HasBlock caller source ∧
        b.HasBlock callee target) ∧
    ((∀ name other block, b.HasBlock name block → b.HasBlock other block → name = other) →
      ∀ caller callee, b.callGraph.Edge caller callee ↔
        ∃ source target, b.CallsBlock source target ∧ b.HasBlock caller source ∧
          b.HasBlock callee target) := by
  have sound (caller callee : String) (edge : b.callGraph.Edge caller callee) :
      ∃ source target, b.CallsBlock source target ∧ b.HasBlock caller source ∧
        b.HasBlock callee target := by
    obtain ⟨source, target, calls, owner, owner'⟩ := callGraph_edge_iff.mp edge
    exact ⟨source, target, calls, owner.hasBlock, owner'.hasBlock⟩
  refine ⟨fun _ => callGraph_contains_iff, fun _ _ => callGraph_edge_iff, sound, ?_⟩
  intro single caller callee
  refine ⟨sound caller callee, fun given => ?_⟩
  obtain ⟨source, target, calls, has, has'⟩ := given
  exact callGraph_edge_iff.mpr ⟨source, target, calls, .of_single single has, .of_single single has'⟩

/-- Two functions that end in the same block, from which a third one is called. -/
def sharedTail : Binary where
  modules := [{
    name := "m"
    isa := .x64
    functions := [⟨⟨5⟩, ["f"], ∅, OrdSet.ofList [⟨1⟩, ⟨3⟩]⟩, ⟨⟨6⟩, ["g"], ∅, OrdSet.ofList [⟨2⟩, ⟨3⟩]⟩,
      ⟨⟨7⟩, ["h"], ∅, OrdSet.ofList [⟨4⟩]⟩] }]
  edges := [⟨⟨3⟩, ⟨4⟩, .call, false, true⟩]

/-- The call is entered for the second function only. -/
theorem callGraph_misses_call : sharedTail.HasBlock "f" ⟨3⟩ ∧ sharedTail.HasBlock "h" ⟨4⟩ ∧
    sharedTail.CallsBlock ⟨3⟩ ⟨4⟩ ∧ ¬ sharedTail.callGraph.Edge "f" "h" ∧
    sharedTail.callGraph.Edge "g" "h" := by
  refine ⟨?_, ?_, ?_, ?_, ?_⟩
  · exact ⟨_, List.mem_singleton_self _, ⟨⟨5⟩, ["f"], ∅, OrdSet.ofList [⟨1⟩, ⟨3⟩]⟩, by decide⟩
  · exact ⟨_, List.mem_singleton_self _, ⟨⟨7⟩, ["h"], ∅, OrdSet.ofList [⟨4⟩]⟩, by decide⟩
  · exact ⟨_, List.mem_singleton_self _, by decide⟩
  · show "h" ∉ sharedTail.callGraph.next "f"
    decide +kernel
  · show "h" ∈ sharedTail.callGraph.next "g"
    decide +kernel

end Binary
end TypeRecovery
