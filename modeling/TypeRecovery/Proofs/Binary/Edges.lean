import TypeRecovery.Binary.Facts
import TypeRecovery.Proofs.Ordered
import TypeRecovery.Proofs.Outcomes

/-! What the relations tell of control flow. An edge out of known code is in one of three relations, by
what it leads to: a known block, code outside that a symbol names, or code outside without a name. Each
relation has a row for each of its edges, in the order of the edges. -/
namespace TypeRecovery

/-- What an edge leads to, and so the relation it is in. -/
inductive Destination where
  | block
  | symbol
  | anywhere
deriving DecidableEq

def Destination.relation : Destination → String
  | block => "cfg_edge"
  | symbol => "cfg_edge_to_symbol"
  | anywhere => "cfg_edge_to_top"

def EdgeRows.rowsTo (rows : EdgeRows) : Destination → List (List String)
  | .block => rows.toBlocks
  | .symbol => rows.toSymbols
  | .anywhere => rows.toAnywhere

namespace Binary

def HasCode (b : Binary) (id : NodeId) : Prop := ∃ m ∈ b.modules, m.codeBlocks.contains id

def HasProxy (b : Binary) (id : NodeId) : Prop := ∃ m ∈ b.modules, id ∈ m.proxyBlocks

def HasSymbol (b : Binary) (id : NodeId) : Prop :=
  ∃ m ∈ b.modules, id ∈ m.proxyBlocks ∧ ∃ s ∈ m.symbols, s.referent = some id

/-- The block of the first module that has one of the identifier. -/
def FindsBlock (b : Binary) (id : NodeId) (block : CodeBlock) : Prop :=
  ∃ before m after, b.modules = before ++ m :: after ∧ m.codeBlocks.get? id = some block ∧
    ∀ earlier ∈ before, earlier.codeBlocks.get? id = none

def ownerSymbols (b : Binary) (id : NodeId) : List SymbolEntry :=
  (b.modules.filter fun m => id ∈ m.proxyBlocks).flatMap CodeModule.symbols

/-- The first of the owners' symbols that refers to the proxy block. -/
def FindsSymbol (b : Binary) (id : NodeId) (s : SymbolEntry) : Prop :=
  ∃ before after, b.ownerSymbols id = before ++ s :: after ∧ s.referent = some id ∧
    ∀ earlier ∈ before, earlier.referent ≠ some id

variable {b : Binary} {id : NodeId} {block : CodeBlock} {s : SymbolEntry}

instance : Decidable (b.HasCode id) := inferInstanceAs (Decidable (∃ m ∈ b.modules, _))

instance : Decidable (b.HasProxy id) := inferInstanceAs (Decidable (∃ m ∈ b.modules, _))

instance : Decidable (b.HasSymbol id) := inferInstanceAs (Decidable (∃ m ∈ b.modules, _))

theorem codeBlock?_eq_some_iff : b.codeBlock? id = some block ↔ b.FindsBlock id block :=
  List.findSome?_eq_some_iff

theorem isSome_codeBlock?_iff : (b.codeBlock? id).isSome ↔ b.HasCode id :=
  List.findSome?_isSome_iff

theorem isProxy_iff : b.isProxy id ↔ b.HasProxy id := by
  simp only [isProxy, List.any_eq_true, decide_eq_true_eq, HasProxy]

/-- Looking for a symbol module by module is looking for it in all that the owners have. -/
theorem proxySymbol?_eq_find? :
    b.proxySymbol? id = (b.ownerSymbols id).find? fun s => s.referent = some id := by
  rw [proxySymbol?, ownerSymbols, List.find?_flatMap]
  congr 1
  funext m
  exact List.head?_filter

theorem proxySymbol?_eq_some_iff : b.proxySymbol? id = some s ↔ b.FindsSymbol id s := by
  simp only [proxySymbol?_eq_find?, List.find?_eq_some_iff_append, decide_eq_true_eq,
    Bool.not_eq_true', decide_eq_false_iff_not, FindsSymbol]
  constructor
  · intro given
    obtain ⟨refers, before, after, split, none⟩ := given
    exact ⟨before, after, split, refers, none⟩
  · intro given
    obtain ⟨before, after, split, refers, none⟩ := given
    exact ⟨refers, before, after, split, none⟩

theorem isSome_proxySymbol?_iff : (b.proxySymbol? id).isSome ↔ b.HasSymbol id := by
  simp only [proxySymbol?_eq_find?, List.find?_isSome, ownerSymbols, List.mem_flatMap,
    List.mem_filter, decide_eq_true_eq, HasSymbol]
  constructor
  · intro given
    obtain ⟨s, ⟨m, ⟨listed, owns⟩, inside⟩, refers⟩ := given
    exact ⟨m, listed, owns, s, inside, refers⟩
  · intro given
    obtain ⟨m, listed, owns, s, inside, refers⟩ := given
    exact ⟨s, ⟨m, ⟨listed, owns⟩, inside⟩, refers⟩

end Binary

namespace Edge

/-- The edge goes from a known block to code outside. Known blocks come before proxies. -/
def Leaves (b : Binary) (e : Edge) : Prop :=
  b.HasCode e.source ∧ ¬ b.HasCode e.target ∧ b.HasProxy e.target

def LeadsTo (b : Binary) (e : Edge) : Destination → Prop
  | .block => b.HasCode e.source ∧ b.HasCode e.target
  | .symbol => e.Leaves b ∧ b.HasSymbol e.target
  | .anywhere => e.Leaves b ∧ ¬ b.HasSymbol e.target

instance {b : Binary} {e : Edge} : Decidable (e.Leaves b) := inferInstanceAs (Decidable (_ ∧ _ ∧ _))

instance {b : Binary} {e : Edge} : (d : Destination) → Decidable (e.LeadsTo b d)
  | .block => inferInstanceAs (Decidable (_ ∧ _))
  | .symbol => inferInstanceAs (Decidable (_ ∧ _))
  | .anywhere => inferInstanceAs (Decidable (_ ∧ _))

/-- What a relation says of an edge. -/
inductive Row (b : Binary) (e : Edge) : Destination → List String → Prop where
  | block {source target : CodeBlock} (begins : b.FindsBlock e.source source)
    (ends : b.FindsBlock e.target target) :
    Row b e .block [Nat.repr source.address, Nat.repr target.address, boolText e.conditional,
      boolText (!e.direct), e.kind.name]
  | symbol {source : CodeBlock} {s : SymbolEntry} (begins : b.FindsBlock e.source source)
    (ends : b.FindsSymbol e.target s) :
    Row b e .symbol [Nat.repr source.address, s.name, boolText e.conditional,
      boolText (!e.direct), e.kind.name]
  | anywhere {source : CodeBlock} (begins : b.FindsBlock e.source source) :
    Row b e .anywhere [Nat.repr source.address, boolText e.conditional, boolText (!e.direct),
      e.kind.name]

/-- The row of an edge in a relation, if it has one there. -/
def row? (b : Binary) : Destination → Edge → Option (List String)
  | .block => blockRow? b
  | .symbol => symbolRow? b
  | .anywhere => anywhereRow? b

variable {b : Binary} {e : Edge} {d d' : Destination} {row : List String} {source : CodeBlock}

theorem leadsTo_unique (first : e.LeadsTo b d) (second : e.LeadsTo b d') : d = d' := by
  cases d <;> cases d' <;> simp_all [LeadsTo, Leaves]

theorem exists_leadsTo_iff : (∃ d, e.LeadsTo b d) ↔
    b.HasCode e.source ∧ (b.HasCode e.target ∨ b.HasProxy e.target) := by
  constructor
  · intro given
    obtain ⟨d, leads⟩ := given
    cases d with
    | block => exact ⟨leads.1, .inl leads.2⟩
    | symbol | anywhere => exact ⟨leads.1.1, .inr leads.1.2.2⟩
  · intro given
    obtain ⟨known, reached⟩ := given
    by_cases code : b.HasCode e.target
    · exact ⟨.block, known, code⟩
    · have leaves : e.Leaves b := ⟨known, code, reached.resolve_left code⟩
      by_cases named : b.HasSymbol e.target
      · exact ⟨.symbol, leaves, named⟩
      · exact ⟨.anywhere, leaves, named⟩

theorem isSome_proxySource?_iff : (e.proxySource? b).isSome ↔ e.Leaves b := by
  rw [Leaves, ← Binary.isSome_codeBlock?_iff, ← Binary.isSome_codeBlock?_iff, ← Binary.isProxy_iff,
    proxySource?]
  cases b.codeBlock? e.source <;> simp

private theorem codeBlock?_of_proxySource? (leaves : e.proxySource? b = some source) :
    b.codeBlock? e.source = some source := by
  simp only [proxySource?, bind, Option.bind_eq_some_iff] at leaves
  obtain ⟨source', begins, same⟩ := leaves
  split at same
  · rw [begins, same]
  · contradiction

theorem isSome_row?_iff : (row? b d e).isSome ↔ e.LeadsTo b d := by
  cases d with
  | block =>
    rw [LeadsTo, ← Binary.isSome_codeBlock?_iff, ← Binary.isSome_codeBlock?_iff, row?, blockRow?]
    cases b.codeBlock? e.source <;> cases b.codeBlock? e.target <;> simp
  | symbol =>
    rw [LeadsTo, ← isSome_proxySource?_iff, ← Binary.isSome_proxySymbol?_iff, row?, symbolRow?]
    cases e.proxySource? b <;> cases b.proxySymbol? e.target <;> simp
  | anywhere =>
    rw [LeadsTo, ← isSome_proxySource?_iff, ← Binary.isSome_proxySymbol?_iff, row?, anywhereRow?]
    cases e.proxySource? b <;> cases b.proxySymbol? e.target <;> simp

private theorem row_of_row? (told : row? b d e = some row) : e.Row b d row := by
  cases d with
  | block =>
    simp only [row?, blockRow?, bind, Option.bind_eq_some_iff] at told
    obtain ⟨source, begins, target, ends, same⟩ := told
    obtain rfl := Option.some.inj same
    exact .block (Binary.codeBlock?_eq_some_iff.mp begins) (Binary.codeBlock?_eq_some_iff.mp ends)
  | symbol =>
    simp only [row?, symbolRow?, bind, Option.bind_eq_some_iff] at told
    obtain ⟨source, begins, s, ends, same⟩ := told
    obtain rfl := Option.some.inj same
    exact .symbol (Binary.codeBlock?_eq_some_iff.mp (codeBlock?_of_proxySource? begins))
      (Binary.proxySymbol?_eq_some_iff.mp ends)
  | anywhere =>
    simp only [row?, anywhereRow?, bind, Option.bind_eq_some_iff] at told
    obtain ⟨source, begins, same⟩ := told
    split at same
    · contradiction
    · obtain rfl := Option.some.inj same
      exact .anywhere (Binary.codeBlock?_eq_some_iff.mp (codeBlock?_of_proxySource? begins))

end Edge

namespace Binary
variable {b : Binary} {d : Destination}

private theorem rowsTo_edgeRows (b : Binary) (d : Destination) :
    b.edgeRows.rowsTo d = b.edges.filterMap (Edge.row? b d) := by
  cases d <;> rfl

/-- A relation has the rows of its edges, one for each and in their order. -/
theorem rowsTo_forall₂ (b : Binary) (d : Destination) :
    List.Forall₂ (fun e row => e.Row b d row) (b.edges.filter fun e => e.LeadsTo b d)
      (b.edgeRows.rowsTo d) := by
  have same : (b.edges.filter fun e => e.LeadsTo b d) =
      b.edges.filter fun e => (Edge.row? b d e).isSome := by
    refine List.filter_congr fun e _ => ?_
    rw [Bool.eq_iff_iff, decide_eq_true_eq, Edge.isSome_row?_iff]
  rw [same, rowsTo_edgeRows]
  exact (forall₂_filterMap (Edge.row? b d) b.edges).imp fun e row told => Edge.row_of_row? told

end Binary

namespace Facts
variable {b : Binary} {folder : Folder}

def putEdges (b : Binary) (d : Destination) (folder : Folder) : Folder :=
  folder.insert (fileName d.relation) (Text.encodeRows (b.edgeRows.rowsTo d))

private theorem writeRows_rowsTo (b : Binary) (d : Destination) (folder : Folder) :
    writeRows d.relation (b.edgeRows.rowsTo d) folder = .ok () (putEdges b d folder) := by
  have plain : Place.ofPath folder (fileName d.relation) = .ok (.inside (fileName d.relation)) := by
    cases d <;> rfl
  rw [writeRows, Folder.write, plain, putEdges]

private theorem edges_eq_ok (b : Binary) (folder : Folder) : edges b folder =
    .ok () (putEdges b .symbol (putEdges b .anywhere (putEdges b .block folder))) := by
  have each : edges b = (do
      writeRows Destination.block.relation (b.edgeRows.rowsTo .block)
      writeRows Destination.anywhere.relation (b.edgeRows.rowsTo .anywhere)
      writeRows Destination.symbol.relation (b.edgeRows.rowsTo .symbol)) := rfl
  simp only [each, bind, EStateM.bind, writeRows_rowsTo]

theorem fileName_relation_injective :
    Function.Injective fun d : Destination => fileName d.relation := by
  intro d d'
  cases d <;> cases d' <;> decide

theorem get?_putEdges (b : Binary) (d d' : Destination) (folder : Folder) :
    (putEdges b d folder).get? (fileName d'.relation) =
      if d' = d then some (Text.encodeRows (b.edgeRows.rowsTo d))
      else folder.get? (fileName d'.relation) := by
  rw [putEdges, OrdMap.get?_insert]
  exact if_congr fileName_relation_injective.eq_iff rfl rfl

theorem get?_putEdges_of_ne {d : Destination} {name : String} (other : name ≠ fileName d.relation) :
    (putEdges b d folder).get? name = folder.get? name :=
  OrdMap.get?_insert_of_ne _ _ other

/-- The relations of edges are written whatever the folder holds, and nothing else in it changes. In
each relation the rows stand for the edges that lead to its destination, one row for each edge and in
the order of the edges. An edge from known code to known code or a proxy is in one relation and no
other edge is in any. -/
theorem edges_separate (b : Binary) (folder : Folder) : ∃ after, edges b folder = .ok () after ∧
    (∀ d : Destination, ∃ rows, after.get? (fileName d.relation) = some (Text.encodeRows rows) ∧
      List.Forall₂ (fun e row => e.Row b d row) (b.edges.filter fun e => e.LeadsTo b d) rows) ∧
    (∀ name, (∀ d : Destination, name ≠ fileName d.relation) →
      after.get? name = folder.get? name) ∧
    (∀ e : Edge, (∃ d, e.LeadsTo b d) ↔
      b.HasCode e.source ∧ (b.HasCode e.target ∨ b.HasProxy e.target)) ∧
    ∀ (e : Edge) d d', e.LeadsTo b d → e.LeadsTo b d' → d = d' := by
  refine ⟨_, edges_eq_ok b folder, ?_, ?_, fun e => Edge.exists_leadsTo_iff,
    fun e d d' first second => Edge.leadsTo_unique first second⟩
  · intro d
    refine ⟨b.edgeRows.rowsTo d, ?_, Binary.rowsTo_forall₂ b d⟩
    rw [get?_putEdges, get?_putEdges, get?_putEdges]
    cases d <;> rfl
  · intro name other
    rw [get?_putEdges_of_ne (other _), get?_putEdges_of_ne (other _), get?_putEdges_of_ne (other _)]

end Facts
end TypeRecovery
