import Mathlib.Data.List.Forall2
import Mathlib.Logic.Function.Iterate
import TypeRecovery.Proofs.Sketch.Layouts
import TypeRecovery.Sketch.Drawing

/-! Drawings of sketches. A walk with a queue numbers each node when it enters it and needs no
record of what it has met, since a node has one parent and lies deeper than it. The walk ends, and
draws the part of the sketch that hangs together below its root, level by level. -/
namespace TypeRecovery
namespace Sketch
variable {s : Sketch} {v w root : TypeVar} {label : Label} {frontier : List TypeVar} {depth : Nat}

/-- A node that extends `root` such that all between the two are nodes as well. -/
structure Hangs (s : Sketch) (root v : TypeVar) : Prop where
  base : v.base = root.base
  below : root.path <+: v.path
  whole : ∀ path, root.path <+: path → path <+: v.path → s.nodes.contains ⟨root.base, path⟩

theorem hangs_iff (node : s.nodes.contains root) : s.Hangs root v ↔
    v = root ∨ ∃ label, s.nodes.contains (root.extend label) ∧ s.Hangs (root.extend label) v := by
  constructor
  · intro hangs
    obtain ⟨rest, path⟩ := hangs.below
    cases rest with
    | nil =>
      left
      rw [List.append_nil] at path
      cases v
      cases root
      exact congrArg₂ TypeVar.mk hangs.base path.symm
    | cons label rest =>
      right
      have under : (root.extend label).path <+: v.path := by
        rw [← path]
        exact ⟨rest, by simp [TypeVar.extend]⟩
      refine ⟨label, hangs.whole _ (List.prefix_append _ _) under, hangs.base, under, ?_⟩
      intro path above
      exact hangs.whole path ((List.prefix_append _ _).trans above)
  · rintro (rfl | ⟨label, there, hangs⟩)
    · refine ⟨rfl, List.prefix_rfl, ?_⟩
      intro path above under
      rw [← List.IsPrefix.eq_of_length_le above under.length_le]
      exact node
    · refine ⟨hangs.base, (List.prefix_append _ _).trans hangs.below, ?_⟩
      intro path above under
      by_cases short : path.length ≤ root.path.length
      · rw [← List.IsPrefix.eq_of_length_le above short]
        exact node
      · refine hangs.whole path (List.prefix_of_prefix_length_le hangs.below under ?_) under
        simp only [TypeVar.extend, List.length_append, List.length_singleton]
        omega

def beneath (s : Sketch) (frontier : List TypeVar) : List TypeVar :=
  frontier.flatMap fun v => (s.children v).map Prod.snd

theorem mem_beneath : w ∈ s.beneath frontier ↔
    ∃ v ∈ frontier, ∃ label, s.nodes.contains (v.extend label) ∧ w = v.extend label := by
  simp only [beneath, List.mem_flatMap, List.mem_map, Prod.exists, exists_eq_right, mem_children,
    mem_nodes_iff]
  constructor
  · rintro ⟨v, listed, label, there, rfl⟩
    exact ⟨v, listed, label, there, rfl⟩
  · rintro ⟨v, listed, label, there, rfl⟩
    exact ⟨v, listed, label, there, rfl⟩

private theorem levels_succ : s.levels (depth + 1) frontier =
    frontier ++ s.levels depth (s.beneath frontier) := rfl

/-- The frontier consists of nodes, and so many levels are enough for all that hangs below it. -/
def Roomy (s : Sketch) (depth : Nat) (frontier : List TypeVar) : Prop :=
  ∀ u ∈ frontier, s.nodes.contains u ∧ s.room u ≤ depth

private theorem roomy_singleton (node : s.nodes.contains root) : s.Roomy s.nodes.size [root] := by
  intro u listed
  obtain rfl := List.mem_singleton.mp listed
  exact ⟨node, room_le_size s u⟩

private theorem Roomy.eq_nil (roomy : s.Roomy 0 frontier) : frontier = [] := by
  rw [List.eq_nil_iff_forall_not_mem]
  intro u listed
  obtain ⟨node, none⟩ := roomy u listed
  exact absurd none (Nat.not_le.mpr (room_pos (mem_nodes_iff.mpr node)))

private theorem Roomy.beneath (roomy : s.Roomy (depth + 1) frontier) :
    s.Roomy depth (s.beneath frontier) := by
  intro w listed
  obtain ⟨u, above, label, there, rfl⟩ := mem_beneath.mp listed
  obtain ⟨node, enough⟩ := roomy u above
  refine ⟨there, Nat.le_of_lt_succ (Nat.lt_of_lt_of_le ?_ enough)⟩
  apply room_lt (mem_nodes_iff.mpr node)
  simp [TypeVar.extend]

theorem mem_levels (roomy : s.Roomy depth frontier) :
    v ∈ s.levels depth frontier ↔ ∃ u ∈ frontier, s.Hangs u v := by
  induction depth generalizing frontier with
  | zero => simp [levels, roomy.eq_nil]
  | succ depth ih =>
    rw [levels_succ, List.mem_append, ih roomy.beneath]
    constructor
    · rintro (listed | ⟨w, listed, hangs⟩)
      · exact ⟨v, listed, (hangs_iff (roomy v listed).1).mpr (.inl rfl)⟩
      · obtain ⟨u, above, label, there, rfl⟩ := mem_beneath.mp listed
        exact ⟨u, above, (hangs_iff (roomy u above).1).mpr (.inr ⟨label, there, hangs⟩)⟩
    · rintro ⟨u, listed, hangs⟩
      rcases (hangs_iff (roomy u listed).1).mp hangs with rfl | ⟨label, there, hangs⟩
      · exact .inl listed
      · exact .inr ⟨_, mem_beneath.mpr ⟨u, listed, label, there, rfl⟩, hangs⟩

theorem nodup_children (s : Sketch) (v : TypeVar) : ((s.children v).map Prod.snd).Nodup := by
  have kept : (s.children v).map Prod.snd = s.nodes.keys.filter fun w => (step? v w).isSome := by
    rw [children, List.map_filterMap, ← List.filterMap_eq_filter]
    apply List.filterMap_congr
    intro w _
    cases found : step? v w with
    | none => simp [Option.guard, found]
    | some label => simp [Option.guard, found]
  rw [kept]
  exact (OrdMap.nodup_keys s.nodes).filter _

theorem nodup_beneath (distinct : frontier.Nodup) : (s.beneath frontier).Nodup := by
  rw [beneath, List.nodup_flatMap]
  refine ⟨fun v _ => nodup_children s v, distinct.imp ?_⟩
  -- The parent of a node is told by the node.
  intro u v apart w first second
  obtain ⟨⟨a, _⟩, above, rfl⟩ := List.mem_map.mp first
  obtain ⟨⟨b, _⟩, beside, same⟩ := List.mem_map.mp second
  obtain ⟨_, rfl⟩ := mem_children.mp above
  obtain ⟨_, rfl⟩ := mem_children.mp beside
  obtain ⟨base, path⟩ := TypeVar.mk.inj same
  apply apart
  obtain ⟨paths, -⟩ := List.append_inj' path rfl
  cases u
  cases v
  exact congrArg₂ TypeVar.mk base.symm paths.symm

theorem nodup_levels {length : Nat} (distinct : frontier.Nodup)
    (even : ∀ v ∈ frontier, v.path.length = length) :
    (s.levels depth frontier).Nodup ∧ ∀ v ∈ s.levels depth frontier, length ≤ v.path.length := by
  induction depth generalizing frontier length with
  | zero => exact ⟨List.nodup_nil, by simp [levels]⟩
  | succ depth ih =>
    have deeper : ∀ w ∈ s.beneath frontier, w.path.length = length + 1 := by
      intro w listed
      obtain ⟨v, above, label, _, rfl⟩ := mem_beneath.mp listed
      simp [TypeVar.extend, even v above]
    obtain ⟨distinct', far⟩ := ih (nodup_beneath distinct) deeper
    rw [levels_succ]
    constructor
    · refine List.nodup_append.mpr ⟨distinct, distinct', ?_⟩
      rintro v here w there rfl
      have := even v here
      have := far v there
      omega
    · intro v listed
      rcases List.mem_append.mp listed with here | there
      · exact Nat.le_of_eq (even v here).symm
      · exact Nat.le_of_succ_le (far v there)

/-- What a walk has drawn so far, and what it still has to follow, with its number. -/
structure Tour where
  drawn : List TypeVar
  edges : List (Nat × Nat × Label)
  queue : List (Nat × TypeVar)

namespace Tour

def start (root : TypeVar) : Tour := ⟨[root], [], [(0, root)]⟩

/-- Draws a node below the `i`-th one and queues it under its own number. -/
def enter (i : Nat) (t : Tour) (child : Label × TypeVar) : Tour where
  drawn := t.drawn ++ [child.2]
  edges := t.edges ++ [(i, t.drawn.length, child.1)]
  queue := t.queue ++ [(t.drawn.length, child.2)]

def step (s : Sketch) (t : Tour) : Tour :=
  match t.queue with
  | [] => t
  | (i, v) :: queue => (s.children v).foldl (enter i) { t with queue }

variable {t : Tour} {i : Nat} {queue : List (Nat × TypeVar)}

private theorem foldl_enter_drawn (children : List (Label × TypeVar)) :
    (children.foldl (enter i) t).drawn = t.drawn ++ children.map Prod.snd := by
  induction children generalizing t with
  | nil => simp
  | cons child rest ih => simp [ih, enter]

private theorem foldl_enter_queue (children : List (Label × TypeVar)) :
    (children.foldl (enter i) t).queue.map Prod.snd = t.queue.map Prod.snd ++ children.map Prod.snd := by
  induction children generalizing t with
  | nil => simp
  | cons child rest ih => simp [ih, enter]

/-- A walk through a whole frontier draws the next one and queues it behind the rest. -/
theorem step_frontier {rest : List TypeVar} (queued : t.queue.map Prod.snd = frontier ++ rest) :
    ((step s)^[frontier.length] t).drawn = t.drawn ++ s.beneath frontier ∧
      ((step s)^[frontier.length] t).queue.map Prod.snd = rest ++ s.beneath frontier := by
  induction frontier generalizing t rest with
  | nil => simpa [beneath] using queued
  | cons v frontier ih =>
    rw [List.cons_append] at queued
    obtain ⟨⟨i, u⟩, queue, here, rfl, later⟩ := List.map_eq_cons_iff.mp queued
    have first : step s t = (s.children u).foldl (enter i) { t with queue } := by
      rw [step, here]
    have drawn : (step s t).drawn = t.drawn ++ (s.children u).map Prod.snd := by
      rw [first, foldl_enter_drawn]
    have next : (step s t).queue.map Prod.snd =
        frontier ++ (rest ++ (s.children u).map Prod.snd) := by
      rw [first, foldl_enter_queue, later, List.append_assoc]
    obtain ⟨order, queue⟩ := ih next
    rw [List.length_cons, Function.iterate_succ_apply, order, queue, drawn]
    simp [beneath]

theorem step_levels {before : List TypeVar} (drawn : t.drawn = before ++ frontier)
    (queued : t.queue.map Prod.snd = frontier) (roomy : s.Roomy depth frontier) :
    ((step s)^[(s.levels depth frontier).length] t).drawn = before ++ s.levels depth frontier ∧
      ((step s)^[(s.levels depth frontier).length] t).queue = [] := by
  induction depth generalizing t before frontier with
  | zero =>
    obtain rfl := roomy.eq_nil
    exact ⟨drawn, List.map_eq_nil_iff.mp queued⟩
  | succ depth ih =>
    have whole : t.queue.map Prod.snd = frontier ++ [] := by rw [queued, List.append_nil]
    have next := step_frontier (s := s) whole
    rw [drawn, List.nil_append] at next
    obtain ⟨order, rest⟩ := ih next.1 next.2 roomy.beneath
    rw [levels_succ, List.length_append, Nat.add_comm, Function.iterate_add_apply, order, rest,
      List.append_assoc]
    exact ⟨rfl, rfl⟩

/-- The edge leads to the entry from an earlier node, of which it is an extension by the label. -/
def Joins (drawn : List TypeVar) (edge : Nat × Nat × Label) (entry : TypeVar × Nat) : Prop :=
  edge.2.1 = entry.2 ∧ edge.1 < entry.2 ∧
    ∃ v, drawn[edge.1]? = some v ∧ entry.1 = v.extend edge.2.2

/-- What is queued is drawn under its number, and just one edge leads to each node but the first. -/
structure Sound (t : Tour) : Prop where
  begun : t.drawn ≠ []
  numbered : ∀ entry ∈ t.queue, t.drawn[entry.1]? = some entry.2
  joined : List.Forall₂ (Joins t.drawn) t.edges (t.drawn.zipIdx.drop 1)

private theorem sound_start (root : TypeVar) : (start root).Sound where
  begun := by simp [start]
  numbered := by simp [start]
  joined := by simp [start]

private theorem enter_keeps {child : Label × TypeVar} {k : Nat} (found : t.drawn[k]? = some w) :
    (t.enter i child).drawn[k]? = some w := by
  rw [enter, List.getElem?_append_left (List.getElem?_eq_some_iff.mp found).1, found]

theorem Sound.enter {child : Label × TypeVar} (sound : t.Sound) (known : t.drawn[i]? = some v)
    (below : child.2 = v.extend child.1) : (t.enter i child).Sound := by
  refine ⟨by simp [Tour.enter], ?_, ?_⟩
  · intro entry listed
    rcases List.mem_append.mp listed with old | new
    · exact enter_keeps (sound.numbered entry old)
    · obtain rfl := List.mem_singleton.mp new
      simp [Tour.enter]
  · have bound : i < t.drawn.length := (List.getElem?_eq_some_iff.mp known).1
    have entries : (t.drawn ++ [child.2]).zipIdx.drop 1 =
        t.drawn.zipIdx.drop 1 ++ [(child.2, t.drawn.length)] := by
      rw [List.zipIdx_append, List.drop_append_of_le_length]
      · simp
      · simpa [Nat.one_le_iff_ne_zero] using sound.begun
    rw [Tour.enter, entries]
    apply List.rel_append
    · apply sound.joined.imp
      rintro edge entry ⟨target, earlier, w, found, extended⟩
      exact ⟨target, earlier, w, enter_keeps found, extended⟩
    · exact .cons ⟨rfl, bound, v, enter_keeps known, below⟩ .nil

private theorem Sound.enterAll {children : List (Label × TypeVar)} (sound : t.Sound)
    (known : t.drawn[i]? = some v) (below : ∀ child ∈ children, child.2 = v.extend child.1) :
    (children.foldl (Tour.enter i) t).Sound := by
  induction children generalizing t with
  | nil => exact sound
  | cons child rest ih =>
    obtain ⟨first, later⟩ := List.forall_mem_cons.mp below
    exact ih (sound.enter known first) (enter_keeps known) later

theorem Sound.step (sound : t.Sound) : (t.step s).Sound := by
  unfold Tour.step
  split
  next => exact sound
  next i v queue here =>
    have known : t.drawn[i]? = some v := sound.numbered (i, v) (here ▸ List.mem_cons_self)
    have taken : Sound { t with queue } :=
      ⟨sound.begun, fun entry listed => sound.numbered entry (here ▸ List.mem_cons_of_mem _ listed),
        sound.joined⟩
    exact taken.enterAll known fun child listed => (mem_children.mp listed).2

theorem Sound.steps (sound : t.Sound) (n : Nat) : ((Tour.step s)^[n] t).Sound := by
  induction n generalizing t with
  | zero => exact sound
  | succ n ih => exact ih sound.step

end Tour

/-- A drawing of what hangs below a root: each node once, the root first, and to every other node one
edge from the node that it extends, which comes before it. -/
structure Draws (s : Sketch) (root : TypeVar) (order : List TypeVar)
    (edges : List (Nat × Nat × Label)) : Prop where
  distinct : order.Nodup
  members : ∀ v, v ∈ order ↔ s.Hangs root v
  first : order.head? = some root
  targets : edges.map (fun edge => edge.2.1) = (List.range order.length).drop 1
  joined : ∀ i j label, (i, j, label) ∈ edges → i < j ∧ ∃ v w, order[i]? = some v ∧
    order[j]? = some w ∧ w.parent? = some v ∧ w.lastLabel? = some label

private theorem parent?_extend (v : TypeVar) (label : Label) :
    (v.extend label).parent? = some v := by
  simp [TypeVar.parent?, TypeVar.extend]

private theorem lastLabel?_extend (v : TypeVar) (label : Label) :
    (v.extend label).lastLabel? = some label := by
  simp [TypeVar.lastLabel?, TypeVar.extend]

private theorem edgeInto?_of_joins {order : List TypeVar} {edge : Nat × Nat × Label}
    {entry : TypeVar × Nat}
    (distinct : order.Nodup) (joins : Tour.Joins order edge entry) :
    edgeInto? order entry.2 entry.1 = some (edge.1, edge.2.1, edge.2.2.text) := by
  obtain ⟨target, _, v, found, extended⟩ := joins
  have place : order.findIdx? (· = v) = some edge.1 := by
    obtain ⟨bound, here⟩ := List.getElem?_eq_some_iff.mp found
    refine List.findIdx?_eq_some_iff_getElem.mpr ⟨bound, decide_eq_true here, ?_⟩
    intro k earlier again
    have same := distinct.getElem_inj_iff.mp ((of_decide_eq_true again).trans here.symm)
    omega
  rw [edgeInto?, extended, parent?_extend, lastLabel?_extend]
  simp [place, target]

variable {order : List TypeVar} {edges : List (Nat × Nat × Label)}

private theorem filterMap_edgeInto? {entries : List (TypeVar × Nat)} (distinct : order.Nodup)
    (joined : List.Forall₂ (Tour.Joins order) edges entries) :
    entries.filterMap (fun entry => edgeInto? order entry.2 entry.1) =
      edges.map fun edge => (edge.1, edge.2.1, edge.2.2.text) := by
  induction joined with
  | nil => rfl
  | @cons _ entry _ _ here _ ih =>
    have first := edgeInto?_of_joins distinct here
    rw [List.filterMap_cons_some (a := entry) first, ih, List.map_cons]

private theorem drawing_eq (distinct : order.Nodup)
    (joined : List.Forall₂ (Tour.Joins order) edges (order.zipIdx.drop 1)) :
    s.drawing order =
      ⟨order.map s.nodeLabel, edges.map fun edge => (edge.1, edge.2.1, edge.2.2.text)⟩ := by
  rw [drawing, filterMap_edgeInto? distinct joined]

private theorem targets_of_joined
    (joined : List.Forall₂ (Tour.Joins order) edges (order.zipIdx.drop 1)) :
    edges.map (fun edge => edge.2.1) = (List.range order.length).drop 1 := by
  have same : List.Forall₂ Eq (edges.map fun edge => edge.2.1) ((order.zipIdx.drop 1).map Prod.snd) := by
    rw [List.forall₂_map_left_iff, List.forall₂_map_right_iff]
    exact joined.imp fun edge entry joins => joins.1
  rw [List.forall₂_eq_eq_eq, List.map_drop, List.zipIdx_map_snd] at same
  rw [same, List.range_eq_range']

private theorem exists_joins {entries : List (TypeVar × Nat)} {edge : Nat × Nat × Label}
    (joined : List.Forall₂ (Tour.Joins order) edges entries) (listed : edge ∈ edges) :
    ∃ entry ∈ entries, Tour.Joins order edge entry := by
  induction joined with
  | nil => contradiction
  | @cons _ entry _ _ here _ ih =>
    rcases List.mem_cons.mp listed with rfl | later
    · exact ⟨entry, List.mem_cons_self, here⟩
    · obtain ⟨other, inside, joins⟩ := ih later
      exact ⟨other, List.mem_cons_of_mem entry inside, joins⟩

private theorem head?_levels (node : s.nodes.contains root) :
    (s.levels s.nodes.size [root]).head? = some root := by
  have some_node := Nat.lt_of_lt_of_le (room_pos (mem_nodes_iff.mpr node)) (room_le_size s root)
  obtain ⟨depth, size⟩ := Nat.exists_eq_succ_of_ne_zero (Nat.ne_of_gt some_node)
  rw [size, levels_succ]
  rfl

/-- Below a node, the walk ends when it has followed as many nodes as it has drawn, and what it has
drawn is what the sketch is drawn as. Below anything else there is no drawing. -/
theorem draw_eq_tour (s : Sketch) (root : TypeVar) :
    (s.nodes.contains root → ∃ t : Tour, (Tour.step s)^[t.drawn.length] (.start root) = t ∧
      t.queue = [] ∧ s.Draws root t.drawn t.edges ∧ s.draw root = .ok ⟨t.drawn.map s.nodeLabel,
        t.edges.map fun edge => (edge.1, edge.2.1, edge.2.2.text)⟩) ∧
    (¬ s.nodes.contains root → s.draw root = .error (.cannotDraw root.text)) := by
  constructor
  · intro node
    have roomy := roomy_singleton node
    have begun : (Tour.start root).drawn = [] ++ [root] := rfl
    obtain ⟨drawn, ended⟩ := Tour.step_levels begun rfl roomy
    rw [List.nil_append] at drawn
    have sound := (Tour.sound_start root).steps (s := s) (s.levels s.nodes.size [root]).length
    generalize last : (Tour.step s)^[(s.levels s.nodes.size [root]).length] (.start root) = t at *
    have distinct : (s.levels s.nodes.size [root]).Nodup :=
      (nodup_levels (List.nodup_singleton root) (List.forall_mem_singleton.mpr rfl)).1
    rw [← drawn] at distinct last
    refine ⟨t, last, ended, ⟨distinct, ?_, ?_, targets_of_joined sound.joined, ?_⟩, ?_⟩
    · intro v
      rw [drawn, mem_levels roomy]
      simp
    · rw [drawn]
      exact head?_levels node
    · intro i j label listed
      obtain ⟨⟨w, _⟩, inside, rfl, earlier, v, found, rfl⟩ := exists_joins sound.joined listed
      have there := List.mem_zipIdx_iff_getElem?.mp (List.mem_of_mem_drop inside)
      exact ⟨earlier, v, _, found, there, parent?_extend v label, lastLabel?_extend v label⟩
    · obtain ⟨bounds, known⟩ := (OrdMap.contains_iff _ _).mp node
      rw [draw, get?, known]
      dsimp only
      rw [subtree, ← drawn, drawing_eq distinct sound.joined]
  · intro absent
    have unknown : s.nodes.get? root = none := by
      simpa [OrdMap.contains] using absent
    rw [draw, get?, unknown]

/-- An argument that is loaded from, a result, and a variable below an argument that is no node. -/
def gapped : Sketch :=
  [[], [.input 0], [.input 0, .load], [.input 0, .load, .deref 4 0], [.input 1, .load], [.output]].foldl
    (fun s path => s.add ⟨"f", path⟩ ⟨Ground.bottom.toVar, Ground.top.toVar⟩) ⟨⟨"f", []⟩, ∅⟩

theorem draw_eq_tour_gapped :
    (gapped.nodes.contains ⟨"f", []⟩ ∧ ∃ t : Tour,
      (Tour.step gapped)^[t.drawn.length] (.start ⟨"f", []⟩) = t ∧ t.queue = [] ∧
      gapped.Draws ⟨"f", []⟩ t.drawn t.edges ∧
      gapped.draw ⟨"f", []⟩ = .ok ⟨t.drawn.map gapped.nodeLabel,
        t.edges.map fun edge => (edge.1, edge.2.1, edge.2.2.text)⟩) ∧
    ¬ gapped.nodes.contains ⟨"f", [.input 1]⟩ ∧
      gapped.draw ⟨"f", [.input 1]⟩ = .error (.cannotDraw "f.in_1") := by
  have node : gapped.nodes.contains ⟨"f", []⟩ := by decide +kernel
  have gap : ¬ gapped.nodes.contains ⟨"f", [.input 1]⟩ := by decide +kernel
  have text : (⟨"f", [.input 1]⟩ : TypeVar).text = "f.in_1" := by decide +kernel
  refine ⟨⟨node, (draw_eq_tour gapped ⟨"f", []⟩).1 node⟩, gap, ?_⟩
  rw [← text]
  exact (draw_eq_tour gapped ⟨"f", [.input 1]⟩).2 gap

end Sketch
end TypeRecovery
