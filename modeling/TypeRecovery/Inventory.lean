/-! Walks over finite graphs keep an inventory of what they may still enter, and end because
entering takes something out of it. -/
namespace TypeRecovery
variable {α : Type} [BEq α] [LawfulBEq α]

theorem length_erase_lt {a : α} {l : List α} (inside : a ∈ l) :
    (l.erase a).length < l.length := by
  have bound := List.length_pos_of_mem inside
  rw [List.length_erase_of_mem inside]
  omega

/-- What a queue leads to by following `next`, breadth first, each element once. Only what is
`unmet` is entered. -/
def reach (next : α → List α) (unmet queue : List α) : List α :=
  match queue with
  | [] => []
  | a :: queue =>
    if _ : a ∈ unmet then a :: reach next (unmet.erase a) (queue ++ next a)
    else reach next unmet queue
termination_by (unmet.length, queue.length)
decreasing_by
  · exact .left _ _ (length_erase_lt ‹_›)
  · exact .right _ (by simp)

end TypeRecovery
