/-!
# Machinery/Histories — logs whose entries follow from what came before

* `Fate` — what becomes of a call to a store that many processes share.
* `EachFollows` — every entry of a log stands in a relation to the entries before it.
-/

namespace Histories

variable {α : Type}

/-- **What becomes of a call**: its answer arrives, it fails, or it is carried out and its answer is
lost; in the last two the caller sees an error. -/
inductive Fate
  | answered
  | failed
  | lost
  deriving DecidableEq

/-- **Each entry follows** from the entries before it. -/
def EachFollows (P : List α → α → Prop) (log : List α) : Prop :=
  ∀ before entry after, log = before ++ entry :: after → P before entry

variable {P : List α → α → Prop} {log : List α} {entry : α}

theorem EachFollows.nil : EachFollows P [] := fun before entry after h =>
  absurd h.symm (List.append_ne_nil_of_right_ne_nil before (List.cons_ne_nil entry after))

/-- One more entry follows. -/
theorem EachFollows.snoc (h : EachFollows P log) (hentry : P log entry) : EachFollows P (log ++ [entry]) := by
  intro before other after heq
  rcases after.eq_nil_or_concat with rfl | ⟨rest, last, rfl⟩
  · obtain ⟨rfl, hlast⟩ := List.append_inj' heq rfl
    obtain rfl := List.head_eq_of_cons_eq hlast
    exact hentry
  · have hsplit : log ++ [entry] = (before ++ other :: rest) ++ [last] := by
      rw [heq, List.concat_eq_append, List.append_assoc, List.cons_append]
    exact h before other rest (List.append_inj' hsplit rfl).1

end Histories
