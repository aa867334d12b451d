import Mathlib.Data.List.Basic

/-!
# Machinery/Picking — the member a list has under a key

A search finds the first member under a key, and a map built from the list holds the last
(`mapped`).  Where the members under the key agree, either is any of them (`find_iff`,
`mapped_iff`).
-/

namespace Picking

variable {α : Type} {key : α → String} {p : α → Prop} {l : List α} {k : String}

/-- The last member under a key, as a `Map` built from the list holds it. -/
def mapped (key : α → String) (l : List α) (k : String) : Option α := l.reverse.find? (key · = k)

theorem key_of_find {a : α} (h : l.find? (key · = k) = some a) : key a = k := by
  simpa using List.find?_some h

/-- Where the members under a key agree, what is found under it is any of them. -/
theorem find_iff (hagree : ∀ a ∈ l, ∀ b ∈ l, key a = k → key b = k → (p a ↔ p b)) :
    (∃ a, l.find? (key · = k) = some a ∧ p a) ↔ ∃ a ∈ l, key a = k ∧ p a := by
  constructor
  · rintro ⟨a, hfind, hp⟩
    exact ⟨a, List.mem_of_find?_eq_some hfind, key_of_find hfind, hp⟩
  · rintro ⟨b, hb, hkey, hp⟩
    cases hfind : l.find? (key · = k) with
    | none => exact absurd (decide_eq_true hkey) (List.find?_eq_none.mp hfind b hb)
    | some a =>
      refine ⟨a, rfl, ?_⟩
      exact (hagree a (List.mem_of_find?_eq_some hfind) b hb (key_of_find hfind) hkey).mpr hp

theorem mapped_iff (hagree : ∀ a ∈ l, ∀ b ∈ l, key a = k → key b = k → (p a ↔ p b)) :
    (∃ a, mapped key l k = some a ∧ p a) ↔ ∃ a ∈ l, key a = k ∧ p a := by
  rw [mapped, find_iff]
  · simp only [List.mem_reverse]
  · simpa only [List.mem_reverse] using hagree

theorem mem_of_mapped {a : α} (h : mapped key l k = some a) : a ∈ l ∧ key a = k :=
  ⟨List.mem_reverse.mp (List.mem_of_find?_eq_some h), key_of_find h⟩

/-- One more member is what is mapped under its key, or what was is. -/
theorem mapped_insert {before after : List α} {a : α} :
    (mapped key (before ++ a :: after) k = some a ∧ key a = k) ∨
      mapped key (before ++ a :: after) k = mapped key (before ++ after) k := by
  simp only [mapped, List.reverse_append, List.reverse_cons, List.append_assoc, List.find?_append,
    List.find?_cons, List.singleton_append]
  cases after.reverse.find? (key · = k) with
  | some b => exact .inr rfl
  | none =>
    by_cases hkey : key a = k
    · exact .inl ⟨by simp [hkey], hkey⟩
    · exact .inr (by simp [hkey])

theorem find_insert {before after : List α} {a : α} :
    ((before ++ a :: after).find? (key · = k) = some a ∧ key a = k) ∨
      (before ++ a :: after).find? (key · = k) = (before ++ after).find? (key · = k) := by
  simp only [List.find?_append, List.find?_cons]
  cases before.find? (key · = k) with
  | some b => exact .inr rfl
  | none =>
    by_cases hkey : key a = k
    · exact .inl ⟨by simp [hkey], hkey⟩
    · exact .inr (by simp [hkey])

theorem exists_mapped (h : ∃ a ∈ l, key a = k) : ∃ a, mapped key l k = some a := by
  obtain ⟨a, hmem, hkey⟩ := h
  cases hmapped : mapped key l k with
  | some b => exact ⟨b, rfl⟩
  | none =>
    exact absurd (decide_eq_true hkey)
      (List.find?_eq_none.mp hmapped a (List.mem_reverse.mpr hmem))

end Picking
