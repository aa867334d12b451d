import Mathlib.Algebra.GroupWithZero.Nat
import Mathlib.Data.List.Infix

/-!
# Machinery/Matching — the places of a word in a text

A search goes from left to right, letters being told apart by a key, and goes on behind what it has
found (`matchesFrom`).  It finds nothing where the word is no part of the text
(`matchesFrom_eq_nil`); and a word with no mark in it is part of a joined text where it is part of a
piece (`infix_intercalate`).
-/

namespace Matching

section Search

variable {α β : Type} [BEq β] (key : α → β) (size : α → Nat) (word : List α)

/-- **The matches of a word**, none inside another: the place each begins at, and its size.  The
letters of the match before are passed over. -/
def matchesFrom : Nat → Nat → List α → List (Nat × Nat)
  | _, _, [] => []
  | place, passed + 1, a :: text => matchesFrom (place + size a) passed text
  | place, 0, a :: text =>
    if (word.map key).isPrefixOf ((a :: text).map key) then
      (place, (((a :: text).take word.length).map size).sum) ::
        matchesFrom (place + size a) (word.length - 1) text
    else matchesFrom (place + size a) 0 text

/-- **A search finds nothing** where the word is no part of the text. -/
theorem matchesFrom_eq_nil [LawfulBEq β] (h : word ≠ []) : ∀ {place : Nat} {text : List α},
    matchesFrom key size word place 0 text = [] ↔ ¬ word.map key <:+: text.map key
  | _, [] => by
    refine iff_of_true rfl fun hwithin => h ?_
    exact List.map_eq_nil_iff.mp (List.infix_nil.mp hwithin)
  | place, a :: text => by
    rw [matchesFrom]
    split
    · next hprefix =>
      refine iff_of_false (List.cons_ne_nil _ _) (not_not.mpr ?_)
      exact (List.isPrefixOf_iff_prefix.mp hprefix).isInfix
    · next hprefix =>
      have hprefix : ¬ word.map key <+: (a :: text).map key := fun hpre =>
        hprefix (List.isPrefixOf_iff_prefix.mpr hpre)
      rw [matchesFrom_eq_nil h, List.map_cons, List.infix_cons_iff, not_or, ← List.map_cons]
      exact (and_iff_right hprefix).symm

end Search

section Joined

variable {α : Type} {mark : α} {word : List α}

/-- A word with no mark in it is on one side of a mark. -/
theorem infix_mark (h : mark ∉ word) {left right : List α} :
    word <:+: left ++ mark :: right ↔ word <:+: left ∨ word <:+: right := by
  constructor
  · rintro ⟨before, after, heq⟩
    rw [List.append_assoc, List.append_eq_append_iff] at heq
    rcases heq with ⟨rest, rfl, hrest⟩ | ⟨rest, rfl, hrest⟩
    · rcases List.append_eq_append_iff.mp hrest with ⟨rest', rfl, -⟩ | ⟨rest', rfl, hrest'⟩
      · exact .inl ⟨before, rest', by simp⟩
      · cases rest' with
        | nil => exact .inl ⟨before, [], by simp⟩
        | cons b rest' =>
          obtain ⟨rfl, -⟩ := List.cons.inj hrest'
          exact absurd (List.mem_append_right _ List.mem_cons_self) h
    · cases rest with
      | nil =>
        cases word with
        | nil => exact .inl (List.nil_infix)
        | cons b word =>
          obtain ⟨rfl, -⟩ := List.cons.inj hrest
          exact absurd List.mem_cons_self h
      | cons b rest =>
        obtain ⟨-, rfl⟩ := List.cons.inj hrest
        exact .inr ⟨rest, after, by simp⟩
  · rintro (hwithin | hwithin)
    · exact hwithin.trans (List.prefix_append _ _).isInfix
    · exact hwithin.trans ((List.suffix_cons _ _).trans (List.suffix_append _ _)).isInfix

/-- **A word with no mark in it is part of a joined text** where it is part of a piece. -/
theorem infix_intercalate (h : mark ∉ word) : ∀ {pieces : List (List α)}, pieces ≠ [] →
    (word <:+: [mark].intercalate pieces ↔ ∃ piece ∈ pieces, word <:+: piece)
  | [], hne => absurd rfl hne
  | [piece], _ => by simp
  | piece :: next :: pieces, _ => by
    rw [List.intercalate_cons_cons, List.append_assoc, List.singleton_append, infix_mark h,
      infix_intercalate h (List.cons_ne_nil next pieces)]
    simp only [List.exists_mem_cons_iff]

end Joined

end Matching
