import Mathlib.Data.List.Forall2

/-!
# Machinery/Reading — schemas that read what they have read as itself

A schema answers with the value it has read, `none` where it refuses.  It **settles** when a second
reading changes nothing (`Settles`), and so does a schema of lists or of optional values over it.
-/

namespace Reading

variable {α β : Type} {f : α → Option β} {l : List α} {r : List β}

theorem mapM_append {m : List α} : (l ++ m).mapM f = some r ↔
    ∃ s, l.mapM f = some s ∧ ∃ t, m.mapM f = some t ∧ s ++ t = r := by
  simp only [List.mapM_append, Option.bind_eq_bind, Option.bind_eq_some_iff, Option.pure_def,
    Option.some.injEq]

theorem mapM_cons {a : α} : (a :: l).mapM f = some r ↔
    ∃ b, f a = some b ∧ ∃ s, l.mapM f = some s ∧ b :: s = r := by
  simp only [List.mapM_cons, Option.bind_eq_bind, Option.bind_eq_some_iff, Option.pure_def,
    Option.some.injEq]

theorem mapM_singleton {a : α} : [a].mapM f = some r ↔ ∃ b, f a = some b ∧ r = [b] := by
  rw [mapM_cons]
  simp [eq_comm]

theorem mapM_eq_some : ∀ {l : List α} {r : List β},
    l.mapM f = some r ↔ List.Forall₂ (fun a b => f a = some b) l r
  | [], r => by
    rw [List.mapM_nil, Option.pure_def, Option.some.injEq, List.forall₂_nil_left_iff, eq_comm]
  | a :: l, r => by
    rw [mapM_cons]
    constructor
    · rintro ⟨b, hb, bs, hbs, rfl⟩
      exact .cons hb (mapM_eq_some.mp hbs)
    · rintro (_ | ⟨hb, hbs⟩)
      exact ⟨_, hb, _, mapM_eq_some.mpr hbs, rfl⟩

/-- What is read is read off a member. -/
theorem exists_of_mem_mapM (h : l.mapM f = some r) {b : β} (hb : b ∈ r) :
    ∃ a ∈ l, f a = some b := by
  have hall := mapM_eq_some.mp h
  induction hall with
  | nil => exact absurd hb List.not_mem_nil
  | cons hhead htail ih =>
    rcases List.mem_cons.mp hb with rfl | hb
    · exact ⟨_, List.mem_cons_self, hhead⟩
    · obtain ⟨a, ha, hread⟩ := ih (mapM_eq_some.mpr htail) hb
      exact ⟨a, List.mem_cons_of_mem _ ha, hread⟩

section Settles

variable {g : α → Option α} {l : List α}

/-- **A schema settles**: it reads what it has read as itself. -/
def Settles (g : α → Option α) : Prop := ∀ a b, g a = some b → g b = some b

/-- A list is read as itself when its members are. -/
theorem mapM_self : l.mapM g = some l ↔ ∀ a ∈ l, g a = some a := by
  rw [mapM_eq_some, List.forall₂_same]

theorem Settles.list (h : Settles g) : Settles fun l : List α => l.mapM g := by
  intro l m hread
  refine mapM_self.mpr fun b hb => ?_
  obtain ⟨a, -, hread⟩ := exists_of_mem_mapM hread hb
  exact h a b hread

theorem Settles.option (h : Settles g) : Settles fun o : Option α => o.mapM g := by
  intro o p hread
  cases o with
  | none =>
    obtain rfl : none = p := Option.some.inj hread
    rfl
  | some a =>
    obtain ⟨b, hb, hsome⟩ := Option.map_eq_some_iff.mp
      (hread : (g a).map some = some p)
    obtain rfl := hsome
    exact congrArg (Option.map some) (h a b hb)

end Settles

end Reading
