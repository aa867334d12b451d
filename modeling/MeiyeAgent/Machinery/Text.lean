import Mathlib.Data.List.DropRight
import Mathlib.Tactic.ByContra
import Std.Data.String.ToNat

/-!
# Machinery/Text — identifiers built by joining, and the white space a trim removes

A row of a numbered family is named `base:index`.  `indexed_inj` is why such names never clash: the
index is written in digits, so the last colon splits the name.  Texts joined with a mark that none
of them contains are read back by `split_join`.
-/

namespace Text

/-! ## Numbered names -/

/-- **The name of row `n`** of the family `base`. -/
def indexed (base : String) (n : Nat) : String := base ++ ":" ++ toString n

/-- Two texts cut at a mark that neither tail contains are cut at the same place. -/
theorem append_cons_inj {c : Char} : ∀ {xs ys us vs : List Char}, c ∉ us → c ∉ vs →
    xs ++ c :: us = ys ++ c :: vs → xs = ys ∧ us = vs
  | [], [], _, _, _, _, h => by simpa using h
  | [], y :: ys, us, vs, hu, _, h => by
    simp only [List.nil_append, List.cons_append, List.cons.injEq] at h
    exact absurd (by simp [h.2]) hu
  | x :: xs, [], us, vs, _, hv, h => by
    simp only [List.nil_append, List.cons_append, List.cons.injEq] at h
    exact absurd (by simp [← h.2]) hv
  | x :: xs, y :: ys, us, vs, hu, hv, h => by
    simp only [List.cons_append, List.cons.injEq] at h
    obtain ⟨rfl, rfl⟩ := append_cons_inj hu hv h.2
    exact ⟨by rw [h.1], rfl⟩

theorem colon_notMem_repr (n : Nat) : ':' ∉ (Nat.repr n).toList := by
  intro h
  rw [Nat.toList_repr] at h
  have hd := Nat.isDigit_of_mem_toDigits (by decide) (by decide) h
  exact absurd hd (by decide)

/-- **Numbered names are distinct**: the base and the index are both read back. -/
theorem indexed_inj {s t : String} {m n : Nat} : indexed s m = indexed t n ↔ s = t ∧ m = n := by
  refine ⟨fun h => ?_, fun ⟨hs, hn⟩ => hs ▸ hn ▸ rfl⟩
  have hl : s.toList ++ ':' :: (Nat.repr m).toList = t.toList ++ ':' :: (Nat.repr n).toList := by
    have := congrArg String.toList h
    simpa [indexed, List.append_assoc] using this
  obtain ⟨hs, hn⟩ := append_cons_inj (colon_notMem_repr m) (colon_notMem_repr n) hl
  exact ⟨String.toList_inj.mp hs, Nat.repr_injective (String.toList_inj.mp hn)⟩

/-! ## Joined texts -/

/-- The characters of the texts, with the mark between them. -/
def joinChars (mark : Char) : List String → List Char
  | [] => []
  | [s] => s.toList
  | s :: t :: rest => s.toList ++ mark :: joinChars mark (t :: rest)

/-- `Array.prototype.join`. -/
def join (mark : Char) (texts : List String) : String := String.ofList (joinChars mark texts)

theorem join_cons {mark : Char} {s : String} : ∀ {texts : List String}, texts ≠ [] →
    join mark (s :: texts) = s ++ String.singleton mark ++ join mark texts
  | [], h => absurd rfl h
  | t :: rest, _ => by
    rw [← String.toList_inj, join, join, joinChars]
    simp

/-- The pieces between the marks. -/
def cut (mark : Char) : List Char → List (List Char)
  | [] => [[]]
  | c :: cs =>
    if c = mark then [] :: cut mark cs
    else match cut mark cs with
      | [] => [[c]]
      | piece :: pieces => (c :: piece) :: pieces

/-- `String.prototype.split`. -/
def split (mark : Char) (s : String) : List String := (cut mark s.toList).map String.ofList

theorem cut_of_notMem {mark : Char} : ∀ {cs : List Char}, mark ∉ cs → cut mark cs = [cs]
  | [], _ => rfl
  | c :: cs, h => by
    obtain ⟨hc, hcs⟩ := not_or.mp (mt List.mem_cons.mpr h)
    rw [cut, if_neg (Ne.symm hc), cut_of_notMem hcs]

theorem cut_append {mark : Char} (ds : List Char) : ∀ {cs : List Char}, mark ∉ cs →
    cut mark (cs ++ mark :: ds) = cs :: cut mark ds
  | [], _ => by rw [List.nil_append, cut, if_pos rfl]
  | c :: cs, h => by
    obtain ⟨hc, hcs⟩ := not_or.mp (mt List.mem_cons.mpr h)
    rw [List.cons_append, cut, if_neg (Ne.symm hc), cut_append ds hcs]

/-- **Joined texts are read back**, when the mark is in none of them. -/
theorem split_join {mark : Char} : ∀ {texts : List String}, texts ≠ [] →
    (∀ s ∈ texts, mark ∉ s.toList) → split mark (join mark texts) = texts
  | [], h, _ => absurd rfl h
  | [s], _, hs => by
    have hmark : mark ∉ s.toList := hs s List.mem_cons_self
    rw [split, join, String.toList_ofList, joinChars, cut_of_notMem hmark]
    simp
  | s :: t :: rest, _, hs => by
    have hmark : mark ∉ s.toList := hs s List.mem_cons_self
    have ih := split_join (List.cons_ne_nil t rest)
      fun u hu => hs u (List.mem_cons_of_mem s hu)
    rw [split, join, String.toList_ofList] at ih
    rw [split, join, String.toList_ofList, joinChars, cut_append _ hmark, List.map_cons, ih,
      String.ofList_toList]

/-- Texts with no mark in them are determined by how they join. -/
theorem join_inj {mark : Char} {texts texts' : List String} (h : texts ≠ []) (h' : texts' ≠ [])
    (hmark : ∀ s ∈ texts, mark ∉ s.toList) (hmark' : ∀ s ∈ texts', mark ∉ s.toList)
    (heq : join mark texts = join mark texts') : texts = texts' := by
  rw [← split_join h hmark, heq, split_join h' hmark']

/-! ## Trimming -/

/-- The code points a JavaScript trim removes: its white space and its line terminators. -/
def isSpace (c : Char) : Bool :=
  c.toNat ∈ [0x9, 0xA, 0xB, 0xC, 0xD, 0x20, 0xA0, 0x1680, 0x2000, 0x2001, 0x2002, 0x2003, 0x2004,
    0x2005, 0x2006, 0x2007, 0x2008, 0x2009, 0x200A, 0x2028, 0x2029, 0x202F, 0x205F, 0x3000, 0xFEFF]

/-- The text without the white space around it. -/
def trim (s : String) : String :=
  String.ofList ((s.toList.dropWhile isSpace).reverse.dropWhile isSpace).reverse

/-- A text that a trim empties. -/
def isBlank (s : String) : Bool := trim s == ""

/-- A text that ends in no white space is not blank. -/
theorem isBlank_concat {cs : List Char} {c : Char} (h : isSpace c = false) :
    isBlank (String.ofList (cs ++ [c])) = false := by
  have hfirst : ∃ ds : List Char, (cs ++ [c]).dropWhile isSpace = ds ++ [c] := by
    rw [List.dropWhile_append]
    split
    · exact ⟨[], by simp [h]⟩
    · exact ⟨_, rfl⟩
  obtain ⟨ds, hds⟩ := hfirst
  have htrim : trim (String.ofList (cs ++ [c])) = String.ofList (ds ++ [c]) := by
    rw [trim, String.toList_ofList, hds]
    simp [h]
  rw [isBlank, htrim, beq_eq_false_iff_ne]
  intro hempty
  have := congrArg String.toList hempty
  simp at this

/-- Trimming what is trimmed leaves it: a text trimmed to something is not blank. -/
theorem isBlank_trim {s : String} (h : trim s ≠ "") : isBlank (trim s) = false := by
  obtain ⟨cs, hcs⟩ : ∃ cs, cs = (s.toList.dropWhile isSpace).reverse.dropWhile isSpace := ⟨_, rfl⟩
  rw [trim, ← hcs] at h ⊢
  cases cs with
  | nil => exact absurd rfl h
  | cons c rest =>
    have hc : isSpace c = false := by
      have hhead := List.head?_dropWhile_not isSpace (s.toList.dropWhile isSpace).reverse
      rw [← hcs] at hhead
      simpa using hhead
    rw [List.reverse_cons]
    exact isBlank_concat hc

/-- **A text is trimmed** when it neither begins nor ends in white space. -/
theorem trim_eq_self_iff {s : String} : trim s = s ↔
    (∀ c ∈ s.toList.head?, isSpace c = false) ∧ ∀ c ∈ s.toList.getLast?, isSpace c = false := by
  have htrim : trim s = String.ofList ((s.toList.dropWhile isSpace).rdropWhile isSpace) := rfl
  have hleft : s.toList.dropWhile isSpace = s.toList ↔
      ∀ c ∈ s.toList.head?, isSpace c = false := by
    rw [List.dropWhile_eq_self_iff]
    cases s.toList <;> simp
  have hright : s.toList.rdropWhile isSpace = s.toList ↔
      ∀ c ∈ s.toList.getLast?, isSpace c = false := by
    rw [List.rdropWhile_eq_self_iff]
    rcases s.toList.eq_nil_or_concat with h | ⟨cs, c, h⟩ <;> simp [h]
  rw [htrim, ← hleft, ← hright]
  constructor
  · intro h
    have hchars : (s.toList.dropWhile isSpace).rdropWhile isSpace = s.toList := by
      rw [← String.toList_ofList (l := (s.toList.dropWhile isSpace).rdropWhile isSpace), h]
    have hle := ( List.rdropWhile_prefix isSpace (s.toList.dropWhile isSpace)).length_le
    rw [hchars] at hle
    have hself : s.toList.dropWhile isSpace = s.toList :=
      (List.dropWhile_suffix isSpace).eq_of_length_le hle
    exact ⟨hself, by rwa [hself] at hchars⟩
  · rintro ⟨hself, hself'⟩
    rw [hself, hself', String.ofList_toList]

theorem trim_trim (s : String) : trim (trim s) = trim s := by
  have htrim : (trim s).toList = (s.toList.dropWhile isSpace).rdropWhile isSpace :=
    String.toList_ofList
  rw [trim_eq_self_iff, htrim]
  constructor
  · intro c hc
    -- what is dropped at the end leaves the first character
    obtain ⟨rest, hrest⟩ := List.rdropWhile_prefix isSpace (s.toList.dropWhile isSpace)
    have hhead := List.head?_dropWhile_not isSpace s.toList
    rw [← hrest, List.head?_append, Option.mem_def.mp hc] at hhead
    simpa using hhead
  · intro c hc
    obtain ⟨cs, hcs⟩ := List.getLast?_eq_some_iff.mp hc
    have hself := List.rdropWhile_idempotent isSpace (s.toList.dropWhile isSpace)
    rw [hcs, List.rdropWhile_eq_self_iff] at hself
    simpa using hself (by simp)

/-- Text behind text that begins with no white space, the last of it ending in none, is trimmed. -/
theorem trim_append {s t : String} (hs : trim s = s) (hs' : s ≠ "") (ht : trim t = t) (ht' : t ≠ "")
    (cs : List Char) : trim (String.ofList (s.toList ++ cs ++ t.toList)) =
      String.ofList (s.toList ++ cs ++ t.toList) := by
  have hne : s.toList ≠ [] := fun h => hs' (String.toList_eq_nil_iff.mp h)
  have hne' : t.toList ≠ [] := fun h => ht' (String.toList_eq_nil_iff.mp h)
  rw [trim_eq_self_iff, String.toList_ofList, List.append_assoc,
    List.head?_append_of_ne_nil _ hne, ← List.append_assoc, List.getLast?_append_of_ne_nil _ hne']
  exact ⟨(trim_eq_self_iff.mp hs).1, (trim_eq_self_iff.mp ht).2⟩

/-- The text begins with `start`. -/
def startsWith (s start : String) : Bool := start.toList.isPrefixOf s.toList

end Text
