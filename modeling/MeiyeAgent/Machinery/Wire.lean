import Mathlib.Data.List.Basic
import Mathlib.Tactic.ByContra

/-!
# Machinery/Wire — reading bytes at an offset, and big-endian words

A reader sees all the bytes and moves an offset.  Two properties, each closed under sequencing:

* `Reads r bytes a` — wherever `bytes` stand, `r` reads `a` off them and stops behind them: the
  reader undoes a writer.
* `Stable r` — bytes added at the end do not change what `r` has read.  A format that ends where the
  bytes end, and whose fields are stable, accepts no proper prefix of what it accepts
  (`Stable.prefix_free`).
-/

namespace Wire

/-- **A reader** of bytes at an offset. -/
abbrev Reader (ε α : Type) := ReaderT (List UInt8) (StateT Nat (Except ε)) α

variable {ε α β : Type} {x : Reader ε α} {f : α → Reader ε β}

/-- The next `n` bytes, which must be there. -/
def take (n : Nat) (error : ε) : Reader ε (List UInt8) := fun data offset =>
  if data.length < offset + n then .error error
  else .ok ((data.drop offset).take n, offset + n)

/-- A field that is read only if it is present. -/
def optionally (present : Prop) [Decidable present] (x : Reader ε α) : Reader ε (Option α) :=
  if present then some <$> x else pure none

theorem bind_apply (data : List UInt8) (offset : Nat) :
    (x >>= f) data offset = x data offset >>= fun r => f r.1 data r.2 := rfl

theorem map_apply (g : α → β) (data : List UInt8) (offset : Nat) :
    (g <$> x) data offset = x data offset >>= fun r => .ok (g r.1, r.2) := rfl

theorem reader_bind_eq_ok {data : List UInt8} {offset : Nat} {r : β × Nat} :
    (x >>= f) data offset = .ok r ↔ ∃ a, x data offset = .ok a ∧ f a.1 data a.2 = .ok r := by
  rw [bind_apply]
  cases h : x data offset <;> simp [bind, Except.bind]

/-! ## Reading what was written -/

/-- **The reader undoes the writer**, wherever the bytes stand. -/
def Reads (x : Reader ε α) (bytes : List UInt8) (a : α) : Prop :=
  ∀ front back, x (front ++ bytes ++ back) front.length = .ok (a, front.length + bytes.length)

theorem Reads.pure (a : α) : Reads (pure a : Reader ε α) [] a := fun _ _ => rfl

theorem Reads.bind {bytes bytes' : List UInt8} {a : α} {b : β} (hx : Reads x bytes a)
    (hf : Reads (f a) bytes' b) : Reads (x >>= f) (bytes ++ bytes') b := by
  intro front back
  have hfirst := hx front (bytes' ++ back)
  have hsecond := hf (front ++ bytes) back
  rw [reader_bind_eq_ok]
  refine ⟨_, by simpa only [List.append_assoc] using hfirst, ?_⟩
  simpa only [List.append_assoc, List.length_append, Nat.add_assoc] using hsecond

theorem Reads.map {bytes : List UInt8} {a : α} (hx : Reads x bytes a) (g : α → β) :
    Reads (g <$> x) bytes (g a) := by
  intro front back
  rw [map_apply, hx front back]
  rfl

theorem reads_take (bytes : List UInt8) (error : ε) : Reads (take bytes.length error) bytes bytes := by
  intro front back
  rw [take, if_neg (by simp only [List.length_append]; omega), List.append_assoc, List.drop_left,
    List.take_left]

theorem Reads.present {present : Prop} [Decidable present] {bytes : List UInt8} {a : α}
    (hx : Reads x bytes a) (h : present) : Reads (optionally present x) bytes (some a) := by
  rw [optionally, if_pos h]
  exact hx.map some

theorem Reads.absent {present : Prop} [Decidable present] (h : ¬ present) :
    Reads (optionally present x) [] none := by
  rw [optionally, if_neg h]
  exact Reads.pure none

/-! ## Bytes that follow -/

/-- **Bytes added at the end do not change what is read.** -/
def Stable (x : Reader ε α) : Prop :=
  ∀ data offset r more, x data offset = .ok r → x (data ++ more) offset = .ok r

theorem Stable.pure (a : α) : Stable (pure a : Reader ε α) := fun _ _ _ _ h => h

theorem Stable.bind (hx : Stable x) (hf : ∀ a, Stable (f a)) : Stable (x >>= f) := by
  intro data offset r more h
  obtain ⟨a, ha, hfa⟩ := reader_bind_eq_ok.mp h
  exact reader_bind_eq_ok.mpr ⟨a, hx data offset a more ha, hf a.1 data a.2 r more hfa⟩

theorem Stable.map (hx : Stable x) (g : α → β) : Stable (g <$> x) :=
  hx.bind fun a => Stable.pure (g a)

theorem stable_take (n : Nat) (error : ε) : Stable (take n error) := by
  intro data offset r more h
  rw [take] at h ⊢
  by_cases hshort : data.length < offset + n
  · rw [if_pos hshort] at h
    exact nomatch h
  · rw [if_neg hshort] at h
    rw [if_neg (by rw [List.length_append]; omega), List.drop_append_of_le_length (by omega),
      List.take_append_of_le_length (by rw [List.length_drop]; omega)]
    exact h

theorem Stable.optionally {present : Prop} [Decidable present] (hx : Stable x) :
    Stable (optionally present x) := by
  rw [Wire.optionally]
  split
  · exact hx.map some
  · exact Stable.pure none

/-- **What ends where the bytes end accepts no proper prefix.** -/
theorem Stable.prefix_free {data more : List UInt8} {r r' : α × Nat} (hx : Stable x)
    (h : x data 0 = .ok r) (h' : x (data ++ more) 0 = .ok r') (last : α × Nat → Nat)
    (hlast : last r = data.length) (hlast' : last r' = (data ++ more).length) : more = [] := by
  obtain rfl : r = r' := Except.ok.inj ((hx data 0 r more h).symm.trans h')
  rw [hlast, List.length_append] at hlast'
  exact List.eq_nil_of_length_eq_zero (by omega)

/-! ## Big-endian words -/

/-- The four bytes of a word, the highest first. -/
def bytes32 (n : Nat) : List UInt8 :=
  [UInt8.ofNat (n / 16777216), UInt8.ofNat (n / 65536), UInt8.ofNat (n / 256), UInt8.ofNat n]

/-- The number that bytes write, the highest first. -/
def number (bytes : List UInt8) : Nat := bytes.foldl (fun n b => 256 * n + b.toNat) 0

/-- **The round trip** of a word. -/
theorem number_bytes32 {n : Nat} (h : n < 4294967296) : number (bytes32 n) = n := by
  simp only [number, bytes32, List.foldl_cons, List.foldl_nil, UInt8.toNat_ofNat']
  omega

/-- The two's complement of a signed number. -/
def unsigned32 (n : Int) : Nat := (n % 4294967296).toNat

/-- The signed number of a two's complement. -/
def signed32 (n : Nat) : Int := if n < 2147483648 then n else n - 4294967296

theorem signed32_unsigned32 {n : Int} (h : -2147483648 ≤ n ∧ n < 2147483648) :
    signed32 (unsigned32 n) = n := by
  rw [signed32, unsigned32]
  split <;> omega

theorem unsigned32_lt (n : Int) : unsigned32 n < 4294967296 := by
  rw [unsigned32]
  omega

end Wire
