import MeiyeAgent.Foundation.Numbers
import MeiyeAgent.Foundation.Runtime

/-!
# ProductBilling/UsageUnits — quantities per resource

Units come in as any list; `normalizeUnits` refuses what is no quantity, drops the zeros, sorts by
resource and refuses a resource given twice.  What it accepts is `Normal`: one positive quantity a
resource, in order.  Every list the ledger stores is normal, so a list is known by its `amount`s.

* `normalizeUnits_of_normal` — normal units are left as they are.
* `amount_subtractUnits` — **subtraction is resource by resource**.
-/

namespace MeiyeAgent

open Effect

inductive ProductUsageResource
  | copy
  | image
  | video
  | audio
  deriving DecidableEq, Repr

namespace ProductUsageResource

/-- Where `localeCompare` puts the name of a resource. -/
def rank : ProductUsageResource → Nat
  | audio => 0
  | copy => 1
  | image => 2
  | video => 3

theorem rank_injective : Function.Injective rank := by
  intro a b h
  cases a <;> cases b <;> first | rfl | exact absurd h (by decide)

def name : ProductUsageResource → String
  | audio => "audio"
  | copy => "copy"
  | image => "image"
  | video => "video"

end ProductUsageResource

structure ProductUsageUnit where
  resource : ProductUsageResource
  quantity : Int
  deriving DecidableEq, Repr

/-! ## The operations on units -/

def assertNonNegativeQuantity (quantity : Int) (field : String) : Except Thrown Unit :=
  if ¬ isSafeInteger quantity ∨ quantity < 0 then
    throw (.domain .INVALID_STATE
      (field ++ " must be a non-negative integer product usage quantity."))
  else pure ()

/-- Is some unit next to one of its own resource? -/
def hasRepeated : List ProductUsageUnit → Bool
  | u :: v :: us => u.resource = v.resource || hasRepeated (v :: us)
  | _ => false

def normalizeUnits (units : List ProductUsageUnit) (field : String) :
    Except Thrown (List ProductUsageUnit) := do
  units.forM fun unit => assertNonNegativeQuantity unit.quantity (field ++ "." ++ unit.resource.name)
  let normalized := sortBy
    (fun left right => some ((left.resource.rank : Int) - right.resource.rank))
    (units.filter fun unit => unit.quantity > 0)
  if hasRepeated normalized then
    throw (.domain .INVALID_STATE
      (field ++ " must contain at most one quantity per product resource."))
  return normalized

def legacyUnits (resource : Option ProductUsageResource) (quantity : Int) :
    List ProductUsageUnit :=
  match resource with
  | some resource => if quantity > 0 then [⟨resource, quantity⟩] else []
  | none => []

def totalUnits (units : List ProductUsageUnit) : Int :=
  (units.map (·.quantity)).foldl addNumbers 0

/-- The quantity of a resource: a map made from the units keeps the last of each. -/
def amount (units : List ProductUsageUnit) (resource : ProductUsageResource) : Int :=
  ((units.reverse.find? (·.resource = resource)).map (·.quantity)).getD 0

def unitsWithin (candidate ceiling : List ProductUsageUnit) : Bool :=
  candidate.all fun unit => unit.quantity ≤ amount ceiling unit.resource

def assertUnitsWithin (candidate ceiling : List ProductUsageUnit) (message : String) :
    Except Thrown Unit :=
  if ¬ unitsWithin candidate ceiling then throw (.domain .INVALID_STATE message) else pure ()

def subtractUnits (minuend subtrahend : List ProductUsageUnit) : List ProductUsageUnit :=
  (minuend.map fun unit =>
    { unit with quantity := unit.quantity - amount subtrahend unit.resource }).filter
      fun unit => unit.quantity > 0

/-! ## Normal units -/

/-- **Normal units**: a positive quantity a resource, in order, each a quantity that is accepted. -/
structure Normal (units : List ProductUsageUnit) : Prop where
  sorted : units.Pairwise fun u v => u.resource.rank < v.resource.rank
  positive : ∀ unit ∈ units, 0 < unit.quantity
  safe : ∀ unit ∈ units, isSafeInteger unit.quantity

variable {units candidate ceiling minuend subtrahend : List ProductUsageUnit} {field : String}
  {resource : ProductUsageResource}

theorem Normal.nil : Normal [] := ⟨.nil, by simp, by simp⟩

/-- Sorted units with no repetition are strictly sorted. -/
theorem pairwise_of_not_hasRepeated :
    ∀ {units : List ProductUsageUnit}, units.Pairwise (fun u v => u.resource.rank ≤ v.resource.rank) →
      hasRepeated units = false → units.Pairwise fun u v => u.resource.rank < v.resource.rank
  | [], _, _ => .nil
  | [u], _, _ => List.pairwise_singleton ..
  | u :: v :: us, hsorted, hrepeat => by
    simp only [hasRepeated, Bool.or_eq_false_iff, decide_eq_false_iff_not] at hrepeat
    obtain ⟨hle, hrest⟩ := List.pairwise_cons.mp hsorted
    have hstrict := pairwise_of_not_hasRepeated hrest hrepeat.2
    have huv : u.resource.rank < v.resource.rank := by
      have hne : u.resource.rank ≠ v.resource.rank := fun h =>
        hrepeat.1 (ProductUsageResource.rank_injective h)
      have := hle v List.mem_cons_self
      omega
    refine List.pairwise_cons.mpr ⟨fun w hw => ?_, hstrict⟩
    rcases List.mem_cons.mp hw with rfl | hw
    · exact huv
    · exact huv.trans ((List.pairwise_cons.mp hstrict).1 w hw)

theorem not_hasRepeated_of_pairwise : ∀ {units : List ProductUsageUnit},
    units.Pairwise (fun u v => u.resource.rank < v.resource.rank) → hasRepeated units = false
  | [], _ => rfl
  | [_], _ => rfl
  | u :: v :: us, hsorted => by
    obtain ⟨hlt, hrest⟩ := List.pairwise_cons.mp hsorted
    have huv := hlt v List.mem_cons_self
    simp only [hasRepeated, Bool.or_eq_false_iff, decide_eq_false_iff_not]
    exact ⟨fun h => by rw [h] at huv; exact lt_irrefl _ huv, not_hasRepeated_of_pairwise hrest⟩

theorem forM_assert_eq_ok : ∀ {units : List ProductUsageUnit}, (units.forM fun unit =>
      assertNonNegativeQuantity unit.quantity (field ++ "." ++ unit.resource.name)) = .ok () ↔
    ∀ unit ∈ units, isSafeInteger unit.quantity ∧ 0 ≤ unit.quantity
  | [] => by simp [List.forM_nil]
  | unit :: units => by
    have hhead : assertNonNegativeQuantity unit.quantity (field ++ "." ++ unit.resource.name) =
        .ok () ↔ isSafeInteger unit.quantity ∧ 0 ≤ unit.quantity := by
      rw [assertNonNegativeQuantity, last_guard_eq_ok, not_or, not_not, not_lt]
    have hcons : ((unit :: units).forM fun unit =>
        assertNonNegativeQuantity unit.quantity (field ++ "." ++ unit.resource.name)) =
          (do
            assertNonNegativeQuantity unit.quantity (field ++ "." ++ unit.resource.name)
            units.forM fun unit =>
              assertNonNegativeQuantity unit.quantity (field ++ "." ++ unit.resource.name)) := rfl
    rw [hcons, bind_eq_ok, List.forall_mem_cons, ← hhead, ← forM_assert_eq_ok]
    exact ⟨fun ⟨_, h⟩ => h, fun h => ⟨(), h⟩⟩

variable {normalized : List ProductUsageUnit}

theorem normalizeUnits_eq_ok : normalizeUnits units field = .ok normalized ↔
      (∀ unit ∈ units, isSafeInteger unit.quantity ∧ 0 ≤ unit.quantity) ∧
        sortBy (fun left right => some ((left.resource.rank : Int) - right.resource.rank))
          (units.filter fun unit => unit.quantity > 0) = normalized ∧
        hasRepeated normalized = false := by
  simp only [normalizeUnits, bind_eq_ok, guard_eq_ok, pure_eq_ok, Bool.not_eq_true]
  constructor
  · rintro ⟨⟨⟩, hassert, hrepeat, rfl⟩
    exact ⟨forM_assert_eq_ok.mp hassert, rfl, hrepeat⟩
  · rintro ⟨hassert, rfl, hrepeat⟩
    exact ⟨(), forM_assert_eq_ok.mpr hassert, hrepeat, rfl⟩

/-- **What `normalizeUnits` accepts is normal.** -/
theorem normal_of_normalizeUnits (h : normalizeUnits units field = .ok normalized) :
    Normal normalized := by
  obtain ⟨hassert, rfl, hrepeat⟩ := normalizeUnits_eq_ok.mp h
  have hmem : ∀ unit ∈ sortBy (fun left right => some ((left.resource.rank : Int) -
      right.resource.rank)) (units.filter fun unit => unit.quantity > 0),
      unit ∈ units ∧ 0 < unit.quantity := by
    intro unit hunit
    rw [(sortBy_perm _ _).mem_iff, List.mem_filter] at hunit
    exact ⟨hunit.1, by simpa using hunit.2⟩
  refine ⟨pairwise_of_not_hasRepeated ?_ hrepeat, fun unit hunit => (hmem unit hunit).2,
    fun unit hunit => (hassert unit (hmem unit hunit).1).1⟩
  exact (sortBy_sorted (fun unit : ProductUsageUnit => (unit.resource.rank : Int)) _).imp
    fun h => by exact_mod_cast h

/-- **Normal units are left as they are.** -/
theorem normalizeUnits_of_normal (h : Normal units) (field : String) :
    normalizeUnits units field = .ok units := by
  have hfilter : (units.filter fun unit => decide (unit.quantity > 0)) = units :=
    List.filter_eq_self.mpr fun unit hunit => decide_eq_true (h.positive unit hunit)
  have hsort : sortBy (fun left right => some ((left.resource.rank : Int) -
      right.resource.rank)) units = units := by
    refine List.Pairwise.insertionSort_eq (h.sorted.imp fun huv => ?_)
    simp only [Option.getD_some]
    omega
  refine normalizeUnits_eq_ok.mpr ⟨fun unit hunit => ⟨h.safe unit hunit,
    (h.positive unit hunit).le⟩, ?_, not_hasRepeated_of_pairwise h.sorted⟩
  rw [hfilter, hsort]

/-- Normal units of no quantity are none. -/
theorem eq_nil_of_totalUnits (h : Normal units) (htotal : totalUnits units = 0) : units = [] := by
  cases units with
  | nil => rfl
  | cons u us =>
    have hrest : ∀ q ∈ us.map (·.quantity), 0 ≤ q := fun q hq => by
      obtain ⟨v, hv, rfl⟩ := List.mem_map.mp hq
      exact (h.positive v (List.mem_cons_of_mem u hv)).le
    have hfirst := h.positive u List.mem_cons_self
    have hpos := foldl_addNumbers_pos hrest (addNumbers_pos (a := 0) (by omega : 0 < 0 + u.quantity))
    rw [totalUnits, List.map_cons, List.foldl_cons] at htotal
    omega

/-! ## Amounts -/

/-- **A quantity of normal units** is the one unit of its resource. -/
theorem amount_of_mem (h : Normal units) {unit : ProductUsageUnit} (hunit : unit ∈ units) :
    amount units unit.resource = unit.quantity := by
  have hsome : (units.reverse.find? (·.resource = unit.resource)).isSome :=
    List.find?_isSome.mpr ⟨unit, List.mem_reverse.mpr hunit, by simp⟩
  obtain ⟨found, hfound⟩ := Option.isSome_iff_exists.mp hsome
  have hresource : found.resource = unit.resource := by simpa using List.find?_some hfound
  have hmem := List.mem_reverse.mp (List.mem_of_find?_eq_some hfound)
  have hnodup : (units.map (·.resource)).Nodup := by
    refine List.pairwise_map.mpr (h.sorted.imp fun hlt heq => ?_)
    rw [heq] at hlt
    exact lt_irrefl _ hlt
  rw [amount, hfound, Option.map_some, Option.getD_some,
    List.inj_on_of_nodup_map hnodup hmem hunit hresource]

theorem amount_of_forall_ne (h : ∀ unit ∈ units, unit.resource ≠ resource) :
    amount units resource = 0 := by
  have hnone : units.reverse.find? (·.resource = resource) = none := by
    refine List.find?_eq_none.mpr fun unit hunit => ?_
    simpa using h unit (List.mem_reverse.mp hunit)
  rw [amount, hnone, Option.map_none, Option.getD_none]

/-- An amount is a quantity, or nothing. -/
theorem amount_cases (h : Normal units) (resource : ProductUsageResource) :
    (∃ unit ∈ units, unit.resource = resource ∧ amount units resource = unit.quantity) ∨
      amount units resource = 0 ∧ ∀ unit ∈ units, unit.resource ≠ resource := by
  by_cases hex : ∃ unit ∈ units, unit.resource = resource
  · obtain ⟨unit, hunit, rfl⟩ := hex
    exact .inl ⟨unit, hunit, rfl, amount_of_mem h hunit⟩
  · have hne : ∀ unit ∈ units, unit.resource ≠ resource := fun unit hunit heq =>
      hex ⟨unit, hunit, heq⟩
    exact .inr ⟨amount_of_forall_ne hne, hne⟩

theorem amount_nonneg (h : Normal units) (resource : ProductUsageResource) :
    0 ≤ amount units resource := by
  rcases amount_cases h resource with ⟨unit, hunit, -, heq⟩ | ⟨heq, -⟩
  · rw [heq]
    exact (h.positive unit hunit).le
  · rw [heq]

/-- **Within, resource by resource.** -/
theorem unitsWithin_iff (h : Normal candidate) (hceiling : Normal ceiling) :
    unitsWithin candidate ceiling = true ↔
      ∀ resource, amount candidate resource ≤ amount ceiling resource := by
  rw [unitsWithin, List.all_eq_true]
  constructor
  · intro hwithin resource
    rcases amount_cases h resource with ⟨unit, hunit, rfl, heq⟩ | ⟨heq, -⟩
    · rw [heq]
      simpa using hwithin unit hunit
    · rw [heq]
      exact amount_nonneg hceiling resource
  · intro hle unit hunit
    have := hle unit.resource
    rw [amount_of_mem h hunit] at this
    simpa using this

theorem mem_subtractUnits {unit : ProductUsageUnit} : unit ∈ subtractUnits minuend subtrahend ↔
    ∃ u ∈ minuend, { u with quantity := u.quantity - amount subtrahend u.resource } = unit ∧
      0 < unit.quantity := by
  rw [subtractUnits, List.mem_filter, List.mem_map, decide_eq_true_eq]
  exact ⟨fun ⟨⟨u, hu, heq⟩, hpos⟩ => ⟨u, hu, heq, hpos⟩, fun ⟨u, hu, heq, hpos⟩ => ⟨⟨u, hu, heq⟩, hpos⟩⟩

/-- Subtracting normal units leaves normal units. -/
theorem normal_subtractUnits (h : Normal minuend) (hs : Normal subtrahend) :
    Normal (subtractUnits minuend subtrahend) := by
  have hmap : (minuend.map fun unit =>
      { unit with quantity := unit.quantity - amount subtrahend unit.resource }).Pairwise
        fun u v => u.resource.rank < v.resource.rank := List.pairwise_map.mpr h.sorted
  refine ⟨hmap.filter _, fun unit hunit => ?_, fun unit hunit => ?_⟩
  · obtain ⟨-, -, -, hpos⟩ := mem_subtractUnits.mp hunit
    exact hpos
  · obtain ⟨u, hu, rfl, hpos⟩ := mem_subtractUnits.mp hunit
    have hsafe := h.safe u hu
    have hnonneg := amount_nonneg hs u.resource
    have hrange : -maxSafeInteger ≤ u.quantity ∧ u.quantity ≤ maxSafeInteger :=
      of_decide_eq_true hsafe
    refine decide_eq_true ?_
    simp only [maxSafeInteger] at hrange hpos ⊢
    omega

/-- **Subtraction is resource by resource.** -/
theorem amount_subtractUnits (h : Normal minuend) (hs : Normal subtrahend)
    (hwithin : ∀ resource, amount subtrahend resource ≤ amount minuend resource)
    (resource : ProductUsageResource) :
    amount (subtractUnits minuend subtrahend) resource =
      amount minuend resource - amount subtrahend resource := by
  rcases amount_cases (normal_subtractUnits h hs) resource with ⟨unit, hunit, rfl, heq⟩ | ⟨heq, hne⟩
  · obtain ⟨u, hu, rfl, -⟩ := mem_subtractUnits.mp hunit
    rw [heq, amount_of_mem h hu]
  · have hle := hwithin resource
    have hnonneg := amount_nonneg hs resource
    rw [heq]
    rcases amount_cases h resource with ⟨u, hu, rfl, hminuend⟩ | ⟨hminuend, -⟩
    · have hgone : ¬ 0 < u.quantity - amount subtrahend u.resource := fun hpos =>
        hne _ (mem_subtractUnits.mpr ⟨u, hu, rfl, hpos⟩) rfl
      omega
    · omega

theorem totalUnits_nonneg (h : Normal units) : 0 ≤ totalUnits units := by
  refine foldl_addNumbers_nonneg (fun q hq => ?_) (le_refl 0)
  obtain ⟨u, hu, rfl⟩ := List.mem_map.mp hq
  exact (h.positive u hu).le

/-- **Normal units are known by their amounts.** -/
theorem eq_of_amount {units units' : List ProductUsageUnit} (h : Normal units) (h' : Normal units')
    (heq : ∀ resource, amount units resource = amount units' resource) : units = units' := by
  have hmem : ∀ {us vs : List ProductUsageUnit}, Normal us → Normal vs →
      (∀ resource, amount us resource = amount vs resource) → ∀ u ∈ us, u ∈ vs := by
    intro us vs hus hvs heq u hu
    have hamount := heq u.resource
    rw [amount_of_mem hus hu] at hamount
    rcases amount_cases hvs u.resource with ⟨v, hv, hresource, hv'⟩ | ⟨hzero, -⟩
    · obtain rfl : u = v := by
        obtain ⟨ur, uq⟩ := u
        obtain ⟨vr, vq⟩ := v
        simp only [ProductUsageUnit.mk.injEq] at *
        exact ⟨hresource.symm, hamount.trans hv'⟩
      exact hv
    · have := hus.positive u hu
      omega
  have hirrefl : Std.Irrefl fun u v : ProductUsageUnit => u.resource.rank < v.resource.rank :=
    ⟨fun u => lt_irrefl _⟩
  have hanti : Std.Antisymm fun u v : ProductUsageUnit => u.resource.rank < v.resource.rank :=
    ⟨fun u v huv hvu => absurd huv (lt_asymm hvu)⟩
  exact h.sorted.eq_of_mem_iff h'.sorted fun u =>
    ⟨hmem h h' heq u, hmem h' h (fun resource => (heq resource).symm) u⟩

/-! ## What units were given -/

/-- The total quantity of a resource among units of any form. -/
def givenAmount (units : List ProductUsageUnit) (resource : ProductUsageResource) : Int :=
  ((units.filter fun unit => unit.resource = resource).map (·.quantity)).sum

theorem amount_eq_givenAmount (h : Normal units) (resource : ProductUsageResource) :
    amount units resource = givenAmount units resource := by
  have hshort : ∀ {us : List ProductUsageUnit}, us.Pairwise (fun u v =>
      u.resource.rank < v.resource.rank) → (∀ u ∈ us, u.resource = resource) → us.length ≤ 1 := by
    intro us hsorted hsame
    match us, hsorted, hsame with
    | [], _, _ => exact Nat.zero_le _
    | [_], _, _ => exact le_refl _
    | u :: v :: us, hsorted, hsame =>
      have hlt := (List.pairwise_cons.mp hsorted).1 v List.mem_cons_self
      rw [hsame u List.mem_cons_self, hsame v (List.mem_cons_of_mem _ List.mem_cons_self)] at hlt
      exact absurd hlt (lt_irrefl _)
  have hlength := hshort (h.sorted.filter fun unit => unit.resource = resource) fun u hu => by
    simpa using (List.mem_filter.mp hu).2
  rw [givenAmount]
  rcases amount_cases h resource with ⟨unit, hunit, hresource, heq⟩ | ⟨heq, hne⟩
  · have hmem : unit ∈ units.filter fun unit => unit.resource = resource :=
      List.mem_filter.mpr ⟨hunit, by simpa using hresource⟩
    obtain ⟨only, honly⟩ := List.length_eq_one_iff.mp
      (le_antisymm hlength (List.length_pos_of_mem hmem))
    rw [honly, List.mem_singleton] at hmem
    subst hmem
    rw [honly, heq]
    simp
  · have hnil : (units.filter fun unit => unit.resource = resource) = [] :=
      List.filter_eq_nil_iff.mpr fun unit hunit => by simpa using hne unit hunit
    rw [hnil, heq]
    rfl

theorem givenAmount_cons (unit : ProductUsageUnit) (units : List ProductUsageUnit)
    (resource : ProductUsageResource) : givenAmount (unit :: units) resource =
      (if unit.resource = resource then unit.quantity else 0) + givenAmount units resource := by
  by_cases h : unit.resource = resource <;> simp [givenAmount, h]

/-- Dropping the zeros changes no total. -/
theorem givenAmount_filter_pos (h : ∀ unit ∈ units, 0 ≤ unit.quantity)
    (resource : ProductUsageResource) :
    givenAmount (units.filter fun unit => unit.quantity > 0) resource =
      givenAmount units resource := by
  induction units with
  | nil => rfl
  | cons unit units ih =>
    have hrest := ih fun u hu => h u (List.mem_cons_of_mem _ hu)
    have hunit := h unit List.mem_cons_self
    by_cases hpos : unit.quantity > 0
    · rw [List.filter_cons_of_pos (by simpa using hpos), givenAmount_cons, givenAmount_cons, hrest]
    · have hzero : unit.quantity = 0 := by omega
      rw [List.filter_cons_of_neg (by simpa using hpos), givenAmount_cons, hrest, hzero, ite_self,
        zero_add]

/-- **Normalizing keeps the total of each resource.** -/
theorem amount_normalizeUnits (h : normalizeUnits units field = .ok normalized)
    (resource : ProductUsageResource) :
    amount normalized resource = givenAmount units resource := by
  rw [amount_eq_givenAmount (normal_of_normalizeUnits h)]
  obtain ⟨hassert, rfl, -⟩ := normalizeUnits_eq_ok.mp h
  rw [← givenAmount_filter_pos (fun unit hunit => (hassert unit hunit).2)]
  exact (((sortBy_perm _ _).filter _).map _).sum_eq

/-- The total of what a legacy quantity of a resource stands for. -/
theorem totalUnits_legacyUnits {resource : Option ProductUsageResource} {quantity : Int}
    (h : Normal (legacyUnits resource quantity)) : totalUnits (legacyUnits resource quantity) =
      if resource.isSome ∧ 0 < quantity then quantity else 0 := by
  rcases resource with _ | resource
  · rfl
  · by_cases hpos : 0 < quantity
    · have hunits : legacyUnits (some resource) quantity = [⟨resource, quantity⟩] := if_pos hpos
      rw [hunits] at h ⊢
      have hsafe : isSafeInteger quantity := h.safe _ List.mem_cons_self
      have hlt : quantity < 2 ^ 53 :=
        lt_of_le_of_lt (of_decide_eq_true hsafe).2 (by decide)
      have hsum : addNumbers 0 quantity = 0 + quantity := addNumbers_eq (by omega) (by omega)
      rw [if_pos ⟨rfl, hpos⟩]
      exact hsum.trans (zero_add _)
    · simp [legacyUnits, totalUnits, hpos]

/-- What a legacy quantity stands for is normal, if it is accepted at all. -/
theorem normalizeUnits_legacyUnits {resource : Option ProductUsageResource} {quantity : Int}
    (h : normalizeUnits (legacyUnits resource quantity) field = .ok normalized) :
    normalized = legacyUnits resource quantity := by
  obtain ⟨hassert, -, -⟩ := normalizeUnits_eq_ok.mp h
  have hnormal : Normal (legacyUnits resource quantity) := by
    rcases resource with _ | resource
    · exact .nil
    · by_cases hpos : quantity > 0
      · rw [legacyUnits, if_pos hpos] at hassert ⊢
        exact ⟨List.pairwise_singleton .., List.forall_mem_singleton.mpr hpos,
          fun unit hunit => (hassert unit hunit).1⟩
      · rw [legacyUnits, if_neg hpos]
        exact .nil
  exact Except.ok.inj (h.symm.trans (normalizeUnits_of_normal hnormal field))

end MeiyeAgent
