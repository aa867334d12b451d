import MeiyeAgent.Machinery.Sorting
import MeiyeAgent.Operations.ContextCompiler

/-!
# Operations/ContextBundles — a compiled context does not depend on the order of its contributions

A contribution **wins** its place when no other eligible one precedes it there.  Where the
comparison orders the contributions to a dimension, and those that tie at the front agree, what
stands in the payload is what the winners bring, and so the order they came in leaves no trace
(`contextCompiled`).
-/

namespace MeiyeAgent

open Sorting

/-! ## What a compiled context should be -/

section Spec

variable (host : Host) (contributions : List ContextContribution) (dimension : ContextDimension)

/-- A contribution that counts in a dimension. -/
def Counts (item : ContextContribution) : Prop :=
  item ∈ contributions ∧ item.dimension = dimension ∧ eligible item = true

/-- **A contribution that no other for its place precedes.** -/
def Wins (item : ContextContribution) : Prop :=
  Counts contributions dimension item ∧ ∀ other, Counts contributions dimension other →
    other.key = item.key → ¬ compareContributions host other item < 0

/-- **The payload is what its contributions make it**, whatever order they came in. -/
structure CompiledAsClaimed (digest : String → String) (input : CompileContextBundleInput) :
    Prop where
  /-- another order gives the same payload and hash -/
  order : ∀ contributions, input.contributions.Perm contributions →
    compileContextBundle host digest { input with contributions } =
      compileContextBundle host digest input
  /-- the keys are those of the contributions -/
  keys : ∀ dimension key, (((compilePayload host input).dimensions dimension).get? key).isSome ↔
    ∃ item, Counts input.contributions dimension item ∧ item.key = key
  /-- an entry is that of a contribution that wins its place -/
  winners : ∀ dimension key value,
    ((compilePayload host input).dimensions dimension).get? key = some value →
      ∃ item, Wins host input.contributions dimension item ∧ item.key = key ∧
        value = resolve host item
  /-- the facts referred to are those of the entries, each once -/
  facts : ∀ fact, fact ∈ (compilePayload host input).referencedFactRevisions ↔
    ∃ dimension item, Wins host input.contributions dimension item ∧
      item.factRevision = some fact
  once : (compilePayload host input).referencedFactRevisions.Nodup

/-- What a contribution brings to its place. -/
def brought (item : ContextContribution) :
    String × ResolvedContextValue × Option FactRevision :=
  (item.key, resolve host item, item.factRevision)

/-- The comparison of the sort. -/
def compareCandidates (left right : ContextContribution) : Int :=
  orElse (host.localeCompare left.key right.key) (compareContributions host left right)

/-- **The condition on the contributions.** -/
structure Compilable : Prop where
  /-- no key is a name every object has -/
  own : ∀ dimension item, Counts contributions dimension item → item.key ∉ objectNames
  /-- among keys that compare alike, the comparison is transitive -/
  ordered : ∀ dimension a b c, Counts contributions dimension a →
    Counts contributions dimension b → Counts contributions dimension c →
    host.localeCompare a.key b.key = 0 → host.localeCompare b.key c.key = 0 →
    compareContributions host a b ≤ 0 → compareContributions host b c ≤ 0 →
      compareContributions host a c ≤ 0
  /-- winners that the sort cannot tell apart bring the same -/
  ties : ∀ dimension a b, Wins host contributions dimension a →
    Wins host contributions dimension b → compareCandidates host a b = 0 →
      brought host a = brought host b
  /-- winners refer to one revision of a fact -/
  revisions : ∀ dimension dimension' a b fact fact', Wins host contributions dimension a →
    Wins host contributions dimension' b → a.factRevision = some fact →
    b.factRevision = some fact' → fact.factId = fact'.factId → fact = fact'

end Spec

/-! ## The comparison -/

section Comparison

variable {host : Host} {a b c : ContextContribution}

theorem orElse_neg_iff {a b a' b' : Int} (ha : a < 0 ↔ 0 < a') (ha' : 0 < a ↔ a' < 0)
    (hb : b < 0 ↔ 0 < b') : orElse a b < 0 ↔ 0 < orElse a' b' := by
  rw [orElse, orElse]
  split <;> split <;> omega

/-- **One of two contributions precedes, or they tie.** -/
theorem compareContributions_antisymm (h : Collates host) :
    compareContributions host a b < 0 ↔ 0 < compareContributions host b a := by
  have hfacts : ∀ s t : Option FactSnapshot,
      compareFacts host s t < 0 ↔ 0 < compareFacts host t s := by
    intro s t
    cases s with
    | none => cases t <;> simp [compareFacts]
    | some s =>
      cases t with
      | none => simp [compareFacts]
      | some t =>
        rw [compareFacts, compareFacts, factOrder, factOrder]
        cases host.dateParse s.effectiveFrom <;> cases host.dateParse t.effectiveFrom <;>
          simp only [Num.sub, bind, Option.bind, pure, Option.getD_none, Option.getD_some] <;>
          refine orElse_neg_iff ?_ ?_ ?_ <;> omega
  have hswap : ∀ s t : Option FactSnapshot,
      0 < compareFacts host s t ↔ compareFacts host t s < 0 := fun s t => (hfacts t s).symm
  refine orElse_neg_iff (hfacts _ _) (hswap _ _) (orElse_neg_iff ?_ ?_
    (orElse_neg_iff (h.antisymm _ _) (h.antisymm' _ _) (h.antisymm _ _))) <;> omega

theorem compareCandidates_antisymm (h : Collates host) :
    compareCandidates host a b < 0 ↔ 0 < compareCandidates host b a :=
  orElse_neg_iff (h.antisymm _ _) (h.antisymm' _ _) (compareContributions_antisymm h)

theorem compareCandidates_self (h : Collates host) : compareCandidates host a a = 0 := by
  have := compareCandidates_antisymm (a := a) (b := a) h
  omega

theorem compareCandidates_of_key (h : Collates host) (hkey : a.key = b.key) :
    compareCandidates host a b = compareContributions host a b := by
  rw [compareCandidates, hkey, h.self, orElse, if_pos rfl]

/-- The comparison orders, where it orders among keys that compare alike. -/
theorem compareCandidates_trans (h : Collates host)
    (hordered : host.localeCompare a.key b.key = 0 → host.localeCompare b.key c.key = 0 →
      compareContributions host a b ≤ 0 → compareContributions host b c ≤ 0 →
        compareContributions host a c ≤ 0)
    (hab : compareCandidates host a b ≤ 0) (hbc : compareCandidates host b c ≤ 0) :
    compareCandidates host a c ≤ 0 := by
  rw [compareCandidates, orElse] at hab hbc ⊢
  have hkeys := h.trans a.key b.key c.key
  have hback := h.trans c.key a.key b.key
  have hback' := h.trans b.key c.key a.key
  have hanti := h.antisymm a.key b.key
  have hanti' := h.antisymm b.key c.key
  have hanti'' := h.antisymm a.key c.key
  have hanti3 := h.antisymm b.key a.key
  have hanti4 := h.antisymm c.key b.key
  have hanti5 := h.antisymm c.key a.key
  split at hab <;> split at hbc <;> split
  all_goals omega

end Comparison

/-! ## What is chosen -/

section Chosen

variable (host : Host) (contributions : List ContextContribution) (dimension : ContextDimension)

/-- The contributions that take the places of a dimension. -/
def chosen : List ContextContribution :=
  firsts (·.key) objectNames (candidates host contributions dimension)

variable {host contributions dimension} {item : ContextContribution}

theorem mem_candidates :
    item ∈ candidates host contributions dimension ↔ Counts contributions dimension item := by
  rw [candidates, (sortBy_perm _ _).mem_iff, List.mem_filter]
  simp [Counts]

theorem candidates_sorted (hcollates : Collates host) (hmet : Compilable host contributions) :
    (candidates host contributions dimension).Pairwise fun a b =>
      compareCandidates host a b ≤ 0 := by
  have hmem : ∀ item ∈ contributions.filter
        (fun item => item.dimension = dimension && eligible item),
      Counts contributions dimension item := fun item hitem =>
    mem_candidates.mp ((sortBy_perm _ _).mem_iff.mpr hitem : item ∈ candidates host _ _)
  refine pairwise_of_mem (r := fun a b => compareCandidates host a b ≤ 0) (fun a _ b _ => ?_)
    fun a ha b hb c hc hab hbc => ?_
  · have := compareCandidates_antisymm (a := a) (b := b) hcollates
    omega
  · exact compareCandidates_trans hcollates (fun hkey hkey' hab hbc =>
      hmet.ordered dimension a b c (hmem a ha) (hmem b hb) (hmem c hc) hkey hkey' hab hbc) hab hbc

theorem counts_of_chosen (h : item ∈ chosen host contributions dimension) :
    Counts contributions dimension item ∧ item.key ∉ objectNames :=
  ⟨mem_candidates.mp (mem_of_mem_firsts h).1, (mem_of_mem_firsts h).2⟩

/-- **What is chosen wins.** -/
theorem wins_of_chosen (hcollates : Collates host) (hmet : Compilable host contributions)
    (h : item ∈ chosen host contributions dimension) :
    Wins host contributions dimension item := by
  refine ⟨(counts_of_chosen h).1, fun other hother hkey hprecedes => ?_⟩
  have hle : compareCandidates host item other ≤ 0 :=
    firsts_le (r := fun a b => compareCandidates host a b ≤ 0)
      (fun a => (compareCandidates_self hcollates).le)
      (candidates_sorted hcollates hmet) h (mem_candidates.mpr hother) hkey
  rw [compareCandidates_of_key hcollates hkey.symm] at hle
  have := compareContributions_antisymm (a := other) (b := item) hcollates
  omega

/-- **A winner brings what is chosen.** -/
theorem chosen_of_wins (hcollates : Collates host) (hmet : Compilable host contributions)
    (h : Wins host contributions dimension item) :
    ∃ other ∈ chosen host contributions dimension, brought host other = brought host item := by
  obtain ⟨other, hother, hkey⟩ :=
    exists_mem_firsts (mem_candidates.mpr h.1) (hmet.own dimension item h.1)
  have hwins := wins_of_chosen hcollates hmet hother
  refine ⟨other, hother, hmet.ties dimension other item hwins h ?_⟩
  rw [compareCandidates_of_key hcollates hkey]
  have hfirst := h.2 other hwins.1 hkey
  have hsecond := hwins.2 item h.1 hkey.symm
  have := compareContributions_antisymm (a := item) (b := other) hcollates
  omega

/-- The comparison of what two candidates bring. -/
theorem compareCandidates_congr {a b a' b' : ContextContribution}
    (ha : brought host a = brought host a') (hb : brought host b = brought host b') :
    compareCandidates host a b = compareCandidates host a' b' := by
  simp only [brought, resolve, Prod.mk.injEq, ResolvedContextValue.mk.injEq] at ha hb
  obtain ⟨hkey, ⟨hvalue, hlayer, -, hsource, hsnapshot⟩, -⟩ := ha
  obtain ⟨hkey', ⟨hvalue', hlayer', -, hsource', hsnapshot'⟩, -⟩ := hb
  have htext : Json.canonicalJson host a.value = Json.canonicalJson host a'.value :=
    congrArg (fun value : JsonValue => String.ofList (Json.chars value.val)) hvalue
  have htext' : Json.canonicalJson host b.value = Json.canonicalJson host b'.value :=
    congrArg (fun value : JsonValue => String.ofList (Json.chars value.val)) hvalue'
  rw [compareCandidates, compareContributions, hkey, hkey', hlayer, hlayer', hsource, hsource',
    hsnapshot, hsnapshot', htext, htext', compareCandidates, compareContributions]

variable {other : List ContextContribution}

/-- The contributions in another order. -/
theorem Compilable.perm (hperm : contributions.Perm other) (h : Compilable host contributions) :
    Compilable host other := by
  have hcounts : ∀ dimension item, Counts other dimension item ↔
      Counts contributions dimension item := fun dimension item =>
    and_congr_left fun _ => hperm.mem_iff.symm
  have hwins : ∀ dimension item, Wins host other dimension item ↔
      Wins host contributions dimension item := fun dimension item => by
    simp only [Wins, hcounts]
  refine ⟨fun dimension item => ?_, fun dimension a b c => ?_, fun dimension a b => ?_,
    fun dimension dimension' a b => ?_⟩
  · rw [hcounts]
    exact h.own dimension item
  · rw [hcounts, hcounts, hcounts]
    exact h.ordered dimension a b c
  · rw [hwins, hwins]
    exact h.ties dimension a b
  · rw [hwins, hwins]
    exact h.revisions dimension dimension' a b

theorem wins_perm (hperm : contributions.Perm other) :
    Wins host other dimension item ↔ Wins host contributions dimension item := by
  have hcounts : ∀ item, Counts other dimension item ↔ Counts contributions dimension item :=
    fun item => and_congr_left fun _ => hperm.mem_iff.symm
  simp only [Wins, hcounts]

/-- **What is brought to the places does not depend on the order.** -/
theorem chosen_perm (hcollates : Collates host) (hmet : Compilable host contributions)
    (hperm : contributions.Perm other) : (chosen host other dimension).map (brought host) =
      (chosen host contributions dimension).map (brought host) := by
  have hmet' := hmet.perm hperm
  -- the order of what is brought, whichever contributions bring it
  let le : (String × ResolvedContextValue × Option FactRevision) →
      (String × ResolvedContextValue × Option FactRevision) → Prop := fun x y =>
    ∀ a b, brought host a = x → brought host b = y → compareCandidates host a b ≤ 0
  have hsorted : ∀ {contributions}, Compilable host contributions →
      ((chosen host contributions dimension).map (brought host)).Pairwise le := fun hmet => by
    rw [List.pairwise_map]
    refine ((candidates_sorted hcollates hmet).sublist (firsts_sublist _ _)).imp ?_
    intro a b hab a' b' ha hb
    rwa [compareCandidates_congr ha hb]
  have hnodup : ∀ contributions,
      ((chosen host contributions dimension).map (brought host)).Nodup := fun contributions => by
    refine List.Nodup.of_map Prod.fst ?_
    rw [List.map_map]
    exact nodup_firsts objectNames (candidates host contributions dimension)
  refine eq_of_mem_iff (hsorted hmet') (hsorted hmet) (hnodup _) (hnodup _) (fun x => ?_) ?_
  · simp only [List.mem_map]
    constructor
    · rintro ⟨a, ha, rfl⟩
      exact chosen_of_wins hcollates hmet
        ((wins_perm hperm).mp (wins_of_chosen hcollates hmet' ha))
    · rintro ⟨a, ha, rfl⟩
      exact chosen_of_wins hcollates hmet'
        ((wins_perm hperm).mpr (wins_of_chosen hcollates hmet ha))
  · simp only [List.mem_map]
    rintro _ ⟨a, ha, rfl⟩ _ ⟨b, hb, rfl⟩ hab hba
    refine hmet'.ties dimension a b (wins_of_chosen hcollates hmet' ha)
      (wins_of_chosen hcollates hmet' hb) ?_
    have hle := hab a b rfl rfl
    have hge := hba b a rfl rfl
    have := compareCandidates_antisymm (a := a) (b := b) hcollates
    omega

end Chosen

/-! ## What is compiled of what is chosen -/

section Compiled

variable {host : Host} {contributions : List ContextContribution} {dimension : ContextDimension}

/-- The loop over the candidates takes the first of each key. -/
theorem foldl_takePlace : ∀ (items : List ContextContribution) (seen : List String)
    (selection : ContextSelection),
    (∀ key, key ∈ seen ↔ (selection.places.get? key).isSome ∨ key ∈ objectNames) →
    (items.foldl (takePlace host) selection).places.entries = selection.places.entries ++
        (firsts (·.key) seen items).map (fun item => (item.key, resolve host item)) ∧
      (items.foldl (takePlace host) selection).selectedFacts =
        (firsts (·.key) seen items).foldl selectFact selection.selectedFacts
  | [], _, selection, _ => ⟨(List.append_nil _).symm, rfl⟩
  | item :: items, seen, selection, hseen => by
    rw [List.foldl_cons, takePlace, firsts]
    by_cases hkey : item.key ∈ seen
    · rw [if_pos ((hseen item.key).mp hkey), if_pos hkey]
      exact foldl_takePlace items seen selection hseen
    · have hnot := mt (hseen item.key).mpr hkey
      have hnone : selection.places.get? item.key = none := by
        rw [not_or] at hnot
        simpa using hnot.1
      rw [if_neg hnot, if_neg hkey]
      obtain ⟨hplaces, hfacts⟩ := foldl_takePlace items (item.key :: seen)
        { places := selection.places.set item.key (resolve host item)
          selectedFacts := selectFact selection.selectedFacts item } fun key => by
        rw [List.mem_cons, OrderedMap.get?_set, hseen key]
        by_cases heq : key = item.key <;> simp [heq]
      refine ⟨?_, hfacts⟩
      rw [hplaces, OrderedMap.entries_set_of_none hnone, List.map_cons, List.append_assoc,
        List.singleton_append]

/-- The places of a dimension. -/
def placesOf (host : Host) (contributions : List ContextContribution)
    (dimension : ContextDimension) : OrderedMap String ResolvedContextValue :=
  (selectDimension host contributions .empty dimension).places

theorem selectDimension_spec (facts : OrderedMap String Nat) :
    (selectDimension host contributions facts dimension).places.entries =
        (chosen host contributions dimension).map (fun item => (item.key, resolve host item)) ∧
      (selectDimension host contributions facts dimension).selectedFacts =
        (chosen host contributions dimension).foldl selectFact facts :=
  foldl_takePlace (candidates host contributions dimension) objectNames
    { selectedFacts := facts } fun key => by simp

theorem placesOf_eq {places : OrderedMap String ResolvedContextValue}
    (h : places.entries =
      (chosen host contributions dimension).map fun item => (item.key, resolve host item)) :
    places = placesOf host contributions dimension := by
  have hentries := h.trans (selectDimension_spec .empty).1.symm
  obtain ⟨entries, nodup⟩ := places
  rw [placesOf]
  generalize (selectDimension host contributions .empty dimension).places = other at hentries
  obtain ⟨entries', nodup'⟩ := other
  cases hentries
  rfl

theorem selectDimensions_eq : selectDimensions host contributions =
    (placesOf host contributions,
      (contextDimensions.flatMap (chosen host contributions)).foldl selectFact .empty) := by
  have hgeneral : ∀ (listed : List ContextDimension)
      (dimensions : ContextDimension → OrderedMap String ResolvedContextValue)
      (facts : OrderedMap String Nat),
      listed.foldl (fun acc dimension =>
        let selection := selectDimension host contributions acc.2 dimension
        (Function.update acc.1 dimension selection.places, selection.selectedFacts))
          (dimensions, facts) =
      (fun dimension => if dimension ∈ listed then placesOf host contributions dimension
          else dimensions dimension,
        (listed.flatMap (chosen host contributions)).foldl selectFact facts) := by
    intro listed
    induction listed with
    | nil => exact fun dimensions facts => by simp
    | cons dimension listed ih =>
      intro dimensions facts
      rw [List.foldl_cons, ih, (selectDimension_spec facts).2, List.flatMap_cons,
        List.foldl_append]
      congr 1
      funext other
      by_cases hmem : other ∈ listed
      · rw [if_pos hmem, if_pos (List.mem_cons_of_mem dimension hmem)]
      · rw [if_neg hmem]
        by_cases heq : other = dimension
        · rw [heq, Function.update_self, if_pos List.mem_cons_self]
          exact placesOf_eq (selectDimension_spec facts).1
        · rw [Function.update_of_ne heq, if_neg fun hcons => (List.mem_cons.mp hcons).elim heq hmem]
  refine (hgeneral ..).trans ?_
  congr 1
  funext dimension
  cases dimension <;> rfl

theorem mem_places {key : String} {value : ResolvedContextValue} :
    (placesOf host contributions dimension).get? key = some value ↔
      ∃ item ∈ chosen host contributions dimension, item.key = key ∧ resolve host item = value := by
  rw [OrderedMap.get?_eq_some, placesOf, (selectDimension_spec .empty).1, List.mem_map]
  simp only [Prod.mk.injEq]

/-- **The facts selected are those of the contributions**, where each fact has one revision. -/
theorem get?_selectFacts {items : List ContextContribution}
    (hone : ∀ a ∈ items, ∀ b ∈ items, ∀ fact fact', a.factRevision = some fact →
      b.factRevision = some fact' → fact.factId = fact'.factId → fact = fact')
    (fact : FactRevision) :
    (items.foldl selectFact .empty).get? fact.factId = some fact.revision ↔
      ∃ item ∈ items, item.factRevision = some fact := by
  induction items using List.reverseRecOn with
  | nil => simp
  | append_singleton items item ih =>
    have hbefore := ih fun a ha b hb =>
      hone a (List.mem_append_left _ ha) b (List.mem_append_left _ hb)
    have hlast : item ∈ items ++ [item] := List.mem_append_right _ List.mem_cons_self
    rw [List.foldl_append, List.foldl_cons, List.foldl_nil, selectFact]
    cases hfact : item.factRevision with
    | none =>
      rw [hbefore]
      simp [or_and_right, exists_or, hfact]
    | some last =>
      simp only [OrderedMap.get?_set]
      split
      · next hid =>
        constructor
        · intro hrevision
          refine ⟨item, hlast, ?_⟩
          obtain ⟨factId, revision⟩ := fact
          obtain ⟨factId', revision'⟩ := last
          simp only [Option.some.injEq] at hid hrevision
          rw [hfact, hid, hrevision]
        · rintro ⟨other, hother, hsame⟩
          rw [hone other hother item hlast fact last hsame hfact hid]
      · next hid =>
        rw [hbefore]
        constructor
        · rintro ⟨other, hother, hsame⟩
          exact ⟨other, List.mem_append_left _ hother, hsame⟩
        · rintro ⟨other, hother, hsame⟩
          rcases List.mem_append.mp hother with hother | hother
          · exact ⟨other, hother, hsame⟩
          · obtain rfl := List.mem_singleton.mp hother
            rw [hfact] at hsame
            exact absurd (congrArg FactRevision.factId (Option.some.inj hsame)).symm hid

end Compiled

/-! ## The payload as JSON -/

section Payload

theorem wellFormed_snapshot (snapshot : FactSnapshot) : snapshot.toJson.WellFormed := by
  rw [FactSnapshot.toJson, Json.wellFormed_object]
  constructor
  · split <;> simp
  · split <;> cases snapshot.expiresAt <;>
      simp [StoreFactSource.toJson, Json.WellFormed, Json.WellFormedFields, Json.isNumeral_repr]

theorem wellFormed_value (value : ResolvedContextValue) : value.toJson.WellFormed := by
  rw [ResolvedContextValue.toJson, Json.wellFormed_object]
  cases value.factSnapshot with
  | none => exact ⟨by simp, by simpa [Json.WellFormed] using value.value.property⟩
  | some snapshot =>
    exact ⟨by simp,
      by simpa [Json.WellFormed] using ⟨value.value.property, wellFormed_snapshot snapshot⟩⟩

theorem wellFormed_sourceRevision (revision : ContextSourceRevision) :
    revision.toJson.WellFormed := by
  cases revision with
  | number revision => exact Json.isNumeral_repr revision
  | text revision => trivial

theorem wellFormed_places (places : OrderedMap String ResolvedContextValue) :
    (Json.object (Json.enumerated
      (places.entries.map fun (key, value) => (key, value.toJson)))).WellFormed := by
  have hperm := Json.enumerated_perm
    (places.entries.map fun (key, value) => (key, value.toJson))
  rw [Json.wellFormed_object]
  refine ⟨?_, fun field hfield => ?_⟩
  · rw [(hperm.map _).nodup_iff, List.map_map]
    exact places.nodup
  · obtain ⟨⟨key, value⟩, -, rfl⟩ := List.mem_map.mp (hperm.mem_iff.mp hfield)
    exact wellFormed_value value

theorem wellFormed_payload (payload : ContextBundlePayload) : payload.toJson.WellFormed := by
  have hrevisions : payload.sourceRevisions.toJson.WellFormed := by
    rw [ContextSourceRevisions.toJson, Json.wellFormed_object]
    exact ⟨by simp, by simp [wellFormed_sourceRevision]⟩
  have hdimensions : (Json.object (contextDimensions.map fun dimension => (dimension.text,
      .object (Json.enumerated ((payload.dimensions dimension).entries.map fun (key, value) =>
        (key, value.toJson)))))).WellFormed := by
    rw [Json.wellFormed_object]
    refine ⟨?_, fun field hfield => ?_⟩
    · rw [List.map_map]
      change (contextDimensions.map ContextDimension.text).Nodup
      decide
    · obtain ⟨dimension, -, rfl⟩ := List.mem_map.mp hfield
      exact wellFormed_places (payload.dimensions dimension)
  have hfacts : (Json.array (payload.referencedFactRevisions.map
      FactRevision.toJson)).WellFormed := by
    rw [Json.wellFormed_array]
    intro item hitem
    obtain ⟨fact, -, rfl⟩ := List.mem_map.mp hitem
    rw [FactRevision.toJson, Json.wellFormed_object]
    exact ⟨by simp, by simp [Json.WellFormed, Json.isNumeral_repr]⟩
  rw [ContextBundlePayload.toJson, Json.wellFormed_object]
  refine ⟨by simp, ?_⟩
  simp only [List.forall_mem_cons]
  exact ⟨trivial, trivial, trivial, hrevisions, hdimensions, hfacts, nofun⟩

end Payload

/-! ## The context that is compiled -/

section Compiles

variable {host : Host} {digest : String → String} {input : CompileContextBundleInput}

theorem foldl_selectFact_congr {items others : List ContextContribution}
    (facts : OrderedMap String Nat)
    (h : items.map (brought host) = others.map (brought host)) :
    items.foldl selectFact facts = others.foldl selectFact facts := by
  induction items generalizing others facts with
  | nil => rw [List.map_eq_nil_iff.mp h.symm]
  | cons item items ih =>
    rw [List.map_cons] at h
    obtain ⟨other, others', rfl, hitem, hitems⟩ := List.map_eq_cons_iff.mp h.symm
    have hrevision : other.factRevision = item.factRevision := congrArg (fun x => x.2.2) hitem
    rw [List.foldl_cons, List.foldl_cons, selectFact, selectFact, hrevision]
    exact ih _ hitems.symm

/-- **Another order compiles to the same payload.** -/
theorem compilePayload_perm (hcollates : Collates host)
    (hmet : Compilable host input.contributions) {contributions : List ContextContribution}
    (hperm : input.contributions.Perm contributions) :
    compilePayload host { input with contributions } = compilePayload host input := by
  have hchosen : ∀ dimension, (chosen host contributions dimension).map (brought host) =
      (chosen host input.contributions dimension).map (brought host) := fun _ =>
    chosen_perm hcollates hmet hperm
  have hplaces : placesOf host contributions = placesOf host input.contributions := by
    funext dimension
    refine placesOf_eq ((selectDimension_spec .empty).1.trans ?_)
    have hmap := congrArg (List.map fun x => (x.1, x.2.1)) (hchosen dimension)
    rwa [List.map_map, List.map_map] at hmap
  have hfacts : (contextDimensions.flatMap (chosen host contributions)).foldl selectFact .empty =
      (contextDimensions.flatMap (chosen host input.contributions)).foldl selectFact .empty := by
    refine foldl_selectFact_congr _ (?_ : List.map (brought host) _ = _)
    rw [List.map_flatMap, List.map_flatMap]
    exact congrArg (fun f => List.flatMap f contextDimensions) (funext hchosen)
  rw [compilePayload, compilePayload, selectDimensions_eq, selectDimensions_eq, hplaces, hfacts]

theorem mem_chosen_flatMap {contributions : List ContextContribution} {item : ContextContribution} :
    item ∈ contextDimensions.flatMap (chosen host contributions) ↔
      ∃ dimension, item ∈ chosen host contributions dimension := by
  rw [List.mem_flatMap]
  refine ⟨fun ⟨dimension, _, hitem⟩ => ⟨dimension, hitem⟩, fun ⟨dimension, hitem⟩ =>
    ⟨dimension, ?_, hitem⟩⟩
  cases dimension <;> decide

/-- **What is compiled is what is claimed**, under the condition. -/
theorem compiledAsClaimed (hcollates : Collates host)
    (hmet : Compilable host input.contributions) : CompiledAsClaimed host digest input := by
  have hone : ∀ a ∈ contextDimensions.flatMap (chosen host input.contributions),
      ∀ b ∈ contextDimensions.flatMap (chosen host input.contributions), ∀ fact fact',
      a.factRevision = some fact → b.factRevision = some fact' → fact.factId = fact'.factId →
        fact = fact' := by
    intro a ha b hb fact fact'
    obtain ⟨dimension, ha⟩ := mem_chosen_flatMap.mp ha
    obtain ⟨dimension', hb⟩ := mem_chosen_flatMap.mp hb
    exact hmet.revisions dimension dimension' a b fact fact' (wins_of_chosen hcollates hmet ha)
      (wins_of_chosen hcollates hmet hb)
  refine ⟨fun contributions hperm => ?_, fun dimension key => ?_,
    fun dimension key value hvalue => ?_, fun fact => ?_, ?_⟩
  · rw [compileContextBundle, compilePayload_perm hcollates hmet hperm]
    rfl
  · rw [compilePayload, selectDimensions_eq, Option.isSome_iff_exists]
    constructor
    · rintro ⟨value, hvalue⟩
      obtain ⟨item, hitem, hkey, -⟩ := mem_places.mp hvalue
      exact ⟨item, (counts_of_chosen hitem).1, hkey⟩
    · rintro ⟨item, hitem, hkey⟩
      have hcandidate : item ∈ candidates host input.contributions dimension :=
        mem_candidates.mpr hitem
      obtain ⟨other, hother, hsame⟩ :=
        exists_mem_firsts hcandidate (hmet.own dimension item hitem)
      exact ⟨resolve host other, mem_places.mpr ⟨other, hother, hsame.trans hkey, rfl⟩⟩
  · rw [compilePayload, selectDimensions_eq] at hvalue
    obtain ⟨item, hitem, hkey, hresolve⟩ := mem_places.mp hvalue
    exact ⟨item, wins_of_chosen hcollates hmet hitem, hkey, hresolve.symm⟩
  · rw [compilePayload, selectDimensions_eq]
    simp only [(sortBy_perm _ _).mem_iff, List.mem_map]
    have hget := get?_selectFacts hone fact
    rw [OrderedMap.get?_eq_some] at hget
    constructor
    · rintro ⟨⟨factId, revision⟩, hentry, rfl⟩
      obtain ⟨item, hitem, hfact⟩ := hget.mp hentry
      obtain ⟨dimension, hitem⟩ := mem_chosen_flatMap.mp hitem
      exact ⟨dimension, item, wins_of_chosen hcollates hmet hitem, hfact⟩
    · rintro ⟨dimension, item, hwins, hfact⟩
      obtain ⟨other, hother, hsame⟩ := chosen_of_wins hcollates hmet hwins
      have hrevision : other.factRevision = item.factRevision := congrArg (fun x => x.2.2) hsame
      exact ⟨(fact.factId, fact.revision), hget.mpr ⟨other, mem_chosen_flatMap.mpr
        ⟨dimension, hother⟩, hrevision.trans hfact⟩, rfl⟩
  · rw [compilePayload, selectDimensions_eq]
    simp only [(sortBy_perm _ _).nodup_iff]
    refine List.Nodup.of_map FactRevision.factId ?_
    rw [List.map_map]
    exact OrderedMap.nodup _

/-- **A compiled context does not depend on the order of its contributions and loses none**, where
the contributions are compilable; and payloads of one hash are equal as JSON, where the digest tells
their texts apart. -/
theorem contextCompiled (host : Host) (hcollates : Collates host) (digest : String → String) :
    (∀ input : CompileContextBundleInput, Compilable host input.contributions →
      CompiledAsClaimed host digest input) ∧
    ∀ payload payload' : ContextBundlePayload,
      (digest (Json.canonicalJson host payload.toJson) =
          digest (Json.canonicalJson host payload'.toJson) →
        Json.canonicalJson host payload.toJson = Json.canonicalJson host payload'.toJson) →
      hashContextBundlePayload host digest payload = hashContextBundlePayload host digest payload' →
        Json.Same payload.toJson payload'.toJson :=
  ⟨fun _ hmet => compiledAsClaimed hcollates hmet, fun payload payload' hinjective hhash =>
    Json.same_of_canonicalJson (wellFormed_payload payload) (wellFormed_payload payload')
      (hinjective hhash)⟩

end Compiles

/-! ## Concrete contexts -/

section Concrete

/-- A contribution to the facts and assets of a store. -/
def contributed (key : String) (layer : ContextPriorityLayer) (pool : ContextPool) :
    ContextContribution where
  dimension := .store_facts_assets
  key
  value := ⟨.text "39.9", trivial⟩
  layer
  pool
  sourceRef := "menu"

def taskOf (contributions : List ContextContribution) : CompileContextBundleInput where
  workspaceId := "workspace"
  taskId := "task"
  sourceRevisions := ⟨.number 1, .number 1, .number 1, .number 1, .number 1, .number 1, .number 1,
    .number 1⟩
  contributions

/-- One price, of which the confirmed one precedes the recipe's. -/
def twoPrices : List ContextContribution :=
  [contributed "price" .industry_recipe .industry,
    contributed "price" .confirmed_asset .store_personal]

theorem compilable_twoPrices : Compilable isoHost twoPrices := by
  have hmem : ∀ dimension item, Counts twoPrices dimension item →
      item = contributed "price" .industry_recipe .industry ∨
        item = contributed "price" .confirmed_asset .store_personal := fun dimension item h => by
    simpa [twoPrices] using h.1
  refine ⟨fun dimension item h => ?_, fun dimension a b c ha hb hc _ _ hab hbc => ?_,
    fun dimension a b ha hb htie => ?_, fun dimension dimension' a b fact fact' ha _ hfact => ?_⟩
  · rcases hmem dimension item h with rfl | rfl <;> decide
  · rcases hmem dimension a ha with rfl | rfl <;> rcases hmem dimension b hb with rfl | rfl <;>
      rcases hmem dimension c hc with rfl | rfl <;>
      first | exact hab | exact hbc | decide +kernel
  · rcases hmem dimension a ha.1 with rfl | rfl <;> rcases hmem dimension b hb.1 with rfl | rfl
    · rfl
    · exact absurd htie (by decide +kernel)
    · exact absurd htie (by decide +kernel)
    · rfl
  · rcases hmem dimension a ha.1 with rfl | rfl <;> cases hfact

theorem contextCompiled_twoPrices :
    CompiledAsClaimed isoHost id (taskOf twoPrices) ∧
      Json.Same (compilePayload isoHost (taskOf twoPrices.reverse)).toJson
        (compilePayload isoHost (taskOf twoPrices)).toJson := by
  obtain ⟨hcompiled, hhash⟩ := contextCompiled isoHost collates_isoHost id
  have hclaimed := hcompiled (taskOf twoPrices) compilable_twoPrices
  exact ⟨hclaimed, hhash _ _ id (congrArg CompiledContextBundle.hash
    (hclaimed.order twoPrices.reverse (List.reverse_perm twoPrices).symm))⟩

/-- **A key that every object has gets no place**, and of two contributions that tie the first to
come is taken. -/
theorem not_contextCompiled :
    (¬ CompiledAsClaimed isoHost id
        (taskOf [contributed "constructor" .confirmed_asset .store_personal])) ∧
      ¬ CompiledAsClaimed isoHost id (taskOf [contributed "price" .confirmed_asset .industry,
        contributed "price" .confirmed_asset .store_personal]) := by
  constructor
  · intro h
    have hplace := (h.keys .store_facts_assets "constructor").mpr
      ⟨contributed "constructor" .confirmed_asset .store_personal,
        ⟨List.mem_cons_self, rfl, rfl⟩, rfl⟩
    exact absurd hplace (by decide +kernel)
  · intro h
    have horder := h.order _ (List.Perm.swap _ _ [])
    have hpool := congrArg (fun bundle => ((bundle.payload.dimensions .store_facts_assets).get?
      "price").map ResolvedContextValue.pool) horder
    exact absurd hpool (by decide +kernel)

end Concrete

end MeiyeAgent
