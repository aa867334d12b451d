import Mathlib.Data.List.Permutation
import Mathlib.Data.Prod.Lex
import MeiyeAgent.Foundation.JsonReading
import MeiyeAgent.GoalProactive.CampaignPaidWork
import MeiyeAgent.Machinery.Comparators
import MeiyeAgent.Machinery.Standing
import MeiyeAgent.Operations.ReuseMemory

/-!
# Operations/MemoryPages — the memories of a workspace, page by page

The memory repository sorts the entries by `localeCompare` and goes on behind a cursor by code
units.  An entry is known here by its candidate.

* `decode_encode_cursor` — a cursor is read back.
* `pagesFrom_of_pairwise`, `pairwise_of_pages` — pages cut from a list in the order of the cursors
  are that list, and no others are.
* `pagesWell_iff` — **the pages visit every entry once** exactly when the two orders agree.
-/

namespace MeiyeAgent

/-! ## Cursors -/

structure MemoryEntriesCursor where
  rank : Nat
  proposedAt : String
  candidateId : String
  deriving DecidableEq

def memoryEntrySortRank (kind : Option PreferenceMemoryKind) : Nat :=
  if kind = some .correction then 0 else 1

def encodeMemoryEntriesCursor (cursor : MemoryEntriesCursor) : String :=
  base64url (String.ofList (Json.chars (.array [.text (Nat.repr cursor.rank),
    .text cursor.proposedAt, .text cursor.candidateId])))

/-- A rank is read of decimal digits only. -/
def decodeMemoryEntriesCursor (cursor : String) : Option MemoryEntriesCursor := do
  let (rank, proposedAt, candidateId) ← Json.readTexts (Base64.fromBase64 cursor)
  return { rank := ← rank.toNat?, proposedAt, candidateId }

/-- The place of an entry among the pages. -/
def PreferenceCandidate.cursor (candidate : PreferenceCandidate) : MemoryEntriesCursor where
  rank := memoryEntrySortRank candidate.kind
  proposedAt := candidate.proposedAt
  candidateId := candidate.candidateId

/-- `left < right` on texts. -/
def textLt (left right : String) : Bool := codeUnits left < codeUnits right

/-- A page behind the cursor holds the entry. -/
def MemoryEntriesCursor.isBefore (cursor : MemoryEntriesCursor)
    (candidate : PreferenceCandidate) : Bool :=
  let rank := memoryEntrySortRank candidate.kind
  if cursor.rank < rank then true
  else if rank < cursor.rank then false
  else textLt candidate.proposedAt cursor.proposedAt ||
    (candidate.proposedAt = cursor.proposedAt && textLt candidate.candidateId cursor.candidateId)

/-! ## Pages -/

/-- The candidates in the order they were saved, and the ids of deleted entries. -/
structure MemoryReuseMemoryRepository where
  preferenceCandidates : List PreferenceCandidate
  entryTombstones : List (String × String) := []
  nodup : (preferenceCandidates.map fun candidate =>
    (candidate.workspaceId, candidate.candidateId)).Nodup := by decide

structure MemoryEntriesPage where
  items : List PreferenceCandidate
  nextCursor : Option String

section Pages

variable (host : Host) (repository : MemoryReuseMemoryRepository) (workspaceId : String)

/-- The entries of a workspace that were not deleted. -/
def MemoryReuseMemoryRepository.undeleted : List PreferenceCandidate :=
  repository.preferenceCandidates.filter fun candidate =>
    candidate.workspaceId = workspaceId ∧
      (workspaceId, candidate.candidateId) ∉ repository.entryTombstones

/-- Corrections first, then the later instants as `localeCompare` puts their texts. -/
def compareMemoryEntries (left right : PreferenceCandidate) : Int :=
  let rankDelta : Int := (memoryEntrySortRank left.kind : Int) - memoryEntrySortRank right.kind
  let byDate := host.localeCompare right.proposedAt left.proposedAt
  if rankDelta ≠ 0 then rankDelta
  else if byDate ≠ 0 then byDate
  else host.localeCompare right.candidateId left.candidateId

def orderedEntries : List PreferenceCandidate :=
  sortBy (fun left right => some (compareMemoryEntries host left right))
    (repository.undeleted workspaceId)

/-- `None` where the cursor is no cursor. -/
def listMemoryEntriesPage (limit : Nat) (cursor : Option String) : Option MemoryEntriesPage := do
  let ordered := orderedEntries host repository workspaceId
  let after ← match truthy cursor with
    | none => pure ordered
    | some text => do
      let cursor ← decodeMemoryEntriesCursor text
      pure (ordered.filter cursor.isBefore)
  let selected := after.take (limit + 1)
  let pageItems := selected.take limit
  return {
    items := pageItems
    nextCursor := if limit < selected.length then
      pageItems.getLast?.map fun candidate => encodeMemoryEntriesCursor candidate.cursor else none }

/-- What the pages hold, from one on to the last; `none` where they do not end in so many. -/
def pagesFrom (limit : Nat) : Nat → Option String → Option (List PreferenceCandidate)
  | 0, _ => none
  | fuel + 1, cursor => do
    let page ← listMemoryEntriesPage host repository workspaceId limit cursor
    match page.nextCursor with
    | none => return page.items
    | some next => return page.items ++ (← pagesFrom limit fuel (some next))

/-! ## The property -/

/-- Corrections first, then the newest. -/
def NewestFirst (left right : PreferenceCandidate) : Prop :=
  memoryEntrySortRank left.kind < memoryEntrySortRank right.kind ∨
    memoryEntrySortRank left.kind = memoryEntrySortRank right.kind ∧
      host.instant right.proposedAt ≤ host.instant left.proposedAt

/-- **The pages visit every entry once**, in one order for every limit. -/
def PagesWell : Prop :=
  ∃ order : List PreferenceCandidate, order.Perm (repository.undeleted workspaceId) ∧
    order.Pairwise (NewestFirst host) ∧
    ∀ limit, 0 < limit → ∃ fuel, pagesFrom host repository workspaceId limit fuel none = some order

/-- `localeCompare` puts an entry before another, or ties them and it was saved first. -/
def SortsBefore (left right : PreferenceCandidate) : Prop :=
  Sorting.Precedes (fun a b => compareMemoryEntries host a b ≤ 0) (repository.undeleted workspaceId)
    left right

/-- **The orders agree** on the entries: what is put before another by `localeCompare` is before it
by code units, and of two instants the later one has the greater text. -/
structure OrdersAgree : Prop where
  byCodeUnits : ∀ left ∈ repository.undeleted workspaceId,
    ∀ right ∈ repository.undeleted workspaceId, left ≠ right →
      SortsBefore host repository workspaceId left right → left.cursor.isBefore right = true
  byInstant : ∀ left ∈ repository.undeleted workspaceId,
    ∀ right ∈ repository.undeleted workspaceId,
      memoryEntrySortRank left.kind = memoryEntrySortRank right.kind →
        host.instant left.proposedAt < host.instant right.proposedAt →
          textLt left.proposedAt right.proposedAt = true

end Pages

/-! ## Cursors are read back -/

theorem fromBase64_base64url (text : String) : Base64.fromBase64 (base64url text) = text := by
  have hdecode : Base64.decode (base64url text).toList =
      Base64.decode (Base64.base64 text).toList := by
    rw [base64url, String.toList_ofList, Base64.decode, Base64.decode, List.filterMap_map,
      List.filterMap_filter]
    refine congrArg Base64.bytesOf (List.filterMap_congr fun c _ => ?_)
    by_cases hpad : c = '='
    · subst hpad
      rfl
    by_cases hplus : c = '+'
    · subst hplus
      rfl
    by_cases hslash : c = '/'
    · subst hslash
      rfl
    · simp [hpad, hplus, hslash]
  rw [Base64.fromBase64, hdecode, ← Base64.fromBase64, Base64.fromBase64_base64]

/-- **A cursor is read back**, whatever its id. -/
theorem decode_encode_cursor (cursor : MemoryEntriesCursor) :
    decodeMemoryEntriesCursor (encodeMemoryEntriesCursor cursor) = some cursor := by
  rw [decodeMemoryEntriesCursor, encodeMemoryEntriesCursor, fromBase64_base64url,
    Json.readTexts_stringify]
  simp [Nat.toNat?_repr]

theorem truthy_encode (cursor : MemoryEntriesCursor) :
    truthy (some (encodeMemoryEntriesCursor cursor)) = some (encodeMemoryEntriesCursor cursor) := by
  refine Option.filter_eq_some_iff.mpr ⟨rfl, decide_eq_true fun hempty => ?_⟩
  have hread := decode_encode_cursor cursor
  have hnone : decodeMemoryEntriesCursor "" = none := by decide
  rw [hempty, hnone] at hread
  exact nomatch hread

/-! ## The order of the cursors -/

theorem textLt_iff {left right : String} : textLt left right = true ↔
    codeUnits left < codeUnits right := decide_eq_true_iff

/-- What a cursor is compared by. -/
def MemoryEntriesCursor.key (cursor : MemoryEntriesCursor) :
    Nat ×ₗ OrderDual (List Nat) ×ₗ OrderDual (List Nat) :=
  toLex (cursor.rank, toLex (OrderDual.toDual (codeUnits cursor.proposedAt),
    OrderDual.toDual (codeUnits cursor.candidateId)))

/-- **The cursors are in a linear order.** -/
theorem isBefore_iff {cursor : MemoryEntriesCursor} {candidate : PreferenceCandidate} :
    cursor.isBefore candidate = true ↔ cursor.key < candidate.cursor.key := by
  rw [MemoryEntriesCursor.key, MemoryEntriesCursor.key, Prod.Lex.toLex_lt_toLex,
    Prod.Lex.toLex_lt_toLex, OrderDual.toDual_lt_toDual, OrderDual.toDual_lt_toDual,
    OrderDual.toDual_inj, MemoryEntriesCursor.isBefore]
  dsimp only
  rcases lt_trichotomy cursor.rank (memoryEntrySortRank candidate.kind) with hlt | heq | hgt
  · simp [hlt, PreferenceCandidate.cursor]
  · simp [heq, PreferenceCandidate.cursor, textLt_iff, codeUnits_inj,
      @eq_comm _ candidate.proposedAt]
  · simp [hgt, hgt.not_gt, hgt.ne', PreferenceCandidate.cursor]

/-! ## Pages of a list -/

section Cutting

variable {host : Host} {repository : MemoryReuseMemoryRepository} {workspaceId : String}
  {limit : Nat}

/-- An entry of a page before another. -/
def PageBefore (left right : PreferenceCandidate) : Prop := left.cursor.isBefore right = true

theorem pageBefore_iff {left right : PreferenceCandidate} :
    PageBefore left right ↔ left.cursor.key < right.cursor.key := isBefore_iff

theorem PageBefore.asymm {a b : PreferenceCandidate} (h : PageBefore a b) : ¬ PageBefore b a :=
  fun h' => (pageBefore_iff.mp h).not_gt (pageBefore_iff.mp h')

/-- A page cut from what lies behind a cursor. -/
def pageOf (limit : Nat) (after : List PreferenceCandidate) : MemoryEntriesPage where
  items := after.take limit
  nextCursor := if limit < after.length then (after.take limit).getLast?.map fun candidate =>
    encodeMemoryEntriesCursor candidate.cursor else none

theorem listMemoryEntriesPage_none : listMemoryEntriesPage host repository workspaceId limit none =
    some (pageOf limit (orderedEntries host repository workspaceId)) := by
  simp [listMemoryEntriesPage, truthy, pageOf, List.take_take, List.length_take]

theorem listMemoryEntriesPage_encode (cursor : MemoryEntriesCursor) :
    listMemoryEntriesPage host repository workspaceId limit
      (some (encodeMemoryEntriesCursor cursor)) =
        some (pageOf limit
          ((orderedEntries host repository workspaceId).filter cursor.isBefore)) := by
  simp [listMemoryEntriesPage, truthy_encode, decode_encode_cursor, pageOf, List.take_take,
    List.length_take]

/-- What lies behind an entry of a list in the order of the cursors. -/
theorem filter_isBefore {before rest : List PreferenceCandidate} {last : PreferenceCandidate}
    (h : (before ++ last :: rest).Pairwise PageBefore) :
    (before ++ last :: rest).filter last.cursor.isBefore = rest := by
  obtain ⟨-, htail, hcross⟩ := List.pairwise_append.mp h
  have hbefore : before.filter last.cursor.isBefore = [] := by
    refine List.filter_eq_nil_iff.mpr fun a ha => ?_
    exact (hcross a ha last List.mem_cons_self).asymm
  have hrest : rest.filter last.cursor.isBefore = rest :=
    List.filter_eq_self.mpr fun b hb => List.rel_of_pairwise_cons htail hb
  have hself : ¬ last.cursor.isBefore last = true := fun hself => PageBefore.asymm hself hself
  rw [List.filter_append, hbefore, List.filter_cons_of_neg hself, hrest, List.nil_append]

/-- **Pages cut from a list in the order of the cursors** are the list. -/
theorem pagesFrom_of_pairwise
    (h : (orderedEntries host repository workspaceId).Pairwise PageBefore) (hlimit : 0 < limit) :
    ∀ (fuel : Nat) (done rest : List PreferenceCandidate) (cursor : Option String),
      orderedEntries host repository workspaceId = done ++ rest → rest.length < fuel →
      (done = [] ∧ cursor = none ∨ ∃ before last, done = before ++ [last] ∧
        cursor = some (encodeMemoryEntriesCursor last.cursor)) →
      pagesFrom host repository workspaceId limit fuel cursor = some rest
  | 0, _, _, _, _, hfuel, _ => absurd hfuel (Nat.not_lt_zero _)
  | fuel + 1, done, rest, cursor, horder, hfuel, hcursor => by
    have hpage : listMemoryEntriesPage host repository workspaceId limit cursor =
        some (pageOf limit rest) := by
      rcases hcursor with ⟨rfl, rfl⟩ | ⟨before, last, rfl, rfl⟩
      · rw [listMemoryEntriesPage_none, horder, List.nil_append]
      · rw [List.append_assoc, List.singleton_append] at horder
        rw [horder] at h
        rw [listMemoryEntriesPage_encode, horder, filter_isBefore h]
    rw [pagesFrom, hpage, Option.bind_eq_bind, Option.bind_some]
    by_cases hmore : limit < rest.length
    · have hne : rest.take limit ≠ [] := by
        rw [Ne, List.take_eq_nil_iff]
        rintro (rfl | rfl)
        · exact absurd hlimit (lt_irrefl _)
        · exact absurd hmore (Nat.not_lt_zero _)
      have hnext : (pageOf limit rest).nextCursor =
          some (encodeMemoryEntriesCursor ((rest.take limit).getLast hne).cursor) := by
        rw [pageOf, if_pos hmore, List.getLast?_eq_some_getLast hne, Option.map_some]
      have hlength : (rest.drop limit).length < fuel := by
        rw [List.length_drop]
        omega
      have hrest := pagesFrom_of_pairwise h hlimit fuel (done ++ rest.take limit) (rest.drop limit)
        (some (encodeMemoryEntriesCursor ((rest.take limit).getLast hne).cursor))
        (by rw [List.append_assoc, List.take_append_drop, horder]) hlength
        (.inr ⟨done ++ (rest.take limit).dropLast, _,
          by rw [List.append_assoc, List.dropLast_concat_getLast], rfl⟩)
      rw [hnext]
      dsimp only
      rw [hrest]
      exact congrArg some (List.take_append_drop limit rest)
    · have hnext : (pageOf limit rest).nextCursor = none := if_neg hmore
      rw [hnext]
      exact congrArg some (List.take_of_length_le (not_lt.mp hmore))

variable {fuel : Nat} {l : List PreferenceCandidate}

/-- A page of one entry, and what follows it. -/
theorem pagesFrom_one {cursor : Option String} {after : List PreferenceCandidate}
    (hpage : listMemoryEntriesPage host repository workspaceId 1 cursor = some (pageOf 1 after))
    (h : pagesFrom host repository workspaceId 1 (fuel + 1) cursor = some l) :
    l = [] ∨ ∃ x ∈ after, l = [x] ∨ ∃ l', l = x :: l' ∧
      pagesFrom host repository workspaceId 1 fuel
        (some (encodeMemoryEntriesCursor x.cursor)) = some l' := by
  rw [pagesFrom, hpage, Option.bind_eq_bind, Option.bind_some] at h
  rcases after with _ | ⟨x, _ | ⟨y, rest⟩⟩
  · exact .inl (Option.some.inj h).symm
  · exact .inr ⟨x, List.mem_cons_self, .inl (Option.some.inj h).symm⟩
  · have hnext : (pageOf 1 (x :: y :: rest)).nextCursor =
        some (encodeMemoryEntriesCursor x.cursor) := by
      simp [pageOf]
    rw [hnext] at h
    obtain ⟨l', hl', h⟩ := Option.bind_eq_some_iff.mp h
    exact .inr ⟨x, List.mem_cons_self, .inr ⟨l', (Option.some.inj h).symm, hl'⟩⟩

/-- **Pages of one entry each** are in the order of the cursors. -/
theorem pairwise_of_pagesFrom {cursor : MemoryEntriesCursor}
    (h : pagesFrom host repository workspaceId 1 fuel
      (some (encodeMemoryEntriesCursor cursor)) = some l) :
    l.Pairwise PageBefore ∧ ∀ x ∈ l, cursor.isBefore x = true := by
  induction fuel generalizing cursor l with
  | zero => exact nomatch h
  | succ fuel ih =>
    rcases pagesFrom_one (listMemoryEntriesPage_encode cursor) h with
      rfl | ⟨x, hx, rfl | ⟨l', rfl, hrest⟩⟩
    · exact ⟨.nil, fun _ hx => absurd hx List.not_mem_nil⟩
    · exact ⟨List.pairwise_singleton _ _, List.forall_mem_singleton.mpr (List.mem_filter.mp hx).2⟩
    · obtain ⟨hpairwise, hbefore⟩ := ih hrest
      have hx := (List.mem_filter.mp hx).2
      refine ⟨List.pairwise_cons.mpr ⟨hbefore, hpairwise⟩, List.forall_mem_cons.mpr ⟨hx, ?_⟩⟩
      intro y hy
      exact isBefore_iff.mpr ((isBefore_iff.mp hx).trans (pageBefore_iff.mp (hbefore y hy)))

variable (host repository workspaceId)

theorem undeleted_nodup : (repository.undeleted workspaceId).Nodup :=
  (List.Nodup.of_map _ repository.nodup).filter _

end Cutting

/-! ## The order of the entries -/

section Order

open Comparing
open Std (TransCmp)

variable {host : Host} {repository : MemoryReuseMemoryRepository} {workspaceId : String}

/-- Corrections first, then the later texts and the greater ids. -/
def entryOrder (host : Host) : PreferenceCandidate → PreferenceCandidate → Ordering :=
  compareLex (compareOn fun entry => memoryEntrySortRank entry.kind)
    (compareLex (signed fun left right => host.localeCompare right.proposedAt left.proposedAt)
      (signed fun left right => host.localeCompare right.candidateId left.candidateId))

theorem transCmp_entryOrder (h : Collates host) : TransCmp (entryOrder host) := by
  have hdates : TransCmp (signed fun left right : PreferenceCandidate =>
      host.localeCompare right.proposedAt left.proposedAt) :=
    transCmp_signed (fun _ _ => h.antisymm _ _) fun _ _ _ hab hbc => h.trans _ _ _ hbc hab
  have hids : TransCmp (signed fun left right : PreferenceCandidate =>
      host.localeCompare right.candidateId left.candidateId) :=
    transCmp_signed (fun _ _ => h.antisymm _ _) fun _ _ _ hab hbc => h.trans _ _ _ hbc hab
  unfold entryOrder
  infer_instance

theorem compareMemoryEntries_answers (left right : PreferenceCandidate) :
    Answers (fun a b => some (compareMemoryEntries host a b)) (entryOrder host) left right := by
  have hrank : compare ((memoryEntrySortRank left.kind : Int) - memoryEntrySortRank right.kind) 0 =
      compareOn (fun entry : PreferenceCandidate => memoryEntrySortRank entry.kind) left right :=
    (compare_sub _ _).trans (compare_congr Int.ofNat_lt Int.ofNat_lt)
  have hsplit : some (compareMemoryEntries host left right) =
      if (memoryEntrySortRank left.kind : Int) - memoryEntrySortRank right.kind ≠ 0 then
        some ((memoryEntrySortRank left.kind : Int) - memoryEntrySortRank right.kind)
      else if host.localeCompare right.proposedAt left.proposedAt ≠ 0 then
        some (host.localeCompare right.proposedAt left.proposedAt)
      else some (host.localeCompare right.candidateId left.candidateId) := by
    rw [compareMemoryEntries]
    split_ifs <;> rfl
  rw [Answers, hsplit]
  exact exists_answer_then hrank fun _ => exists_answer_then rfl fun _ => ⟨_, rfl, rfl⟩

theorem compareMemoryEntries_le {left right : PreferenceCandidate} :
    compareMemoryEntries host left right ≤ 0 ↔ (entryOrder host left right).isLE :=
  (compareMemoryEntries_answers left right).isLE_iff

theorem mem_orderedEntries {entry : PreferenceCandidate} :
    entry ∈ orderedEntries host repository workspaceId ↔
      entry ∈ repository.undeleted workspaceId := List.mem_insertionSort _

/-- **The entries are in the order of the cursors** exactly when the sort agrees with it. -/
theorem pairwise_orderedEntries_iff (h : Collates host) :
    (orderedEntries host repository workspaceId).Pairwise PageBefore ↔
      ∀ left ∈ repository.undeleted workspaceId, ∀ right ∈ repository.undeleted workspaceId,
        left ≠ right → SortsBefore host repository workspaceId left right →
          PageBefore left right := by
  have := transCmp_entryOrder h
  have htotal : Std.Total fun a b => compareMemoryEntries host a b ≤ 0 := ⟨fun a b => by
    rw [compareMemoryEntries_le, compareMemoryEntries_le]
    rcases ho : entryOrder host a b with _ | _ | _
    · exact .inl rfl
    · exact .inl rfl
    · exact .inr (by rw [Std.OrientedCmp.lt_of_gt ho]; rfl)⟩
  have htrans : IsTrans PreferenceCandidate fun a b => compareMemoryEntries host a b ≤ 0 :=
    ⟨fun a b c hab hbc => by
      rw [compareMemoryEntries_le] at hab hbc ⊢
      exact TransCmp.isLE_trans hab hbc⟩
  have hnodup := undeleted_nodup repository workspaceId
  have hsorts : ∀ left ∈ repository.undeleted workspaceId,
      ∀ right ∈ repository.undeleted workspaceId, left ≠ right →
        ([left, right].Sublist (orderedEntries host repository workspaceId) ↔
          SortsBefore host repository workspaceId left right) :=
    fun left hl right hr hne => @Sorting.sublist_insertionSort_iff _
      (fun a b => compareMemoryEntries host a b ≤ 0) _ _ _ _ htotal htrans hnodup hr hl hne
  rw [List.pairwise_iff_forall_sublist]
  constructor
  · intro hall left hl right hr hne hbefore
    exact hall ((hsorts left hl right hr hne).mpr hbefore)
  · intro hall left right hsub
    have hnodup' : (orderedEntries host repository workspaceId).Nodup :=
      (sortBy_perm _ _).nodup_iff.mpr hnodup
    have hl := mem_orderedEntries.mp (hsub.subset List.mem_cons_self)
    have hr := mem_orderedEntries.mp (hsub.subset (List.mem_cons_of_mem _ List.mem_cons_self))
    have hne : left ≠ right := by
      rintro rfl
      exact (List.nodup_cons.mp (hnodup'.sublist hsub)).1 (List.mem_singleton_self _)
    exact hall left hl right hr hne ((hsorts left hl right hr hne).mp hsub)

theorem pagesFrom_all {limit : Nat}
    (hlimit : (orderedEntries host repository workspaceId).length ≤ limit)
    (h : pagesFrom host repository workspaceId limit fuel none = some l) :
    l = orderedEntries host repository workspaceId := by
  cases fuel with
  | zero => exact nomatch h
  | succ fuel =>
    have hnext : (pageOf limit (orderedEntries host repository workspaceId)).nextCursor = none :=
      if_neg (not_lt.mpr hlimit)
    rw [pagesFrom, listMemoryEntriesPage_none, Option.bind_eq_bind, Option.bind_some, hnext] at h
    exact (Option.some.inj h).symm.trans (List.take_of_length_le hlimit)

/-- Pages of one entry each begin with the first and go on in the order of the cursors. -/
theorem pairwise_of_pages (h : pagesFrom host repository workspaceId 1 fuel none = some l) :
    l.Pairwise PageBefore := by
  cases fuel with
  | zero => exact nomatch h
  | succ fuel =>
    rcases pagesFrom_one listMemoryEntriesPage_none h with rfl | ⟨x, -, rfl | ⟨l', rfl, hrest⟩⟩
    · exact .nil
    · exact List.pairwise_singleton _ _
    · obtain ⟨hpairwise, hbefore⟩ := pairwise_of_pagesFrom hrest
      exact List.pairwise_cons.mpr ⟨hbefore, hpairwise⟩

/-- In the order of the cursors the newest come first when the texts go with the instants. -/
theorem newestFirst_iff
    (h : (orderedEntries host repository workspaceId).Pairwise PageBefore) :
    (orderedEntries host repository workspaceId).Pairwise (NewestFirst host) ↔
      ∀ left ∈ repository.undeleted workspaceId, ∀ right ∈ repository.undeleted workspaceId,
        memoryEntrySortRank left.kind = memoryEntrySortRank right.kind →
          host.instant left.proposedAt < host.instant right.proposedAt →
            textLt left.proposedAt right.proposedAt = true := by
  have hcases : ∀ {left right : PreferenceCandidate}, PageBefore left right →
      memoryEntrySortRank left.kind < memoryEntrySortRank right.kind ∨
      memoryEntrySortRank left.kind = memoryEntrySortRank right.kind ∧
        codeUnits right.proposedAt ≤ codeUnits left.proposedAt := by
    intro left right hbefore
    have hkey := pageBefore_iff.mp hbefore
    rcases Prod.Lex.toLex_lt_toLex.mp hkey with hlt | ⟨heq, hlt⟩
    · exact .inl hlt
    · exact .inr ⟨heq, (Prod.Lex.toLex_lt_toLex.mp hlt).elim
        (fun h => (OrderDual.toDual_lt_toDual.mp h).le) fun h => (OrderDual.toDual_inj.mp h.1).ge⟩
  constructor
  · intro hnewest left hl right hr hrank hinstant
    have hne : left ≠ right := by
      rintro rfl
      exact lt_irrefl _ hinstant
    have hlater : [right, left].Sublist (orderedEntries host repository workspaceId) := by
      refine (Sorting.sublist_or (mem_orderedEntries.mpr hl) (mem_orderedEntries.mpr hr)
        hne).resolve_left fun hsub => ?_
      rcases List.pairwise_pair.mp (hnewest.sublist hsub) with hlt | ⟨-, hle⟩
      · omega
      · exact not_lt.mpr hle hinstant
    rcases hcases (List.pairwise_pair.mp (h.sublist hlater)) with hlt | ⟨-, hle⟩
    · omega
    · refine textLt_iff.mpr (lt_of_le_of_ne hle fun hsame => ?_)
      rw [codeUnits_inj.mp hsame] at hinstant
      exact lt_irrefl _ hinstant
  · intro htexts
    refine h.imp_of_mem fun {left right} hl hr hbefore => ?_
    rcases hcases hbefore with hlt | ⟨heq, hle⟩
    · exact .inl hlt
    · refine .inr ⟨heq, not_lt.mp fun hinstant => not_lt.mpr hle ?_⟩
      exact textLt_iff.mp (htexts left (mem_orderedEntries.mp hl) right (mem_orderedEntries.mp hr)
        heq hinstant)

/-- Pages that visit every entry once are in the order of the cursors. -/
theorem PagesWell.ordered (h : PagesWell host repository workspaceId) :
    (orderedEntries host repository workspaceId).Pairwise PageBefore ∧
      (orderedEntries host repository workspaceId).Pairwise (NewestFirst host) := by
  obtain ⟨order, -, hnewest, hpages⟩ := h
  obtain ⟨fuel, hall⟩ := hpages ((orderedEntries host repository workspaceId).length + 1)
    (Nat.succ_pos _)
  obtain rfl := pagesFrom_all (Nat.le_succ _) hall
  obtain ⟨fuel', hsingle⟩ := hpages 1 Nat.one_pos
  exact ⟨pairwise_of_pages hsingle, hnewest⟩

/-- **The pages visit every entry once exactly when the orders agree**, and a cursor is read back
whatever it holds. -/
theorem pagesWell_iff (h : Collates host) :
    (PagesWell host repository workspaceId ∧ ∀ cursor,
      decodeMemoryEntriesCursor (encodeMemoryEntriesCursor cursor) = some cursor) ↔
        OrdersAgree host repository workspaceId := by
  refine (and_iff_left fun cursor => decode_encode_cursor cursor).trans ⟨?_, ?_⟩
  · intro hpages
    obtain ⟨hpairwise, hnewest⟩ := hpages.ordered
    exact ⟨(pairwise_orderedEntries_iff h).mp hpairwise, (newestFirst_iff hpairwise).mp hnewest⟩
  · rintro ⟨hbyCodeUnits, hbyInstant⟩
    have hpairwise := (pairwise_orderedEntries_iff h).mpr hbyCodeUnits
    refine ⟨orderedEntries host repository workspaceId, sortBy_perm _ _,
      (newestFirst_iff hpairwise).mpr hbyInstant, fun limit hlimit =>
        ⟨_, pagesFrom_of_pairwise hpairwise hlimit _ [] _ none rfl (Nat.lt_succ_self _)
          (.inl ⟨rfl, rfl⟩)⟩⟩

end Order

/-! ## Two ids that are ordered both ways -/

section Letters

/-- A letter as it is sorted: `a`, `A`, `b`, `B`. -/
def letterWeight (c : Char) : Nat :=
  if c.isUpper then 2 * (c.toNat + 32) + 1 else 2 * c.toNat

/-- A host that compares texts letter by letter. -/
def letterHost : Host where
  dateParse := isoHost.dateParse
  localeCompare left right :=
    let l := left.toList.map letterWeight
    let r := right.toList.map letterWeight
    if l < r then -1 else if l = r then 0 else 1
  dateParse_range := isoHost.dateParse_range
  dateParse_isoText := isoHost.dateParse_isoText

/-- A memory proposed at noon. -/
def memoryOf (candidateId : String) : PreferenceCandidate where
  candidateId
  workspaceId := "workspace"
  semanticKey := "tone"
  proposedValue := .null
  defaultScope := { storeId := "store" }
  evidenceDecisionIds := ["decision"]
  evidenceTaskIds := ["task"]
  trigger := .repeated_signal
  status := .pending
  proposedAt := "2026-01-01T12:00:00.000Z"

def twoMemories : MemoryReuseMemoryRepository where
  preferenceCandidates := [memoryOf "a", memoryOf "B"]

/-- **A page behind `B` does not go on to `a`**, which is sorted after it. -/
theorem not_pagesWell : ¬ PagesWell letterHost twoMemories "workspace" := by
  intro h
  have hordered : orderedEntries letterHost twoMemories "workspace" =
      [memoryOf "B", memoryOf "a"] := rfl
  have hbefore := h.ordered.1
  rw [hordered, List.pairwise_pair] at hbefore
  exact absurd hbefore (by decide : ¬ (memoryOf "B").cursor.isBefore (memoryOf "a") = true)

/-- A memory proposed a day after the others. -/
def laterMemory : PreferenceCandidate :=
  { memoryOf "b" with proposedAt := "2026-01-02T12:00:00.000Z" }

def memoriesApart : MemoryReuseMemoryRepository where
  preferenceCandidates := [memoryOf "a", laterMemory]

/-- Page by page, the later memory comes before the earlier one. -/
theorem pagesWell_memoriesApart : PagesWell isoHost memoriesApart "workspace" ∧
    ∃ fuel, pagesFrom isoHost memoriesApart "workspace" 1 fuel none =
      some [laterMemory, memoryOf "a"] := by
  have hmem : ∀ entry ∈ memoriesApart.undeleted "workspace",
      entry = memoryOf "a" ∨ entry = laterMemory := fun entry h => by
    simpa [memoriesApart] using (List.mem_filter.mp h).1
  have hagree : OrdersAgree isoHost memoriesApart "workspace" := by
    refine ⟨fun left hl right hr hne hbefore => ?_, fun left hl right hr _ hlt => ?_⟩
    all_goals obtain rfl | rfl := hmem left hl <;> obtain rfl | rfl := hmem right hr
    · exact absurd rfl hne
    · exact absurd hbefore.1 (by decide +kernel)
    · decide +kernel
    · exact absurd rfl hne
    · exact absurd hlt (lt_irrefl _)
    · decide +kernel
    · exact absurd hlt (by decide +kernel)
    · exact absurd hlt (lt_irrefl _)
  have hpages := ((pagesWell_iff collates_isoHost).mpr hagree).1
  refine ⟨hpages, ?_⟩
  obtain ⟨order, hperm, hnewest, hread⟩ := hpages
  obtain rfl | rfl := List.perm_pair.mp (hperm : order.Perm [memoryOf "a", laterMemory])
  · rw [List.pairwise_pair] at hnewest
    exact absurd hnewest (by unfold NewestFirst; decide +kernel)
  · exact hread 1 Nat.one_pos

end Letters

end MeiyeAgent
