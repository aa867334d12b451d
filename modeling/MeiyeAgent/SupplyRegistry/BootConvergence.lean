import MeiyeAgent.Machinery.SideBySide
import MeiyeAgent.SupplyRegistry.BootSeeding

/-!
# SupplyRegistry/BootConvergence — booting converges on one head

A head is **settled** for a boot revision when the boot finds nothing to do about it.  A boot
settles a head in one write, and whoever boots with the same revision finds the head settled or is
forgiven; `bootsConverge` says so of one process after another, and of any number interleaved.
-/

namespace MeiyeAgent

open Effect PostgresSupplyControlPlaneRepository

/-! ## The rows -/

/-- **What the keys of the tables keep**: a row is under its own id, the head is a row, and every
row was validated. -/
structure CapabilityRows.Stored (rows : CapabilityRows) : Prop where
  keyed : ∀ id revision, rows.revisions.get? id = some revision → revision.revisionId = id
  headed : ∀ id, rows.head = some id → (rows.revisions.get? id).isSome
  distinct : ∀ id revision, rows.revisions.get? id = some revision →
    (revision.entries.map (·.deploymentId)).Nodup

/-- A revision written as the head. -/
def CapabilityRows.write (rows : CapabilityRows) (next : RuntimeCapabilityRevision) :
    CapabilityRows :=
  { rows with
    revisions := rows.revisions.set next.revisionId next
    head := some next.revisionId }

/-- **The log holds nothing else under the id of a revision.** -/
def CapabilityRows.Free (rows : CapabilityRows) (next : RuntimeCapabilityRevision) : Prop :=
  ∀ kept, rows.revisions.get? next.revisionId = some kept → kept = next

section Rows

variable {rows : CapabilityRows} {next current : RuntimeCapabilityRevision}
  {expected : Option String}

theorem setEffective_of_free (hfree : rows.Free next)
    (hmoves : headMoves rows.head next.revisionId expected = true) :
    setEffectiveCapabilityRevision next expected rows = .ok () (rows.write next) := by
  have hall : (rows.revisions.get? next.revisionId).all (· = next) = true := by
    cases hget : rows.revisions.get? next.revisionId with
    | none => rfl
    | some kept => exact decide_eq_true (hfree kept hget)
  simp only [setEffectiveCapabilityRevision, transaction, get_bind, hall, if_true, set_bind,
    setHead]
  rw [if_pos hmoves]
  rfl

/-- A write is refused, or lands on a head it expects. -/
theorem setEffective_cases (next : RuntimeCapabilityRevision) (expected : Option String)
    (rows : CapabilityRows) :
    (∃ e, setEffectiveCapabilityRevision next expected rows = .error e rows) ∨
      setEffectiveCapabilityRevision next expected rows = .ok () (rows.write next) ∧
        rows.Free next ∧ headMoves rows.head next.revisionId expected = true := by
  by_cases hall : (rows.revisions.get? next.revisionId).all (· = next) = true
  · have hfree : rows.Free next := fun kept hkept => by
      rw [hkept] at hall
      exact of_decide_eq_true hall
    by_cases hmoves : headMoves rows.head next.revisionId expected = true
    · exact .inr ⟨setEffective_of_free hfree hmoves, hfree, hmoves⟩
    · left
      simp only [setEffectiveCapabilityRevision, transaction, get_bind, hall, if_true, set_bind,
        setHead]
      rw [if_neg hmoves]
      exact ⟨_, rfl⟩
  · left
    simp only [setEffectiveCapabilityRevision, transaction, get_bind]
    rw [if_neg hall]
    exact ⟨_, rfl⟩

@[simp] theorem effective_write : getEffectiveCapabilityRevision (rows.write next) = some next := by
  rw [getEffectiveCapabilityRevision, CapabilityRows.write, Option.bind_some,
    getCapabilityRevision, OrderedMap.get?_set_self]

theorem write_write : (rows.write next).write next = rows.write next := by
  have hset : (rows.revisions.set next.revisionId next).set next.revisionId next =
      rows.revisions.set next.revisionId next := OrderedMap.set_get? OrderedMap.get?_set_self
  rw [CapabilityRows.write, CapabilityRows.write, hset]

theorem CapabilityRows.Stored.head_of_effective (h : rows.Stored) :
    rows.head = (getEffectiveCapabilityRevision rows).map (·.revisionId) := by
  rw [getEffectiveCapabilityRevision]
  cases hhead : rows.head with
  | none => rfl
  | some id =>
    obtain ⟨revision, hrevision⟩ := Option.isSome_iff_exists.mp (h.headed id hhead)
    rw [Option.bind_some, getCapabilityRevision, hrevision, Option.map_some,
      h.keyed id revision hrevision]

theorem CapabilityRows.Stored.distinct_effective (h : rows.Stored)
    (hcurrent : getEffectiveCapabilityRevision rows = some current) :
    (current.entries.map (·.deploymentId)).Nodup := by
  obtain ⟨id, _, hget⟩ := Option.bind_eq_some_iff.mp hcurrent
  exact h.distinct id current hget

end Rows

/-! ## A boot revision and a head -/

/-- A boot revision has been validated. -/
abbrev BootRevision := {revision : RuntimeCapabilityRevision //
  projectCapabilityRevision revision = .ok revision}

theorem nodup_of_no_duplicate : ∀ {ids seen : List String}, duplicateDeployment seen ids = none →
    ids.Nodup ∧ ∀ id ∈ ids, id ∉ seen
  | [], _, _ => ⟨List.nodup_nil, nofun⟩
  | id :: ids, seen, h => by
    rw [duplicateDeployment] at h
    split at h
    · cases h
    · next hfresh =>
      obtain ⟨hnodup, hdisjoint⟩ := nodup_of_no_duplicate h
      refine ⟨List.nodup_cons.mpr ⟨fun hmem => hdisjoint id hmem List.mem_cons_self, hnodup⟩,
        fun other hother => ?_⟩
      rcases List.mem_cons.mp hother with rfl | hother
      · exact hfresh
      · exact fun hseen => hdisjoint other hother (List.mem_cons_of_mem _ hseen)

theorem BootRevision.distinct (boot : BootRevision) :
    (boot.val.entries.map (·.deploymentId)).Nodup := by
  have h := boot.property
  rw [projectCapabilityRevision] at h
  split at h
  · cases h
  · split at h
    · cases h
    · split at h
      · cases h
      · next hnone => exact (nodup_of_no_duplicate hnone).1

/-- The version that binds an entry is given, or is the one it has. -/
def VersionsGiven (boot current : RuntimeCapabilityRevision) : Prop :=
  ∀ entry ∈ current.entries, ∀ desired, desiredBy boot.entries entry = some desired →
    truthy desired.credentialVersion = none → entry.credentialVersion = desired.credentialVersion

/-- The epoch a head has once its bindings were put right. -/
def epochOnceReconciled (current : RuntimeCapabilityRevision) : Option Int :=
  current.bootCatalogEpoch.or
    (if Text.startsWith (current.revisionId ++ bindingsMark) bootMark then some 0 else none)

/-- A boot does not outrank the head once its bindings were put right. -/
def EpochStays (boot current : RuntimeCapabilityRevision) : Prop :=
  boot.reason = some processBoot →
    epochBelow (epochOnceReconciled current) (bootCatalogEpoch boot) = false

/-- **A boot finds nothing to do about a head.** -/
structure Settled (boot head : RuntimeCapabilityRevision) : Prop where
  stays : refreshes head boot = false
  bound : head.entries.all (boundBy boot.entries) = true

section Settling

variable {host : Host} {fingerprint : List CredentialRow → String} {boot : BootRevision}
  {current head : RuntimeCapabilityRevision} {entries : List RuntimeCapabilityEntry}
  {entry : RuntimeCapabilityEntry} {clock : String}

theorem decideSeed_of_settled (h : Settled boot head) :
    decideSeed host fingerprint boot clock (some head) = .done := by
  rw [decideSeed, if_neg (by rw [h.stays]; exact Bool.false_ne_true), if_pos h.bound]

/-- Distinct deployments are bound as they are. -/
theorem boundBy_self (hnodup : (entries.map (·.deploymentId)).Nodup) :
    entries.all (boundBy entries) = true := by
  refine List.all_eq_true.mpr fun entry hentry => ?_
  have hkeys : ((entries.map fun entry => (entry.deploymentId, entry)).map Prod.fst).Nodup := by
    rw [List.map_map]
    exact hnodup
  have hget : (entriesById entries).get? entry.deploymentId = some entry :=
    OrderedMap.get?_setAll_of_mem hkeys (List.mem_map.mpr ⟨entry, hentry, rfl⟩)
  rw [boundBy, desiredBy, hget, Option.filter_some]
  split
  · simp [boundAlike]
  · rfl

@[simp] theorem deploymentId_rebind (boot : RuntimeCapabilityRevision) :
    (rebind boot entry).deploymentId = entry.deploymentId := by
  rw [rebind]
  split <;> rfl

/-- **A rebound entry is bound.** -/
theorem boundBy_rebind (boot : RuntimeCapabilityRevision)
    (h : ∀ desired, desiredBy boot.entries entry = some desired →
      truthy desired.credentialVersion = none →
        entry.credentialVersion = desired.credentialVersion) :
    boundBy boot.entries (rebind boot entry) = true := by
  have hdesired : desiredBy boot.entries (rebind boot entry) = desiredBy boot.entries entry := by
    rw [desiredBy, deploymentId_rebind]
    rfl
  rw [boundBy, hdesired, rebind]
  split
  · next hbound => exact hbound
  · cases hget : desiredBy boot.entries entry with
    | none => rfl
    | some desired =>
      cases hversion : truthy desired.credentialVersion with
      | none => simp [boundAlike, hversion, h desired hget hversion]
      | some version =>
        have hsome := (Option.filter_eq_some_iff.mp hversion).1
        refine decide_eq_true ⟨rfl, ?_⟩
        change (truthy desired.credentialVersion).or entry.credentialVersion = _
        rw [hversion, hsome, Option.some_or]

theorem settled_refreshed : Settled boot (refreshed current boot) where
  stays := by simp [refreshes, refreshed]
  bound := boundBy_self boot.distinct

theorem startsWith_append_mark (id rest : String) :
    Text.startsWith (id ++ bindingsMark ++ rest) bootMark =
      Text.startsWith (id ++ bindingsMark) bootMark := by
  rw [Text.startsWith, Text.startsWith, String.toList_append]
  rw [Bool.eq_iff_iff, List.isPrefixOf_iff_prefix, List.isPrefixOf_iff_prefix]
  have hlength : bootMark.toList.length ≤ (id ++ bindingsMark).toList.length := by
    have hmarks : bootMark.toList.length ≤ bindingsMark.toList.length := by decide
    rw [String.toList_append, List.length_append]
    omega
  exact ⟨fun h => List.prefix_of_prefix_length_le h (List.prefix_append _ _) hlength,
    fun h => h.trans (List.prefix_append _ _)⟩

theorem settled_reconciled (hversions : VersionsGiven boot current)
    (hepoch : EpochStays boot current) :
    Settled boot (reconciled host fingerprint current boot clock) where
  stays := by
    have hsame : bootCatalogEpoch (reconciled host fingerprint current boot clock) =
        epochOnceReconciled current := by
      simp only [bootCatalogEpoch, reconciled, epochOnceReconciled, true_and]
      rw [startsWith_append_mark]
      congr 2
      simp [credentialReconciliation, processBoot]
    rw [refreshes, hsame]
    by_cases hreason : boot.val.reason = some processBoot
    · rw [hepoch hreason, Bool.and_false, Bool.false_and]
    · rw [decide_eq_false hreason, Bool.false_and, Bool.false_and]
  bound := by
    refine List.all_eq_true.mpr fun entry hentry => ?_
    obtain ⟨before, hbefore, rfl⟩ := List.mem_map.mp hentry
    exact boundBy_rebind boot.val (hversions before hbefore)

theorem revisionId_reconciled_ne :
    (reconciled host fingerprint current boot clock).revisionId ≠ current.revisionId := by
  intro h
  have hlength := congrArg (fun text => text.toList.length) h
  simp only [reconciled, String.toList_append, List.length_append] at hlength
  have hmark : bindingsMark.toList.length = 21 := by decide
  omega

end Settling

/-! ## What a read has to find -/

section Reading

variable (host : Host) (fingerprint : List CredentialRow → String)

/-- **The condition on a read of the head**: the log holds nothing else under the id that is to be
written, and a head whose bindings are put right is settled by that. -/
def SettlesOnRead (rows : CapabilityRows) (boot : RuntimeCapabilityRevision) (clock : String) :
    Prop :=
  match getEffectiveCapabilityRevision rows with
  | none => rows.Free boot
  | some current =>
    if refreshes current boot then rows.Free (refreshed current boot)
    else current.entries.all (boundBy boot.entries) = true ∨
      rows.Free (reconciled host fingerprint current boot clock) ∧
        VersionsGiven boot current ∧ EpochStays boot current

/-- **What a process writes** about a head. -/
inductive Planned (boot : RuntimeCapabilityRevision) :
    Option RuntimeCapabilityRevision → RuntimeCapabilityRevision → Option String → Recovery → Prop
  | seeded : Planned boot none boot none .seeded
  | refreshed (current : RuntimeCapabilityRevision) (hlater : refreshes current boot = true) :
    Planned boot (some current) (refreshed current boot) (some current.revisionId)
      (.refreshed boot.revisionId)
  | reconciled (current : RuntimeCapabilityRevision) (clock : String)
    (hsame : refreshes current boot = false)
    (hunbound : current.entries.all (boundBy boot.entries) = false)
    (hversions : VersionsGiven boot current) (hepoch : EpochStays boot current) :
    Planned boot (some current) (reconciled host fingerprint current boot clock)
      (some current.revisionId) (.reconciled (current.entries.map (rebind boot)))

variable {host fingerprint} {boot : BootRevision} {head : Option RuntimeCapabilityRevision}
  {rows : CapabilityRows} {next current : RuntimeCapabilityRevision} {expected : Option String}
  {recovery : Recovery} {clock : String}

/-- A process that reads finds nothing to do, or plans a write that may land. -/
theorem decideSeed_cases (hmet : SettlesOnRead host fingerprint rows boot clock) :
    (∃ current, getEffectiveCapabilityRevision rows = some current ∧ Settled boot current ∧
        decideSeed host fingerprint boot clock (some current) = .done) ∨
      ∃ next expected recovery,
        decideSeed host fingerprint boot clock (getEffectiveCapabilityRevision rows) =
          .writing next expected recovery ∧
        Planned host fingerprint boot (getEffectiveCapabilityRevision rows) next expected recovery ∧
        rows.Free next := by
  rw [SettlesOnRead] at hmet
  cases hhead : getEffectiveCapabilityRevision rows with
  | none =>
    rw [hhead] at hmet
    refine .inr ⟨boot, none, .seeded, ?_, .seeded, hmet⟩
    rw [decideSeed, boot.property]
  | some current =>
    simp only [hhead] at hmet
    by_cases hlater : refreshes current boot = true
    · rw [if_pos hlater] at hmet
      refine .inr ⟨_, _, _, ?_, .refreshed current hlater, hmet⟩
      rw [decideSeed, if_pos hlater]
    · rw [if_neg hlater] at hmet
      by_cases hbound : current.entries.all (boundBy boot.val.entries) = true
      · have hsettled : Settled boot current := ⟨Bool.eq_false_iff.mpr hlater, hbound⟩
        exact .inl ⟨current, rfl, hsettled, decideSeed_of_settled hsettled⟩
      · obtain ⟨hfree, hversions, hepoch⟩ := hmet.resolve_left hbound
        refine .inr ⟨_, _, _, ?_,
          .reconciled current clock (Bool.eq_false_iff.mpr hlater) (Bool.eq_false_iff.mpr hbound)
            hversions hepoch, hfree⟩
        rw [decideSeed, if_neg hlater, if_neg hbound]
        rfl

theorem Planned.expects (h : Planned host fingerprint boot head next expected recovery) :
    expected = head.map (·.revisionId) := by
  cases h <;> rfl

theorem Planned.settled (h : Planned host fingerprint boot head next expected recovery) :
    Settled boot next := by
  cases h with
  | seeded =>
    refine ⟨?_, boundBy_self boot.distinct⟩
    simp [refreshes]
  | refreshed current _ => exact settled_refreshed
  | reconciled current clock _ _ hversions hepoch => exact settled_reconciled hversions hepoch

/-- The head a write lands on is replaced. -/
theorem Planned.moves (h : Planned host fingerprint boot (some current) next expected recovery) :
    next.revisionId ≠ current.revisionId := by
  cases h with
  | refreshed _ hlater =>
    simp only [refreshes, Bool.and_eq_true, decide_eq_true_eq] at hlater
    exact fun h => hlater.2 h.symm
  | reconciled _ clock _ _ _ _ => exact revisionId_reconciled_ne

/-- **Whoever loses to a process of the same boot is forgiven.** -/
theorem Planned.forgives {other : RuntimeCapabilityRevision} {expected' : Option String}
    {recovery' : Recovery} (h : Planned host fingerprint boot head next expected recovery)
    (hother : Planned host fingerprint boot head other expected' recovery')
    (hdistinct : ∀ current, head = some current → (current.entries.map (·.deploymentId)).Nodup) :
    recovery.forgives (some other) = true := by
  cases h with
  | seeded => rfl
  | refreshed current hlater =>
    cases hother with
    | refreshed _ _ => exact decide_eq_true rfl
    | reconciled _ _ hsame _ _ _ =>
      rw [hsame] at hlater
      cases hlater
  | reconciled current _ hsame _ _ _ =>
    cases hother with
    | refreshed _ hlater =>
      rw [hsame] at hlater
      cases hlater
    | reconciled _ clock _ _ _ _ =>
      refine boundBy_self ?_
      have hids : (current.entries.map (rebind boot)).map (·.deploymentId) =
          current.entries.map (·.deploymentId) := by
        rw [List.map_map]
        exact List.map_congr_left fun entry _ => deploymentId_rebind boot.val
      have hnodup := hdistinct current rfl
      rwa [← hids] at hnodup

/-- Nothing is planned about a settled head. -/
theorem Planned.unsettled
    (h : Planned host fingerprint boot (some current) next expected recovery) :
    ¬ Settled boot current := by
  intro hsettled
  cases h with
  | refreshed _ hlater =>
    rw [hsettled.stays] at hlater
    cases hlater
  | reconciled _ _ _ hunbound _ _ =>
    rw [hsettled.bound] at hunbound
    cases hunbound

/-- The entries of a head that a boot replaces are the boot's. -/
theorem Planned.entries (h : Planned host fingerprint boot head next expected recovery)
    (hfresh : head.all (refreshes · boot) = true) : next.entries = boot.val.entries := by
  cases h with
  | seeded => rfl
  | refreshed _ _ => rfl
  | reconciled current _ hsame _ _ _ =>
    rw [Option.all_some, hsame] at hfresh
    cases hfresh

/-- A plan lands on the head it was made of. -/
theorem Planned.lands (hrows : rows.Stored)
    (h : Planned host fingerprint boot (getEffectiveCapabilityRevision rows) next expected recovery)
    (hfree : rows.Free next) :
    setEffectiveCapabilityRevision next expected rows = .ok () (rows.write next) := by
  refine setEffective_of_free hfree ?_
  rw [h.expects, hrows.head_of_effective]
  cases getEffectiveCapabilityRevision rows with
  | none => rfl
  | some current => exact decide_eq_true rfl

/-- **After a plan has landed**, the same plan lands on it again and another is refused. -/
theorem Planned.after {other : RuntimeCapabilityRevision} {expected' : Option String}
    {recovery' : Recovery} (h : Planned host fingerprint boot head next expected recovery)
    (hother : Planned host fingerprint boot head other expected' recovery') :
    setEffectiveCapabilityRevision other expected' (rows.write next) = .ok () (rows.write next) ∨
      ∃ e, setEffectiveCapabilityRevision other expected' (rows.write next) =
        .error e (rows.write next) := by
  rcases setEffective_cases other expected' (rows.write next) with herror | ⟨hlands, _, hmoves⟩
  · exact .inr herror
  · left
    cases h with
    | seeded =>
      cases hother
      rw [hlands, write_write]
    | refreshed current hlater =>
      have hne := Planned.moves (.refreshed current hlater : Planned host fingerprint boot _ _ _ _)
      rw [hother.expects] at hmoves
      exact absurd (Option.some.inj (of_decide_eq_true hmoves)) hne
    | reconciled current clock hsame _ hversions hepoch =>
      rw [hother.expects] at hmoves
      exact absurd (Option.some.inj (of_decide_eq_true hmoves)) revisionId_reconciled_ne

end Reading

/-! ## One process after another -/

section Convergence

variable {host : Host} {fingerprint : List CredentialRow → String} {boot : BootRevision}
  {start rows : CapabilityRows} {clock : String}

/-- **A second seed changes nothing.** -/
theorem seedIfEmpty_twice (hrows : rows.Stored)
    (hmet : SettlesOnRead host fingerprint rows boot clock) (later : String) :
    seedIfEmpty host fingerprint boot later (seedIfEmpty host fingerprint boot clock rows).1 =
        ((seedIfEmpty host fingerprint boot clock rows).1, .done) ∧
      (seedIfEmpty host fingerprint boot clock rows).2 = .done := by
  have hsettles : ∀ (rows : CapabilityRows) (head : RuntimeCapabilityRevision) (clock : String),
      getEffectiveCapabilityRevision rows = some head → Settled boot head →
        seedIfEmpty host fingerprint boot clock rows = (rows, .done) := by
    intro rows head clock hhead hsettled
    simp only [seedIfEmpty, SeedState.next, hhead, decideSeed_of_settled hsettled]
  rcases decideSeed_cases hmet with ⟨current, hhead, hsettled, _⟩ | ⟨next, expected, recovery,
    hdecide, hplanned, hfree⟩
  · have hfirst := hsettles rows current clock hhead hsettled
    rw [hfirst]
    exact ⟨hsettles rows current later hhead hsettled, rfl⟩
  · have hfirst : seedIfEmpty host fingerprint boot clock rows = (rows.write next, .done) := by
      simp only [seedIfEmpty, SeedState.next, hdecide, hplanned.lands hrows hfree]
    rw [hfirst]
    exact ⟨hsettles _ next later effective_write hplanned.settled, rfl⟩

/-! ## Processes of one boot, interleaved -/

/-- A plan has landed on the rows the processes started from. -/
def Landed (host : Host) (fingerprint : List CredentialRow → String) (boot : BootRevision)
    (start rows : CapabilityRows) : Prop :=
  ∃ next expected recovery,
    Planned host fingerprint boot (getEffectiveCapabilityRevision start) next expected recovery ∧
      rows = start.write next

/-- **Where a process may be.** -/
def SeedFits (host : Host) (fingerprint : List CredentialRow → String) (boot : BootRevision)
    (start rows : CapabilityRows) : SeedState → Prop
  | .start => True
  | .writing next expected recovery =>
    Planned host fingerprint boot (getEffectiveCapabilityRevision start) next expected recovery ∧
      start.Free next
  | .recovering recovery _ => Landed host fingerprint boot start rows ∧ ∃ next expected,
      Planned host fingerprint boot (getEffectiveCapabilityRevision start) next expected recovery
  | .done => Landed host fingerprint boot start rows ∨ rows = start ∧
      ∃ head, getEffectiveCapabilityRevision start = some head ∧ Settled boot head
  | .failed _ => False

theorem SeedFits.landed {state : SeedState} {rows' : CapabilityRows}
    (h : SeedFits host fingerprint boot start rows state)
    (hlanded : Landed host fingerprint boot start rows') :
    SeedFits host fingerprint boot start rows' state := by
  cases state with
  | start => trivial
  | writing next expected recovery => exact h
  | recovering recovery error => exact ⟨hlanded, h.2⟩
  | done => exact .inl hlanded
  | failed error => exact h

/-- **What holds between the calls.** -/
structure SeedInvariant (host : Host) (fingerprint : List CredentialRow → String)
    (boot : BootRevision) (start : CapabilityRows) (h : Booting) : Prop where
  rows : h.rows = start ∨ Landed host fingerprint boot start h.rows
  processes : ∀ i, SeedFits host fingerprint boot start h.rows (h.processes i)

/-- How many calls a process has still to make, at most. -/
def SeedState.callsLeft : SeedState → Nat
  | .start => 3
  | .writing _ _ _ => 2
  | .recovering _ _ => 1
  | .done | .failed _ => 0

/-- **What the next call of a process does.** -/
structure SeedLaw (host : Host) (fingerprint : List CredentialRow → String) (boot : BootRevision)
    (start : CapabilityRows) (h : Booting) (step : Nat × String) : Prop where
  /-- nobody fails -/
  succeeds : ∀ e, (h.next host fingerprint (fun _ => boot) step).processes step.1 ≠ .failed e
  /-- every call is one of the last three -/
  advances : ((h.next host fingerprint (fun _ => boot) step).processes step.1).callsLeft ≤
    (h.processes step.1).callsLeft - 1
  /-- who is done leaves a head bound as the boot binds it, of the boot's own entries where there
  was none or an older one -/
  bound : (h.next host fingerprint (fun _ => boot) step).processes step.1 = .done → ∃ head,
    getEffectiveCapabilityRevision (h.next host fingerprint (fun _ => boot) step).rows = some head ∧
      head.entries.all (boundBy boot.val.entries) = true ∧
      ((getEffectiveCapabilityRevision start).all (refreshes · boot) = true →
        head.entries = boot.val.entries)
  /-- from then on there is one head -/
  one : (∃ i, h.processes i = .done) →
    (h.next host fingerprint (fun _ => boot) step).rows = h.rows

variable {h : Booting} {step : Nat × String} {state : SeedState}

theorem callsLeft_next (boot : RuntimeCapabilityRevision) (state : SeedState) :
    (state.next host fingerprint boot clock rows).2.callsLeft ≤ state.callsLeft - 1 := by
  cases state with
  | start =>
    rw [SeedState.next, decideSeed.eq_def]
    split
    · split <;> simp [SeedState.callsLeft]
    · split
      · simp [SeedState.callsLeft]
      · split <;> simp [SeedState.callsLeft]
  | writing next expected recovery =>
    rcases setEffective_cases next expected rows with ⟨e, herror⟩ | ⟨hlands, _⟩
    · rw [SeedState.next, herror]
      exact Nat.le_refl 1
    · rw [SeedState.next, hlands]
      exact Nat.zero_le 1
  | recovering recovery error =>
    rw [SeedState.next]
    split <;> exact Nat.le_refl 0
  | done => exact Nat.le_refl 0
  | failed error => exact Nat.le_refl 0

theorem Landed.settled (hlanded : Landed host fingerprint boot start rows) :
    ∃ head, getEffectiveCapabilityRevision rows = some head ∧ Settled boot head ∧
      ((getEffectiveCapabilityRevision start).all (refreshes · boot) = true →
        head.entries = boot.val.entries) := by
  obtain ⟨next, expected, recovery, hplanned, rfl⟩ := hlanded
  exact ⟨next, effective_write, hplanned.settled, hplanned.entries⟩

/-- **One call of a process** that fits. -/
theorem fits_next (hstart : start.Stored)
    (hrows : rows = start ∨ Landed host fingerprint boot start rows)
    (hfits : SeedFits host fingerprint boot start rows state)
    (hmet : state = .start → SettlesOnRead host fingerprint rows boot clock) :
    ((state.next host fingerprint boot clock rows).1 = rows ∨
        rows = start ∧ Landed host fingerprint boot start
          (state.next host fingerprint boot clock rows).1 ∧
          ∃ next expected recovery, state = .writing next expected recovery) ∧
      SeedFits host fingerprint boot start (state.next host fingerprint boot clock rows).1
        (state.next host fingerprint boot clock rows).2 := by
  cases state with
  | start =>
    refine ⟨.inl rfl, ?_⟩
    rw [SeedState.next]
    rcases hrows with rfl | hlanded
    · rcases decideSeed_cases (hmet rfl) with ⟨current, hhead, hsettled, hdone⟩ | ⟨next, expected,
        recovery, hdecide, hplanned, hfree⟩
      · rw [hhead, hdone]
        exact .inr ⟨rfl, current, hhead, hsettled⟩
      · rw [hdecide]
        exact ⟨hplanned, hfree⟩
    · obtain ⟨head, hhead, hsettled, _⟩ := hlanded.settled
      rw [hhead, decideSeed_of_settled hsettled]
      exact .inl hlanded
  | writing next expected recovery =>
    obtain ⟨hplanned, hfree⟩ := hfits
    rcases hrows with rfl | hlanded
    · have hwritten : Landed host fingerprint boot rows (rows.write next) :=
        ⟨next, expected, recovery, hplanned, rfl⟩
      rw [SeedState.next, hplanned.lands hstart hfree]
      exact ⟨.inr ⟨rfl, hwritten, next, expected, recovery, rfl⟩, .inl hwritten⟩
    · obtain ⟨landed, _, _, hfirst, rfl⟩ := id hlanded
      have hafter : setEffectiveCapabilityRevision next expected (start.write landed) = _ ∨ _ :=
        hfirst.after hplanned
      rcases hafter with hsame | ⟨e, herror⟩
      · rw [SeedState.next, hsame]
        exact ⟨.inl rfl, .inl hlanded⟩
      · rw [SeedState.next, herror]
        exact ⟨.inl rfl, hlanded, next, expected, hplanned⟩
  | recovering recovery error =>
    obtain ⟨⟨landed, _, _, hfirst, rfl⟩, next, expected, hplanned⟩ := id hfits
    have hforgives : recovery.forgives
        (getEffectiveCapabilityRevision (start.write landed)) = true := by
      rw [effective_write]
      exact hplanned.forgives hfirst fun current hcurrent => hstart.distinct_effective hcurrent
    rw [SeedState.next, if_pos hforgives]
    exact ⟨.inl rfl, .inl hfits.1⟩
  | done => exact ⟨.inl rfl, hfits⟩
  | failed error => exact hfits.elim

theorem seedLaw_step (hstart : start.Stored) (hinv : SeedInvariant host fingerprint boot start h)
    (hmet : h.processes step.1 = .start →
      SettlesOnRead host fingerprint h.rows boot step.2) :
    SeedInvariant host fingerprint boot start (h.next host fingerprint (fun _ => boot) step) ∧
      SeedLaw host fingerprint boot start h step := by
  obtain ⟨hmoves, hfits⟩ := fits_next hstart hinv.rows (hinv.processes step.1) hmet
  have hstate : (h.next host fingerprint (fun _ => boot) step).processes step.1 =
      ((h.processes step.1).next host fingerprint boot step.2 h.rows).2 := Function.update_self ..
  have hothers : ∀ i, i ≠ step.1 →
      (h.next host fingerprint (fun _ => boot) step).processes i = h.processes i :=
    fun i hi => Function.update_of_ne hi ..
  have hrows : (h.next host fingerprint (fun _ => boot) step).rows =
      ((h.processes step.1).next host fingerprint boot step.2 h.rows).1 := rfl
  rw [← hstate, ← hrows] at hfits
  rw [← hrows] at hmoves
  refine ⟨⟨?_, fun i => ?_⟩, fun e he => ?_, ?_, fun hdone => ?_, fun ⟨i, hi⟩ => ?_⟩
  · rcases hmoves with hsame | ⟨_, hlanded, _⟩
    · rw [hsame]
      exact hinv.rows
    · exact .inr hlanded
  · by_cases hi : i = step.1
    · rw [hi]
      exact hfits
    · rw [hothers i hi]
      rcases hmoves with hsame | ⟨_, hlanded, _⟩
      · rw [hsame]
        exact hinv.processes i
      · exact (hinv.processes i).landed hlanded
  · rw [he] at hfits
    exact hfits
  · rw [hstate]
    exact callsLeft_next boot.val (h.processes step.1)
  · rw [hdone] at hfits
    rcases hfits with hlanded | ⟨hsame, head, hhead, hsettled⟩
    · obtain ⟨head, hhead, hsettled, hentries⟩ := hlanded.settled
      exact ⟨head, hhead, hsettled.bound, hentries⟩
    · refine ⟨head, by rw [hsame]; exact hhead, hsettled.bound, fun hlater => ?_⟩
      rw [hhead, Option.all_some, hsettled.stays] at hlater
      cases hlater
  · rcases hmoves with hsame | ⟨heq, _, next, expected, recovery, hwriting⟩
    · exact hsame
    · have hwrites := hinv.processes step.1
      have hdone := hinv.processes i
      rw [hwriting] at hwrites
      rw [hi, heq] at hdone
      rcases hdone with ⟨landed, _, _, hfirst, hsame⟩ | ⟨_, head, hhead, hsettled⟩
      · -- a plan that landed on the rows it started from would be a plan about itself
        have hhead : getEffectiveCapabilityRevision start = some landed := by
          rw [hsame, effective_write]
        rw [hhead] at hfirst
        exact absurd rfl hfirst.moves
      · obtain ⟨hplanned, _⟩ := hwrites
        rw [hhead] at hplanned
        exact absurd hsettled hplanned.unsettled

/-! ## Processes of any boots -/

/-- **A boot of an earlier epoch finds the bindings of the head as its own.** -/
def AgreesOnRead (rows : CapabilityRows) (boot : RuntimeCapabilityRevision) : Prop :=
  ∀ current, getEffectiveCapabilityRevision rows = some current →
    epochBelow (bootCatalogEpoch boot) (bootCatalogEpoch current) = true →
      current.entries.all (boundBy boot.entries) = true

/-- **A process of an earlier epoch than the head changes nothing.** -/
def EarlierLaw (host : Host) (fingerprint : List CredentialRow → String)
    (boots : Nat → RuntimeCapabilityRevision) (h : Booting) (step : Nat × String) : Prop :=
  ∀ head, getEffectiveCapabilityRevision h.rows = some head →
    epochBelow (bootCatalogEpoch (boots step.1)) (bootCatalogEpoch head) = true →
      (h.next host fingerprint boots step).rows = h.rows

/-- A revision that is replaced is not of a later epoch. -/
def ReplacesNoLater (boot : RuntimeCapabilityRevision) (rows : CapabilityRows) :
    SeedState → Prop
  | .writing _ (some id) _ => ∃ current, rows.revisions.get? id = some current ∧
      epochBelow (bootCatalogEpoch boot) (bootCatalogEpoch current) = false
  | .writing _ none _ | .start | .recovering _ _ | .done | .failed _ => True

structure EarlierInvariant (boots : Nat → RuntimeCapabilityRevision) (h : Booting) : Prop where
  keyed : ∀ id revision, h.rows.revisions.get? id = some revision → revision.revisionId = id
  processes : ∀ i, ReplacesNoLater (boots i) h.rows (h.processes i)

theorem not_epochBelow {one other : Option Int} (h : epochBelow one other = true) :
    epochBelow other one = false := by
  cases one with
  | none => cases h
  | some one =>
    cases other with
    | none => cases h
    | some other =>
      simp only [epochBelow, decide_eq_true_eq, decide_eq_false_iff_not] at h ⊢
      omega

/-- A row that is written leaves the others. -/
theorem get?_write {next kept : RuntimeCapabilityRevision} {id : String} (hfree : rows.Free next)
    (hkept : rows.revisions.get? id = some kept) :
    (rows.write next).revisions.get? id = some kept := by
  rw [CapabilityRows.write, OrderedMap.get?_set]
  split
  · next heq =>
    rw [heq] at hkept
    rw [hfree kept hkept]
  · exact hkept

theorem ReplacesNoLater.mono {boot : RuntimeCapabilityRevision} {rows' : CapabilityRows}
    (h : ReplacesNoLater boot rows state)
    (hkept : ∀ id kept, rows.revisions.get? id = some kept →
      rows'.revisions.get? id = some kept) : ReplacesNoLater boot rows' state := by
  cases state with
  | writing next expected recovery =>
    cases expected with
    | none => trivial
    | some id =>
      obtain ⟨current, hcurrent, hepoch⟩ := h
      exact ⟨current, hkept id current hcurrent, hepoch⟩
  | start => trivial
  | recovering recovery error => trivial
  | done => trivial
  | failed error => trivial

theorem replacesNoLater_decide {boot : RuntimeCapabilityRevision}
    (hkeyed : ∀ id revision, rows.revisions.get? id = some revision → revision.revisionId = id)
    (hmet : AgreesOnRead rows boot) :
    ReplacesNoLater boot rows
      (decideSeed host fingerprint boot clock (getEffectiveCapabilityRevision rows)) := by
  cases hhead : getEffectiveCapabilityRevision rows with
  | none =>
    rw [decideSeed]
    cases projectCapabilityRevision boot <;> trivial
  | some current =>
    obtain ⟨id, _, hget⟩ := Option.bind_eq_some_iff.mp hhead
    have hrow : rows.revisions.get? current.revisionId = some current := by
      rw [hkeyed id current hget]
      exact hget
    rw [decideSeed]
    split
    · next hlater =>
      simp only [refreshes, Bool.and_eq_true] at hlater
      exact ⟨current, hrow, not_epochBelow hlater.1.2⟩
    · split
      · trivial
      · next hunbound =>
        refine ⟨current, hrow, Bool.eq_false_iff.mpr fun hbelow => hunbound ?_⟩
        exact hmet current hhead hbelow

/-- **A write lands on no later head**, unless it is that head. -/
theorem write_of_replaces {boot head : RuntimeCapabilityRevision} {next : RuntimeCapabilityRevision}
    {expected : Option String} {recovery : Recovery}
    (hreplaces : ReplacesNoLater boot rows (.writing next expected recovery))
    (hhead : getEffectiveCapabilityRevision rows = some head)
    (hbelow : epochBelow (bootCatalogEpoch boot) (bootCatalogEpoch head) = true)
    (hfree : rows.Free next) (hmoves : headMoves rows.head next.revisionId expected = true) :
    rows.write next = rows := by
  obtain ⟨id, hid, hget⟩ := Option.bind_eq_some_iff.mp hhead
  cases expected with
  | none =>
    rw [hid] at hmoves
    have hsame : id = next.revisionId := of_decide_eq_true hmoves
    subst hsame
    have hnext : head = next := hfree head hget
    subst hnext
    have hset : rows.revisions.set head.revisionId head = rows.revisions :=
      OrderedMap.set_get? hget
    rw [CapabilityRows.write, hset, ← hid]
  | some other =>
    obtain ⟨current, hcurrent, hepoch⟩ := hreplaces
    have hother : some id = some other := by
      rw [← hid]
      exact of_decide_eq_true hmoves
    obtain rfl := Option.some.inj hother
    obtain rfl := Option.some.inj (hget.symm.trans hcurrent)
    rw [hepoch] at hbelow
    cases hbelow

theorem earlierLaw_step {boots : Nat → RuntimeCapabilityRevision} (hinv : EarlierInvariant boots h)
    (hmet : h.processes step.1 = .start → AgreesOnRead h.rows (boots step.1)) :
    EarlierInvariant boots (h.next host fingerprint boots step) ∧
      EarlierLaw host fingerprint boots h step := by
  have hrows : (h.next host fingerprint boots step).rows =
      ((h.processes step.1).next host fingerprint (boots step.1) step.2 h.rows).1 := rfl
  have hreplaces := hinv.processes step.1
  -- the rows a call leaves, where the process stands after it, and the law
  have hcall : (∀ id kept, h.rows.revisions.get? id = some kept →
        (h.next host fingerprint boots step).rows.revisions.get? id = some kept) ∧
      (∀ id kept, (h.next host fingerprint boots step).rows.revisions.get? id = some kept →
        kept.revisionId = id) ∧
      ReplacesNoLater (boots step.1) (h.next host fingerprint boots step).rows
        ((h.processes step.1).next host fingerprint (boots step.1) step.2 h.rows).2 ∧
      EarlierLaw host fingerprint boots h step := by
    rw [EarlierLaw, hrows]
    cases hstate : h.processes step.1 with
    | start =>
      exact ⟨fun _ _ hkept => hkept, hinv.keyed,
        replacesNoLater_decide hinv.keyed (hmet hstate), fun _ _ _ => rfl⟩
    | writing next expected recovery =>
      rw [hstate] at hreplaces
      rcases setEffective_cases next expected h.rows with ⟨e, herror⟩ | ⟨hlands, hfree, hmoves⟩
      · rw [SeedState.next, herror]
        exact ⟨fun _ _ hkept => hkept, hinv.keyed, trivial, fun _ _ _ => rfl⟩
      · rw [SeedState.next, hlands]
        exact ⟨fun _ _ => get?_write hfree, OrderedMap.forall_get?_set rfl hinv.keyed, trivial,
          fun head hhead hbelow => write_of_replaces hreplaces hhead hbelow hfree hmoves⟩
    | recovering recovery error =>
      rw [SeedState.next]
      split <;> exact ⟨fun _ _ hkept => hkept, hinv.keyed, trivial, fun _ _ _ => rfl⟩
    | done => exact ⟨fun _ _ hkept => hkept, hinv.keyed, trivial, fun _ _ _ => rfl⟩
    | failed error => exact ⟨fun _ _ hkept => hkept, hinv.keyed, trivial, fun _ _ _ => rfl⟩
  obtain ⟨hkept, hkeyed, hmoved, hlaw⟩ := hcall
  refine ⟨⟨hkeyed, fun i => ?_⟩, hlaw⟩
  by_cases hi : i = step.1
  · have hstate : (h.next host fingerprint boots step).processes step.1 =
        ((h.processes step.1).next host fingerprint (boots step.1) step.2 h.rows).2 :=
      Function.update_self ..
    rw [hi, hstate]
    exact hmoved
  · have hother : (h.next host fingerprint boots step).processes i = h.processes i :=
      Function.update_of_ne hi ..
    rw [hother]
    exact (hinv.processes i).mono hkept

end Convergence

/-- **Booting converges on one capability head**: one process after another, processes of one boot
revision interleaved, and processes of any boot revisions as to the heads of later epochs. -/
theorem bootsConverge (host : Host) (fingerprint : List CredentialRow → String) :
    (∀ (rows : CapabilityRows) (boot : BootRevision) (clock later : String), rows.Stored →
      SettlesOnRead host fingerprint rows boot clock →
        seedIfEmpty host fingerprint boot later (seedIfEmpty host fingerprint boot clock rows).1 =
            ((seedIfEmpty host fingerprint boot clock rows).1, .done) ∧
          (seedIfEmpty host fingerprint boot clock rows).2 = .done) ∧
    (∀ (rows : CapabilityRows) (boot : BootRevision) (steps : List (Nat × String)), rows.Stored →
      Admits (Booting.next host fingerprint fun _ => boot) (fun h step =>
        h.processes step.1 = .start → SettlesOnRead host fingerprint h.rows boot step.2)
          steps { rows } →
        Admits (Booting.next host fingerprint fun _ => boot)
          (SeedLaw host fingerprint boot rows) steps { rows }) ∧
    ∀ (rows : CapabilityRows) (boots : Nat → RuntimeCapabilityRevision)
      (steps : List (Nat × String)), rows.Stored →
      Admits (Booting.next host fingerprint boots) (fun h step =>
        h.processes step.1 = .start → AgreesOnRead h.rows (boots step.1)) steps { rows } →
        Admits (Booting.next host fingerprint boots)
          (EarlierLaw host fingerprint boots) steps { rows } := by
  refine ⟨fun rows boot clock later hrows hmet => seedIfEmpty_twice hrows hmet later,
    fun rows boot steps hrows hmet => ?_, fun rows boots steps hrows hmet => ?_⟩
  · exact Admits.beside (SeedInvariant host fingerprint boot rows)
      (fun _ _ hinv hmet => seedLaw_step hrows hinv hmet) ⟨.inl rfl, fun _ => trivial⟩ hmet
  · exact Admits.beside (EarlierInvariant boots)
      (fun _ _ hinv hmet => earlierLaw_step hinv hmet) ⟨hrows.keyed, fun _ => trivial⟩ hmet

/-! ## Heads that meet the condition, and heads that do not -/

def directBoot (revisionId : String) (epoch : Int) (account version : Option String) :
    RuntimeCapabilityRevision where
  revisionId := revisionId
  number := 1
  entries := [{ deploymentId := "d", catalogModelId := "model", apiFamily := "chat"
                channel := "direct", region := "region", adapterKey := "key"
                credentialAccountId := account, credentialVersion := version }]
  publishedAt := "t0"
  bootCatalogEpoch := some epoch
  reason := some processBoot

/-- A digest that tells nothing apart. -/
def oneFingerprint (_ : List CredentialRow) : String := "0"

/-- The rows after a revision was applied. -/
def rowsOf (revision : RuntimeCapabilityRevision) : CapabilityRows :=
  ({} : CapabilityRows).write revision

theorem stored_write {rows : CapabilityRows} {next : RuntimeCapabilityRevision}
    (hrows : rows.Stored) (hnext : (next.entries.map (·.deploymentId)).Nodup) :
    (rows.write next).Stored := by
  refine ⟨OrderedMap.forall_get?_set rfl hrows.keyed, fun id hid => ?_,
    OrderedMap.forall_get?_set hnext hrows.distinct⟩
  obtain rfl := Option.some.inj hid
  rw [CapabilityRows.write, OrderedMap.get?_set_self]
  rfl

theorem stored_empty : ({} : CapabilityRows).Stored :=
  ⟨fun _ _ h => by simp at h, nofun, fun _ _ h => by simp at h⟩

instance (rows : CapabilityRows) (next : RuntimeCapabilityRevision) : Decidable (rows.Free next) :=
  decidable_of_iff ((rows.revisions.get? next.revisionId).all (· = next) = true) (by
    rw [CapabilityRows.Free]
    cases rows.revisions.get? next.revisionId <;> simp)

instance (rows : CapabilityRows) (boot : RuntimeCapabilityRevision) :
    Decidable (AgreesOnRead rows boot) :=
  decidable_of_iff ((getEffectiveCapabilityRevision rows).all (fun current =>
      !epochBelow (bootCatalogEpoch boot) (bootCatalogEpoch current) ||
        current.entries.all (boundBy boot.entries)) = true) (by
    rw [AgreesOnRead]
    cases getEffectiveCapabilityRevision rows with
    | none => simp
    | some current =>
      cases hbelow : epochBelow (bootCatalogEpoch boot) (bootCatalogEpoch current) <;>
        simp [hbelow])

/-- A head of an earlier epoch is replaced: twice by one process after another, once by two that run
side by side, and it is left alone by a third that knows the earlier epoch. -/
theorem bootsConverge_refreshed :
    (seedIfEmpty isoHost oneFingerprint (directBoot "b2" 2 none none) "t2"
        (seedIfEmpty isoHost oneFingerprint (directBoot "b2" 2 none none) "t1"
          (rowsOf (directBoot "b1" 1 none none))).1).2 = .done ∧
      Admits (Booting.next isoHost oneFingerprint fun _ => directBoot "b2" 2 none none)
        (SeedLaw isoHost oneFingerprint ⟨directBoot "b2" 2 none none, rfl⟩
          (rowsOf (directBoot "b1" 1 none none)))
        [(0, "t0"), (1, "t1"), (1, "t2"), (0, "t3"), (0, "t4")]
        { rows := rowsOf (directBoot "b1" 1 none none) } ∧
      Admits (Booting.next isoHost oneFingerprint fun i =>
          if i = 0 then directBoot "b1" 1 none none else directBoot "b2" 2 none none)
        (EarlierLaw isoHost oneFingerprint fun i =>
          if i = 0 then directBoot "b1" 1 none none else directBoot "b2" 2 none none)
        [(1, "t0"), (1, "t1"), (0, "t2"), (0, "t3")]
        { rows := rowsOf (directBoot "b1" 1 none none) } := by
  have hstored : (rowsOf (directBoot "b1" 1 none none)).Stored :=
    stored_write stored_empty (by decide)
  have hfree : (rowsOf (directBoot "b1" 1 none none)).Free
      (refreshed (directBoot "b1" 1 none none) (directBoot "b2" 2 none none)) := by decide +kernel
  obtain ⟨halone, hsame, hany⟩ := bootsConverge isoHost oneFingerprint
  refine ⟨congrArg Prod.snd (halone _ ⟨directBoot "b2" 2 none none, rfl⟩ "t1" "t2" hstored hfree).1,
    hsame _ ⟨directBoot "b2" 2 none none, rfl⟩ _ hstored ?_, hany _ _ _ hstored ?_⟩
  · refine ⟨fun _ => hfree, fun _ => hfree, ?_, ?_, ?_, trivial⟩
    all_goals exact fun hstart => absurd hstart (by decide +kernel)
  · refine ⟨fun _ => by decide +kernel, fun hstart => absurd hstart (by decide +kernel),
      fun _ => by decide +kernel, fun hstart => absurd hstart (by decide +kernel), trivial⟩

/-- A head of an operator, in a log that holds a later boot. -/
def rolledBack : CapabilityRows :=
  ((rowsOf (directBoot "b1" 1 none none)).write
    { directBoot "b2" 2 none none with number := 3 }).write (directBoot "b1" 1 none none)

/-- **A boot that leaves the version out writes at every seed**, a boot whose id the log holds
already fails, and **a boot of an earlier epoch rebinds a later head**. -/
theorem not_bootsConverge :
    (seedIfEmpty isoHost oneFingerprint (directBoot "b" 1 (some "account") none) "t2"
        (seedIfEmpty isoHost oneFingerprint (directBoot "b" 1 (some "account") none) "t1"
          (rowsOf (directBoot "b0" 1 none (some "7")))).1).1 ≠
      (seedIfEmpty isoHost oneFingerprint (directBoot "b" 1 (some "account") none) "t1"
        (rowsOf (directBoot "b0" 1 none (some "7")))).1 ∧
    ¬ Admits (Booting.next isoHost oneFingerprint fun _ => directBoot "b2" 2 none none)
      (SeedLaw isoHost oneFingerprint ⟨directBoot "b2" 2 none none, rfl⟩ rolledBack)
      [(0, "t0"), (0, "t1"), (0, "t2")] { rows := rolledBack } ∧
    ¬ Admits
      (Booting.next isoHost oneFingerprint fun _ => directBoot "b1" 1 (some "old") (some "1"))
      (EarlierLaw isoHost oneFingerprint fun _ => directBoot "b1" 1 (some "old") (some "1"))
      [(0, "t0"), (0, "t1")] { rows := rowsOf (directBoot "b2" 2 (some "new") (some "1")) } := by
  refine ⟨by decide +kernel, ?_, ?_⟩
  · rintro ⟨_, _, hlaw, _⟩
    have hcases := hlaw.succeeds (.thrown (concurrencyConflict
      "Effective capability revision b2 already exists with different content."))
    exact absurd hcases (by decide +kernel)
  · rintro ⟨_, hlaw, _⟩
    exact absurd (hlaw _ (by rfl) (by decide +kernel)) (by decide +kernel)

end MeiyeAgent
