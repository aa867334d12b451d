import MeiyeAgent.GoalProactive.CampaignSweep

/-!
# GoalProactive/CampaignTurns — which campaigns get their turn

Idle campaigns keep their place at the head of the order, so as many of them as a call visits keep
all others waiting.

* `advanceEach_visited`, `advanceEach_updates` — one pass.
* `advanceOpen_turn` — a call updates a campaign that can make progress, or one before it.
* `sweeps_hasWork`, `sweeps_stay` — calls one after another.
* `sweepsAll_iff` — **every campaign gets its turn** exactly when fewer idle ones than a call visits
  stand before each that can make progress.
-/

namespace MeiyeAgent

open Effect PostgresCampaignPaidWorkLifecycleStore CampaignPaidWorkLifecycle

/-! ## What a sweep leaves -/

section Passes

variable {ports : CampaignPorts} {clock : Nat → Int} {now : Int} {s s' : SweepState}
  {row : CampaignRow} {c : String} {o : WorkOrdinal} {ids : Set String}
  {records : List CampaignPaidWorkLifecycleRecord}

/-- **What visits leave**: a campaign that could make progress stays, or has made it. -/
structure Visited (ports : CampaignPorts) (now : Int) (ids : Set String) (s s' : SweepState) :
    Prop extends SweptFrom now ids s s' where
  progress : ∀ c row o, s.rows c = some row → CanProgress ports row o →
    (s'.rows c = some row ∧ s'.updatedAt c = s.updatedAt c) ∨ HasWork s' c o

theorem Visited.refl (ports : CampaignPorts) (now : Int) (ids : Set String) (s : SweepState) :
    Visited ports now ids s s :=
  ⟨.refl now ids s, fun _ _ _ hrow _ => .inl ⟨hrow, rfl⟩⟩

theorem Visited.trans {s'' : SweepState} (h : Visited ports now ids s s')
    (h' : Visited ports now ids s' s'') : Visited ports now ids s s'' := by
  refine ⟨h.toSweptFrom.trans h'.toSweptFrom, fun c row o hrow hcan => ?_⟩
  rcases h.progress c row o hrow hcan with ⟨hrow', hsame⟩ | hwork
  · exact (h'.progress c row o hrow' hcan).imp_left fun h => ⟨h.1, h.2.trans hsame⟩
  · exact .inr (h'.hasWork hwork)

/-- A Work that can be claimed at an instant can be at every later one. -/
theorem claimable_mono {t : Int} (h : claimable row o now = true) (ht : now ≤ t) :
    claimable row o t = true := by
  simp only [claimable, decide_eq_true_eq, Option.any_eq_true] at h ⊢
  rcases h with h | ⟨hstate, claimedAt, hat, hlt⟩
  · exact .inl h
  · exact .inr ⟨hstate, claimedAt, hat, by omega⟩

theorem CampaignRow.ready_mono {t : Int} (h : row.ready ports now = true) (ht : now ≤ t) :
    row.ready ports t = true := by
  obtain ⟨o, hnext, hclaimable⟩ := (Option.any_eq_true _ _).mp h
  exact (Option.any_eq_true _ _).mpr ⟨o, hnext, claimable_mono hclaimable ht⟩

theorem CanProgress.ready (h : CanProgress ports row o) (now : Int) :
    row.ready ports now = true :=
  (Option.any_eq_true _ _).mpr ⟨o, h.next, decide_eq_true (.inl h.unclaimed)⟩

/-- Its Work is not there yet. -/
theorem CanProgress.not_hasWork (h : CanProgress ports row o) (hrow : s.rows c = some row) :
    ¬ HasWork s c o := by
  rintro ⟨row', hrow', hsome⟩
  obtain rfl := Option.some.inj (hrow'.symm.trans hrow)
  have hnext := h.next
  unfold nextWork at hnext
  split at hnext
  · next hfirst =>
    split at hnext
    · obtain rfl := Option.some.inj hnext
      rw [hfirst] at hsome
      exact nomatch hsome
    · exact nomatch hnext
  · next hsecond =>
    split at hnext
    · obtain rfl := Option.some.inj hnext
      rw [hsecond] at hsome
      exact nomatch hsome
    · exact nomatch hnext
  · exact nomatch hnext

/-- A visit that moves one campaign at most, to the progress it can make. -/
theorem visited_of_swept (hswept : SweptFrom now {c} s s') (hids : c ∈ ids)
    (hrow : s.rows c = some row) (hwork : ∀ o, CanProgress ports row o → HasWork s' c o) :
    Visited ports now ids s s' := by
  refine ⟨hswept.mono (Set.singleton_subset_iff.mpr hids), fun d row' o hrow' hcan => ?_⟩
  by_cases hd : d = c
  · subst hd
    obtain rfl := Option.some.inj (hrow'.symm.trans hrow)
    exact .inr (hwork o hcan)
  · exact .inl (hswept.row_eq hrow' hd)

theorem visited_read (n : Nat) : Visited ports now ids s { s with readings := n } :=
  ⟨sweptFrom_read n, fun _ _ _ hrow _ => .inl ⟨hrow, rfl⟩⟩

/-- Records as they are stored. -/
def StoredIn (s : SweepState) (records : List CampaignPaidWorkLifecycleRecord) : Prop :=
  ∀ record ∈ records, ∃ row, row.record = record ∧ ReadAs s record.campaignId row

theorem StoredIn.tail (h : StoredIn s (row.record :: records)) : StoredIn s records :=
  fun record hmem => h record (List.mem_cons_of_mem _ hmem)

theorem StoredIn.of_same (h : StoredIn s records)
    (hsame : ∀ record ∈ records, s'.rows record.campaignId = s.rows record.campaignId) :
    StoredIn s' records := by
  intro record hmem
  obtain ⟨row, rfl, hread⟩ := h record hmem
  exact ⟨row, rfl, (hsame _ hmem).trans hread.stored, rfl⟩

/-- The rest of a pass finds its campaigns as they were. -/
theorem StoredIn.same (h : StoredIn s records) (hnew : c ∉ records.map (·.campaignId))
    (hswept : SweptFrom now {c} s s') :
    ∀ record ∈ records, s'.rows record.campaignId = s.rows record.campaignId := by
  intro record hmem
  obtain ⟨row, rfl, hread⟩ := h record hmem
  have hother : row.record.campaignId ∉ ({c} : Set String) := by
    rintro rfl
    exact hnew (List.mem_map_of_mem hmem)
  rw [hread.stored, (hswept.row_eq hread.stored hother).1]

/-- **A pass**, whose ready campaigns are among some. -/
theorem advanceEach_visited (hclock : ReadsFrom clock now) :
    ∀ (records : List CampaignPaidWorkLifecycleRecord) {s : SweepState}, StoredIn s records →
      (records.map (·.campaignId)).Nodup →
      (∀ record ∈ records, ∀ row, s.rows record.campaignId = some row →
        ∀ i, row.ready ports (clock i) = true → record.campaignId ∈ ids) →
      Wp (advanceEach ports clock records) s (fun _ s' => Visited ports now ids s s')
        fun _ s' => Visited ports now ids s s'
  | [], s, _, _, _ => (wp_pure _).mpr (.refl ports now ids s)
  | record :: records, s, hstored, hnodup, hready => by
    obtain ⟨row, rfl, hread⟩ := hstored record List.mem_cons_self
    obtain ⟨hnew, hnodup⟩ := List.nodup_cons.mp hnodup
    have hrest : ∀ s₁, Visited ports now ids s s₁ →
        (∀ record ∈ records, s₁.rows record.campaignId = s.rows record.campaignId) →
        Wp (advanceEach ports clock records) s₁ (fun _ s' => Visited ports now ids s s')
          fun _ s' => Visited ports now ids s s' := by
      intro s₁ hvisited hsame
      refine (advanceEach_visited hclock records (hstored.tail.of_same hsame) hnodup
        fun record hmem row' hrow' => ?_).mono (fun _ _ => hvisited.trans) fun _ _ => hvisited.trans
      exact hready record (List.mem_cons_of_mem _ hmem) row' ((hsame _ hmem).symm.trans hrow')
    cases hnow : row.ready ports (clock s.readings) with
    | false =>
      obtain ⟨n, hidle⟩ := advance_idle hread hnow
      have hafter := hrest { s with readings := n } (visited_read n) fun _ _ => rfl
      unfold Wp at hafter ⊢
      rwa [advanceEach, bind_of_ok hidle]
    | true =>
      have hids := hready _ List.mem_cons_self row hread.stored _ hnow
      rw [advanceEach, wp_bind]
      exact (advance_ready hclock hread hnow).mono
        (fun _ s₁ ⟨hswept, _, hwork⟩ => hrest s₁ (visited_of_swept hswept hids hread.stored hwork)
          (hstored.tail.same hnew hswept))
        fun _ s₁ ⟨hswept, _, hwork⟩ => visited_of_swept hswept hids hread.stored hwork

/-- One of these was updated since an instant. -/
def UpdatedSome (now : Int) (records : List CampaignPaidWorkLifecycleRecord) (s : SweepState) :
    Prop :=
  ∃ record ∈ records, now ≤ s.updatedAt record.campaignId

theorem UpdatedSome.cons {record : CampaignPaidWorkLifecycleRecord}
    (h : UpdatedSome now records s) : UpdatedSome now (record :: records) s :=
  h.imp fun _ h => ⟨List.mem_cons_of_mem _ h.1, h.2⟩

/-- A pass whose first campaign is ready updates that. -/
theorem advanceEach_head (hclock : ReadsFrom clock now)
    (hstored : StoredIn s (row.record :: records))
    (hnodup : ((row.record :: records).map (·.campaignId)).Nodup)
    (hrow : s.rows row.record.campaignId = some row)
    (hready : row.ready ports (clock s.readings) = true) :
    Wp (advanceEach ports clock (row.record :: records)) s
      (fun _ s' => now ≤ s'.updatedAt row.record.campaignId)
      fun _ s' => now ≤ s'.updatedAt row.record.campaignId := by
  obtain ⟨hnew, hnodup⟩ := List.nodup_cons.mp hnodup
  rw [advanceEach, wp_bind]
  refine (advance_ready hclock ⟨hrow, rfl⟩ hready).mono (fun _ s₁ ⟨hswept, hlater, _⟩ => ?_)
    fun _ s₁ ⟨_, hlater, _⟩ => hlater
  obtain ⟨row₁, hrow₁, -⟩ := hswept.rows _ _ hrow
  have hupdated : ∀ {s'}, Visited ports now Set.univ s₁ s' →
      now ≤ s'.updatedAt row.record.campaignId := fun h => h.updated hrow₁ hlater
  exact (advanceEach_visited hclock records (hstored.tail.of_same (hstored.tail.same hnew hswept))
    hnodup fun _ _ _ _ _ _ => Set.mem_univ _).mono (fun _ _ => hupdated) fun _ _ => hupdated

/-- **A pass that comes to a ready campaign** updates it or one before it. -/
theorem advanceEach_updates (hclock : ReadsFrom clock now)
    {record : CampaignPaidWorkLifecycleRecord} {after : List CampaignPaidWorkLifecycleRecord}
    (hready : row.record = record) (hnow : row.ready ports now = true) :
    ∀ (before : List CampaignPaidWorkLifecycleRecord) {s : SweepState},
      StoredIn s (before ++ record :: after) →
      ((before ++ record :: after).map (·.campaignId)).Nodup →
      s.rows record.campaignId = some row →
      Wp (advanceEach ports clock (before ++ record :: after)) s
        (fun _ => UpdatedSome now (before ++ [record]))
        fun _ => UpdatedSome now (before ++ [record]) := by
  subst hready
  intro before
  induction before with
  | nil =>
    intro s hstored hnodup hrow
    refine (advanceEach_head hclock hstored hnodup hrow (row.ready_mono hnow (hclock _))).mono
      (fun _ _ h => ⟨_, List.mem_singleton_self _, h⟩) fun _ _ h =>
        ⟨_, List.mem_singleton_self _, h⟩
  | cons head before ih =>
    intro s hstored hnodup hrow
    obtain ⟨headRow, rfl, hread⟩ := hstored head List.mem_cons_self
    cases hheadNow : headRow.ready ports (clock s.readings) with
    | true =>
      exact (advanceEach_head hclock hstored hnodup hread.stored hheadNow).mono
        (fun _ _ h => ⟨_, List.mem_cons_self, h⟩) fun _ _ h => ⟨_, List.mem_cons_self, h⟩
    | false =>
      obtain ⟨n, hidle⟩ := advance_idle hread hheadNow
      have hafter := (@ih { s with readings := n } (hstored.tail.of_same fun _ _ => rfl)
        (List.nodup_cons.mp hnodup).2 hrow).mono
          (fun _ _ => @UpdatedSome.cons now _ _ headRow.record)
          fun _ _ => @UpdatedSome.cons now _ _ headRow.record
      unfold Wp at hafter ⊢
      rwa [List.cons_append, advanceEach, bind_of_ok hidle]

end Passes

/-! ## Turns -/

section Taken

variable {γ : Type} [LinearOrder γ] {collate : String → γ} {ports : CampaignPorts}
  {clock : Nat → Int} {now : Int} {s₀ s s' : SweepState} {row : CampaignRow} {c d : String}
  {o : WorkOrdinal} {ids : Set String} {limit : Nat}

theorem SweepState.Listed.of_swept (h : s.Listed) (hswept : SweptFrom now ids s s') :
    s'.Listed where
  nodup := hswept.campaigns ▸ h.nodup
  listed c := by
    rw [hswept.campaigns, h.listed c]
    cases hrow : s.rows c with
    | none => rw [hswept.absent c hrow]
    | some row =>
      obtain ⟨row', hrow', -⟩ := hswept.rows c row hrow
      rw [hrow']
      rfl
  ids c row' hrow' := by
    cases hrow : s.rows c with
    | none => exact nomatch hrow'.symm.trans (hswept.absent c hrow)
    | some row =>
      obtain ⟨row'', hrow'', hkept, -⟩ := hswept.rows c row hrow
      obtain rfl := Option.some.inj (hrow'.symm.trans hrow'')
      exact hkept.campaignId.trans (h.ids c row hrow)

/-- The open campaigns by their last update. -/
def SweepState.openOrder (collate : String → γ) (s : SweepState) : List String :=
  (s.order collate).filter fun c => (s.rows c).any (·.isOpen)

theorem mem_openOrder : c ∈ s.openOrder collate ↔ c ∈ s.openCampaigns := by
  rw [SweepState.openOrder, SweepState.openCampaigns, List.mem_filter, List.mem_filter,
    SweepState.order, List.mem_insertionSort]

theorem nodup_openOrder (h : s.Listed) : (s.openOrder collate).Nodup :=
  ((List.perm_insertionSort _ _).nodup_iff.mpr h.nodup).filter _

theorem pairwise_openOrder :
    (s.openOrder collate).Pairwise fun a b => s.place collate a ≤ s.place collate b := by
  have : Std.Total fun a b => s.place collate a ≤ s.place collate b := ⟨fun _ _ => le_total _ _⟩
  have : IsTrans String fun a b => s.place collate a ≤ s.place collate b :=
    ⟨fun _ _ _ => le_trans⟩
  exact (List.pairwise_insertionSort _ s.campaigns).filter _

/-- A pass visits the first campaigns of the order. -/
theorem campaignIds_listOpen (h : s.Listed) :
    (listOpen s.rows (s.order collate) limit).map (·.campaignId) =
      (s.openOrder collate).take limit := by
  rw [listOpen, List.map_take, List.map_filterMap, SweepState.openOrder, ← List.filterMap_eq_filter]
  congr 1
  refine List.filterMap_congr fun c _ => ?_
  cases hrow : s.rows c with
  | none =>
    simp only [Option.guard, hrow]
    rfl
  | some row =>
    have hid := h.ids c row hrow
    simp only [Option.guard, hrow, Option.filter_some, Option.any_some, CampaignRow.isOpen]
    split
    · exact congrArg some hid
    · rfl

theorem storedIn_listOpen (h : s.Listed) :
    StoredIn s (listOpen s.rows (s.order collate) limit) := by
  intro record hmem
  obtain ⟨c, -, hrecord⟩ := List.mem_filterMap.mp (List.mem_of_mem_take hmem)
  obtain ⟨row, hrow, rfl⟩ := Option.map_eq_some_iff.mp hrecord
  have hstored := (Option.filter_eq_some_iff.mp hrow).1
  exact ⟨row, rfl, (h.ids c row hstored).symm ▸ hstored, rfl⟩

/-- **A call** visits campaigns that become ready on its clock. -/
theorem advanceOpen_visited (hclock : ReadsFrom clock now) (h : s.Listed)
    (hready : ∀ c ∈ (s.openOrder collate).take limit, ∀ row, s.rows c = some row →
      ∀ i, row.ready ports (clock i) = true → c ∈ ids) :
    Visited ports now ids s (final (advanceOpen collate ports clock limit) s) := by
  have hids := @campaignIds_listOpen _ _ collate s limit h
  refine wp_final.mp ?_
  simp only [advanceOpen, wp_bind, wp_get, wp_pure]
  refine (advanceEach_visited hclock _ (storedIn_listOpen h) (hids ▸ (nodup_openOrder h).take)
    fun record hmem row hrow => hready _ ?_ row hrow).mono (fun _ _ hs => hs) fun _ _ hs => hs
  rw [← hids]
  exact List.mem_map_of_mem hmem

/-- A row that was not updated is as it was. -/
theorem SweptFrom.old (h : SweptFrom now ids s₀ s) (hrow : s.rows c = some row)
    (hlt : s.updatedAt c < now) : s₀.rows c = some row ∧ s.updatedAt c = s₀.updatedAt c := by
  cases hrow₀ : s₀.rows c with
  | none => exact nomatch hrow.symm.trans (h.absent c hrow₀)
  | some row₀ =>
    obtain ⟨row', hrow', -, ⟨rfl, hsame⟩ | ⟨-, hlater⟩⟩ := h.rows c row₀ hrow₀
    · exact ⟨hrow'.symm.trans hrow, hsame⟩
    · exact absurd hlater (not_le.mpr hlt)

theorem mem_openCampaigns (h : s.Listed) :
    c ∈ s.openCampaigns ↔ ∃ row, s.rows c = some row ∧ row.isOpen = true := by
  rw [SweepState.openCampaigns, List.mem_filter, Option.any_eq_true]
  refine ⟨And.right, fun hopen => ⟨(h.listed c).mpr ?_, hopen⟩⟩
  obtain ⟨row, hrow, -⟩ := hopen
  exact Option.isSome_iff_exists.mpr ⟨row, hrow⟩

/-- An open campaign at or before one that was not updated is as it was. -/
theorem old_of_le (h : s₀.Listed) (hswept : SweptFrom now ids s₀ s) (hd : s.updatedAt d < now)
    (hopen : c ∈ s.openCampaigns) (hle : s.place collate c ≤ s.place collate d) :
    s.updatedAt c < now ∧ s₀.rows c = s.rows c ∧ c ∈ s₀.openCampaigns ∧
      s.place collate c = s₀.place collate c := by
  obtain ⟨row, hrow, hrowOpen⟩ := (mem_openCampaigns (h.of_swept hswept)).mp hopen
  have hlt : s.updatedAt c < now := (Prod.Lex.toLex_le_toLex'.mp hle).1.trans_lt hd
  obtain ⟨hrow₀, hsame⟩ := hswept.old hrow hlt
  refine ⟨hlt, hrow₀.trans hrow.symm, (mem_openCampaigns h).mpr ⟨row, hrow₀, hrowOpen⟩, ?_⟩
  rw [SweepState.place, SweepState.place, hsame]

/-- The first ready campaign of an order: the ones before it are idle, and it is a given one or
before that. -/
theorem exists_first_ready {order : List String} {ready : String → Bool}
    {le : String → String → Prop} (hsorted : order.Pairwise le) (hrefl : ∀ c, le c c)
    (hmem : c ∈ order) (hready : ready c = true) :
    ∃ before e after, order = before ++ e :: after ∧ ready e = true ∧
      (∀ d ∈ before, ready d = false) ∧ ∀ d ∈ before ++ [e], le d c := by
  obtain ⟨e, hfind⟩ := Option.isSome_iff_exists.mp (List.find?_isSome.mpr ⟨c, hmem, hready⟩)
  obtain ⟨he, before, after, rfl, hidle⟩ := List.find?_eq_some_iff_append.mp hfind
  simp only [Bool.not_eq_true'] at hidle
  obtain ⟨-, htail, hcross⟩ := List.pairwise_append.mp hsorted
  have hc : c ∈ e :: after := (List.mem_append.mp hmem).resolve_left fun hbefore =>
    Bool.false_ne_true ((hidle c hbefore).symm.trans hready)
  refine ⟨before, e, after, rfl, he, hidle, fun d hd => ?_⟩
  rcases List.mem_append.mp hd with hbefore | he
  · exact hcross d hbefore c hc
  · obtain rfl := List.mem_singleton.mp he
    rcases List.mem_cons.mp hc with rfl | hafter
    · exact hrefl c
    · exact List.rel_of_pairwise_cons htail hafter

/-- **A call updates a campaign that can make progress, or one before it**, where fewer idle ones
than it visits stand before. -/
theorem advanceOpen_turn (hclock : ReadsFrom clock now) (hcollate : Function.Injective collate)
    (h : s₀.Listed) (hswept : SweptFrom now ids s₀ s) (hrow : s.rows c = some row)
    (hlt : s.updatedAt c < now) (hcan : CanProgress ports row o)
    (hfew : (idleBefore collate ports s₀ now c).length < limit) :
    ∃ d ∈ s₀.openCampaigns, (d = c ∨ s₀.place collate d < s₀.place collate c) ∧
      s.updatedAt d < now ∧
      now ≤ (final (advanceOpen collate ports clock limit) s).updatedAt d := by
  have hlisted := h.of_swept hswept
  have hopen := (mem_openCampaigns hlisted).mpr ⟨row, hrow, hcan.isOpen⟩
  let ready : String → Bool := fun d => (s.rows d).any (·.ready ports now)
  have hready : ready c = true := (Option.any_eq_true _ _).mpr ⟨row, hrow, hcan.ready now⟩
  obtain ⟨before, e, after, horder, he, hidle, hle⟩ :=
    exists_first_ready (@pairwise_openOrder _ _ collate s) (fun d => le_refl (s.place collate d))
      (mem_openOrder.mpr hopen) hready
  -- what stands so far before was not updated yet
  have hold : ∀ d ∈ before ++ [e], s.updatedAt d < now ∧ s₀.rows d = s.rows d ∧
      d ∈ s₀.openCampaigns ∧ s.place collate d = s₀.place collate d := by
    intro d hd
    have hd' : d ∈ s.openOrder collate := by
      rw [horder, List.append_cons]
      exact List.mem_append_left _ hd
    exact old_of_le h hswept hlt (mem_openOrder.mp hd') (hle d hd)
  have hplace : ∀ d ∈ before ++ [e], d = c ∨ s₀.place collate d < s₀.place collate c := by
    intro d hd
    obtain ⟨-, -, -, hsame⟩ := hold d hd
    obtain ⟨-, -, -, hsame'⟩ := old_of_le h hswept hlt hopen (le_refl (s.place collate c))
    have hle := hle d hd
    rw [hsame, hsame'] at hle
    exact hle.eq_or_lt.imp_left fun heq => hcollate (Prod.ext_iff.mp (toLex.injective heq)).2
  have hnodup := @nodup_openOrder _ _ collate s hlisted
  rw [horder] at hnodup
  -- the idle ones among it are fewer than a call visits
  have hshort : before.length < limit := by
    have hbefore : before.Nodup := hnodup.sublist (List.sublist_append_left ..)
    refine (List.subperm_of_subset hbefore fun d hd => ?_).length_le.trans_lt hfew
    have hd' := List.mem_append_left [e] hd
    obtain ⟨-, hsame, hmem, -⟩ := hold d hd'
    have hdc : d ≠ c := by
      rintro rfl
      exact Bool.false_ne_true ((hidle d hd).symm.trans hready)
    refine List.mem_filter.mpr ⟨hmem, decide_eq_true ⟨?_, (hplace d hd').resolve_left hdc⟩⟩
    rw [hsame, Option.all_eq_true]
    intro row' hrow'
    have hd := hidle d hd
    simp only [ready, hrow', Option.any_some] at hd
    exact decide_eq_true hd
  have htake : (before ++ e :: after).take limit =
      before ++ e :: after.take (limit - before.length - 1) := by
    obtain ⟨k, hk⟩ : ∃ k, limit - before.length = k + 1 := ⟨limit - before.length - 1, by omega⟩
    rw [List.take_append, List.take_of_length_le hshort.le, hk]
    rfl
  have hids := @campaignIds_listOpen _ _ collate s limit hlisted
  have hstored := @storedIn_listOpen _ _ collate s limit hlisted
  rw [horder, htake] at hids
  obtain ⟨before', _, hrecords, rfl, hrest⟩ := List.map_eq_append_iff.mp hids
  obtain ⟨record, after', rfl, rfl, hafter⟩ := List.map_eq_cons_iff.mp hrest
  rw [hrecords] at hstored hids
  obtain ⟨row', hrecord, hread⟩ := hstored record (List.mem_append_right _ List.mem_cons_self)
  have hrow'Ready : row'.ready ports now = true := by
    simpa only [ready, hread.stored, Option.any_some] using he
  have hpass := advanceEach_updates hclock hrecord hrow'Ready before' hstored
    (hids ▸ hnodup.sublist (htake ▸ List.take_sublist ..)) hread.stored
  have hupdated : UpdatedSome now (before' ++ [record])
      (final (advanceOpen collate ports clock limit) s) := by
    refine wp_final.mp ?_
    simp only [advanceOpen, wp_bind, wp_get, wp_pure, hrecords]
    exact hpass
  obtain ⟨updated, hmem, hlater⟩ := hupdated
  have hmem' : updated.campaignId ∈ before'.map (·.campaignId) ++ [record.campaignId] := by
    rw [← List.map_singleton, ← List.map_append]
    exact List.mem_map_of_mem hmem
  obtain ⟨hltUpdated, -, hopenUpdated, -⟩ := hold _ hmem'
  exact ⟨_, hopenUpdated, hplace _ hmem', hltUpdated, hlater⟩

end Taken

/-! ## Every campaign gets its turn -/

section Fair

variable {γ : Type} [LinearOrder γ] {collate : String → γ} {ports : CampaignPorts}
  {clock : Nat → Int} {now : Int} {s₀ s s' : SweepState} {row : CampaignRow} {c d : String}
  {o : WorkOrdinal} {limit : Nat}

/-- The open campaigns before one that were not updated yet. -/
def ahead (collate : String → γ) (s₀ : SweepState) (now : Int) (campaignId : String)
    (s : SweepState) : List String :=
  s₀.openCampaigns.filter fun c =>
    s₀.place collate c < s₀.place collate campaignId ∧ s.updatedAt c < now

/-- **A call that updates one ahead** leaves fewer. -/
theorem ahead_lt (h : s₀.Listed) (hvisited : Visited ports now Set.univ s₀ s)
    (hpass : Visited ports now Set.univ s s') (hopen : d ∈ s₀.openCampaigns)
    (hplace : s₀.place collate d < s₀.place collate c) (hlt : s.updatedAt d < now)
    (hlater : now ≤ s'.updatedAt d) :
    (ahead collate s₀ now c s').length < (ahead collate s₀ now c s).length := by
  have hless : ahead collate s₀ now c s' =
      (ahead collate s₀ now c s).filter fun e => s'.updatedAt e < now := by
    rw [ahead, ahead, List.filter_filter]
    refine List.filter_congr fun e he => ?_
    obtain ⟨row, hrow, -⟩ := (mem_openCampaigns h).mp he
    obtain ⟨row', hrow', -⟩ := hvisited.rows e row hrow
    have hkeeps : s'.updatedAt e < now → s.updatedAt e < now := fun hlt =>
      not_le.mp fun hlater => not_le.mpr hlt (hpass.updated hrow' hlater)
    simp only [← Bool.decide_and, decide_eq_decide]
    tauto
  rw [hless, List.length_filter_lt_length_iff_exists]
  exact ⟨d, List.mem_filter.mpr ⟨hopen, decide_eq_true ⟨hplace, hlt⟩⟩,
    fun hd => not_le.mpr (of_decide_eq_true hd) hlater⟩

/-- **A campaign that can make progress** has made it after as many calls as stood ahead of it. -/
theorem sweeps_hasWork (hclock : ReadsFrom clock now) (hcollate : Function.Injective collate)
    (h : CampaignTable s₀ now) (hrow : s₀.rows c = some row) (hcan : CanProgress ports row o)
    (hfew : (idleBefore collate ports s₀ now c).length < limit) :
    ∀ (n : Nat) (s : SweepState), Visited ports now Set.univ s₀ s →
      HasWork s c o ∨ (ahead collate s₀ now c s).length < n →
      HasWork (sweeps collate ports clock limit n s) c o
  | 0, _, _, hturn => hturn.resolve_right (Nat.not_lt_zero _)
  | n + 1, s, hvisited, hturn => by
    have hpass : Visited ports now Set.univ s (final (advanceOpen collate ports clock limit) s) :=
      advanceOpen_visited hclock (h.of_swept hvisited.toSweptFrom) fun _ _ _ _ _ _ => Set.mem_univ _
    refine sweeps_hasWork hclock hcollate h hrow hcan hfew n _ (hvisited.trans hpass) ?_
    by_cases hwork : HasWork s c o
    · exact .inl (hpass.hasWork hwork)
    obtain ⟨hrow', hsame⟩ := (hvisited.progress c row o hrow hcan).resolve_right hwork
    refine (hpass.progress c row o hrow' hcan).symm.imp_right fun ⟨_, hsame'⟩ => ?_
    have hlt : s.updatedAt c < now :=
      hsame.trans_lt (h.past c ((h.listed c).mpr (Option.isSome_iff_exists.mpr ⟨row, hrow⟩)))
    obtain ⟨d, hopen, hplace, hltd, hlater⟩ :=
      advanceOpen_turn hclock hcollate h.toListed hvisited.toSweptFrom hrow' hlt hcan hfew
    have hdc : d ≠ c := by
      rintro rfl
      exact not_le.mpr hlt (hlater.trans hsame'.le)
    have hless := ahead_lt h.toListed hvisited hpass hopen (hplace.resolve_left hdc) hltd hlater
    have hlen := hturn.resolve_left hwork
    omega

/-- Neither a campaign nor an idle one before it. -/
def others (collate : String → γ) (ports : CampaignPorts) (s₀ : SweepState) (now : Int)
    (campaignId : String) : Set String :=
  {c | c ≠ campaignId ∧ c ∉ idleBefore collate ports s₀ now campaignId}

theorem mem_idleBefore (h : s₀.Listed) : d ∈ idleBefore collate ports s₀ now c ↔
    ∃ row, s₀.rows d = some row ∧ row.isOpen = true ∧ row.ready ports now = false ∧
      s₀.place collate d < s₀.place collate c := by
  rw [idleBefore, List.mem_filter, mem_openCampaigns h]
  constructor
  · rintro ⟨⟨row, hrow, hopen⟩, hidle⟩
    rw [hrow] at hidle
    obtain ⟨hnot, hplace⟩ := of_decide_eq_true hidle
    exact ⟨row, hrow, hopen, of_decide_eq_true hnot, hplace⟩
  · rintro ⟨row, hrow, hopen, hnot, hplace⟩
    refine ⟨⟨row, hrow, hopen⟩, decide_eq_true ⟨?_, hplace⟩⟩
    rw [hrow]
    exact decide_eq_true hnot

/-- A campaign behind idle ones that fill a call is not visited by it. -/
theorem not_mem_take (h : s₀.Listed) (hrow : s₀.rows c = some row)
    (hswept : SweptFrom now (others collate ports s₀ now c) s₀ s)
    (hmany : limit ≤ (idleBefore collate ports s₀ now c).length) :
    c ∉ (s.openOrder collate).take limit := by
  intro hmem
  obtain ⟨before, after, htake⟩ := List.append_of_mem hmem
  have hplace : s.place collate c = s₀.place collate c := by
    rw [SweepState.place, SweepState.place, (hswept.row_eq hrow fun hc => hc.1 rfl).2]
  have horder : s.openOrder collate =
      before ++ c :: (after ++ (s.openOrder collate).drop limit) := by
    conv_lhs => rw [← List.take_append_drop limit (s.openOrder collate), htake]
    rw [List.append_assoc, List.cons_append]
  have hbefore : idleBefore collate ports s₀ now c ⊆ before := by
    intro d hd
    obtain ⟨row', hrow', hopen', -, hlt⟩ := (mem_idleBefore h).mp hd
    obtain ⟨hsame, hupdated⟩ := hswept.row_eq hrow' fun hc => hc.2 hd
    have hplace' : s.place collate d = s₀.place collate d := by
      rw [SweepState.place, SweepState.place, hupdated]
    have hd' : d ∈ s.openOrder collate :=
      mem_openOrder.mpr ((mem_openCampaigns (h.of_swept hswept)).mpr ⟨row', hsame, hopen'⟩)
    rw [horder, List.mem_append, List.mem_cons] at hd'
    rcases hd' with hd' | rfl | hafter
    · exact hd'
    · exact absurd hlt (lt_irrefl _)
    · have hsorted := @pairwise_openOrder _ _ collate s
      rw [horder] at hsorted
      have hle := List.rel_of_pairwise_cons (List.pairwise_append.mp hsorted).2.1 hafter
      rw [hplace, hplace'] at hle
      exact absurd hlt hle.not_gt
  have hnodup : (idleBefore collate ports s₀ now c).Nodup := (h.nodup.filter _).filter _
  have hfew := (List.subperm_of_subset hnodup hbefore).length_le
  have hlength := List.length_take_le limit (s.openOrder collate)
  rw [htake, List.length_append, List.length_cons] at hlength
  omega

/-- **Idle rows that fill a call** are all it visits, time standing still. -/
theorem sweeps_stay (h : CampaignTable s₀ now) (hrow : s₀.rows c = some row)
    (hmany : limit ≤ (idleBefore collate ports s₀ now c).length) :
    ∀ (n : Nat) (s : SweepState), SweptFrom now (others collate ports s₀ now c) s₀ s →
      SweptFrom now (others collate ports s₀ now c) s₀
        (sweeps collate ports (fun _ => now) limit n s)
  | 0, _, hswept => hswept
  | n + 1, s, hswept => by
    have hvisits : ∀ d ∈ (s.openOrder collate).take limit, ∀ row', s.rows d = some row' →
        ∀ _ : Nat, row'.ready ports now = true → d ∈ others collate ports s₀ now c := by
      intro d hd row' hrow' _ hready
      refine ⟨?_, fun hidle => ?_⟩
      · rintro rfl
        exact not_mem_take h.toListed hrow hswept hmany hd
      · obtain ⟨row₀, hrow₀, -, hnot, -⟩ := (mem_idleBefore h.toListed).mp hidle
        obtain ⟨hsame, -⟩ := hswept.row_eq hrow₀ fun hc => hc.2 hidle
        obtain rfl := Option.some.inj (hrow'.symm.trans hsame)
        exact Bool.false_ne_true (hnot.symm.trans hready)
    have hpass := advanceOpen_visited (fun _ => le_refl now) (h.of_swept hswept) hvisits
    exact sweeps_stay h hrow hmany n _ (hswept.trans hpass.toSweptFrom)

/-- **Every campaign gets its turn exactly when fewer idle ones than a call visits stand before each
that can make progress.** -/
theorem sweepsAll_iff (hcollate : Function.Injective collate) (h : CampaignTable s now) :
    SweepsAll collate ports limit s now ↔ ∀ c row o, s.rows c = some row →
      CanProgress ports row o → (idleBefore collate ports s now c).length < limit := by
  constructor
  · intro hall c row o hrow hcan
    by_contra hmany
    have hswept := sweeps_stay h hrow (not_lt.mp hmany) s.openCampaigns.length s
      (.refl now _ s)
    have hwork := hall (fun _ => now) monotone_const le_rfl c row o hrow hcan
    exact hcan.not_hasWork (hswept.row_eq hrow fun hc => hc.1 rfl).1 hwork
  · intro hfew clock hmono hstart c row o hrow hcan
    have hclock : ReadsFrom clock now := fun i => hstart.trans (hmono (Nat.zero_le i))
    refine sweeps_hasWork hclock hcollate h hrow hcan (hfew c row o hrow hcan) _ s
      (.refl ports now _ s) (.inr ?_)
    refine List.length_filter_lt_length_iff_exists.mpr
      ⟨c, (mem_openCampaigns h.toListed).mpr ⟨row, hrow, hcan.isOpen⟩, fun hc => ?_⟩
    exact lt_irrefl _ (of_decide_eq_true hc).1

end Fair

/-! ## One that starves -/

/-- A campaign whose approval request bears its name. -/
def namedCampaign (campaignId : String) : CampaignRow where
  record := { weeklyCampaign with campaignId, planApprovalRequestId := campaignId }

/-- One approval came, and its Work can be produced. -/
def approvedPorts : CampaignPorts where
  isConfirmed _ requestId := requestId = "approved"
  isDelivered _ _ := false
  produceWork _ _ _ := some { taskId := "task", threadId := "thread", facts := .null }

/-- A campaign that waits for its approval stands before the approved one. -/
def waitingTable : SweepState where
  campaigns := ["waiting", "approved"]
  rows c := if c = "waiting" ∨ c = "approved" then some (namedCampaign c) else none
  updatedAt c := if c = "waiting" then 0 else 1

theorem campaignTable_waitingTable : CampaignTable waitingTable 2 where
  nodup := by decide
  listed c := by
    change c ∈ ["waiting", "approved"] ↔ Option.isSome (ite _ _ _) = true
    split <;> simp_all
  ids c row hrow := by
    change ite _ _ _ = some row at hrow
    split at hrow
    · obtain rfl := Option.some.inj hrow
      rfl
    · exact nomatch hrow
  past c _ := by
    change ite _ _ _ < (2 : Int)
    split <;> decide

theorem canProgress_approved : CanProgress approvedPorts (namedCampaign "approved") .first :=
  ⟨rfl, rfl, rfl, rfl⟩

/-- **With one campaign to a call the waiting one is all that is visited.** -/
theorem not_sweepsAll :
    CampaignTable waitingTable 2 ∧ ¬ SweepsAll id approvedPorts 1 waitingTable 2 := by
  refine ⟨campaignTable_waitingTable, fun hall => ?_⟩
  have hstay := @sweeps_stay _ _ id approvedPorts 2 waitingTable _ "approved" 1
    campaignTable_waitingTable rfl (by decide) 2 _ (.refl 2 _ waitingTable)
  refine canProgress_approved.not_hasWork (hstay.row_eq rfl fun hc => hc.1 rfl).1 ?_
  exact hall (fun _ => 2) monotone_const le_rfl _ _ _ rfl canProgress_approved

/-- With two to a call the approved one gets its turn. -/
theorem sweepsAll_waitingTable : SweepsAll id approvedPorts 2 waitingTable 2 := by
  refine (sweepsAll_iff Function.injective_id campaignTable_waitingTable).mpr fun c _ _ _ _ => ?_
  have hopen : waitingTable.openCampaigns = ["waiting", "approved"] := by decide
  have hready : ¬ (waitingTable.rows "approved").all fun row => row.ready approvedPorts 2 = false :=
    by decide
  refine (List.length_filter_lt_length_iff_exists.mpr ⟨"approved", ?_, fun h => ?_⟩).trans_eq
    (congrArg List.length hopen)
  · rw [hopen]
    exact List.mem_cons_of_mem _ List.mem_cons_self
  · exact hready (of_decide_eq_true h).1

end MeiyeAgent
