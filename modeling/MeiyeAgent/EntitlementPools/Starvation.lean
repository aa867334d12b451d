import MeiyeAgent.EntitlementPools.FairQueue

/-!
# EntitlementPools/Starvation — when the fair queue serves whoever keeps waiting

An account with none of the turns in the window loses a dequeue only to a rival whose next count
per ticket is no higher: a rival of priority `q` against priority `p` has fewer than
`(q + 1) / (p + 1)` of the turns.  So the window decides.  If the rivals' shares add up to more than
it holds, some rival is always below its share, and the account waits for ever; if they do not, the
turns run out within two windows (`Turns.length_le_of_quotas`).

* `neverStarved_iff` — **the exact condition**: the shares add up to at most `maxRecentServed`, and
  then the account is served within two windows and one dequeue.
* `not_neverStarved_of_256` — one rival of priority 256 starves an account of priority 0, under the
  default window.
-/

namespace MeiyeAgent

open Effect SupplyAccountFairQueue

/-- **A contest**: an account that waits with a priority, and the accounts competing with it, none
ever above a priority of its own. -/
structure Contest where
  account : String
  priority : Nat
  rivals : List String
  rivalPriority : String → Nat
  rivals_nodup : rivals.Nodup
  account_notMem : account ∉ rivals
  account_named : Text.isBlank account = false
  rivals_named : ∀ rival ∈ rivals, Text.isBlank rival = false

namespace Contest

variable {host : Host} {queue : SupplyAccountFairQueue} {contest : Contest}

/-- How many turns of the window a rival may take before the account is preferred. -/
def share (contest : Contest) (rival : String) : Nat :=
  (contest.rivalPriority rival + 1) / (contest.priority + 1)

/-- No priority of the contest is too high to be compared exactly. -/
structure Exact (contest : Contest) (maxRecentServed : Int) : Prop where
  own : ComparedExactly maxRecentServed contest.priority
  rivals : ∀ rival ∈ contest.rivals,
    ComparedExactly maxRecentServed (contest.rivalPriority rival)

/-- **The contest is on**: the account has a request waiting, only rivals wait beside it, and their
priorities are compared exactly. -/
def On (contest : Contest) (queue : SupplyAccountFairQueue) : Prop :=
  (∃ entry ∈ queue.waiting,
    entry.productAccountId = contest.account ∧ contest.priority ≤ entry.queuePriority) ∧
  (∀ entry ∈ queue.waiting, entry.productAccountId = contest.account ∨
    entry.productAccountId ∈ contest.rivals ∧
      entry.queuePriority ≤ contest.rivalPriority entry.productAccountId) ∧
  ∀ entry ∈ queue.waiting, ComparedExactly queue.maxRecentServed entry.queuePriority

/-- A call in the contest that does not serve the account. -/
def PassedOver (host : Host) (contest : Contest) (queue : SupplyAccountFairQueue) (call : Call) :
    Prop :=
  contest.On queue ∧ ∀ entry, served host queue call = some entry →
    entry.productAccountId ≠ contest.account

/-- **The account is passed over at most so many times**: wherever the queue has come to, no run of
calls that passes the account over has more dequeues, and the next one serves it. -/
def PassedOverAtMost (host : Host) (contest : Contest) (queue : SupplyAccountFairQueue)
    (bound : Nat) : Prop :=
  ∀ history calls : List Call,
    Admits (step host) (PassedOver host contest) calls (runAll (step host) history queue) →
      calls.count .dequeue ≤ bound

/-- **The account is served within a bound.** -/
def NeverStarved (host : Host) (contest : Contest) (queue : SupplyAccountFairQueue) : Prop :=
  ∃ bound, contest.PassedOverAtMost host queue bound

/-! ## Shares within the window -/

/-- **A turn that passes the account over is one below a rival's share**, while the account has no
turn in the window. -/
theorem turnOk_of_passedOver (hinv : FairQueueInv queue) {entry : FairQueueEntry}
    (h : contest.PassedOver host queue .dequeue)
    (hserved : served host queue .dequeue = some entry) (hmem : entry ∈ queue.waiting)
    (hbest : ∀ other ∈ queue.waiting, NoHigher queue.serviceCounts entry other) :
    Turns.TurnOk contest.rivals contest.share contest.account queue.recentServed
      entry.productAccountId := by
  obtain ⟨⟨⟨mine, hmine, haccount, hpriority⟩, hrivals, -⟩, hpassed⟩ := h
  obtain ⟨hrival, hbound⟩ := (hrivals entry hmem).resolve_left (hpassed entry hserved)
  refine ⟨hrival, fun hnone => ?_⟩
  have hno := hbest mine hmine
  have hentry := hinv.priorities entry hmem
  rw [NoHigher, hinv.tallies, hinv.tallies, haccount, hnone] at hno
  have hlow : ((queue.recentServed.count entry.productAccountId : Int) + 1) *
      (contest.priority + 1) ≤
      (queue.recentServed.count entry.productAccountId + 1) * (mine.queuePriority + 1) :=
    Int.mul_le_mul_of_nonneg_left (by omega) (by omega)
  have hnat : (queue.recentServed.count entry.productAccountId + 1) * (contest.priority + 1) ≤
      contest.rivalPriority entry.productAccountId + 1 := by
    refine Int.ofNat_le.mp ?_
    push_cast
    omega
  exact (Nat.le_div_iff_mul_le (Nat.succ_pos _)).mpr hnat

/-- **A run that passes the account over is a run of turns below the shares**, a turn a dequeue. -/
theorem turns_of_run : ∀ (calls : List Call) {queue : SupplyAccountFairQueue}, FairQueueInv queue →
    Admits (step host) (contest.PassedOver host) calls queue →
      ∃ turns : List String, turns.length = calls.count .dequeue ∧
        Admits (Turns.push queue.maxRecentServed.toNat)
          (Turns.TurnOk contest.rivals contest.share contest.account) turns queue.recentServed
  | [], _, _, _ => ⟨[], rfl, trivial⟩
  | .enqueue input :: calls, queue, hinv, h => by
    obtain ⟨turns, hlen, hturns⟩ := turns_of_run calls (step_inv host hinv (.enqueue input)) h.2
    refine ⟨turns, by simpa using hlen, ?_⟩
    rcases step_enqueue host input with ⟨-, hstep⟩ | hstep <;> rwa [hstep] at hturns
  | .dequeue :: calls, queue, hinv, h => by
    obtain ⟨turns, hlen, hturns⟩ := turns_of_run calls (step_inv host hinv .dequeue) h.2
    have hwaiting : queue.waiting ≠ [] := by
      obtain ⟨mine, hmine, -⟩ := h.1.1.1
      exact List.ne_nil_of_mem hmine
    obtain ⟨entry, hentry, hbest, hserved, -, hrecent, -⟩ := dequeue_spec host hinv hwaiting
    refine ⟨entry.productAccountId :: turns, by simp [hlen],
      turnOk_of_passedOver hinv h.1 hserved (List.mem_of_getElem? hentry) hbest, ?_⟩
    rwa [step_maxRecentServed, hrecent] at hturns

/-- **Shares the window holds let nobody starve**: two windows pass the account over at most. -/
theorem passedOverAtMost_of_le (hinv : FairQueueInv queue)
    (hsum : (contest.rivals.map contest.share).sum ≤ queue.maxRecentServed.toNat) :
    contest.PassedOverAtMost host queue (2 * queue.maxRecentServed.toNat) := by
  intro history calls h
  have hreach : FairQueueInv (runAll (step host) history queue) ∧
      (runAll (step host) history queue).maxRecentServed = queue.maxRecentServed :=
    runAll_invariant (fun q => FairQueueInv q ∧ q.maxRecentServed = queue.maxRecentServed)
      (fun q call hq => ⟨step_inv host hq.1 call, (step_maxRecentServed call).trans hq.2⟩)
      history ⟨hinv, rfl⟩
  obtain ⟨turns, hlen, hturns⟩ := turns_of_run calls hreach.1 h
  rw [hreach.2] at hturns
  rw [← hlen]
  refine Turns.length_le_of_quotas contest.rivals_nodup contest.account_notMem hsum ?_ hturns
  have := hreach.1.window
  omega

/-! ## Shares beyond the window -/

/-- The request the account keeps waiting. -/
def standing (contest : Contest) : FairQueueEntry where
  requestId := "standing"
  productAccountId := contest.account
  workspaceId := "w"
  queuePriority := contest.priority
  enqueuedAt := isoText 0

/-- A rival's request, dated before the account's. -/
def arrival (contest : Contest) (rival : String) : FairQueueEntry where
  requestId := "arrival"
  productAccountId := rival
  workspaceId := "w"
  queuePriority := contest.rivalPriority rival
  enqueuedAt := isoText (-1)

/-- **Only the account waits**, and every turn of the window is a rival's. -/
structure Alone (contest : Contest) (queue : SupplyAccountFairQueue) : Prop where
  inv : FairQueueInv queue
  waiting : queue.waiting = [contest.standing]
  turns : ∀ account ∈ queue.recentServed, account ∈ contest.rivals

/-- A rival below its share is served before the account. -/
theorem compare_arrival {counts : OrderedMap String Int} {turns : List String} {rival : String}
    (htallies : Tallies counts turns) (hnone : turns.count contest.account = 0)
    (hbelow : turns.count rival < contest.share rival) :
    Num.gt (some 0) (compareFairQueueOrder host (contest.arrival rival) contest.standing counts)
      = true := by
  have hle : (turns.count rival + 1) * (contest.priority + 1) ≤ contest.rivalPriority rival + 1 :=
    (Nat.le_div_iff_mul_le (Nat.succ_pos _)).mp hbelow
  have hpriority : contest.priority ≤ contest.rivalPriority rival :=
    Nat.le_of_succ_le_succ ((Nat.le_mul_of_pos_left _ (Nat.succ_pos _)).trans hle)
  have hparse (ms : Int) (h : -maxTime ≤ ms ∧ ms ≤ maxTime) :
      host.dateParse (isoText ms) = some ms := host.dateParse_isoText ms h
  simp only [compareFairQueueOrder, arrival, standing, htallies rival, htallies contest.account,
    hnone, hparse 0 (by decide), hparse (-1) (by decide)]
  have hint : ((turns.count rival : Int) + 1) * (contest.priority + 1) ≤
      contest.rivalPriority rival + 1 := by exact_mod_cast hle
  split
  · rw [Num.gt_some, decide_eq_true_eq]
    push_cast
    omega
  · split
    · rw [Num.gt_some, decide_eq_true_eq]
      omega
    · rfl

/-- The scan over the account's request and a rival's that comes before it. -/
theorem bestIndex_arrival {rival : String} (h : contest.Alone queue)
    (hbelow : queue.recentServed.count rival < contest.share rival) :
    bestIndex host { queue with waiting := [contest.standing, contest.arrival rival] } = 1 := by
  have hnone : queue.recentServed.count contest.account = 0 :=
    List.count_eq_zero.mpr fun hmem => contest.account_notMem (h.turns _ hmem)
  rw [bestIndex, Turns.select, Turns.selectFrom,
    if_pos (compare_arrival h.inv.tallies hnone hbelow), Turns.selectFrom]

/-- **A rival arrives and is served**, the account is passed over, and waits alone again. -/
theorem alone_round (host : Host) {rival : String} (h : contest.Alone queue)
    (hexact : contest.Exact queue.maxRecentServed) (hrival : rival ∈ contest.rivals)
    (hbelow : queue.recentServed.count rival < contest.share rival) :
    Admits (step host) (contest.PassedOver host) [.enqueue (contest.arrival rival), .dequeue]
        queue ∧
      contest.Alone (runAll (step host) [.enqueue (contest.arrival rival), .dequeue] queue) := by
  have hok : queue.enqueueCheck (contest.arrival rival) = .ok () := by
    refine enqueueCheck_eq_ok.mpr ⟨⟨(by decide : Text.isBlank "arrival" = false),
      contest.rivals_named rival hrival, (by decide : Text.isBlank "w" = false)⟩,
      Int.natCast_nonneg _, fun entry hentry => ?_⟩
    rw [h.waiting, List.mem_singleton] at hentry
    subst hentry
    exact (by decide : "standing" ≠ "arrival")
  have hstep : step host queue (.enqueue (contest.arrival rival)) =
      { queue with waiting := [contest.standing, contest.arrival rival] } := by
    rw [step_enqueue_ok host hok, h.waiting]
    rfl
  have hinv := step_inv host h.inv (.enqueue (contest.arrival rival))
  rw [hstep] at hinv
  obtain ⟨entry, hentry, -, hserved, hwaiting, hrecent, hnext⟩ :=
    dequeue_spec host hinv (List.cons_ne_nil _ _)
  rw [bestIndex_arrival h hbelow] at hentry hwaiting
  obtain rfl : contest.arrival rival = entry := Option.some.inj hentry
  have hstanding : contest.standing.productAccountId = contest.account ∧
      (contest.priority : Int) ≤ contest.standing.queuePriority := ⟨rfl, le_refl _⟩
  have hon : contest.On queue := by
    rw [On, h.waiting]
    refine ⟨⟨_, List.mem_singleton_self _, hstanding⟩, fun other hother => .inl ?_,
      fun other hother => ?_⟩
    · rw [List.mem_singleton.mp hother]
      exact hstanding.1
    · rw [List.mem_singleton.mp hother]
      exact hexact.own
  have hon' : contest.On
      { queue with waiting := [contest.standing, contest.arrival rival] } := by
    refine ⟨⟨_, List.mem_cons_self, hstanding⟩, fun other hother => ?_, fun other hother => ?_⟩
    · rcases List.mem_cons.mp hother with rfl | hother
      · exact .inl rfl
      · rw [List.mem_singleton.mp hother]
        exact .inr ⟨hrival, le_refl _⟩
    · rcases List.mem_cons.mp hother with rfl | hother
      · exact hexact.own
      · rw [List.mem_singleton.mp hother]
        exact hexact.rivals rival hrival
  constructor
  · refine ⟨⟨hon, fun other hother => nomatch hother⟩, ?_, trivial⟩
    rw [hstep]
    refine ⟨hon', fun other hother => ?_⟩
    obtain rfl : contest.arrival rival = other := Option.some.inj (hserved.symm.trans hother)
    rintro rfl
    exact contest.account_notMem hrival
  · rw [runAll_cons, runAll_cons, runAll_nil, hstep]
    refine ⟨hnext, hwaiting, fun account hmem => ?_⟩
    rw [hrecent] at hmem
    rcases List.mem_append.mp (List.mem_of_mem_drop hmem) with hmem | hmem
    · exact h.turns account hmem
    · exact List.mem_singleton.mp hmem ▸ hrival

/-- **Shares beyond the window keep the account waiting** through any number of dequeues. -/
theorem passedOver_for (host : Host) {queue : SupplyAccountFairQueue} (n : Nat)
    (h : contest.Alone queue) (hexact : contest.Exact queue.maxRecentServed)
    (hsum : queue.maxRecentServed.toNat < (contest.rivals.map contest.share).sum) :
    ∃ calls, Admits (step host) (contest.PassedOver host) calls queue ∧
      calls.count .dequeue = n := by
  induction n generalizing queue with
  | zero => exact ⟨[], trivial, rfl⟩
  | succ n ih =>
    have hwindow : queue.recentServed.length < (contest.rivals.map contest.share).sum := by
      have := h.inv.window
      omega
    obtain ⟨rival, hrival, hbelow⟩ :=
      Turns.exists_below_quota contest.rivals_nodup h.turns hwindow
    obtain ⟨hround, hnext⟩ := alone_round host h hexact hrival hbelow
    obtain ⟨calls, hcalls, hcount⟩ := ih hnext (by simpa using hexact) (by simpa using hsum)
    exact ⟨_, (admits_append _ calls _).mpr ⟨hround, hcalls⟩, by simp [hcount]⟩

/-- **Shares beyond the window starve the account.** -/
theorem not_neverStarved_of_lt {supplyAccountId : String} {maxRecentServed : Option Int}
    (h : create supplyAccountId maxRecentServed = .ok queue)
    (hexact : contest.Exact queue.maxRecentServed)
    (hsum : queue.maxRecentServed.toNat < (contest.rivals.map contest.share).sum) :
    ¬ contest.NeverStarved host queue := by
  rintro ⟨bound, hbound⟩
  obtain ⟨hinv, -, hwaiting, hrecent⟩ := create_inv h
  have hok : queue.enqueueCheck contest.standing = .ok () := by
    refine enqueueCheck_eq_ok.mpr ⟨⟨(by decide : Text.isBlank "standing" = false),
      contest.account_named, (by decide : Text.isBlank "w" = false)⟩,
      Int.natCast_nonneg _, fun entry hentry => ?_⟩
    rw [hwaiting] at hentry
    exact absurd hentry List.not_mem_nil
  have hstep := step_enqueue_ok host hok
  have halone : contest.Alone (runAll (step host) [.enqueue contest.standing] queue) := by
    have hnext := step_inv host hinv (.enqueue contest.standing)
    rw [runAll_cons, runAll_nil]
    refine ⟨hnext, ?_, ?_⟩
    · rw [hstep, hwaiting]
      rfl
    · rw [hstep, hrecent]
      simp
  obtain ⟨calls, hcalls, hcount⟩ := passedOver_for host (bound + 1) halone
    (by simpa using hexact) (by simpa using hsum)
  have := hbound [.enqueue contest.standing] calls hcalls
  omega

/-- **The exact condition**: on a new queue, the account is served within a bound if and only if
the window holds the shares of all its rivals; and then two windows pass it over at most. -/
theorem neverStarved_iff (host : Host) (contest : Contest) {supplyAccountId : String}
    {maxRecentServed : Option Int} {queue : SupplyAccountFairQueue}
    (h : create supplyAccountId maxRecentServed = .ok queue)
    (hexact : contest.Exact queue.maxRecentServed) :
    (contest.NeverStarved host queue ↔
      ((contest.rivals.map contest.share).sum : Int) ≤ queue.maxRecentServed) ∧
    (contest.NeverStarved host queue →
      contest.PassedOverAtMost host queue (2 * queue.maxRecentServed.toNat)) := by
  obtain ⟨hinv, hpos, -⟩ := create_inv h
  have hheld (hnever : contest.NeverStarved host queue) :
      ((contest.rivals.map contest.share).sum : Int) ≤ queue.maxRecentServed := by
    by_contra hsum
    exact not_neverStarved_of_lt h hexact (by omega) hnever
  refine ⟨⟨hheld, fun hsum => ?_⟩, fun hnever => ?_⟩
  · exact ⟨_, passedOverAtMost_of_le hinv (by omega)⟩
  · have hsum := hheld hnever
    exact passedOverAtMost_of_le hinv (by omega)

/-- One rival at priority `rivalPriority`, against an account at priority 0. -/
def duel (rivalPriority : Nat) : Contest where
  account := "a"
  priority := 0
  rivals := ["b"]
  rivalPriority _ := rivalPriority
  rivals_nodup := List.nodup_singleton _
  account_notMem := by decide
  account_named := by decide
  rivals_named := by decide

/-- The queue of a supply account with the default window. -/
def defaultQueue : SupplyAccountFairQueue := ⟨"s", [], .empty, [], FAIR_QUEUE_SERVICE_TURN_WINDOW⟩

theorem create_default : create "s" none = .ok defaultQueue := rfl

theorem exact_duel (rivalPriority : Nat) (h : rivalPriority ≤ 256) :
    (duel rivalPriority).Exact defaultQueue.maxRecentServed := by
  constructor
  · simp only [ComparedExactly, duel, defaultQueue, FAIR_QUEUE_SERVICE_TURN_WINDOW]
    omega
  · intro rival _
    simp only [ComparedExactly, duel, defaultQueue, FAIR_QUEUE_SERVICE_TURN_WINDOW]
    omega

theorem neverStarved_iff_duel : ((duel 100).NeverStarved isoHost defaultQueue ↔
    101 ≤ FAIR_QUEUE_SERVICE_TURN_WINDOW) ∧ ((duel 100).NeverStarved isoHost defaultQueue →
      (duel 100).PassedOverAtMost isoHost defaultQueue 512) :=
  neverStarved_iff isoHost (duel 100) create_default (exact_duel 100 (by decide))

/-- One rival of priority 256 starves an account of priority 0, under the default window. -/
theorem not_neverStarved_of_256 : ¬ (duel 256).NeverStarved isoHost defaultQueue :=
  not_neverStarved_of_lt create_default (exact_duel 256 (by decide)) (by decide)

end Contest

end MeiyeAgent
