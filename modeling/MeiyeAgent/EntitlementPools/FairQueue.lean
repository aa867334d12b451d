import MeiyeAgent.Foundation.Runtime
import MeiyeAgent.Machinery.OrderedMap
import MeiyeAgent.Machinery.Turns

/-!
# EntitlementPools/FairQueue — the fair queue of one supply account

Requests wait in arrival order.  A dequeue takes the first request, in a scan from the left, that
`compareFairQueueOrder` puts before all others: the account with the lowest next service count per
ticket.  The counts are those of the last `maxRecentServed` dequeues.

* `FairQueueInv` — the counts are the counts of the recent turns, which never outgrow the window.
* `dequeue_spec` — **what a dequeue does**: it serves a waiting request whose account is no higher
  than any other in its next count per ticket, and the account takes a turn of the window.
-/

namespace MeiyeAgent

open Effect

/-- Max retained service-turn samples per supply account. -/
def FAIR_QUEUE_SERVICE_TURN_WINDOW : Int := 256

structure FairQueueEntry where
  requestId : String
  productAccountId : String
  workspaceId : String
  queuePriority : Int
  enqueuedAt : String
  deriving DecidableEq, Repr

inductive FairQueueDequeueResult
  | empty
  | dequeued (entry : FairQueueEntry)
  deriving DecidableEq, Repr

/-- The queue of one supply account; `recentServed` is oldest first. -/
structure SupplyAccountFairQueue where
  supplyAccountId : String
  waiting : List FairQueueEntry
  serviceCounts : OrderedMap String Int
  recentServed : List String
  maxRecentServed : Int
  deriving DecidableEq

namespace SupplyAccountFairQueue

/-- The constructor. -/
def create (supplyAccountId : String) (maxRecentServed : Option Int) :
    Except Thrown SupplyAccountFairQueue := do
  let window := maxRecentServed.getD FAIR_QUEUE_SERVICE_TURN_WINDOW
  if window ≤ 0 then
    throw (.domain .INVALID_STATE "maxRecentServed must be a positive integer.")
  return ⟨supplyAccountId, [], .empty, [], window⟩

/-- What `enqueue` refuses. -/
def enqueueCheck (queue : SupplyAccountFairQueue) (input : FairQueueEntry) :
    Except Thrown Unit := do
  if Text.isBlank input.requestId ∨ Text.isBlank input.productAccountId ∨
      Text.isBlank input.workspaceId then
    throw (.domain .INVALID_STATE
      "Fair queue entry requires requestId, productAccountId, and workspaceId.")
  if input.queuePriority < 0 then
    throw (.domain .INVALID_STATE "queuePriority must be a non-negative integer.")
  if queue.waiting.any fun entry => entry.requestId = input.requestId then
    throw (.domain .IDEMPOTENCY_CONFLICT
      ("Fair queue already holds request " ++ input.requestId ++ "."))

def enqueue (input : FairQueueEntry) : EStateM Thrown SupplyAccountFairQueue FairQueueEntry := do
  let queue ← get
  check (queue.enqueueCheck input)
  set { queue with waiting := queue.waiting ++ [input] }
  return input

end SupplyAccountFairQueue

/-- Priorities that a window of turns compares exactly: no product of `compareFairQueueOrder`
reaches beyond `2 ^ 53`, where a number is no longer the integer it stands for. -/
def ComparedExactly (maxRecentServed queuePriority : Int) : Prop :=
  (maxRecentServed + 1) * (queuePriority + 1) ≤ 2 ^ 53

/-- The order of two requests: a number, or `NaN` if a date cannot be read.  The products are those
of integers, as the numbers of the language give them for priorities that are `ComparedExactly`. -/
def compareFairQueueOrder (host : Host) (left right : FairQueueEntry)
    (serviceCounts : OrderedMap String Int) : Option Int :=
  let leftWeight := left.queuePriority + 1
  let rightWeight := right.queuePriority + 1
  let leftNextCount := (serviceCounts.get? left.productAccountId).getD 0 + 1
  let rightNextCount := (serviceCounts.get? right.productAccountId).getD 0 + 1
  let normalizedComparison := leftNextCount * rightWeight - rightNextCount * leftWeight
  if normalizedComparison ≠ 0 then some normalizedComparison
  else if left.queuePriority ≠ right.queuePriority then
    some (right.queuePriority - left.queuePriority)
  else
    let byTime := Num.sub (host.dateParse left.enqueuedAt) (host.dateParse right.enqueuedAt)
    -- `NaN !== 0`
    if byTime ≠ some 0 then byTime
    else some (host.localeCompare left.requestId right.requestId)

namespace SupplyAccountFairQueue

/-- The loop of `recordService`: the oldest turns leave until the window fits. -/
def trimWindow (maxRecentServed : Int) :
    List String → OrderedMap String Int → List String × OrderedMap String Int
  | [], counts => ([], counts)
  | oldest :: rest, counts =>
    if ((oldest :: rest).length : Int) > maxRecentServed then
      if oldest = "" then (rest, counts)
      else
        let next := (counts.get? oldest).getD 1 - 1
        trimWindow maxRecentServed rest
          (if next ≤ 0 then counts.erase oldest else counts.set oldest next)
    else (oldest :: rest, counts)

def recordService (queue : SupplyAccountFairQueue) (productAccountId : String) :
    SupplyAccountFairQueue :=
  let counts := queue.serviceCounts.set productAccountId
    ((queue.serviceCounts.get? productAccountId).getD 0 + 1)
  let trimmed := trimWindow queue.maxRecentServed (queue.recentServed ++ [productAccountId]) counts
  { queue with recentServed := trimmed.1, serviceCounts := trimmed.2 }

/-- The index the scan over the waiting requests ends at. -/
def bestIndex (host : Host) (queue : SupplyAccountFairQueue) : Nat :=
  Turns.select
    (fun left right => Num.gt (some 0) (compareFairQueueOrder host left right queue.serviceCounts))
    queue.waiting

def dequeue (host : Host) : EStateM Thrown SupplyAccountFairQueue FairQueueDequeueResult := do
  let queue ← get
  if queue.waiting.length = 0 then return .empty
  match queue.waiting[queue.bestIndex host]? with
  | none => return .empty
  | some entry =>
    set ({ queue with waiting := queue.waiting.eraseIdx (queue.bestIndex host) }.recordService
      entry.productAccountId)
    return .dequeued entry

/-! ## Runs -/

/-- A call on the queue. -/
inductive Call
  | enqueue (input : FairQueueEntry)
  | dequeue
  deriving DecidableEq, Repr

/-- The queue a call leaves. -/
def step (host : Host) (queue : SupplyAccountFairQueue) : Call → SupplyAccountFairQueue
  | .enqueue input => final (enqueue input) queue
  | .dequeue => final (dequeue host) queue

/-- The request a call hands out. -/
def served (host : Host) (queue : SupplyAccountFairQueue) : Call → Option FairQueueEntry
  | .enqueue _ => none
  | .dequeue =>
    match result (dequeue host) queue with
    | .ok (.dequeued entry) => some entry
    | _ => none

/-! ## What the counts count -/

variable {host : Host} {queue : SupplyAccountFairQueue}

/-- The counts are how often each account stands in the list of turns. -/
def Tallies (counts : OrderedMap String Int) (turns : List String) : Prop :=
  ∀ account, (counts.get? account).getD 0 = turns.count account

/-- **What holds of a queue between two calls.** -/
structure FairQueueInv (queue : SupplyAccountFairQueue) : Prop where
  tallies : Tallies queue.serviceCounts queue.recentServed
  window : (queue.recentServed.length : Int) ≤ queue.maxRecentServed
  named : ∀ account ∈ queue.recentServed, account ≠ ""
  accounts : ∀ entry ∈ queue.waiting, entry.productAccountId ≠ ""
  priorities : ∀ entry ∈ queue.waiting, 0 ≤ entry.queuePriority

theorem ne_empty_of_not_isBlank {text : String} (h : Text.isBlank text = false) : text ≠ "" := by
  rintro rfl
  exact absurd h (by decide)

/-- Trimming keeps the last turns, and the counts theirs. -/
theorem trimWindow_spec (w : Nat) : ∀ (turns : List String) (counts : OrderedMap String Int),
    (∀ account ∈ turns, account ≠ "") → Tallies counts turns →
      (trimWindow w turns counts).1 = turns.rtake w ∧
        Tallies (trimWindow w turns counts).2 (turns.rtake w)
  | [], counts, _, h => by simpa [trimWindow] using h
  | oldest :: rest, counts, hnamed, h => by
    by_cases hlong : w < (oldest :: rest).length
    · have hrtake : (oldest :: rest).rtake w = rest.rtake w := by
        rw [List.length_cons] at hlong
        rw [List.rtake, List.length_cons, Nat.succ_sub (by omega), List.drop_succ_cons, List.rtake]
      rw [trimWindow, if_pos (by exact_mod_cast hlong), if_neg (hnamed oldest List.mem_cons_self),
        hrtake]
      refine trimWindow_spec w rest _ (fun a ha => hnamed a (List.mem_cons_of_mem _ ha)) ?_
      have hold := h oldest
      rw [List.count_cons_self] at hold
      have hget : counts.get? oldest = some ((rest.count oldest : Int) + 1) := by
        rcases hc : counts.get? oldest with _ | n
        · rw [hc, Option.getD_none] at hold
          push_cast at hold
          omega
        · rw [hc, Option.getD_some] at hold
          rw [hold]
          push_cast
          rfl
      intro account
      have hother := h account
      simp only [hget, Option.getD_some, Int.add_sub_cancel]
      by_cases heq : account = oldest
      · subst heq
        split
        · rw [OrderedMap.get?_erase, if_pos rfl, Option.getD_none]
          omega
        · rw [OrderedMap.get?_set_self, Option.getD_some]
      · rw [List.count_cons_of_ne (Ne.symm heq)] at hother
        split
        · rw [OrderedMap.get?_erase, if_neg heq, hother]
        · rw [OrderedMap.get?_set_ne heq, hother]
    · have hshort : (oldest :: rest).length - w = 0 := by omega
      rw [trimWindow, if_neg (by exact_mod_cast hlong), List.rtake, hshort, List.drop_zero]
      exact ⟨rfl, h⟩

/-- **A service is one more turn of the window**, and the counts follow. -/
theorem recordService_spec {account : String} (h : FairQueueInv queue) (ha : account ≠ "") :
    (queue.recordService account).recentServed =
        Turns.push queue.maxRecentServed.toNat queue.recentServed account ∧
      FairQueueInv (queue.recordService account) := by
  have hw : ((queue.maxRecentServed.toNat : Nat) : Int) = queue.maxRecentServed :=
    Int.toNat_of_nonneg ((Int.natCast_nonneg _).trans h.window)
  have hnamed : ∀ a ∈ queue.recentServed ++ [account], a ≠ "" := by
    intro a hmem
    rcases List.mem_append.mp hmem with hmem | hmem
    · exact h.named a hmem
    · exact List.mem_singleton.mp hmem ▸ ha
  have htallies : Tallies (queue.serviceCounts.set account
      ((queue.serviceCounts.get? account).getD 0 + 1)) (queue.recentServed ++ [account]) := by
    intro a
    rw [OrderedMap.get?_set, List.count_append, List.count_singleton, h.tallies account]
    by_cases heq : a = account
    · simp [heq]
    · have hne : account ≠ a := fun hc => heq hc.symm
      simpa [heq, hne] using h.tallies a
  obtain ⟨hturns, hcounts⟩ := trimWindow_spec queue.maxRecentServed.toNat _ _ hnamed htallies
  rw [hw] at hturns hcounts
  refine ⟨hturns, ?_, ?_, ?_, h.accounts, h.priorities⟩
  · simpa only [recordService, hturns] using hcounts
  · have hlen := Turns.length_push_le queue.maxRecentServed.toNat queue.recentServed account
    simp only [recordService, hturns]
    rw [← hw]
    exact_mod_cast hlen
  · intro a hmem
    simp only [recordService, hturns] at hmem
    exact hnamed a (List.mem_of_mem_drop hmem)

/-! ## What a call does -/

theorem create_inv {supplyAccountId : String} {maxRecentServed : Option Int}
    (h : create supplyAccountId maxRecentServed = .ok queue) :
    FairQueueInv queue ∧ 0 < queue.maxRecentServed ∧ queue.waiting = [] ∧
      queue.recentServed = [] := by
  simp only [create, guard_eq_ok, pure_eq_ok, Int.not_le] at h
  obtain ⟨hpos, rfl⟩ := h
  exact ⟨⟨fun _ => rfl, hpos.le, by simp, by simp, by simp⟩, hpos, rfl, rfl⟩

theorem enqueueCheck_eq_ok {input : FairQueueEntry} :
    queue.enqueueCheck input = .ok () ↔ (Text.isBlank input.requestId = false ∧
      Text.isBlank input.productAccountId = false ∧ Text.isBlank input.workspaceId = false) ∧
        0 ≤ input.queuePriority ∧ ∀ entry ∈ queue.waiting, entry.requestId ≠ input.requestId := by
  simp only [enqueueCheck, guard_eq_ok, last_guard_eq_ok, not_or, Bool.not_eq_true, Int.not_lt,
    List.any_eq_false, decide_eq_true_eq, ne_eq]

/-- An accepted enqueue appends the request. -/
theorem step_enqueue_ok (host : Host) {input : FairQueueEntry} (h : queue.enqueueCheck input = .ok ()) :
    step host queue (.enqueue input) = { queue with waiting := queue.waiting ++ [input] } := by
  have hkeeps : Keeps (· = { queue with waiting := queue.waiting ++ [input] })
      (enqueue input) queue := by simp [enqueue, h]
  exact wp_final.mp hkeeps

/-- An enqueue appends the request, or is refused and changes nothing. -/
theorem step_enqueue (host : Host) (input : FairQueueEntry) :
    queue.enqueueCheck input = .ok () ∧
        step host queue (.enqueue input) = { queue with waiting := queue.waiting ++ [input] } ∨
      step host queue (.enqueue input) = queue := by
  rcases h : queue.enqueueCheck input with e | u
  · have hkeeps : Keeps (· = queue) (enqueue input) queue := by simp [enqueue, h]
    exact .inr (wp_final.mp hkeeps)
  · exact .inl ⟨rfl, step_enqueue_ok host h⟩

/-- **A dequeue serves the request at the best index**, if there is one. -/
theorem step_dequeue {entry : FairQueueEntry}
    (h : queue.waiting[queue.bestIndex host]? = some entry) :
    served host queue .dequeue = some entry ∧ step host queue .dequeue =
      { queue with waiting := queue.waiting.eraseIdx (queue.bestIndex host) }.recordService
        entry.productAccountId := by
  have hlength : queue.waiting.length ≠ 0 := by
    have := (List.getElem?_eq_some_iff.mp h).1
    omega
  have hrun : dequeue host queue = .ok (.dequeued entry)
      ({ queue with waiting := queue.waiting.eraseIdx (queue.bestIndex host) }.recordService
        entry.productAccountId) := by
    have hbody : dequeue host queue =
        (if queue.waiting.length = 0 then
            (pure .empty : EStateM Thrown SupplyAccountFairQueue FairQueueDequeueResult)
          else match queue.waiting[queue.bestIndex host]? with
            | none => pure .empty
            | some entry => do
              set ({ queue with
                waiting := queue.waiting.eraseIdx (queue.bestIndex host) }.recordService
                  entry.productAccountId)
              return .dequeued entry) queue := rfl
    rw [hbody, if_neg hlength, h]
    rfl
  exact ⟨by rw [served, result, hrun], by rw [step, final, hrun]⟩

theorem step_dequeue_of_empty (h : queue.waiting = []) : step host queue .dequeue = queue := by
  have hkeeps : Keeps (· = queue) (dequeue host) queue := by simp [dequeue, h]
  exact wp_final.mp hkeeps

/-- The next service count per ticket of `left` is no higher than that of `right`. -/
def NoHigher (counts : OrderedMap String Int) (left right : FairQueueEntry) : Prop :=
  ((counts.get? left.productAccountId).getD 0 + 1) * (right.queuePriority + 1) ≤
    ((counts.get? right.productAccountId).getD 0 + 1) * (left.queuePriority + 1)

variable {counts : OrderedMap String Int}

/-- What comes before is no higher. -/
theorem noHigher_of_before {left right : FairQueueEntry}
    (h : Num.gt (some 0) (compareFairQueueOrder host left right counts) = true) :
    NoHigher counts left right := by
  by_contra hnot
  rw [NoHigher, Int.not_le] at hnot
  simp only [compareFairQueueOrder] at h
  rw [if_pos (by omega), Num.gt_some, decide_eq_true_eq] at h
  omega

/-- What does not come before has the other no higher. -/
theorem noHigher_of_not_before {left right : FairQueueEntry}
    (h : Num.gt (some 0) (compareFairQueueOrder host left right counts) = false) :
    NoHigher counts right left := by
  by_contra hnot
  rw [NoHigher, Int.not_le] at hnot
  simp only [compareFairQueueOrder] at h
  rw [if_pos (by omega), Num.gt_some, decide_eq_false_iff_not] at h
  omega

/-- Comparing counts per ticket is transitive: the middle ticket count cancels. -/
theorem noHigher_trans {a b c : FairQueueEntry} (ha : 0 ≤ a.queuePriority)
    (hb : 0 ≤ b.queuePriority) (hc : 0 ≤ c.queuePriority) (hab : NoHigher counts a b)
    (hbc : NoHigher counts b c) : NoHigher counts a c := by
  rw [NoHigher] at hab hbc ⊢
  generalize (counts.get? a.productAccountId).getD 0 + 1 = x at hab ⊢
  generalize (counts.get? b.productAccountId).getD 0 + 1 = y at hab hbc
  generalize (counts.get? c.productAccountId).getD 0 + 1 = z at hbc ⊢
  refine le_of_mul_le_mul_right ?_ (show (0 : Int) < b.queuePriority + 1 by omega)
  calc x * (c.queuePriority + 1) * (b.queuePriority + 1)
      = x * (b.queuePriority + 1) * (c.queuePriority + 1) := Int.mul_right_comm ..
    _ ≤ y * (a.queuePriority + 1) * (c.queuePriority + 1) :=
        Int.mul_le_mul_of_nonneg_right hab (by omega)
    _ = y * (c.queuePriority + 1) * (a.queuePriority + 1) := Int.mul_right_comm ..
    _ ≤ z * (b.queuePriority + 1) * (a.queuePriority + 1) :=
        Int.mul_le_mul_of_nonneg_right hbc (by omega)
    _ = z * (a.queuePriority + 1) * (b.queuePriority + 1) := Int.mul_right_comm ..

/-- **The request served is no higher than any other** in its next service count per ticket. -/
theorem bestIndex_spec (host : Host) (h : FairQueueInv queue) (hwaiting : queue.waiting ≠ []) :
    ∃ entry, queue.waiting[queue.bestIndex host]? = some entry ∧
      ∀ other ∈ queue.waiting, NoHigher queue.serviceCounts entry other := by
  refine Turns.select_best (fun _ => le_refl _) (fun a ha b hb c hc hab hbc => ?_)
    (fun _ _ _ _ => noHigher_of_before) (fun _ _ _ _ => noHigher_of_not_before) hwaiting
  have hwa := h.priorities a ha
  have hwb := h.priorities b hb
  have hwc := h.priorities c hc
  exact noHigher_trans hwa hwb hwc hab hbc

/-- **What a dequeue does**: the request it serves leaves, and its account takes a turn. -/
theorem dequeue_spec (host : Host) (h : FairQueueInv queue) (hwaiting : queue.waiting ≠ []) :
    ∃ entry, queue.waiting[queue.bestIndex host]? = some entry ∧
      (∀ other ∈ queue.waiting, NoHigher queue.serviceCounts entry other) ∧
      served host queue .dequeue = some entry ∧
      (step host queue .dequeue).waiting = queue.waiting.eraseIdx (queue.bestIndex host) ∧
      (step host queue .dequeue).recentServed =
        Turns.push queue.maxRecentServed.toNat queue.recentServed entry.productAccountId ∧
      FairQueueInv (step host queue .dequeue) := by
  obtain ⟨entry, hentry, hbest⟩ := bestIndex_spec host h hwaiting
  obtain ⟨hserved, hstep⟩ := step_dequeue hentry
  have hsub : ∀ other ∈ queue.waiting.eraseIdx (queue.bestIndex host), other ∈ queue.waiting :=
    fun other hother => (List.eraseIdx_sublist _ _).subset hother
  have hinv : FairQueueInv
      { queue with waiting := queue.waiting.eraseIdx (queue.bestIndex host) } :=
    { h with
      accounts := fun other hother => h.accounts other (hsub other hother)
      priorities := fun other hother => h.priorities other (hsub other hother) }
  obtain ⟨hturns, hnext⟩ := recordService_spec hinv (h.accounts entry (List.mem_of_getElem? hentry))
  refine ⟨entry, hentry, hbest, hserved, ?_⟩
  rw [hstep]
  exact ⟨rfl, hturns, hnext⟩

/-- **Every call keeps the queue's invariant**, and its window size. -/
theorem step_inv (host : Host) (h : FairQueueInv queue) (call : Call) :
    FairQueueInv (step host queue call) := by
  cases call with
  | enqueue input =>
    rcases step_enqueue host input with ⟨hok, hstep⟩ | hstep
    · obtain ⟨⟨-, haccount, -⟩, hpriority, -⟩ := enqueueCheck_eq_ok.mp hok
      rw [hstep]
      refine { h with accounts := ?_, priorities := ?_ }
      · intro entry hentry
        rcases List.mem_append.mp hentry with hentry | hentry
        · exact h.accounts entry hentry
        · exact List.mem_singleton.mp hentry ▸ ne_empty_of_not_isBlank haccount
      · intro entry hentry
        rcases List.mem_append.mp hentry with hentry | hentry
        · exact h.priorities entry hentry
        · exact List.mem_singleton.mp hentry ▸ hpriority
    · rwa [hstep]
  | dequeue =>
    by_cases hwaiting : queue.waiting = []
    · rwa [step_dequeue_of_empty hwaiting]
    · obtain ⟨-, -, -, -, -, -, hinv⟩ := dequeue_spec host h hwaiting
      exact hinv

@[simp] theorem step_maxRecentServed (call : Call) :
    (step host queue call).maxRecentServed = queue.maxRecentServed := by
  cases call with
  | enqueue input =>
    rcases step_enqueue host input with ⟨-, hstep⟩ | hstep <;> rw [hstep]
  | dequeue =>
    have hkeeps : Keeps (fun q => q.maxRecentServed = queue.maxRecentServed)
        (dequeue host) queue := by
      simp only [dequeue, wp_bind, wp_get, wp_ite, wp_pure, implies_true, true_and]
      intro _
      split <;> simp [recordService]
    exact wp_final.mp hkeeps

end SupplyAccountFairQueue

end MeiyeAgent
