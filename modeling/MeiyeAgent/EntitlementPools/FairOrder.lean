import MeiyeAgent.EntitlementPools.FairQueue
import MeiyeAgent.Machinery.Comparators
import Mathlib.Algebra.Order.Field.Rat

/-!
# EntitlementPools/FairOrder — the order a fair queue serves by, over whole runs

`compareFairQueueOrder` answers the order `fairOrder` on requests whose dates can be read: the next
service count per ticket, then the higher priority, then the date, then the id as the locale
collates it.  The counts are those of the window, so the order changes with each service.

* `waiting_strictlyOrders` — a strict order of the waiting requests**, total where the locale tells
  their ids apart.
* `served_of_perm` — the request served does not depend on how the waiting ones are stored.
* `fairQueue_run` — over any run, whoever arrived was served once or still waits, the counts are
  those of the last services, and an account's requests of one priority leave by date.
* `not_fairQueue_run` — two requests of one date leave by id, not by arrival; and requests with
  dates that cannot be read, which `enqueue` accepts, are not ordered at all.
-/

namespace MeiyeAgent

open Effect Comparing SupplyAccountFairQueue

/-! ## The order of the waiting requests -/

/-- The next service count of an account, per ticket of the request. -/
def nextPerTicket (counts : OrderedMap String Int) (entry : FairQueueEntry) : ℚ :=
  ((counts.get? entry.productAccountId).getD 0 + 1 : Int) / (entry.queuePriority + 1 : Int)

/-- **The fair order.** -/
def fairOrder (host : Host) (counts : OrderedMap String Int) :
    FairQueueEntry → FairQueueEntry → Ordering :=
  compareLex (compareOn (nextPerTicket counts))
    (compareLex (compareOn fun entry => -entry.queuePriority)
      (compareLex (compareOn fun entry => host.instant entry.enqueuedAt)
        (signed fun left right => host.localeCompare left.requestId right.requestId)))

/-- A request that can be ordered: it has a ticket, and its date can be read. -/
structure FairQueueEntry.Ranked (host : Host) (entry : FairQueueEntry) : Prop where
  ticket : 0 ≤ entry.queuePriority
  dated : ∃ ms, host.dateParse entry.enqueuedAt = some ms

/-- `compareFairQueueOrder(left, right) < 0`. -/
def FairQueueEntry.Before (host : Host) (counts : OrderedMap String Int)
    (left right : FairQueueEntry) : Prop :=
  ∃ n < 0, compareFairQueueOrder host left right counts = some n

section Order

variable {host : Host} {counts : OrderedMap String Int} {left right : FairQueueEntry}

theorem transCmp_fairOrder (hc : Collates host) : Std.TransCmp (fairOrder host counts) :=
  have _ : Std.TransCmp (signed fun left right : FairQueueEntry =>
      host.localeCompare left.requestId right.requestId) :=
    transCmp_signed (fun a b => hc.antisymm a.requestId b.requestId) fun a b c =>
      hc.trans a.requestId b.requestId c.requestId
  inferInstanceAs (Std.TransCmp (compareLex _ (compareLex _ (compareLex _ _))))

/-- **The cross product compares the counts per ticket.** -/
theorem compare_nextPerTicket (hl : left.Ranked host) (hr : right.Ranked host) :
    compare (((counts.get? left.productAccountId).getD 0 + 1) * (right.queuePriority + 1) -
      ((counts.get? right.productAccountId).getD 0 + 1) * (left.queuePriority + 1)) 0 =
        compareOn (nextPerTicket counts) left right := by
  have hlw : (0 : ℚ) < (left.queuePriority + 1 : Int) := by
    have := hl.ticket
    exact_mod_cast (by omega : 0 < left.queuePriority + 1)
  have hrw : (0 : ℚ) < (right.queuePriority + 1 : Int) := by
    have := hr.ticket
    exact_mod_cast (by omega : 0 < right.queuePriority + 1)
  rw [compare_sub]
  refine compare_congr ?_ ?_
  · rw [nextPerTicket, nextPerTicket, div_lt_div_iff₀ hlw hrw]
    norm_cast
  · rw [nextPerTicket, nextPerTicket, div_lt_div_iff₀ hrw hlw]
    norm_cast

/-- **The comparator answers the fair order**, on requests that can be ordered. -/
theorem compareFairQueueOrder_answers (hl : left.Ranked host) (hr : right.Ranked host) :
    Answers (compareFairQueueOrder host · · counts) (fairOrder host counts) left right := by
  have hpriority : compare (right.queuePriority - left.queuePriority) 0 =
      compareOn (fun entry : FairQueueEntry => -entry.queuePriority) left right :=
    compare_congr (by dsimp only; omega) (by dsimp only; omega)
  have hdates : ∀ r, (if Num.sub (host.dateParse left.enqueuedAt)
      (host.dateParse right.enqueuedAt) ≠ some 0 then
        Num.sub (host.dateParse left.enqueuedAt) (host.dateParse right.enqueuedAt) else r) =
      if host.instant left.enqueuedAt - host.instant right.enqueuedAt ≠ 0 then
        some (host.instant left.enqueuedAt - host.instant right.enqueuedAt) else r := by
    intro r
    rw [Host.sub_dateParse hl.dated hr.dated]
    simp only [ne_eq, Option.some.injEq]
  have hties : (left.queuePriority ≠ right.queuePriority) =
      (right.queuePriority - left.queuePriority ≠ 0) := propext (by omega)
  simp only [Answers, compareFairQueueOrder, hdates, hties]
  refine exists_answer_then (compare_nextPerTicket hl hr) fun _ => ?_
  refine exists_answer_then hpriority fun _ => ?_
  exact exists_answer_then (compare_sub _ _) fun _ => ⟨_, rfl, rfl⟩

end Order

/-! ## The request served -/

/-- The waiting requests can be told apart: their priorities are compared exactly, their dates are
read, and the locale ties no two ids. -/
structure ToldApart (host : Host) (queue : SupplyAccountFairQueue) : Prop where
  exact : ∀ entry ∈ queue.waiting, ComparedExactly queue.maxRecentServed entry.queuePriority
  dated : ∀ entry ∈ queue.waiting, ∃ ms, host.dateParse entry.enqueuedAt = some ms
  ids : ∀ left ∈ queue.waiting, ∀ right ∈ queue.waiting,
    host.localeCompare left.requestId right.requestId = 0 → left.requestId = right.requestId

/-- What holds of a queue between two calls: its invariant, and ids of their own. -/
structure Queued (queue : SupplyAccountFairQueue) : Prop where
  inv : FairQueueInv queue
  ids : (queue.waiting.map (·.requestId)).Nodup

section Served

variable {host : Host} {queue : SupplyAccountFairQueue}

theorem before_iff {counts : OrderedMap String Int} {left right : FairQueueEntry} :
    Num.gt (some 0) (compareFairQueueOrder host left right counts) = true ↔
      left.Before host counts right := by
  rcases hcmp : compareFairQueueOrder host left right counts with _ | n
  · simp [FairQueueEntry.Before, hcmp, Num.gt]
  · simp [FairQueueEntry.Before, hcmp]

theorem ranked_of_inv (h : FairQueueInv queue) (htold : ToldApart host queue) :
    ∀ entry ∈ queue.waiting, entry.Ranked host := fun entry hentry =>
  ⟨h.priorities entry hentry, htold.dated entry hentry⟩

/-- **The request served comes before all others.** -/
theorem served_least (hc : Collates host) (h : FairQueueInv queue)
    (htold : ToldApart host queue) (hwaiting : queue.waiting ≠ []) :
    ∃ entry ∈ queue.waiting, served host queue .dequeue = some entry ∧
      ∀ other ∈ queue.waiting, (fairOrder host queue.serviceCounts entry other).isLE := by
  have := @transCmp_fairOrder host queue.serviceCounts hc
  have hanswers : ∀ a ∈ queue.waiting, ∀ b ∈ queue.waiting,
      (Num.gt (some 0) (compareFairQueueOrder host a b queue.serviceCounts) = true ↔
        fairOrder host queue.serviceCounts a b = .lt) := fun a ha b hb =>
    before_iff.trans (compareFairQueueOrder_answers (ranked_of_inv h htold a ha)
      (ranked_of_inv h htold b hb)).lt_iff
  have hnot : ∀ a ∈ queue.waiting, ∀ b ∈ queue.waiting,
      Num.gt (some 0) (compareFairQueueOrder host a b queue.serviceCounts) = false →
        (fairOrder host queue.serviceCounts b a).isLE := by
    intro a ha b hb hnot
    have hge : fairOrder host queue.serviceCounts a b ≠ .lt := fun hlt =>
      Bool.false_ne_true (hnot.symm.trans ((hanswers a ha b hb).mpr hlt))
    exact Std.OrientedCmp.isGE_iff_isLE.mp (Ordering.isGE_iff_ne_lt.mpr hge)
  obtain ⟨entry, hentry, hleast⟩ := Turns.select_best
    (R := fun a b => (fairOrder host queue.serviceCounts a b).isLE)
    (fun a => by rw [@Std.ReflCmp.compare_self _ (fairOrder host queue.serviceCounts)]; rfl)
    (fun a _ b _ c _ => Std.TransCmp.isLE_trans)
    (fun a ha b hb hbefore => by rw [(hanswers a ha b hb).mp hbefore]; rfl)
    hnot hwaiting
  exact ⟨entry, List.mem_of_getElem? hentry, (step_dequeue hentry).1, hleast⟩

/-- Two requests that tie are one. -/
theorem eq_of_tie (h : Queued queue) (htold : ToldApart host queue)
    {left right : FairQueueEntry} (hl : left ∈ queue.waiting) (hr : right ∈ queue.waiting)
    (htie : fairOrder host queue.serviceCounts left right = .eq) : left = right := by
  simp only [fairOrder, compareLex_eq_eq] at htie
  have hsame := htold.ids left hl right hr (signed_eq_eq.mp htie.2.2.2)
  exact List.inj_on_of_nodup_map h.ids hl hr hsame

theorem waiting_strictlyOrders (hc : Collates host) (h : Queued queue)
    (htold : ToldApart host queue) :
    StrictlyOrders (FairQueueEntry.Before host queue.serviceCounts) (· ∈ queue.waiting) (· ≠ ·) :=
  have := @transCmp_fairOrder host queue.serviceCounts hc
  strictlyOrders_of_answers (fun a b ha hb => compareFairQueueOrder_answers
    (ranked_of_inv h.inv htold a ha) (ranked_of_inv h.inv htold b hb))
    fun _ _ ha hb htie hne => hne (eq_of_tie h htold ha hb htie)

/-- **However the waiting requests are stored**, the same one is served. -/
theorem served_of_perm (hc : Collates host) (h : Queued queue)
    (htold : ToldApart host queue) {waiting : List FairQueueEntry}
    (hperm : waiting.Perm queue.waiting) :
    served host { queue with waiting } .dequeue = served host queue .dequeue := by
  by_cases hwaiting : queue.waiting = []
  · have hnone : waiting = queue.waiting := by
      rw [hwaiting] at hperm ⊢
      exact hperm.eq_nil
    rw [hnone]
  have := @transCmp_fairOrder host queue.serviceCounts hc
  obtain ⟨entry, hmem, hserved, hleast⟩ := served_least hc h.inv htold hwaiting
  -- the queue stored the other way is told apart too, and holds the same requests
  have hinv : FairQueueInv { queue with waiting } :=
    { h.inv with
      accounts := fun other hother => h.inv.accounts other (hperm.mem_iff.mp hother)
      priorities := fun other hother => h.inv.priorities other (hperm.mem_iff.mp hother) }
  have htold' : ToldApart host { queue with waiting } :=
    { exact := fun other hother => htold.exact other (hperm.mem_iff.mp hother)
      dated := fun other hother => htold.dated other (hperm.mem_iff.mp hother)
      ids := fun l hl r hr => htold.ids l (hperm.mem_iff.mp hl) r (hperm.mem_iff.mp hr) }
  have hwaiting' : waiting ≠ [] := List.ne_nil_of_mem (hperm.mem_iff.mpr hmem)
  obtain ⟨entry', hmem', hserved', hleast'⟩ :=
    @served_least host { queue with waiting } hc hinv htold' hwaiting'
  have htie := Std.OrientedCmp.isLE_antisymm (hleast entry' (hperm.mem_iff.mp hmem'))
    (hleast' entry (hperm.mem_iff.mpr hmem))
  rw [hserved, hserved', eq_of_tie h htold hmem (hperm.mem_iff.mp hmem') htie]

/-- **An account's requests of one priority leave by their dates**, and by their ids at one
date. -/
theorem served_in_order (hc : Collates host) (h : Queued queue)
    (htold : ToldApart host queue) {entry : FairQueueEntry}
    (hserved : served host queue .dequeue = some entry) :
    ∀ other ∈ queue.waiting, other.productAccountId = entry.productAccountId →
      other.queuePriority = entry.queuePriority →
      host.instant entry.enqueuedAt < host.instant other.enqueuedAt ∨
        host.instant entry.enqueuedAt = host.instant other.enqueuedAt ∧
          host.localeCompare entry.requestId other.requestId ≤ 0 := by
  intro other hother haccount hpriority
  obtain ⟨entry', -, hserved', hleast⟩ :=
    served_least hc h.inv htold (List.ne_nil_of_mem hother)
  obtain rfl := Option.some.inj (hserved.symm.trans hserved')
  have hle := hleast other hother
  have hshare : compareOn (nextPerTicket queue.serviceCounts) entry other = .eq := by
    rw [compareOn, nextPerTicket, nextPerTicket, haccount, hpriority]
    exact compare_eq_iff_eq.mpr rfl
  have hsame :
      compareOn (fun entry : FairQueueEntry => -entry.queuePriority) entry other = .eq := by
    rw [compareOn, hpriority]
    exact compare_eq_iff_eq.mpr rfl
  rw [fairOrder, compareLex, hshare, compareLex, hsame] at hle
  rcases hdate : compare (host.instant entry.enqueuedAt) (host.instant other.enqueuedAt)
    with _ | _ | _
  · exact .inl (compare_lt_iff_lt.mp hdate)
  · have hids : (signed (fun left right : FairQueueEntry =>
        host.localeCompare left.requestId right.requestId) entry other).isLE := by
      simpa only [Ordering.then, compareLex, compareOn, hdate] using hle
    exact .inr ⟨compare_eq_iff_eq.mp hdate, signed_isLE.mp hids⟩
  · simp [compareLex, compareOn, hdate] at hle

end Served

/-! ## Runs -/

namespace SupplyAccountFairQueue

/-- The request a call lets in. -/
def accepted (queue : SupplyAccountFairQueue) : Call → Option FairQueueEntry
  | .enqueue input => (result (enqueue input) queue).toOption
  | .dequeue => none

/-- The requests a run lets in, in order of arrival. -/
def arrivals (host : Host) : List Call → SupplyAccountFairQueue → List FairQueueEntry
  | [], _ => []
  | call :: calls, queue =>
    (accepted queue call).toList ++ arrivals host calls (step host queue call)

/-- The requests a run hands out, in order of service. -/
def services (host : Host) : List Call → SupplyAccountFairQueue → List FairQueueEntry
  | [], _ => []
  | call :: calls, queue =>
    (served host queue call).toList ++ services host calls (step host queue call)

end SupplyAccountFairQueue

section Runs

variable {host : Host} {queue : SupplyAccountFairQueue}

/-- What a call does to a queue: whoever was let in is added, whoever was served leaves and takes a
turn. -/
structure Moved (host : Host) (queue : SupplyAccountFairQueue) (call : Call) : Prop where
  queued : Queued (step host queue call)
  waiting : ((served host queue call).toList ++ (step host queue call).waiting).Perm
    (queue.waiting ++ (accepted queue call).toList)
  turns : (step host queue call).recentServed = (queue.recentServed ++
    (served host queue call).toList.map (·.productAccountId)).rtake queue.maxRecentServed.toNat

theorem rtake_of_inv (h : FairQueueInv queue) :
    queue.recentServed.rtake queue.maxRecentServed.toNat = queue.recentServed := by
  have := h.window
  rw [List.rtake, Nat.sub_eq_zero_of_le (by omega), List.drop_zero]

theorem moved_enqueue (host : Host) (h : Queued queue) (input : FairQueueEntry) :
    Moved host queue (.enqueue input) := by
  have hinv := step_inv host h.inv (.enqueue input)
  rcases hcheck : queue.enqueueCheck input with e | u
  · have hkeeps : Keeps (· = queue) (enqueue input) queue := by simp [enqueue, hcheck]
    have hstep : step host queue (.enqueue input) = queue := wp_final.mp hkeeps
    have hnone : accepted queue (.enqueue input) = none := by
      simp only [accepted, result, enqueue, get_bind, hcheck, check_error_bind]
      rfl
    refine ⟨by rwa [hstep], ?_, ?_⟩
    · rw [hstep, hnone, Option.toList_none, List.append_nil]
      exact .refl _
    · rw [hstep]
      simpa [served] using (rtake_of_inv h.inv).symm
  · have hstep := step_enqueue_ok host hcheck
    have hsome : accepted queue (.enqueue input) = some input := by
      simp only [accepted, result, enqueue, get_bind, hcheck, check_ok_bind]
      rfl
    obtain ⟨-, -, hnew⟩ := enqueueCheck_eq_ok.mp hcheck
    rw [hstep] at hinv
    refine ⟨?_, ?_, ?_⟩
    · rw [hstep]
      refine ⟨hinv, ?_⟩
      rw [List.map_append, List.map_singleton]
      refine List.nodup_append.mpr ⟨h.ids, List.nodup_singleton _, ?_⟩
      rintro id hid _ hsame rfl
      obtain ⟨entry, hentry, rfl⟩ := List.mem_map.mp hid
      exact hnew entry hentry (List.mem_singleton.mp hsame)
    · rw [hstep, hsome]
      exact .refl _
    · rw [hstep]
      simpa [served] using (rtake_of_inv h.inv).symm

theorem moved_dequeue (host : Host) (h : Queued queue) : Moved host queue .dequeue := by
  by_cases hwaiting : queue.waiting = []
  · have hstep := @SupplyAccountFairQueue.step_dequeue_of_empty host _ hwaiting
    have hnone : served host queue .dequeue = none := by
      simp only [served, result, dequeue, get_bind, hwaiting]
      rfl
    refine ⟨by rwa [hstep], ?_, ?_⟩
    · rw [hstep, hnone]
      exact .of_eq (List.append_nil _).symm
    · rw [hstep, hnone]
      simpa using (rtake_of_inv h.inv).symm
  · obtain ⟨entry, hentry, -, hserved, hleft, hturns, hinv⟩ := dequeue_spec host h.inv hwaiting
    obtain ⟨hlt, rfl⟩ := List.getElem?_eq_some_iff.mp hentry
    have hsub := List.eraseIdx_sublist queue.waiting (queue.bestIndex host)
    refine ⟨⟨hinv, ?_⟩, ?_, ?_⟩
    · rw [hleft]
      exact (hsub.map _).nodup h.ids
    · rw [hserved, hleft, accepted, Option.toList_none, List.append_nil]
      have herase := List.erase_getElem hlt
      exact ((herase.symm.cons _).trans (List.perm_cons_erase (List.getElem_mem hlt)).symm)
    · rw [hserved, hturns]
      rfl

theorem moved (host : Host) (h : Queued queue) : ∀ call, Moved host queue call
  | .enqueue input => moved_enqueue host h input
  | .dequeue => moved_dequeue host h

/-- **Over a run, whoever arrived was served once or still waits**, and the turns are the last
services. -/
theorem moved_run (host : Host) : ∀ (calls : List Call) {queue : SupplyAccountFairQueue},
    Queued queue → Queued (runAll (step host) calls queue) ∧
      (services host calls queue ++ (runAll (step host) calls queue).waiting).Perm
        (queue.waiting ++ arrivals host calls queue) ∧
      (runAll (step host) calls queue).recentServed = (queue.recentServed ++
        (services host calls queue).map (·.productAccountId)).rtake queue.maxRecentServed.toNat
  | [], queue, h => by
    refine ⟨h, .of_eq (List.append_nil _).symm, ?_⟩
    simpa [services] using (rtake_of_inv h.inv).symm
  | call :: calls, queue, h => by
    have hcall := moved host h call
    obtain ⟨hqueued, hwaiting, hturns⟩ := moved_run host calls hcall.queued
    refine ⟨hqueued, ?_, ?_⟩
    · rw [services, arrivals, runAll_cons, List.append_assoc, ← List.append_assoc queue.waiting]
      refine (hwaiting.append_left _).trans ?_
      rw [← List.append_assoc]
      exact hcall.waiting.append_right _
    · rw [runAll_cons, hturns, step_maxRecentServed, hcall.turns, Turns.rtake_rtake_append,
        services, List.map_append, List.append_assoc]

end Runs

/-- **A fair queue keeps its books**, in any state a run reaches. -/
structure FairlyKept (host : Host) (calls : List Call) (queue : SupplyAccountFairQueue) :
    Prop where
  conserved : (services host calls queue ++ (runAll (step host) calls queue).waiting).Perm
    (arrivals host calls queue)
  counts : ∀ account, ((runAll (step host) calls queue).serviceCounts.get? account).getD 0 =
    (((services host calls queue).rtake queue.maxRecentServed.toNat).map
      (·.productAccountId)).count account
  ordered : ToldApart host (runAll (step host) calls queue) →
    StrictlyOrders (FairQueueEntry.Before host (runAll (step host) calls queue).serviceCounts)
      (· ∈ (runAll (step host) calls queue).waiting) (· ≠ ·)
  anyStorage : ToldApart host (runAll (step host) calls queue) → ∀ waiting,
    waiting.Perm (runAll (step host) calls queue).waiting →
      served host { runAll (step host) calls queue with waiting } .dequeue =
        served host (runAll (step host) calls queue) .dequeue
  inOrder : ToldApart host (runAll (step host) calls queue) → ∀ entry,
    served host (runAll (step host) calls queue) .dequeue = some entry →
      ∀ other ∈ (runAll (step host) calls queue).waiting,
        other.productAccountId = entry.productAccountId →
        other.queuePriority = entry.queuePriority →
          host.instant entry.enqueuedAt < host.instant other.enqueuedAt ∨
            host.instant entry.enqueuedAt = host.instant other.enqueuedAt ∧
              host.localeCompare entry.requestId other.requestId ≤ 0

theorem fairQueue_run {host : Host} (hc : Collates host) {supplyAccountId : String}
    {maxRecentServed : Option Int} {queue : SupplyAccountFairQueue}
    (h : create supplyAccountId maxRecentServed = .ok queue) (calls : List Call) :
    FairlyKept host calls queue := by
  obtain ⟨hinv, -, hwaiting, hrecent⟩ := create_inv h
  have hqueued : Queued queue := ⟨hinv, by rw [hwaiting]; exact List.nodup_nil⟩
  obtain ⟨hreached, hconserved, hturns⟩ := moved_run host calls hqueued
  rw [hwaiting, List.nil_append] at hconserved
  rw [hrecent, List.nil_append] at hturns
  exact {
    conserved := hconserved
    counts := fun account => by
      rw [hreached.inv.tallies, hturns, List.rtake, List.rtake, List.map_drop, List.length_map]
    ordered := waiting_strictlyOrders hc hreached
    anyStorage := fun htold _ hperm => served_of_perm hc hreached htold hperm
    inOrder := fun htold _ hserved => served_in_order hc hreached htold hserved }

/-- A request of one account without priority. -/
def fairRequest (requestId enqueuedAt : String) : FairQueueEntry :=
  ⟨requestId, "account", "workspace", 0, enqueuedAt⟩

/-- A queue with the default window. -/
def newFairQueue : SupplyAccountFairQueue :=
  ⟨"supply", [], .empty, [], FAIR_QUEUE_SERVICE_TURN_WINDOW⟩

/-- A midnight. -/
def midnight : String := "2026-01-01T00:00:00.000Z"

theorem fairQueue_run_pair : FairlyKept isoHost [.enqueue (fairRequest "r2" midnight),
    .enqueue (fairRequest "r1" midnight), .dequeue] newFairQueue :=
  fairQueue_run collates_isoHost (rfl : create "supply" none = .ok newFairQueue) _

/-- **Two requests of one date leave by id**, the second to arrive first; **and two whose dates
cannot be read are not ordered**, so that the one stored first is served. -/
theorem not_fairQueue_run :
    (¬ ∀ (host : Host) (queue : SupplyAccountFairQueue) (calls : List Call),
      create "supply" none = .ok queue → ∀ account priority,
        ((services host calls queue).filter fun entry =>
          entry.productAccountId = account ∧ entry.queuePriority = priority) <+:
        (arrivals host calls queue).filter fun entry =>
          entry.productAccountId = account ∧ entry.queuePriority = priority) ∧
    (¬ ∀ (host : Host) (queue : SupplyAccountFairQueue) (calls : List Call),
      create "supply" none = .ok queue → StrictlyOrders
        (FairQueueEntry.Before host (runAll (step host) calls queue).serviceCounts)
        (· ∈ (runAll (step host) calls queue).waiting) (· ≠ ·)) ∧
    ¬ ∀ (host : Host) (queue : SupplyAccountFairQueue) (calls : List Call),
      create "supply" none = .ok queue → ∀ waiting,
        waiting.Perm (runAll (step host) calls queue).waiting →
          served host { runAll (step host) calls queue with waiting } .dequeue =
            served host (runAll (step host) calls queue) .dequeue := by
  have hreached : runAll (step isoHost) [.enqueue (fairRequest "r1" ""),
      .enqueue (fairRequest "r2" "")] newFairQueue =
        { newFairQueue with waiting := [fairRequest "r1" "", fairRequest "r2" ""] } := by
    decide +kernel
  refine ⟨fun h => ?_, fun h => ?_, fun h => ?_⟩
  · have hprefix := h isoHost newFairQueue [.enqueue (fairRequest "r2" midnight),
      .enqueue (fairRequest "r1" midnight), .dequeue] rfl "account" 0
    revert hprefix
    decide +kernel
  · have horder := h isoHost newFairQueue [.enqueue (fairRequest "r1" ""),
      .enqueue (fairRequest "r2" "")] rfl
    rw [hreached] at horder
    have htotal := horder.total (fairRequest "r1" "") (fairRequest "r2" "") (by decide) (by decide)
      (by decide)
    have hnone : compareFairQueueOrder isoHost (fairRequest "r1" "") (fairRequest "r2" "") .empty =
        none := by decide +kernel
    have hnone' : compareFairQueueOrder isoHost (fairRequest "r2" "") (fairRequest "r1" "") .empty =
        none := by decide +kernel
    rcases htotal with ⟨n, -, hn⟩ | ⟨n, -, hn⟩
    · exact nomatch hnone.symm.trans hn
    · exact nomatch hnone'.symm.trans hn
  · have hsame := h isoHost newFairQueue [.enqueue (fairRequest "r1" ""),
      .enqueue (fairRequest "r2" "")] rfl [fairRequest "r2" "", fairRequest "r1" ""]
    rw [hreached] at hsame
    have hserved := hsame (.swap _ _ [])
    revert hserved
    decide +kernel

end MeiyeAgent
