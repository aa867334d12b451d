import Mathlib.Algebra.BigOperators.Group.List.Lemmas
import Mathlib.Algebra.Order.BigOperators.Group.List
import Mathlib.Algebra.Order.Group.Int
import Mathlib.Algebra.Ring.Int.Defs
import Mathlib.Data.List.TakeWhile

/-!
# Machinery/RateWindow — a rate limit over a sliding window, kept by pruning

Samples carry a time and a weight.  A limiter keeps some of the samples it admitted, drops those
that have left the window from the front, and admits a sample if the weights it keeps leave room.

* `Tracks` — the kept samples are the log without a front part that has left the window.
* `load_concat_le` — **the rate lemma**: a sample admitted so keeps every window of the log, past
  and future, within the limit.  No order of the samples is needed, only that the clock of the
  admission is not before the last pruning.
-/

namespace RateWindow

variable {α : Type} (time : α → Int) (weight : α → Int) (span : Int)

/-- The samples of the window that ends at `t`, its start left out. -/
def window (t : Int) (log : List α) : List α := log.filter fun a => t - span < time a ∧ time a ≤ t

/-- **The load of a window.** -/
def load (t : Int) (log : List α) : Int := ((window time span t log).map weight).sum

/-- The samples left when those at or before `cutoff` have been dropped from the front. -/
def prune (cutoff : Int) (kept : List α) : List α := kept.dropWhile fun a => time a ≤ cutoff

/-- **What is kept of the log** at the clock `now`. -/
def Tracks (now : Int) (log kept : List α) : Prop :=
  ∃ old, log = old ++ kept ∧ ∀ a ∈ old, time a ≤ now - span

variable {time weight span} {now later t limit : Int} {log kept : List α} {a : α}

theorem Tracks.nil : Tracks time span now [] [] := ⟨[], rfl, by simp⟩

/-- A later clock makes the dropped samples older. -/
theorem Tracks.mono (h : Tracks time span now log kept) (hle : now ≤ later) :
    Tracks time span later log kept := by
  obtain ⟨old, hlog, hold⟩ := h
  exact ⟨old, hlog, fun a ha => (hold a ha).trans (by omega)⟩

/-- Pruning again at the same cutoff drops nothing more. -/
theorem prune_prune (cutoff : Int) (kept : List α) :
    prune time cutoff (prune time cutoff kept) = prune time cutoff kept := by
  refine List.dropWhile_eq_self_iff.mpr fun h => ?_
  exact List.dropWhile_get_zero_not _ _ h

theorem Tracks.prune (h : Tracks time span now log kept) :
    Tracks time span now log (prune time (now - span) kept) := by
  obtain ⟨old, rfl, hold⟩ := h
  refine ⟨old ++ kept.takeWhile fun a => time a ≤ now - span, ?_, fun a ha => ?_⟩
  · rw [RateWindow.prune, List.append_assoc, List.takeWhile_append_dropWhile]
  · rcases List.mem_append.mp ha with ha | ha
    · exact hold a ha
    · simpa using List.mem_takeWhile_imp ha

theorem Tracks.concat (h : Tracks time span now log kept) (a : α) :
    Tracks time span now (log ++ [a]) (kept ++ [a]) := by
  obtain ⟨old, rfl, hold⟩ := h
  exact ⟨old, List.append_assoc .., hold⟩

theorem window_append (t : Int) (l l' : List α) :
    window time span t (l ++ l') = window time span t l ++ window time span t l' :=
  List.filter_append ..

theorem load_cons (t : Int) (a : α) (l : List α) : load time weight span t (a :: l) =
    load time weight span t l + if t - span < time a ∧ time a ≤ t then weight a else 0 := by
  by_cases hin : t - span < time a ∧ time a ≤ t <;> simp [load, window, hin, Int.add_comm]

/-- The load of samples made from other samples, those that make none weighing nothing. -/
theorem load_filterMap {β : Type} {f : β → Option α} {time' weight' : β → Int}
    (hnone : ∀ b, f b = none → weight' b = 0)
    (hsome : ∀ b a, f b = some a → time a = time' b ∧ weight a = weight' b) (t : Int)
    (log : List β) :
    load time weight span t (log.filterMap f) = load time' weight' span t log := by
  induction log with
  | nil => rfl
  | cons b log ih =>
    rw [load_cons, ← ih]
    rcases hf : f b with _ | a
    · rw [List.filterMap_cons_none hf, hnone b hf, ite_self, Int.add_zero]
    · obtain ⟨htime, hweight⟩ := hsome b a hf
      rw [List.filterMap_cons_some hf, load_cons, htime, hweight]

/-- A window that ends no earlier than the clock sees only samples that are kept. -/
theorem load_le_kept (hweight : ∀ a ∈ log, 0 ≤ weight a) (h : Tracks time span now log kept)
    (hle : now ≤ t) : load time weight span t log ≤ (kept.map weight).sum := by
  obtain ⟨old, rfl, hold⟩ := h
  have hnone : window time span t old = [] := by
    refine List.filter_eq_nil_iff.mpr fun a ha => ?_
    have := hold a ha
    simp only [decide_eq_true_eq]
    omega
  rw [load, window_append, hnone, List.nil_append]
  exact (List.filter_sublist.map weight).sum_le_sum fun x hx => by
    obtain ⟨a, ha, rfl⟩ := List.mem_map.mp hx
    exact hweight a (List.mem_append_right _ ha)

/-- **The rate lemma**: a sample that fits beside what is kept fits in every window. -/
theorem load_concat_le (hweight : ∀ a ∈ log, 0 ≤ weight a) (h : Tracks time span now log kept)
    (hload : ∀ t, load time weight span t log ≤ limit) (ha : time a = now)
    (hroom : (kept.map weight).sum + weight a ≤ limit) (t : Int) :
    load time weight span t (log ++ [a]) ≤ limit := by
  have hsplit : load time weight span t (log ++ [a]) =
      load time weight span t log + load time weight span t [a] := by
    rw [load, window_append, List.map_append, List.sum_append, load, load]
  by_cases hin : t - span < time a ∧ time a ≤ t
  · have hone : load time weight span t [a] = weight a := by simp [load, window, hin]
    have hkept := load_le_kept hweight h (ha ▸ hin.2)
    omega
  · have hzero : load time weight span t [a] = 0 := by simp [load, window, hin]
    have := hload t
    omega

end RateWindow
