import Mathlib.Algebra.Order.Group.Basic
import Mathlib.Data.List.TakeWhile
import Mathlib.Tactic.Common

/-!
# Sliding windows

A queue of times from which the front is dropped once it is out of the window, and the log of
all times that were ever put into it.
-/

namespace SlidingWindow

variable {τ : Type} [AddCommGroup τ] [LinearOrder τ]

/-- The queue without the times at its front that are more than `width` ago. -/
def expire (width now : τ) (queue : List τ) : List τ :=
  queue.dropWhile fun t => decide (width < now - t)

/-- The times of a log in the closed window from `start` on. -/
def inWindow (width start : τ) (log : List τ) : List τ :=
  log.filter fun t => decide (start ≤ t ∧ t ≤ start + width)

/-- The queue holds the end of the log, what was dropped is out of the window, and no window
of the log has more than `bound` times. -/
structure Tracks (width : τ) (bound : ℕ) (log queue : List τ) (clock : τ) : Prop where
  sorted : log.Pairwise (· ≤ ·)
  past : ∀ t ∈ log, t ≤ clock
  split : ∃ old, log = old ++ queue ∧ ∀ t ∈ old, width < clock - t
  bounded : queue.length ≤ bound
  sparse : ∀ start, (inWindow width start log).length ≤ bound

variable {width clock now : τ} {bound : ℕ} {log queue : List τ}

lemma expire_split (width now : τ) (queue : List τ) :
    ∃ old, queue = old ++ expire width now queue ∧ ∀ t ∈ old, width < now - t := by
  refine ⟨queue.takeWhile fun t => decide (width < now - t), ?_, ?_⟩
  · exact List.takeWhile_append_dropWhile.symm
  · intro t ht
    simpa using List.mem_takeWhile_imp ht

/-- The oldest time that is left is in the window. -/
lemma sub_le_of_expire_cons {oldest : τ} {rest : List τ}
    (h : expire width now queue = oldest :: rest) : now - oldest ≤ width := by
  have hhead := List.head?_dropWhile_not (fun t => decide (width < now - t)) queue
  rw [← expire, h] at hhead
  simpa using hhead

lemma length_expire_le (width now : τ) (queue : List τ) :
    (expire width now queue).length ≤ queue.length :=
  (List.dropWhile_sublist _).length_le

/-- Once the oldest time is out of the window there is room. -/
lemma length_expire_lt {oldest : τ} (rest : List τ) (h : width < now - oldest) :
    (expire width now (oldest :: rest)).length < (oldest :: rest).length := by
  have hdrop : expire width now (oldest :: rest) = expire width now rest :=
    List.dropWhile_cons_of_pos (by simpa using h)
  rw [hdrop, List.length_cons]
  exact Nat.lt_succ_of_le (length_expire_le width now rest)

lemma Tracks.empty (width : τ) (bound : ℕ) (clock : τ) : Tracks width bound [] [] clock :=
  ⟨List.Pairwise.nil, by simp, ⟨[], by simp⟩, Nat.zero_le _, fun _ => Nat.zero_le _⟩

variable [IsOrderedAddMonoid τ]

lemma Tracks.later (h : Tracks width bound log queue clock) (hnow : clock ≤ now) :
    Tracks width bound log queue now := by
  obtain ⟨old, hlog, hold⟩ := h.split
  refine ⟨h.sorted, fun t ht => (h.past t ht).trans hnow, ⟨old, hlog, fun t ht => ?_⟩, h.bounded,
    h.sparse⟩
  exact (hold t ht).trans_le (sub_le_sub_right hnow t)

lemma Tracks.expire (h : Tracks width bound log queue clock) (hnow : clock ≤ now) :
    Tracks width bound log (expire width now queue) now := by
  obtain ⟨old, hlog, hold⟩ := (h.later hnow).split
  obtain ⟨old', hqueue, hold'⟩ := expire_split width now queue
  refine ⟨h.sorted, (h.later hnow).past, ⟨old ++ old', ?_, ?_⟩,
    (length_expire_le width now queue).trans h.bounded, h.sparse⟩
  · rw [List.append_assoc, ← hqueue, hlog]
  · intro t ht
    exact (List.mem_append.mp ht).elim (hold t) (hold' t)

/-- What is left of an expired queue is what the log has in the window that ends now. -/
lemma Tracks.expire_eq (h : Tracks width bound log queue clock) (hnow : clock ≤ now) :
    SlidingWindow.expire width now queue = inWindow width (now - width) log := by
  obtain ⟨old, hlog, hold⟩ := (h.expire hnow).split
  have hgone : inWindow width (now - width) old = [] := by
    apply List.filter_eq_nil_iff.mpr
    intro t ht
    have hout : t < now - width := lt_sub_comm.mp (hold t ht)
    simp [hout.not_ge]
  have hleft : ∀ t ∈ SlidingWindow.expire width now queue, now - width ≤ t ∧ t ≤ now := by
    intro t ht
    refine ⟨?_, (h.expire hnow).past t (hlog ▸ List.mem_append_right old ht)⟩
    -- The queue is sorted, so its oldest time bounds the others.
    have hsorted := (List.pairwise_append.mp (hlog ▸ h.sorted)).2.1
    cases hq : SlidingWindow.expire width now queue with
    | nil => simp [hq] at ht
    | cons oldest rest =>
      have holdest := sub_le_of_expire_cons hq
      have hfirst : oldest ≤ t := by
        rw [hq] at ht hsorted
        rcases List.mem_cons.mp ht with rfl | ht
        · exact le_refl t
        · exact (List.pairwise_cons.mp hsorted).1 t ht
      exact (sub_le_comm.mp holdest).trans hfirst
  have hkept : inWindow width (now - width) (SlidingWindow.expire width now queue) =
      SlidingWindow.expire width now queue := by
    apply List.filter_eq_self.mpr
    intro t ht
    simpa using hleft t ht
  rw [hlog, inWindow, List.filter_append]
  change _ = inWindow width (now - width) old ++ inWindow width (now - width) _
  rw [hgone, hkept, List.nil_append]

/-- A time may join a queue that is not full. -/
lemma Tracks.push (h : Tracks width bound log queue now) (hroom : queue.length < bound) :
    Tracks width bound (log ++ [now]) (queue ++ [now]) now := by
  obtain ⟨old, hlog, hold⟩ := h.split
  refine ⟨?_, ?_, ⟨old, by rw [hlog, List.append_assoc], hold⟩, ?_, ?_⟩
  · apply List.pairwise_append.mpr ⟨h.sorted, List.pairwise_singleton _ _, ?_⟩
    simpa using h.past
  · intro t ht
    rcases List.mem_append.mp ht with ht | ht
    · exact h.past t ht
    · exact (List.mem_singleton.mp ht).le
  · rw [List.length_append, List.length_singleton]
    exact hroom
  · intro start
    rw [inWindow, List.filter_append, List.length_append]
    by_cases hin : start ≤ now ∧ now ≤ start + width
    · -- The window reaches back no further than the queue.
      have hgone : old.filter (fun t => decide (start ≤ t ∧ t ≤ start + width)) = [] := by
        apply List.filter_eq_nil_iff.mpr
        intro t ht
        have hout : t < start := by
          have hsub : now - width ≤ start := sub_le_iff_le_add.mpr hin.2
          exact (lt_sub_comm.mp (hold t ht)).trans_le hsub
        simp [hout.not_ge]
      rw [hlog, List.filter_append, hgone, List.nil_append]
      have hqueue := List.length_filter_le
        (fun t => decide (start ≤ t ∧ t ≤ start + width)) queue
      have hone := List.length_filter_le
        (fun t => decide (start ≤ t ∧ t ≤ start + width)) [now]
      rw [List.length_singleton] at hone
      omega
    · have hnone : [now].filter (fun t => decide (start ≤ t ∧ t ≤ start + width)) = [] := by
        simpa using hin
      rw [hnone]
      exact h.sparse start

end SlidingWindow
