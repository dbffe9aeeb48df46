import Mathlib.Data.List.Count
import Mathlib.Tactic.Common

/-!
Limits on what is sent within any time window, kept by counting records. A
sending passes a check, is sent some time later, and is recorded after that.
The check sees the records only; it keeps the limit when it leaves room for
the sendings that have passed their own check and are not yet recorded.
-/

namespace PapeSdk.SlidingWindows

/-- How many of these times lie at most `window` before `now`. -/
def recent (window now : ℕ) (times : List ℕ) : ℕ := times.countP fun u => now ≤ u + window

/-- The sendings of one kind: `admitted` have passed the check and are not sent, `unrecorded`
are sent and not recorded. -/
structure Limiter where
  now : ℕ
  admitted : ℕ
  unrecorded : ℕ
  recorded : List ℕ
  sent : List ℕ

namespace Limiter

def HasRoom (window limit : ℕ) (s : Limiter) : Prop :=
  recent window s.now s.recorded + s.admitted + s.unrecorded < limit

inductive Step (window limit : ℕ) (s : Limiter) : Limiter → Prop
  | enter (hroom : s.HasRoom window limit) :
      Step window limit s { s with admitted := s.admitted + 1 }
  | drop (n : ℕ) (hn : s.admitted = n + 1) : Step window limit s { s with admitted := n }
  | send (n : ℕ) (hn : s.admitted = n + 1) :
      Step window limit s { s with
        admitted := n
        unrecorded := s.unrecorded + 1
        sent := s.sent ++ [s.now] }
  | record (n : ℕ) (hn : s.unrecorded = n + 1) :
      Step window limit s { s with unrecorded := n, recorded := s.recorded ++ [s.now] }
  /-- Time passes, and more is recorded than is sent here. -/
  | grow (later : ℕ) (extra : List ℕ) (hlater : s.now ≤ later) :
      Step window limit s { s with now := later, recorded := s.recorded ++ extra }

/-- Every sending is recorded no earlier than it was sent, or still to be recorded. -/
structure Kept (window limit : ℕ) (s : Limiter) : Prop where
  past : ∀ u ∈ s.sent, u ≤ s.now
  covered : ∀ t, s.sent.countP (fun u => t ≤ u) ≤ s.recorded.countP (fun u => t ≤ u) + s.unrecorded
  bounded : recent window s.now s.sent + s.admitted ≤ limit
  windows : ∀ t, s.sent.countP (fun u => t ≤ u ∧ u ≤ t + window) ≤ limit

variable {window limit : ℕ} {s s' : Limiter}

theorem recent_mono (window : ℕ) {now later : ℕ} (h : now ≤ later) (times : List ℕ) :
    recent window later times ≤ recent window now times := by
  apply List.countP_mono_left
  intro u _ hu
  rw [decide_eq_true_eq] at hu ⊢
  omega

theorem recent_eq_since (window now : ℕ) (times : List ℕ) :
    recent window now times = times.countP fun u => now - window ≤ u := by
  apply List.countP_congr
  intro u _
  rw [decide_eq_true_eq, decide_eq_true_eq]
  omega

/-- What the records show is at least what was sent, but for the sendings still to be recorded. -/
theorem Kept.recent_sent_le (h : s.Kept window limit) :
    recent window s.now s.sent ≤ recent window s.now s.recorded + s.unrecorded := by
  rw [recent_eq_since, recent_eq_since]
  exact h.covered _

theorem countP_concat (p : ℕ → Bool) (times : List ℕ) (u : ℕ) :
    (times ++ [u]).countP p = times.countP p + if p u then 1 else 0 := by
  rw [List.countP_append, List.countP_singleton]

/-- A window that holds the time `now` reaches back no further than `window`. -/
theorem window_le_recent {now t : ℕ} (ht : now ≤ t + window) (times : List ℕ) :
    times.countP (fun u => t ≤ u ∧ u ≤ t + window) ≤ recent window now times := by
  apply List.countP_mono_left
  intro u _ hu
  rw [decide_eq_true_eq] at hu ⊢
  omega

theorem Kept.send {n : ℕ} (h : s.Kept window limit) (hn : s.admitted = n + 1) :
    Kept window limit { s with
      admitted := n
      unrecorded := s.unrecorded + 1
      sent := s.sent ++ [s.now] } := by
  have hbounded := h.bounded
  have hnow : recent window s.now (s.sent ++ [s.now]) = recent window s.now s.sent + 1 := by
    rw [recent, countP_concat, if_pos (by simp), recent]
  refine ⟨fun u hu => ?_, fun t => ?_, ?_, fun t => ?_⟩
  · rcases List.mem_append.mp hu with hold | hnew
    · exact h.past u hold
    · exact Nat.le_of_eq (List.mem_singleton.mp hnew)
  · have hcovered := h.covered t
    show (s.sent ++ [s.now]).countP _ ≤ s.recorded.countP _ + (s.unrecorded + 1)
    rw [countP_concat]
    split <;> omega
  · show recent window s.now (s.sent ++ [s.now]) + n ≤ limit
    omega
  · show (s.sent ++ [s.now]).countP _ ≤ limit
    by_cases hin : t ≤ s.now ∧ s.now ≤ t + window
    · have hle := window_le_recent hin.2 (s.sent ++ [s.now])
      omega
    · rw [countP_concat, if_neg (by simpa using hin)]
      exact h.windows t

theorem Kept.record {n : ℕ} (h : s.Kept window limit) (hn : s.unrecorded = n + 1) :
    Kept window limit { s with unrecorded := n, recorded := s.recorded ++ [s.now] } := by
  refine ⟨h.past, fun t => ?_, h.bounded, h.windows⟩
  show s.sent.countP _ ≤ (s.recorded ++ [s.now]).countP _ + n
  have hcovered := h.covered t
  rw [countP_concat]
  by_cases ht : t ≤ s.now
  · rw [if_pos (by simpa using ht)]
    omega
  · -- nothing is sent in the future
    have hnone : s.sent.countP (fun u => t ≤ u) = 0 := by
      apply List.countP_eq_zero.mpr
      intro u hu
      have hpast := h.past u hu
      rw [decide_eq_true_eq]
      omega
    omega

theorem Kept.step (h : s.Kept window limit) (hstep : Step window limit s s') :
    s'.Kept window limit := by
  have hbounded := h.bounded
  cases hstep with
  | enter hroom =>
    refine ⟨h.past, h.covered, ?_, h.windows⟩
    have hsent := h.recent_sent_le
    unfold HasRoom at hroom
    show recent window s.now s.sent + (s.admitted + 1) ≤ limit
    omega
  | drop n hn =>
    refine ⟨h.past, h.covered, ?_, h.windows⟩
    show recent window s.now s.sent + n ≤ limit
    omega
  | send n hn => exact h.send hn
  | record n hn => exact h.record hn
  | grow later extra hlater =>
    refine ⟨fun u hu => Nat.le_trans (h.past u hu) hlater, fun t => ?_, ?_, h.windows⟩
    · show s.sent.countP _ ≤ (s.recorded ++ extra).countP _ + s.unrecorded
      have hcovered := h.covered t
      rw [List.countP_append]
      omega
    · show recent window later s.sent + s.admitted ≤ limit
      have hmono := recent_mono window hlater s.sent
      omega

end Limiter

end PapeSdk.SlidingWindows
