import Mathlib.Algebra.Order.Ring.Int
import Mathlib.Tactic.Linarith
import Mathlib.Tactic.Ring

/-!
# Token buckets with lazy refill

A bucket holds a number of tokens and the time of its last refill. It is refilled only when it is
found empty, with `rate` tokens for each unit of time since then but no more than `capacity`.
Between any two times the tokens taken are at most `capacity` and `rate` for each unit of time
(`Within.granted_le`): each refill pays for the time since the one before.
-/

namespace LazyBucket

/-- A bucket: the time of the last refill and the tokens left. -/
structure State where
  time : ℤ
  tokens : ℤ
  deriving DecidableEq

/-- Refill an empty bucket. -/
def refill (capacity rate now : ℤ) (b : State) : State :=
  if b.tokens = 0 then ⟨now, min capacity (rate * (now - b.time))⟩ else b

/-- Take a token, if there is one. -/
def take (capacity rate now : ℤ) (b : State) : Bool × State :=
  let b := refill capacity rate now b
  if b.tokens = 0 then (false, b) else (true, { b with tokens := b.tokens - 1 })

variable {capacity rate t0 now granted : ℤ} {b : State}

/-- The bucket holds no more than what was paid in since `t0` and not taken yet. -/
structure Within (capacity rate t0 now granted : ℤ) (b : State) : Prop where
  tokens_nonneg : 0 ≤ b.tokens
  time_le : b.time ≤ now
  le : granted + b.tokens ≤ capacity + rate * (b.time - t0)

theorem Within.mono (h : Within capacity rate t0 now granted b) {now' : ℤ} (hnow : now ≤ now') :
    Within capacity rate t0 now' granted b :=
  ⟨h.tokens_nonneg, h.time_le.trans hnow, h.le⟩

/-- A refill pays in what the time since the last one is worth. -/
theorem Within.refill (h : Within capacity rate t0 now granted b) (hr : 0 ≤ rate)
    (hc : 0 ≤ capacity) : Within capacity rate t0 now granted (refill capacity rate now b) := by
  unfold LazyBucket.refill
  split_ifs with h0
  · have hpaid : 0 ≤ rate * (now - b.time) := mul_nonneg hr (sub_nonneg.mpr h.time_le)
    refine ⟨le_min hc hpaid, le_rfl, ?_⟩
    have hle := h.le
    rw [h0, add_zero] at hle
    calc granted + min capacity (rate * (now - b.time))
        ≤ (capacity + rate * (b.time - t0)) + rate * (now - b.time) :=
          add_le_add hle (min_le_right _ _)
      _ = capacity + rate * (now - t0) := by ring
  · exact h

/-- A token that is granted was in the bucket. -/
theorem Within.take (h : Within capacity rate t0 now granted b) (hr : 0 ≤ rate)
    (hc : 0 ≤ capacity) :
    Within capacity rate t0 now (granted + if (take capacity rate now b).1 then 1 else 0)
      (take capacity rate now b).2 := by
  have hw := h.refill hr hc
  unfold LazyBucket.take
  by_cases h0 : (LazyBucket.refill capacity rate now b).tokens = 0
  · simp only [if_pos h0, Bool.false_eq_true, if_false, add_zero]
    exact hw
  · obtain ⟨hn, ht, hle⟩ := hw
    simp only [if_neg h0, if_true]
    refine ⟨?_, ht, ?_⟩ <;> dsimp only <;> omega

/-- **At most `capacity` tokens are granted, and `rate` for each unit of time.** -/
theorem Within.granted_le (h : Within capacity rate t0 now granted b) (hr : 0 ≤ rate) :
    granted ≤ capacity + rate * (now - t0) := by
  have hmul : rate * (b.time - t0) ≤ rate * (now - t0) :=
    mul_le_mul_of_nonneg_left (sub_le_sub_right h.time_le t0) hr
  have := h.le
  have := h.tokens_nonneg
  omega

/-! ## Any clock -/

/-- There are no more tokens than the bucket may hold, and no debt. -/
structure InRange (capacity : ℤ) (b : State) : Prop where
  nonneg : 0 ≤ b.tokens
  le : b.tokens ≤ capacity

/-- If the bucket is empty, it was not last refilled in the future. -/
def Forward (now : ℤ) (b : State) : Prop := b.tokens = 0 → b.time ≤ now

theorem InRange.refill (h : InRange capacity b) (hf : Forward now b) (hr : 0 ≤ rate)
    (hc : 0 ≤ capacity) : InRange capacity (refill capacity rate now b) := by
  unfold LazyBucket.refill
  split_ifs with h0
  · exact ⟨le_min hc (mul_nonneg hr (sub_nonneg.mpr (hf h0))), min_le_left _ _⟩
  · exact h

theorem InRange.take (h : InRange capacity b) (hf : Forward now b) (hr : 0 ≤ rate)
    (hc : 0 ≤ capacity) : InRange capacity (take capacity rate now b).2 := by
  obtain ⟨hn, hle⟩ := h.refill hf hr hc
  unfold LazyBucket.take
  dsimp only
  split_ifs with h0
  · exact ⟨hn, hle⟩
  · constructor <;> dsimp only <;> omega

/-- A token that is granted was there. -/
theorem InRange.pos_of_take (h : InRange capacity b) (hf : Forward now b) (hr : 0 ≤ rate)
    (hc : 0 ≤ capacity) (ht : (LazyBucket.take capacity rate now b).1 = true) :
    0 < (LazyBucket.refill capacity rate now b).tokens := by
  refine lt_of_le_of_ne (h.refill hf hr hc).nonneg fun h0 => ?_
  unfold LazyBucket.take at ht
  rw [if_pos h0.symm] at ht
  exact Bool.false_ne_true ht

end LazyBucket
