import Mathlib.Data.List.Basic

/-!
# Hashing in blocks

An iterated hash works through its input in blocks of a fixed size, and keeps what does not fill a
block for later. The input may come in pieces: what was kept of the earlier ones goes in front of the
next (`absorb_append`), so only the concatenation matters.
-/

namespace Blocks

variable {σ τ α : Type*} (f : σ → List α → σ) {n : ℕ}

/-- Feeds the whole blocks of `n` items at the front of the input to `f`, and keeps the rest. -/
def absorb (n : ℕ) (s : σ) (xs : List α) : σ × List α :=
  if 0 < n ∧ n ≤ xs.length then absorb n (f s (xs.take n)) (xs.drop n) else (s, xs)
termination_by xs.length
decreasing_by rw [List.length_drop]; omega

variable {f}

theorem absorb_of_lt {s : σ} {xs : List α} (h : xs.length < n) : absorb f n s xs = (s, xs) := by
  rw [absorb, if_neg (by omega)]

theorem absorb_of_le (hn : 0 < n) {s : σ} {xs : List α} (h : n ≤ xs.length) :
    absorb f n s xs = absorb f n (f s (xs.take n)) (xs.drop n) := by
  rw [absorb, if_pos ⟨hn, h⟩]

/-- A block in front of the input is fed first. -/
theorem absorb_block (hn : 0 < n) {s : σ} {b : List α} (hb : b.length = n) (xs : List α) :
    absorb f n s (b ++ xs) = absorb f n (f s b) xs := by
  rw [absorb_of_le hn (by rw [List.length_append]; omega), List.take_left' hb, List.drop_left' hb]

theorem length_rest (hn : 0 < n) (s : σ) (xs : List α) :
    (absorb f n s xs).2.length = xs.length % n := by
  induction s, xs using absorb.induct f n with
  | case1 s xs h ih =>
    rw [absorb_of_le hn h.2, ih, List.length_drop, ← Nat.mod_eq_sub_mod h.2]
  | case2 s xs h =>
    have h : xs.length < n := by omega
    rw [absorb_of_lt h, Nat.mod_eq_of_lt h]

/-- A second piece of the input comes behind what was kept of the first. -/
theorem absorb_append (hn : 0 < n) (s : σ) (xs ys : List α) :
    absorb f n s (xs ++ ys) =
      absorb f n (absorb f n s xs).1 ((absorb f n s xs).2 ++ ys) := by
  induction s, xs using absorb.induct f n with
  | case1 s xs h ih =>
    have hl : (xs.take n).length = n := by rw [List.length_take]; omega
    calc absorb f n s (xs ++ ys)
        = absorb f n s (xs.take n ++ (xs.drop n ++ ys)) := by
          rw [← List.append_assoc, List.take_append_drop]
      _ = absorb f n (f s (xs.take n)) (xs.drop n ++ ys) := absorb_block hn hl _
      _ = _ := by rw [ih, absorb_of_le hn h.2]
  | case2 s xs h =>
    have hs : absorb f n s xs = (s, xs) := absorb_of_lt (by omega)
    rw [hs]

/-! ## Filling up the kept items -/

variable {s : σ} {kept xs : List α}

theorem absorb_fill (hn : 0 < n) (hk : kept.length < n) (h : n - kept.length ≤ xs.length) :
    absorb f n s (kept ++ xs) =
      absorb f n (f s (kept ++ xs.take (n - kept.length))) (xs.drop (n - kept.length)) := by
  have hb : (kept ++ xs.take (n - kept.length)).length = n := by
    rw [List.length_append, List.length_take]
    omega
  rw [← absorb_block hn hb, List.append_assoc, List.take_append_drop]

theorem absorb_keep (h : xs.length < n - kept.length) :
    absorb f n s (kept ++ xs) = (s, kept ++ xs) :=
  absorb_of_lt (by rw [List.length_append]; omega)

/-! ## Two hashes -/

/-- A map of the states that takes one block function to another takes one hash to the other. -/
theorem map_absorb {g : τ → List α → τ} {φ : σ → τ} (hn : 0 < n)
    (h : ∀ s b, b.length = n → φ (f s b) = g (φ s) b) (s : σ) (xs : List α) :
    absorb g n (φ s) xs = (φ (absorb f n s xs).1, (absorb f n s xs).2) := by
  induction s, xs using absorb.induct f n with
  | case1 s xs hx ih =>
    have hl : (xs.take n).length = n := by rw [List.length_take]; omega
    rw [absorb_of_le hn hx.2, ← h _ _ hl, ih, absorb_of_le hn hx.2]
  | case2 s xs hx =>
    have hx : xs.length < n := by omega
    rw [absorb_of_lt hx, absorb_of_lt hx]

end Blocks
