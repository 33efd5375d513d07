import Mathlib.Data.List.Basic
import Mathlib.Tactic.Common
import Mathlib.Tactic.Ring

/-!
# Tilings by aligned intervals

A list of cells tiles `[lo, hi)` when each cell occupies an interval that starts where the one
before it ends; `P c a b` says what it means that `c` occupies `[a, b)`. Every point lies in a
cell (`Tiles.exists_cell`) and the cells are in order (`Tiles.pairwise`). The intervals of interest
are aligned: their length is a power of two that divides their start, so that they halve into
aligned ones.
-/

namespace Tiling

variable {α : Type*} {P Q : α → ℕ → ℕ → Prop} {c : α} {cs pre post : List α} {lo mid hi x : ℕ}

/-! ## Aligned intervals -/

/-- `[lo, hi)` has a power of two for its length and starts at a multiple of it. -/
def Aligned (lo hi : ℕ) : Prop := ∃ k, hi = lo + 2 ^ k ∧ 2 ^ k ∣ lo

theorem Aligned.lt (h : Aligned lo hi) : lo < hi := by
  obtain ⟨k, rfl, -⟩ := h
  exact Nat.lt_add_of_pos_right (Nat.two_pow_pos k)

/-- An aligned interval of more than one point halves into two aligned ones. -/
theorem aligned_halves {k : ℕ} (h : 2 ^ (k + 1) ∣ lo) :
    Aligned lo (lo + 2 ^ k) ∧ Aligned (lo + 2 ^ k) (lo + 2 ^ (k + 1)) := by
  have hk : 2 ^ k ∣ lo := (pow_dvd_pow 2 (Nat.le_succ k)).trans h
  exact ⟨⟨k, rfl, hk⟩, ⟨k, by ring, Nat.dvd_add hk dvd_rfl⟩⟩

/-! ## Tilings -/

/-- The cells follow each other from `lo` to `hi`. -/
def Tiles (P : α → ℕ → ℕ → Prop) : List α → ℕ → ℕ → Prop
  | [], lo, hi => lo = hi
  | c :: cs, lo, hi => ∃ mid, P c lo mid ∧ Tiles P cs mid hi

@[simp] theorem tiles_nil : Tiles P [] lo hi ↔ lo = hi := Iff.rfl

theorem tiles_cons : Tiles P (c :: cs) lo hi ↔ ∃ mid, P c lo mid ∧ Tiles P cs mid hi := Iff.rfl

theorem tiles_append :
    Tiles P (pre ++ cs) lo hi ↔ ∃ mid, Tiles P pre lo mid ∧ Tiles P cs mid hi := by
  induction pre generalizing lo with
  | nil => simp
  | cons c pre ih =>
    rw [List.cons_append, tiles_cons]
    constructor
    · rintro ⟨m, hc, h⟩
      obtain ⟨n, h1, h2⟩ := ih.mp h
      exact ⟨n, ⟨m, hc, h1⟩, h2⟩
    · rintro ⟨n, ⟨m, hc, h1⟩, h2⟩
      exact ⟨m, hc, ih.mpr ⟨n, h1, h2⟩⟩

theorem tiles_append_cons : Tiles P (pre ++ c :: post) lo hi ↔
    ∃ a b, Tiles P pre lo a ∧ P c a b ∧ Tiles P post b hi := by
  rw [tiles_append]
  constructor
  · rintro ⟨a, h1, b, hc, h2⟩
    exact ⟨a, b, h1, hc, h2⟩
  · rintro ⟨a, b, h1, hc, h2⟩
    exact ⟨a, h1, b, hc, h2⟩

/-- A tiling only depends on what its cells show of themselves. -/
theorem Tiles.congr_map {β : Type*} {g : α → β} {ds : List α}
    (hP : ∀ c d a b, g c = g d → P c a b → P d a b) (he : cs.map g = ds.map g)
    (h : Tiles P cs lo hi) : Tiles P ds lo hi := by
  induction cs generalizing ds lo with
  | nil => rwa [List.map_eq_nil_iff.mp he.symm]
  | cons c cs ih =>
    cases ds with
    | nil => exact absurd he (by simp)
    | cons d ds =>
      rw [List.map_cons, List.map_cons, List.cons.injEq] at he
      obtain ⟨mid, hc, h⟩ := h
      exact ⟨mid, hP c d _ _ he.1 hc, ih he.2 h⟩

theorem Tiles.map {f : α → α} (h : Tiles P cs lo hi)
    (hPQ : ∀ c ∈ cs, ∀ a b, P c a b → Q (f c) a b) : Tiles Q (cs.map f) lo hi := by
  induction cs generalizing lo with
  | nil => exact h
  | cons c cs ih =>
    obtain ⟨mid, hc, h⟩ := h
    exact ⟨mid, hPQ c List.mem_cons_self _ _ hc,
      ih h fun d hd => hPQ d (List.mem_cons_of_mem _ hd)⟩

/-- Every point lies in a cell. -/
theorem Tiles.exists_cell (h : Tiles P cs lo hi) (h1 : lo ≤ x) (h2 : x < hi) :
    ∃ pre c post a b, cs = pre ++ c :: post ∧ Tiles P pre lo a ∧ P c a b ∧ Tiles P post b hi ∧
      a ≤ x ∧ x < b := by
  induction cs generalizing lo with
  | nil => exact absurd h (h1.trans_lt h2).ne
  | cons c cs ih =>
    obtain ⟨mid, hc, h⟩ := h
    rcases lt_or_ge x mid with hx | hx
    · exact ⟨[], c, cs, lo, mid, rfl, rfl, hc, h, h1, hx⟩
    · obtain ⟨pre, d, post, a, b, rfl, hpre, hd, hpost, ha, hb⟩ := ih h hx
      exact ⟨c :: pre, d, post, a, b, rfl, ⟨mid, hc, hpre⟩, hd, hpost, ha, hb⟩

section Lt

variable (hP : ∀ c a b, P c a b → a < b)

include hP

theorem Tiles.le (h : Tiles P cs lo hi) : lo ≤ hi := by
  induction cs generalizing lo with
  | nil => exact h.le
  | cons c cs ih =>
    obtain ⟨mid, hc, h⟩ := h
    exact (hP c lo mid hc).le.trans (ih h)

/-- Each cell occupies an interval inside. -/
theorem Tiles.of_mem (h : Tiles P cs lo hi) (hc : c ∈ cs) :
    ∃ a b, P c a b ∧ lo ≤ a ∧ b ≤ hi := by
  obtain ⟨pre, post, rfl⟩ := List.append_of_mem hc
  obtain ⟨a, b, h1, hc, h2⟩ := tiles_append_cons.mp h
  exact ⟨a, b, hc, h1.le hP, h2.le hP⟩

/-- What holds of a cell and one that starts where it ends or later holds of all pairs. -/
theorem Tiles.pairwise {R : α → α → Prop}
    (hR : ∀ c d a b a' b', P c a b → P d a' b' → b ≤ a' → R c d)
    (h : Tiles P cs lo hi) : cs.Pairwise R := by
  induction cs generalizing lo with
  | nil => exact List.Pairwise.nil
  | cons c cs ih =>
    obtain ⟨mid, hc, h⟩ := h
    refine List.pairwise_cons.mpr ⟨fun d hd => ?_, ih h⟩
    obtain ⟨a, b, hd, ha, -⟩ := h.of_mem hP hd
    exact hR c d lo mid a b hc hd ha

end Lt

end Tiling
