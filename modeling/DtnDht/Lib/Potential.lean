import Mathlib.Data.List.Infix
import Mathlib.Order.Basic

/-!
# Potentials

What goes on only at the cost of a potential comes to an end. A run is a list of rounds, the latest
first; each round either ends it or leaves it going with a smaller potential.
-/

namespace Potential

variable {ι : Type*} {going : List ι → ℕ → Prop} {ended : List ι → Prop}

/-- Until it is over, the potential has sunk by one in each round. -/
theorem over_or_sunk {run : List ι}
    (hround : ∀ i early n, i :: early <:+ run → going early n →
      ended (i :: early) ∨ ∃ m < n, going (i :: early) m) {n : ℕ} (h0 : going [] n) :
    (∃ early, early <:+ run ∧ ended early) ∨ ∃ m, m + run.length ≤ n ∧ going run m := by
  induction run with
  | nil => exact Or.inr ⟨n, le_rfl, h0⟩
  | cons i run ih =>
    rcases ih fun i early n he => hround i early n (he.trans (List.suffix_cons _ _)) with
      ⟨early, he, hover⟩ | ⟨m, hm, hgoing⟩
    · exact Or.inl ⟨early, he.trans (List.suffix_cons _ _), hover⟩
    · rcases hround i run m (List.suffix_refl _) hgoing with hover | ⟨k, hk, hgoing'⟩
      · exact Or.inl ⟨i :: run, List.suffix_refl _, hover⟩
      · exact Or.inr ⟨k, by rw [List.length_cons]; omega, hgoing'⟩

/-- It is over after one round more than the potential at first. -/
theorem exists_over {run : List ι}
    (hround : ∀ i early n, i :: early <:+ run → going early n →
      ended (i :: early) ∨ ∃ m < n, going (i :: early) m) {n : ℕ} (h0 : going [] n)
    (hlong : n < run.length) : ∃ early, early <:+ run ∧ ended early :=
  (over_or_sunk hround h0).resolve_right fun ⟨m, hm, _⟩ => by omega

end Potential
