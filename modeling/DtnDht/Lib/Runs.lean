import Mathlib.Data.List.Basic

/-!
# Conditions on runs

A loop over a list takes one turn after the other; a history is a list of steps, the latest first.
A condition may be asked of the state before each turn or step. What the turns or steps that meet
it keep is kept by the run.
-/

namespace Runs

variable {σ ι : Type*} {step : σ → ι → σ} {p : σ → ι → Prop} {q : σ → Prop} {s : σ}

/-- The condition holds of each turn of a loop and the state before it. -/
def EachTurn (step : σ → ι → σ) (p : σ → ι → Prop) : σ → List ι → Prop
  | _, [] => True
  | s, i :: is => p s i ∧ EachTurn step p (step s i) is

/-- The condition holds of each step of a history and the state before it. -/
def EachStep (step : σ → ι → σ) (p : σ → ι → Prop) (s : σ) : List ι → Prop
  | [] => True
  | i :: past => p (past.foldr (fun i s => step s i) s) i ∧ EachStep step p s past

instance instDecidableEachTurn [∀ s i, Decidable (p s i)] : ∀ s is, Decidable (EachTurn step p s is)
  | _, [] => inferInstanceAs (Decidable True)
  | s, i :: is =>
    have := instDecidableEachTurn (step s i) is
    inferInstanceAs (Decidable (p s i ∧ EachTurn step p (step s i) is))

instance instDecidableEachStep [∀ s i, Decidable (p s i)] (s : σ) :
    ∀ past, Decidable (EachStep step p s past)
  | [] => inferInstanceAs (Decidable True)
  | i :: past =>
    have := instDecidableEachStep s past
    inferInstanceAs (Decidable (p (past.foldr (fun i s => step s i) s) i ∧ EachStep step p s past))

/-- What each turn keeps is kept by the loop. -/
theorem EachTurn.foldl {is : List ι} (h : EachTurn step p s is)
    (hstep : ∀ s i, p s i → q s → q (step s i)) (hq : q s) : q (is.foldl step s) := by
  induction is generalizing s with
  | nil => exact hq
  | cons i is ih => exact ih h.2 (hstep s i h.1 hq)

/-- A history and what came before it. -/
theorem eachStep_append {later past : List ι} : EachStep step p s (later ++ past) ↔
    EachStep step p s past ∧ EachStep step p (past.foldr (fun i s => step s i) s) later := by
  induction later with
  | nil => exact (and_iff_left trivial).symm
  | cons i later ih =>
    rw [List.cons_append, EachStep, EachStep, ih, List.foldr_append]
    exact and_left_comm

/-- Two conditions on a history. -/
theorem EachStep.and {p' : σ → ι → Prop} {past : List ι} (h : EachStep step p s past)
    (h' : EachStep step p' s past) : EachStep step (fun s i => p s i ∧ p' s i) s past := by
  induction past with
  | nil => trivial
  | cons i past ih => exact ⟨⟨h.1, h'.1⟩, ih h.2 h'.2⟩

/-- What each step keeps is kept by the history. -/
theorem EachStep.foldr {past : List ι} (h : EachStep step p s past)
    (hstep : ∀ s i, p s i → q s → q (step s i)) (hq : q s) :
    q (past.foldr (fun i s => step s i) s) := by
  induction past with
  | nil => exact hq
  | cons i past ih => exact hstep _ i h.1 (ih h.2)

end Runs
