import Mathlib.Logic.Relation
import Mathlib.Order.UpperLower.Basic

/-!
# Promises with a deadline

A system takes steps, and a clock is read off its states. Where no step turns the clock back, what
each step keeps before a deadline is kept by every run that ends before it.
-/

namespace Deadlines

open Relation

variable {σ T : Type*} [Preorder T] {step : σ → σ → Prop} {now : σ → T} {ok : σ → Prop} {s s' : σ}

/-- From states in order each step leads to a state in order and does not turn the clock back. -/
def Forward (step : σ → σ → Prop) (now : σ → T) (ok : σ → Prop) : Prop :=
  ∀ ⦃s s'⦄, ok s → step s s' → ok s' ∧ now s ≤ now s'

theorem Forward.run (h : Forward step now ok) (hs : ok s) (hrun : ReflTransGen step s s') :
    ok s' ∧ now s ≤ now s' := by
  induction hrun with
  | refl => exact ⟨hs, le_rfl⟩
  | tail _ hstep ih =>
    obtain ⟨hok, hle⟩ := h ih.1 hstep
    exact ⟨hok, ih.2.trans hle⟩

/-- What each step between `t` and the deadline keeps is kept until then. -/
theorem Forward.keeps (h : Forward step now ok) {p : σ → Prop} {t : T} {D : Set T}
    (hD : IsLowerSet D)
    (hkeep : ∀ s s', t ≤ now s → now s' ∈ D → step s s' → p s → p s')
    (hs : ok s) (ht : t ≤ now s) (hrun : ReflTransGen step s s') (hd : now s' ∈ D) (hp : p s) :
    p s' := by
  induction hrun with
  | refl => exact hp
  | tail hrun hstep ih =>
    obtain ⟨hok, hle⟩ := h.run hs hrun
    exact hkeep _ _ (ht.trans hle) hd hstep (ih (hD (h hok hstep).2 hd))

end Deadlines
