import Mathlib.Data.List.Infix
import Mathlib.Logic.Function.Basic

/-!
# Networks

Parties, each with a state of its own, are called in any order; a call changes the state of its party
and no other. A run is the list of the calls, the latest first. Nothing is in flight: a call may hear
a message, and in an honest run (`Honest`) somebody has sent it before. So messages may be lost,
doubled, held up and overtaken.
-/

namespace Network

variable {ι σ κ μ : Type*} [DecidableEq ι]

section

variable (call : σ → κ → σ) (start : ι → σ)

/-- The states of the parties after a run. -/
def after : List (ι × κ) → ι → σ
  | [] => start
  | c :: past => Function.update (after past) c.1 (call (after past c.1) c.2)

end

/-- The calls of a party. -/
def own (i : ι) (run : List (ι × κ)) : List κ := (run.filter (·.1 = i)).map Prod.snd

variable {call : σ → κ → σ} {start : ι → σ} {run : List (ι × κ)} {i : ι}

theorem after_cons_self (c : ι × κ) (past : List (ι × κ)) :
    after call start (c :: past) c.1 = call (after call start past c.1) c.2 :=
  Function.update_self _ _ _

theorem after_cons_of_ne {c : ι × κ} (hne : c.1 ≠ i) (past : List (ι × κ)) :
    after call start (c :: past) i = after call start past i :=
  Function.update_of_ne hne.symm _ _

/-- A party only feels its own calls. -/
theorem after_eq_foldr :
    after call start run i = (own i run).foldr (fun c s => call s c) (start i) := by
  induction run with
  | nil => rfl
  | cons c past ih =>
    unfold own at ih ⊢
    by_cases hc : c.1 = i
    · subst hc
      have hown : (c :: past).filter (·.1 = c.1) = c :: past.filter (·.1 = c.1) :=
        List.filter_cons_of_pos (decide_eq_true rfl)
      rw [hown, List.map_cons, List.foldr_cons, ← ih]
      exact after_cons_self c past
    · rw [List.filter_cons_of_neg (by rw [decide_eq_true_iff]; exact hc), ← ih]
      exact after_cons_of_ne hc past

/-- What does not hold of a party at first and holds in the end comes about in one of its calls. -/
theorem exists_call {P : σ → Prop} (h0 : ¬ P (start i)) (h : P (after call start run i)) :
    ∃ c past, (i, c) :: past <:+ run ∧ ¬ P (after call start past i) ∧
      P (call (after call start past i) c) := by
  induction run with
  | nil => exact absurd h h0
  | cons c past ih =>
    by_cases hpast : P (after call start past i)
    · obtain ⟨c', past', hrun, hnew⟩ := ih hpast
      exact ⟨c', past', hrun.trans (List.suffix_cons _ _), hnew⟩
    · by_cases hc : c.1 = i
      · subst hc
        rw [after_cons_self] at h
        exact ⟨c.2, past, List.suffix_refl _, hpast, h⟩
      · rw [after_cons_of_ne hc] at h
        exact absurd h hpast

/-! ## Messages -/

variable {Sends : ι → σ → μ → Prop} {Hears : κ → μ → Prop}

/-- Whatever is heard has been sent. -/
def Honest (call : σ → κ → σ) (start : ι → σ) (Sends : ι → σ → μ → Prop) (Hears : κ → μ → Prop)
    (run : List (ι × κ)) : Prop :=
  ∀ i c past m, (i, c) :: past <:+ run → Hears c m → ∃ j, Sends j (after call start past j) m

theorem honest_nil : Honest call start Sends Hears [] := fun _ _ _ _ h =>
  absurd (List.suffix_nil.mp h) (List.cons_ne_nil _ _)

theorem honest_cons_iff {c : ι × κ} {past : List (ι × κ)} :
    Honest call start Sends Hears (c :: past) ↔
      (∀ m, Hears c.2 m → ∃ j, Sends j (after call start past j) m) ∧
        Honest call start Sends Hears past := by
  constructor
  · exact fun h => ⟨fun m => h c.1 c.2 past m (List.suffix_refl _), fun i c' past' m hrun =>
      h i c' past' m (hrun.trans (List.suffix_cons _ _))⟩
  · rintro ⟨h, hpast⟩ i c' past' m hrun
    rcases List.suffix_cons_iff.mp hrun with heq | hrun
    · obtain ⟨rfl, rfl⟩ := List.cons.inj heq
      exact h m
    · exact hpast i c' past' m hrun

/-- In an honest run, what can only be learnt from a message goes back to a call in which the message
was sent. -/
theorem Honest.exists_origin (h : Honest call start Sends Hears run)
    (hstart : ∀ j m, ¬ Sends j (start j) m) {P : σ → Prop} {R : κ → μ → Prop} (h0 : ¬ P (start i))
    (hlearns : ∀ s c, ¬ P s → P (call s c) → ∃ m, Hears c m ∧ R c m)
    (hP : P (after call start run i)) :
    ∃ c m, (i, c) ∈ run ∧ Hears c m ∧ R c m ∧ ∃ j c' past, (j, c') :: past <:+ run ∧
      ¬ Sends j (after call start past j) m ∧ Sends j (call (after call start past j) c') m := by
  obtain ⟨c, past, hrun, hnot, hnow⟩ := exists_call h0 hP
  obtain ⟨m, hm, hr⟩ := hlearns _ c hnot hnow
  obtain ⟨j, hsends⟩ := h i c past m hrun hm
  obtain ⟨c', past', hrun', hnew⟩ := exists_call (P := (Sends j · m)) (hstart j m) hsends
  exact ⟨c, m, hrun.subset List.mem_cons_self, hm, hr, j, c', past',
    hrun'.trans ((List.suffix_cons _ _).trans hrun), hnew⟩

end Network
