import Mathlib.Data.List.Infix
import Mathlib.Data.List.TakeDrop
import Mathlib.Tactic

/-!
# First occurrences of a pattern in a list

`findInfix pat l` is the position of the first occurrence of `pat` in `l`. A pattern is
`Unbordered` when no proper nonempty prefix of it is also a suffix: two occurrences of such a
pattern never overlap, so an occurrence in `a ++ pat ++ b` that starts inside `a` already lies
inside `a` (`findInfix_append_of_unbordered`).
-/

namespace Occurrence

variable {α : Type*}

/-! ## Patterns without borders -/

/-- A prefix of a dropped list is an occurrence. -/
theorem infix_of_prefix_drop {pat l : List α} {i : ℕ} (h : pat <+: l.drop i) : pat <:+: l :=
  h.isInfix.trans (List.drop_suffix i l).isInfix

/-- No proper nonempty prefix of `pat` is also a suffix of it. -/
def Unbordered (pat : List α) : Prop :=
  ∀ k < pat.length, 0 < k → pat.drop k ≠ pat.take (pat.length - k)

/-- An occurrence of an unbordered pattern that starts before another one ends before it. -/
theorem Unbordered.add_length_le {pat a b : List α} (hp : Unbordered pat) {i : ℕ}
    (hi : i < a.length) (h : pat <+: (a ++ pat ++ b).drop i) : i + pat.length ≤ a.length := by
  by_contra hlt
  obtain ⟨r, hr⟩ := h
  have hd : (a ++ pat ++ b).drop i = a.drop i ++ (pat ++ b) := by
    rw [List.append_assoc, List.drop_append_of_le_length hi.le]
  rw [hd] at hr
  have hk : (a.drop i).length = a.length - i := List.length_drop
  refine hp (a.length - i) (by omega) (by omega) ?_
  have h1 : (pat ++ r).drop (a.length - i) = pat ++ b := by
    rw [hr, ← hk, List.drop_left]
  rw [List.drop_append_of_le_length (by omega)] at h1
  have h2 := congrArg (List.take (pat.length - (a.length - i))) h1
  rw [List.take_append_of_le_length (by rw [List.length_drop]),
    List.take_append_of_le_length (by omega),
    List.take_of_length_le (by rw [List.length_drop])] at h2
  exact h2

/-- An occurrence that ends inside `a` is an occurrence in `a`. -/
theorem prefix_drop_of_add_length_le {pat a b : List α} {i : ℕ} (hi : i + pat.length ≤ a.length)
    (h : pat <+: (a ++ b).drop i) : pat <+: a.drop i := by
  rw [List.drop_append_of_le_length (by omega)] at h
  exact List.prefix_of_prefix_length_le h (List.prefix_append _ _)
    (by rw [List.length_drop]; omega)

/-- A list shorter than the pattern holds no occurrence. -/
theorem not_infix_of_length_lt {pat l : List α} (h : l.length < pat.length) : ¬ pat <:+: l :=
  fun hi => absurd hi.length_le (by omega)

/-! ## The first occurrence -/

variable [DecidableEq α]

instance (pat : List α) : Decidable (Unbordered pat) := by
  unfold Unbordered; infer_instance

/-- The position of the first occurrence of `pat` in `l`. -/
def findInfix (pat : List α) : List α → Option ℕ
  | [] => if pat.isPrefixOf [] then some 0 else none
  | x :: l => if pat.isPrefixOf (x :: l) then some 0 else (findInfix pat l).map (· + 1)

theorem findInfix_eq_zero {pat l : List α} (h : pat <+: l) : findInfix pat l = some 0 := by
  cases l <;> simp [findInfix, List.isPrefixOf_iff_prefix.mpr h]

theorem findInfix_cons_eq_map {pat l : List α} {x : α} (h : ¬ pat <+: x :: l) :
    findInfix pat (x :: l) = (findInfix pat l).map (· + 1) := by
  have hb : pat.isPrefixOf (x :: l) = false := by
    rwa [Bool.eq_false_iff, ne_eq, List.isPrefixOf_iff_prefix]
  simp [findInfix, hb]

/-- The reported position is an occurrence, and no earlier position is one. -/
theorem findInfix_eq_some_iff {pat l : List α} {i : ℕ} :
    findInfix pat l = some i ↔
      i ≤ l.length ∧ pat <+: l.drop i ∧ ∀ j < i, ¬ pat <+: l.drop j := by
  induction l generalizing i with
  | nil =>
    by_cases h : pat = []
    · subst h
      rw [findInfix_eq_zero List.nil_prefix, Option.some_inj]
      constructor
      · rintro rfl
        exact ⟨le_rfl, List.nil_prefix, fun j hj => absurd hj (Nat.not_lt_zero j)⟩
      · rintro ⟨hi, -, -⟩
        exact (Nat.le_zero.mp hi).symm
    · simp [findInfix, h]
  | cons x l ih =>
    by_cases h : pat <+: x :: l
    · rw [findInfix_eq_zero h, Option.some_inj]
      constructor
      · rintro rfl
        exact ⟨Nat.zero_le _, h, fun j hj => absurd hj (Nat.not_lt_zero j)⟩
      · rintro ⟨-, -, hmin⟩
        by_contra hne
        exact hmin 0 (Nat.pos_of_ne_zero (Ne.symm hne)) h
    · rw [findInfix_cons_eq_map h, Option.map_eq_some_iff]
      constructor
      · rintro ⟨k, hk, rfl⟩
        obtain ⟨hle, hpre, hmin⟩ := ih.mp hk
        refine ⟨Nat.succ_le_succ hle, hpre, fun j hj => ?_⟩
        cases j with
        | zero => exact h
        | succ j => exact hmin j (Nat.lt_of_succ_lt_succ hj)
      · rintro ⟨hle, hpre, hmin⟩
        cases i with
        | zero => exact absurd hpre h
        | succ i =>
          exact ⟨i, ih.mpr ⟨Nat.le_of_succ_le_succ hle, hpre,
            fun j hj => hmin (j + 1) (Nat.succ_lt_succ hj)⟩, rfl⟩

theorem findInfix_eq_none_iff {pat l : List α} : findInfix pat l = none ↔ ¬ pat <:+: l := by
  induction l with
  | nil => by_cases h : pat = [] <;> simp [findInfix, h]
  | cons x l ih =>
    by_cases h : pat <+: x :: l
    · simp [findInfix_eq_zero h, h.isInfix]
    · rw [findInfix_cons_eq_map h, Option.map_eq_none_iff, ih, List.infix_cons_iff]
      simp [h]

/-- The first occurrence in `a ++ pat ++ b` is the one shown when `a` holds none. -/
theorem findInfix_append_of_unbordered {pat a b : List α} (hp : Unbordered pat)
    (ha : ¬ pat <:+: a) : findInfix pat (a ++ pat ++ b) = some a.length := by
  refine findInfix_eq_some_iff.mpr ⟨by simp only [List.length_append]; omega, ?_, fun j hj h => ?_⟩
  · rw [List.append_assoc, List.drop_left]
    exact List.prefix_append _ _
  · refine ha (infix_of_prefix_drop (i := j) ?_)
    rw [List.append_assoc] at h
    exact prefix_drop_of_add_length_le (hp.add_length_le hj (by rwa [List.append_assoc])) h

/-- A first occurrence inside `a` is the first occurrence in `a ++ b`. -/
theorem findInfix_append_left {pat a b : List α} {i : ℕ} (h : findInfix pat a = some i) :
    findInfix pat (a ++ b) = some i := by
  obtain ⟨hle, hpre, hmin⟩ := findInfix_eq_some_iff.mp h
  refine findInfix_eq_some_iff.mpr
    ⟨by simp only [List.length_append]; omega, ?_, fun j hj hj' => ?_⟩
  · rw [List.drop_append_of_le_length hle]
    exact hpre.trans (List.prefix_append _ _)
  · have hlen := hpre.length_le
    rw [List.length_drop] at hlen
    exact hmin j hj (prefix_drop_of_add_length_le (by omega) hj')

/-- A part that does not hold the first element of the pattern is skipped. -/
theorem findInfix_append_of_head_not_mem {c : α} {pat a : List α} (l : List α) (h : c ∉ a) :
    findInfix (c :: pat) (a ++ l) = (findInfix (c :: pat) l).map (a.length + ·) := by
  induction a with
  | nil => simp
  | cons x a ih =>
    obtain ⟨hx, ha⟩ := not_or.mp (List.mem_cons.not.mp h)
    have hne : ¬ c :: pat <+: x :: (a ++ l) := fun hp => hx (List.cons_prefix_cons.mp hp).1
    rw [List.cons_append, findInfix_cons_eq_map hne, ih ha, Option.map_map]
    congr 1
    funext i
    simp only [Function.comp, List.length_cons]
    omega

end Occurrence
