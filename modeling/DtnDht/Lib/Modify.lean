import Mathlib.Data.List.Basic
import Mathlib.Data.List.Nodup

/-!
# Writing to one place of a list

`List.modify` models a write through a pointer to an element.
-/

namespace List

variable {α β : Type*} {f : α → α} {g : α → β} {l : List α} {i : ℕ}

theorem modify_append_cons (f : α → α) (pre : List α) (b : α) (post : List α) :
    (pre ++ b :: post).modify pre.length f = pre ++ f b :: post := by
  induction pre with
  | nil => rfl
  | cons a pre ih =>
    rw [List.cons_append, List.length_cons, List.modify_succ_cons, ih, List.cons_append]

/-- A write under `g`. -/
theorem map_modify_of_comm {f' : β → β} (h : ∀ x ∈ l, g (f x) = f' (g x)) :
    (l.modify i f).map g = (l.map g).modify i f' := by
  induction l generalizing i with
  | nil => rw [modify_nil, map_nil, modify_nil]
  | cons a l ih =>
    cases i with
    | zero =>
      rw [modify_zero_cons, map_cons, map_cons, modify_zero_cons, h a mem_cons_self]
    | succ i =>
      rw [modify_succ_cons, map_cons, map_cons, modify_succ_cons,
        ih fun x hx => h x (mem_cons_of_mem a hx)]

/-- A write that `g` does not see. -/
theorem map_modify_of_eq (h : ∀ x ∈ l, g (f x) = g x) : (l.modify i f).map g = l.map g := by
  have hcomm : (l.modify i f).map g = (l.map g).modify i id := map_modify_of_comm h
  rw [hcomm, modify_id]

/-- A write that leaves the same value for `g` whatever stood there. -/
theorem map_modify_eq_set {c : β} (h : ∀ x, g (f x) = c) :
    (l.modify i f).map g = (l.map g).set i c := by
  induction l generalizing i with
  | nil => rw [modify_nil, map_nil, set_nil]
  | cons a l ih =>
    cases i with
    | zero => rw [modify_zero_cons, map_cons, map_cons, h, set_cons_zero]
    | succ i => rw [modify_succ_cons, map_cons, map_cons, ih, set_cons_succ]

/-- A write that is overwritten. -/
theorem set_map_modify (f : α → α) (g : α → β) (l : List α) (i : ℕ) (c : β) :
    ((l.modify i f).map g).set i c = (l.map g).set i c := by
  induction l generalizing i with
  | nil => rw [modify_nil]
  | cons a l ih =>
    cases i with
    | zero => rw [modify_zero_cons, map_cons, map_cons, set_cons_zero, set_cons_zero]
    | succ i => rw [modify_succ_cons, map_cons, map_cons, set_cons_succ, set_cons_succ, ih]

theorem set_modify (f : α → α) (l : List α) (i : ℕ) (c : α) :
    (l.modify i f).set i c = l.set i c := by
  simpa using set_map_modify f id l i c

/-- An element is replaced by one that is the same for `g`. -/
theorem map_set_of_eq {a b : α} (hi : l[i]? = some a) (h : g b = g a) :
    (l.set i b).map g = l.map g := by
  obtain ⟨hlt, rfl⟩ := getElem?_eq_some_iff.mp hi
  rw [map_set, h, ← getElem_map g]
  exact set_getElem_self (by rwa [length_map])

theorem forall_mem_modify {p : α → Prop} (h : ∀ x ∈ l, p x) (hf : ∀ x ∈ l, p x → p (f x)) :
    ∀ x ∈ l.modify i f, p x := by
  induction l generalizing i with
  | nil => rwa [modify_nil]
  | cons a l ih =>
    have ht : ∀ x ∈ l, p x := fun x hx => h x (mem_cons_of_mem a hx)
    cases i with
    | zero =>
      rw [modify_zero_cons, forall_mem_cons]
      exact ⟨hf a mem_cons_self (h a mem_cons_self), ht⟩
    | succ i =>
      rw [modify_succ_cons, forall_mem_cons]
      exact ⟨h a mem_cons_self, ih ht fun x hx => hf x (mem_cons_of_mem a hx)⟩

/-- What is in a list after a write: what was written, and what stood in other places. -/
theorem mem_modify_iff {x : α} :
    x ∈ l.modify i f ↔ (∃ a, l[i]? = some a ∧ f a = x) ∨ ∃ k, k ≠ i ∧ l[k]? = some x := by
  rw [mem_iff_getElem?]
  constructor
  · rintro ⟨k, hk⟩
    by_cases hki : i = k
    · subst hki
      rw [getElem?_modify_eq] at hk
      exact Or.inl (Option.map_eq_some_iff.mp hk)
    · rw [getElem?_modify_ne _ _ hki] at hk
      exact Or.inr ⟨k, Ne.symm hki, hk⟩
  · rintro (⟨a, ha, rfl⟩ | ⟨k, hki, hk⟩)
    · refine ⟨i, ?_⟩
      rw [getElem?_modify_eq, ha]
      rfl
    · exact ⟨k, by rw [getElem?_modify_ne _ _ hki.symm, hk]⟩

/-- A search after a write that does not change which elements match. -/
theorem find?_modify {p : α → Bool} (hf : ∀ a, p (f a) = p a) (l : List α) (i : ℕ) :
    (l.modify i f).find? p =
      if l.findIdx? p = some i then (l.find? p).map f else l.find? p := by
  induction l generalizing i with
  | nil => rw [modify_nil]; rfl
  | cons a l ih =>
    rw [findIdx?_cons]
    cases ha : p a with
    | true =>
      have hfa : p (f a) = true := (hf a).trans ha
      cases i with
      | zero =>
        rw [modify_zero_cons, find?_cons_of_pos hfa, find?_cons_of_pos ha]
        rfl
      | succ i =>
        rw [modify_succ_cons, find?_cons_of_pos ha, find?_cons_of_pos ha]
        rfl
    | false =>
      have hne : ¬ p a = true := Bool.eq_false_iff.mp ha
      cases i with
      | zero =>
        have hfa : ¬ p (f a) = true := by rwa [hf a]
        have hno : ¬ (l.findIdx? p).map (· + 1) = some 0 := by
          cases l.findIdx? p <;> simp
        rw [modify_zero_cons, find?_cons_of_neg hfa, find?_cons_of_neg hne]
        exact (if_neg hno).symm
      | succ i =>
        have hiff : (l.findIdx? p).map (· + 1) = some (i + 1) ↔ l.findIdx? p = some i := by
          cases l.findIdx? p <;> simp
        rw [modify_succ_cons, find?_cons_of_neg hne, find?_cons_of_neg hne, ih]
        simp only [Bool.false_eq_true, if_false, hiff]

end List
