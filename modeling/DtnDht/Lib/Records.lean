import DtnDht.Lib.Occurrence
import Mathlib.Data.List.DropRight

/-!
# Fixed-length records and a separator of one repeated element

A file of records of one length needs no delimiters: the `i`-th record is read back from its
place (`map_range_flatten`). When the records end at the first run of `m` copies of an element `z`,
that run starts earlier than the separator by as many `z` as the last record ends in
(`findInfix_replicate`).
-/

namespace Records

open Occurrence

variable {α : Type*} {rs : List (List α)} {n m i : ℕ}

/-! ## Records -/

theorem length_flatten (h : ∀ r ∈ rs, r.length = n) : rs.flatten.length = rs.length * n := by
  induction rs with
  | nil => simp
  | cons r rs ih =>
    rw [List.flatten_cons, List.length_append, h r List.mem_cons_self,
      ih fun r' hr' => h r' (List.mem_cons_of_mem r hr'), List.length_cons, Nat.add_one_mul,
      Nat.add_comm]

/-- The records behind the first `i`. -/
theorem drop_flatten (h : ∀ r ∈ rs, r.length = n) (hi : i ≤ rs.length) :
    rs.flatten.drop (n * i) = (rs.drop i).flatten := by
  induction i generalizing rs with
  | zero => simp
  | succ i ih =>
    cases rs with
    | nil => exact absurd hi (by simp)
    | cons r rs =>
      have hr := h r List.mem_cons_self
      rw [List.flatten_cons, Nat.mul_succ, Nat.add_comm (n * i), ← List.drop_drop,
        List.drop_left' hr, List.drop_succ_cons]
      exact ih (fun r' hr' => h r' (List.mem_cons_of_mem r hr')) (Nat.le_of_succ_le_succ hi)

/-- Reading the records off one after the other gives them back. -/
theorem map_range_flatten {β : Type*} (f : List α → β) (h : ∀ r ∈ rs, r.length = n)
    (tail : List α) :
    (List.range rs.length).map (fun i => f (((rs.flatten ++ tail).drop (n * i)).take n)) =
      rs.map f := by
  apply List.ext_getElem
  · simp
  intro i h1 h2
  have hi : i < rs.length := by simpa using h2
  have hlen : (rs.flatten).length = rs.length * n := length_flatten h
  have hle : n * i ≤ rs.flatten.length := by
    rw [hlen, Nat.mul_comm]
    exact Nat.mul_le_mul_right n hi.le
  rw [List.getElem_map, List.getElem_map, List.getElem_range, List.drop_append_of_le_length hle,
    drop_flatten h hi.le, List.drop_eq_getElem_cons hi, List.flatten_cons, List.append_assoc,
    List.take_left' (h _ (List.getElem_mem hi))]

/-- A run of `z` shorter than a record is all that fits between the heads of two. -/
theorem not_replicate_infix {z : α} (h : ∀ r ∈ rs, r.length = n) (hz : ∀ r ∈ rs, r.head? ≠ some z)
    (hn : 0 < n) (hm : 2 * n ≤ m) : ¬ List.replicate m z <:+: rs.flatten := by
  rintro ⟨s, t, he⟩
  -- the head of the first record that starts inside the run
  obtain ⟨k, hk1, hk2⟩ : ∃ k, s.length ≤ n * k ∧ n * k < s.length + n := by
    refine ⟨(s.length + n - 1) / n, ?_, ?_⟩
    · have := Nat.div_add_mod (s.length + n - 1) n
      have := Nat.mod_lt (s.length + n - 1) hn
      omega
    · have := Nat.div_mul_le_self (s.length + n - 1) n
      rw [Nat.mul_comm] at this
      omega
  have hlen := congrArg List.length he
  rw [List.length_append, List.length_append, List.length_replicate, length_flatten h] at hlen
  have hk : k < rs.length := by
    by_contra hge
    have := Nat.mul_le_mul_left n (not_lt.mp hge)
    rw [Nat.mul_comm n rs.length] at this
    omega
  have hhead : (rs.flatten.drop (n * k)).head? = some z := by
    rw [List.head?_drop, ← he, List.append_assoc, List.getElem?_append_right hk1,
      List.getElem?_append_left (by rw [List.length_replicate]; omega),
      List.getElem?_replicate_of_lt (by omega)]
  rw [drop_flatten h hk.le, List.drop_eq_getElem_cons hk, List.flatten_cons] at hhead
  have hne : rs[k] ≠ [] := by
    intro h0
    have := h _ (List.getElem_mem hk)
    rw [h0] at this
    exact hn.ne this
  rw [List.head?_append_of_ne_nil _ hne] at hhead
  exact hz _ (List.getElem_mem hk) hhead

/-! ## The separator -/

/-- The first run of `m` copies of `z` starts where the copies of `z` start that end `a`. -/
theorem findInfix_replicate [DecidableEq α] {z : α} {a b : List α}
    (ha : ¬ List.replicate m z <:+: a) :
    findInfix (List.replicate m z) (a ++ List.replicate m z ++ b) =
      some (a.rdropWhile (· = z)).length := by
  obtain ⟨t, ht⟩ : ∃ t, a = a.rdropWhile (· = z) ++ List.replicate t z := by
    refine ⟨(a.rtakeWhile (· = z)).length, ?_⟩
    have hz : a.rtakeWhile (· = z) = List.replicate (a.rtakeWhile (· = z)).length z :=
      List.eq_replicate_of_mem fun x hx => by simpa using List.mem_rtakeWhile_imp hx
    rw [← hz, List.rdropWhile_append_rtakeWhile]
  generalize hc : a.rdropWhile (· = z) = c at ht
  have hlast : ∀ h : c ≠ [], c.getLast h ≠ z := by
    subst hc
    intro h
    simpa using List.rdropWhile_last_not _ a h
  subst ht
  refine findInfix_eq_some_iff.mpr ⟨by simp only [List.length_append]; omega, ?_, fun j hj h => ?_⟩
  · rw [List.append_assoc, List.append_assoc, List.drop_left, ← List.append_assoc,
      List.replicate_append_replicate, Nat.add_comm, ← List.replicate_append_replicate,
      List.append_assoc]
    exact List.prefix_append _ _
  · by_cases hle : j + m ≤ (c ++ List.replicate t z).length
    · refine ha (infix_of_prefix_drop (i := j) ?_)
      rw [List.append_assoc] at h
      exact prefix_drop_of_add_length_le (by rwa [List.length_replicate]) h
    · -- the run covers the last element of `c`
      have hne : c ≠ [] := List.ne_nil_of_length_pos (by omega)
      apply hlast hne
      rw [List.length_append, List.length_replicate] at hle
      have hidx : c.length - 1 - j < (List.replicate m z).length := by
        rw [List.length_replicate]; omega
      have h1 := h.getElem hidx
      rw [List.getElem_drop, List.getElem_replicate] at h1
      rw [List.getLast_eq_getElem, h1]
      simp only [List.append_assoc]
      rw [List.getElem_append_left]
      · congr 1
        omega
      · omega

end Records
