import Mathlib.Data.Finset.Sort

/-!
# The `c` least of what is offered

A list kept sorted by a key takes a new element in its place, drops it when its key is there
already, and forgets what comes behind the first `c` places. What it holds after any number of
elements depends on the set of their keys alone: it is the `c` least of them (`foldl_ins`).
-/

namespace Closest

variable {α β : Type*} [LinearOrder β] {k x : β} {l : List β} {c : ℕ}

/-! ## One key -/

/-- Put a key in its place; a key that is there already stays. -/
def ins (k : β) : List β → List β
  | [] => [k]
  | m :: l => if k = m then m :: l else if k < m then k :: m :: l else m :: ins k l

theorem mem_ins : x ∈ ins k l ↔ x = k ∨ x ∈ l := by
  induction l with
  | nil => simp [ins]
  | cons m l ih =>
    unfold ins
    split_ifs with h1 h2
    · subst h1
      simp only [List.mem_cons, or_self_left]
    · simp only [List.mem_cons]
    · rw [List.mem_cons, ih, List.mem_cons]
      exact or_left_comm

theorem pairwise_ins (h : l.Pairwise (· < ·)) : (ins k l).Pairwise (· < ·) := by
  induction l with
  | nil => exact List.pairwise_singleton _ k
  | cons m l ih =>
    obtain ⟨hm, hl⟩ := List.pairwise_cons.mp h
    unfold ins
    split_ifs with h1 h2
    · exact h
    · refine List.pairwise_cons.mpr ⟨fun x hx => ?_, h⟩
      rcases List.mem_cons.mp hx with rfl | hx
      · exact h2
      · exact h2.trans (hm x hx)
    · refine List.pairwise_cons.mpr ⟨fun x hx => ?_, ih hl⟩
      rcases mem_ins.mp hx with rfl | hx
      · exact lt_of_le_of_ne (not_lt.mp h2) (Ne.symm h1)
      · exact hm x hx

/-- What is behind the first `c` places does not matter to what comes to stand there. -/
theorem take_ins_take : (ins k (l.take c)).take c = (ins k l).take c := by
  induction l generalizing c with
  | nil => rw [List.take_nil]
  | cons m l ih =>
    cases c with
    | zero => rfl
    | succ c =>
      rw [List.take_succ_cons]
      unfold ins
      split_ifs with h1 h2
      · rw [List.take_succ_cons, List.take_succ_cons, List.take_take, min_self]
      · cases c with
        | zero => rfl
        | succ c => simp [List.take_take]
      · rw [List.take_succ_cons, List.take_succ_cons, ih]

/-! ## Sets of keys -/

/-- The `c` least keys of a set, in order. -/
def least (c : ℕ) (s : Finset β) : List β := s.sort.take c

/-- A strictly increasing list is the sorted list of its elements. -/
theorem eq_sort {s : Finset β} (hl : l.Pairwise (· < ·)) (h : ∀ x, x ∈ l ↔ x ∈ s) :
    l = s.sort := by
  have hs : s = l.toFinset := by
    ext x
    rw [List.mem_toFinset, h]
  subst hs
  exact ((List.toFinset_sort (· ≤ ·) hl.nodup).mpr (hl.imp le_of_lt)).symm

theorem ins_sort (s : Finset β) : ins k s.sort = (insert k s).sort := by
  apply eq_sort (pairwise_ins s.sortedLT_sort.pairwise)
  intro x
  rw [mem_ins, Finset.mem_sort, Finset.mem_insert]

theorem take_ins_least (s : Finset β) : (ins k (least c s)).take c = least c (insert k s) := by
  unfold least
  rw [take_ins_take, ins_sort]

/-- **Any number of keys, in any order**: what is kept are the `c` least of them. -/
theorem foldl_ins (ks : List β) (s : Finset β) :
    ks.foldl (fun l k => (ins k l).take c) (least c s) = least c (ks.toFinset ∪ s) := by
  induction ks generalizing s with
  | nil => simp
  | cons k ks ih =>
    rw [List.foldl_cons, take_ins_least, ih, List.toFinset_cons, Finset.insert_union,
      Finset.union_insert]

theorem least_empty : least c (∅ : Finset β) = [] := by
  unfold least
  rw [Finset.sort_empty, List.take_nil]

theorem pairwise_least (s : Finset β) : (least c s).Pairwise (· < ·) :=
  s.sortedLT_sort.pairwise.sublist (List.take_sublist c _)

theorem length_least (s : Finset β) : (least c s).length = min c s.card := by
  unfold least
  rw [List.length_take, Finset.length_sort]

/-- A key of the set that is not kept is beyond all that are. -/
theorem lt_of_not_mem_least {s : Finset β} {y : β} (hx : x ∈ s) (hx' : x ∉ least c s)
    (hy : y ∈ least c s) : y < x := by
  have hsort : x ∈ s.sort.take c ++ s.sort.drop c := by
    rw [List.take_append_drop]
    exact (Finset.mem_sort _).mpr hx
  have hp : (s.sort.take c ++ s.sort.drop c).Pairwise (· < ·) := by
    rw [List.take_append_drop]
    exact s.sortedLT_sort.pairwise
  exact (List.pairwise_append.mp hp).2.2 y hy x ((List.mem_append.mp hsort).resolve_left hx')

/-! ## Elements with a key -/

/-- `kept` lists the `c` elements of least key among those offered, by increasing key. -/
structure Selects (key : α → β) (c : ℕ) (offered kept : List α) : Prop where
  increasing : kept.Pairwise fun a b => key a < key b
  mem_offered : ∀ a ∈ kept, a ∈ offered
  length_kept : kept.length = min c (offered.map key).toFinset.card
  least : ∀ a ∈ offered, (∃ b ∈ kept, key b = key a) ∨ ∀ b ∈ kept, key b < key a

variable {key : α → β} {offered kept : List α}

theorem selects_of_map_eq (h : kept.map key = Closest.least c (offered.map key).toFinset)
    (hmem : ∀ a ∈ kept, a ∈ offered) : Selects key c offered kept where
  increasing := by
    have hp := pairwise_least (c := c) (offered.map key).toFinset
    rw [← h, List.pairwise_map] at hp
    exact hp
  mem_offered := hmem
  length_kept := by
    rw [← length_least, ← h, List.length_map]
  least a ha := by
    have hin : key a ∈ (offered.map key).toFinset :=
      List.mem_toFinset.mpr (List.mem_map_of_mem ha)
    by_cases hk : key a ∈ kept.map key
    · exact Or.inl (List.mem_map.mp hk)
    · rw [h] at hk
      refine Or.inr fun b hb => lt_of_not_mem_least hin hk ?_
      rw [← h]
      exact List.mem_map_of_mem hb

/-- Keys that tell elements apart are as many as these. -/
theorem card_map_key [DecidableEq α] (hinj : Function.Injective key) :
    (offered.map key).toFinset.card = offered.toFinset.card := by
  have himage : (offered.map key).toFinset = offered.toFinset.image key := by
    ext k
    simp only [List.mem_toFinset, List.mem_map, Finset.mem_image]
  rw [himage, Finset.card_image_of_injective _ hinj]

omit [LinearOrder β] in
/-- Elements told apart by their keys are listed in one way only. -/
theorem eq_of_map_eq {kept' : List α} (hinj : ∀ a ∈ kept, ∀ b ∈ kept', key a = key b → a = b)
    (h : kept.map key = kept'.map key) : kept = kept' := by
  induction kept generalizing kept' with
  | nil => exact (List.map_eq_nil_iff.mp h.symm).symm
  | cons a kept ih =>
    cases kept' with
    | nil => exact absurd h (List.cons_ne_nil _ _)
    | cons b kept' =>
      rw [List.map_cons, List.map_cons, List.cons.injEq] at h
      rw [hinj a List.mem_cons_self b List.mem_cons_self h.1,
        ih (fun a ha b hb => hinj a (List.mem_cons_of_mem _ ha) b (List.mem_cons_of_mem _ hb)) h.2]

end Closest
