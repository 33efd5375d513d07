import Mathlib.Data.List.Nodup

/-!
# Registries

A registry is a list to which elements are added, unless they are there, and from which they are
removed. After any history no element is listed twice, and an element is listed if and only if it
was added and not removed since (`mem_run_iff`). A history is a list of operations, the latest
first.
-/

namespace Registry

variable {α : Type*} [BEq α] [LawfulBEq α]

/-- What is done to a registry. -/
inductive Op (α : Type*) where
  | add (a : α)
  | remove (a : α)

/-- A registry after an operation. -/
def apply (s : List α) : Op α → List α
  | .add a => if a ∈ s then s else a :: s
  | .remove a => s.erase a

/-- A registry after a history. -/
def run (past : List (Op α)) : List α := past.foldr (fun op s => apply s op) []

/-- The element was added and not removed since. -/
def Added (past : List (Op α)) (a : α) : Prop :=
  ∃ later earlier, past = later ++ .add a :: earlier ∧ .remove a ∉ later

omit [BEq α] [LawfulBEq α] in
/-- Only an operation on the element itself matters. -/
theorem added_cons_iff {op : Op α} {past : List (Op α)} {a : α} :
    Added (op :: past) a ↔ op = .add a ∨ (op ≠ .remove a ∧ Added past a) := by
  constructor
  · rintro ⟨later, earlier, hp, hr⟩
    obtain ⟨rfl, h⟩ | ⟨later, rfl, rfl⟩ := List.cons_eq_append_iff.mp hp
    · exact Or.inl (List.cons.inj h).1.symm
    · rw [List.mem_cons, not_or] at hr
      exact Or.inr ⟨Ne.symm hr.1, later, earlier, rfl, hr.2⟩
  · rintro (rfl | ⟨hne, later, earlier, rfl, hr⟩)
    · exact ⟨[], past, rfl, List.not_mem_nil⟩
    · refine ⟨op :: later, earlier, rfl, ?_⟩
      rw [List.mem_cons, not_or]
      exact ⟨hne.symm, hr⟩

theorem nodup_apply {s : List α} (h : s.Nodup) (op : Op α) : (apply s op).Nodup := by
  cases op with
  | add a =>
    rw [apply]
    split_ifs with ha
    · exact h
    · exact List.nodup_cons.mpr ⟨ha, h⟩
  | remove a => exact h.erase a

theorem mem_apply_iff {s : List α} (h : s.Nodup) {op : Op α} {a : α} :
    a ∈ apply s op ↔ op = .add a ∨ (op ≠ .remove a ∧ a ∈ s) := by
  cases op with
  | add b =>
    rw [apply, Op.add.injEq]
    split_ifs with hb
    · constructor
      · exact fun ha => Or.inr ⟨by simp, ha⟩
      · rintro (rfl | ⟨-, ha⟩)
        · exact hb
        · exact ha
    · rw [List.mem_cons, eq_comm]
      simp
  | remove b =>
    rw [apply, h.mem_erase_iff]
    simp [eq_comm]

/-- No element is listed twice. -/
theorem nodup_run (past : List (Op α)) : (run past).Nodup := by
  induction past with
  | nil => exact List.nodup_nil
  | cons op past ih => exact nodup_apply ih op

/-- **An element is listed if and only if it was added and not removed since.** -/
theorem mem_run_iff {past : List (Op α)} {a : α} : a ∈ run past ↔ Added past a := by
  induction past with
  | nil =>
    refine iff_of_false List.not_mem_nil ?_
    rintro ⟨later, earlier, hp, -⟩
    exact absurd hp (by simp)
  | cons op past ih =>
    have h : a ∈ run (op :: past) ↔ op = .add a ∨ (op ≠ .remove a ∧ a ∈ run past) :=
      mem_apply_iff (nodup_run past)
    rw [h, ih, added_cons_iff]

end Registry
