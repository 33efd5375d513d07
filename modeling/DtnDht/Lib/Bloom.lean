import Mathlib.Data.BitVec
import Mathlib.Tactic.Common

/-!
# Bloom filters

A filter is a vector of `m` bits. Each of the hash functions picks a bit of a key; adding a key
sets its bits, and a key is reported when all of them are set. What was added is reported
(`check_add`): the filter errs on one side only.
-/

namespace Bloom

variable {κ : Type*} {m : ℕ}

/-- Set the bits `f s % m`. -/
def add (funcs : List (κ → ℕ)) (a : BitVec m) (s : κ) : BitVec m :=
  funcs.foldl (fun a f => a ||| BitVec.twoPow m (f s % m)) a

/-- Are all the bits `f s % m` set? -/
def check (funcs : List (κ → ℕ)) (a : BitVec m) (s : κ) : Bool :=
  funcs.all fun f => a.getLsbD (f s % m)

variable {funcs : List (κ → ℕ)} {a : BitVec m} {s : κ}

/-- The bits that are set after adding a key. -/
theorem getLsbD_add (hm : 0 < m) {i : ℕ} :
    (add funcs a s).getLsbD i = true ↔ a.getLsbD i = true ∨ ∃ f ∈ funcs, f s % m = i := by
  unfold add
  induction funcs generalizing a with
  | nil => simp
  | cons f funcs ih =>
    have hlt : f s % m < m := Nat.mod_lt _ hm
    rw [List.foldl_cons, ih, BitVec.getLsbD_or, BitVec.getLsbD_twoPow, Bool.or_eq_true,
      Bool.and_eq_true, decide_eq_true_iff, decide_eq_true_iff, List.exists_mem_cons_iff]
    constructor
    · rintro ((h | ⟨-, h⟩) | h)
      · exact Or.inl h
      · exact Or.inr (Or.inl h)
      · exact Or.inr (Or.inr h)
    · rintro (h | h | h)
      · exact Or.inl (Or.inl h)
      · exact Or.inl (Or.inr ⟨hlt, h⟩)
      · exact Or.inr h

/-- A key that was added is reported. -/
theorem check_add (hm : 0 < m) : check funcs (add funcs a s) s = true := by
  refine List.all_eq_true.mpr fun f hf => ?_
  exact (getLsbD_add hm).mpr (Or.inr ⟨f, hf, rfl⟩)

/-- A key that is reported is still reported after another one is added. -/
theorem check_add_of_check (hm : 0 < m) (h : check funcs a s = true) (s' : κ) :
    check funcs (add funcs a s') s = true := by
  refine List.all_eq_true.mpr fun f hf => ?_
  exact (getLsbD_add hm).mpr (Or.inl (List.all_eq_true.mp h f hf))

/-- A key that is not reported is none of those that are. -/
theorem not_mem_of_check_eq_false {keys : List κ} (hkeys : ∀ k ∈ keys, check funcs a k = true)
    (h : check funcs a s = false) : s ∉ keys := by
  intro hin
  rw [hkeys s hin] at h
  exact Bool.false_ne_true h.symm

end Bloom
