import Mathlib.Data.Set.Insert
import Mathlib.Logic.Function.Basic
import Mathlib.Tactic.Common

/-!
# Tries of a fixed depth as sets

An entry has a child for every letter; a key is stored when the path it spells ends in a leaf. The
keys of one length that a trie stores are a set, and inserting a key inserts it into that set
(`keys_insert`).
-/

/-- What a pointer in a trie points to. -/
inductive Trie (κ ν : Type*) where
  | null
  | leaf (value : ν)
  | entry (children : κ → Trie κ ν)

namespace Trie

variable {κ ν : Type*}

/-- A null pointer. -/
def isNull : Trie κ ν → Bool
  | null => true
  | _ => false

/-- The child for a letter; there is none below a leaf. -/
def child : Trie κ ν → κ → Trie κ ν
  | entry children => children
  | _ => fun _ => null

/-- An entry without children. -/
def emptyEntry : Trie κ ν := entry fun _ => null

/-- The path spelt by a key ends in something. -/
def contains : List κ → Trie κ ν → Bool
  | [], t => !t.isNull
  | k :: ks, t => contains ks (t.child k)

theorem contains_null (k : κ) (ks : List κ) : contains (k :: ks) (null : Trie κ ν) = false := by
  induction ks generalizing k with
  | nil => rfl
  | cons k' ks ih => exact ih k'

theorem contains_emptyEntry (k : κ) (ks : List κ) :
    contains (k :: ks) (emptyEntry : Trie κ ν) = false := contains_null k ks

/-- The keys of length `n` that a trie stores. -/
def keys (n : ℕ) (t : Trie κ ν) : Set (List κ) := {key | key.length = n ∧ contains key t = true}

theorem keys_null (n : ℕ) (hn : 0 < n) : keys n (null : Trie κ ν) = ∅ := by
  ext key
  cases key with
  | nil => simp [keys, hn.ne]
  | cons k ks => simp [keys, contains_null]

variable [DecidableEq κ]

/-- An entry with one child replaced. -/
def setChild (t : Trie κ ν) (k : κ) (c : Trie κ ν) : Trie κ ν :=
  entry (Function.update t.child k c)

theorem child_setChild (t : Trie κ ν) (k k' : κ) (c : Trie κ ν) :
    (t.setChild k c).child k' = if k' = k then c else t.child k' :=
  Function.update_apply _ _ _ _

/-- A leaf at the end of the path spelt by a key. -/
def insert : List κ → ν → Trie κ ν → Trie κ ν
  | [], v, _ => leaf v
  | k :: ks, v, t => t.setChild k (insert ks v (t.child k))

theorem contains_insert {key key' : List κ} (v : ν) (t : Trie κ ν)
    (hl : key'.length = key.length) :
    contains key' (insert key v t) = true ↔ key' = key ∨ contains key' t = true := by
  induction key generalizing key' t with
  | nil =>
    rw [List.length_eq_zero_iff.mp hl]
    simp [insert, contains, isNull]
  | cons k ks ih =>
    cases key' with
    | nil => exact absurd hl (by simp)
    | cons k' ks' =>
      have hl' : ks'.length = ks.length := Nat.succ_injective hl
      rw [insert, contains, contains, child_setChild]
      split_ifs with h
      · subst h
        rw [ih _ hl', List.cons.injEq]
        simp
      · rw [List.cons.injEq]
        simp [h]

theorem keys_insert {n : ℕ} {key : List κ} (hl : key.length = n) (v : ν) (t : Trie κ ν) :
    keys n (insert key v t) = Insert.insert key (keys n t) := by
  ext key'
  simp only [keys, Set.mem_ofPred_eq, Set.mem_insert_iff]
  constructor
  · rintro ⟨h, hc⟩
    exact ((contains_insert v t (h.trans hl.symm)).mp hc).imp id fun hc => ⟨h, hc⟩
  · rintro (rfl | ⟨h, hc⟩)
    · exact ⟨hl, (contains_insert v t rfl).mpr (Or.inl rfl)⟩
    · exact ⟨h, (contains_insert v t (h.trans hl.symm)).mpr (Or.inr hc)⟩

end Trie
