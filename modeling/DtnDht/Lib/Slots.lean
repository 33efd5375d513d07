import Mathlib.Data.List.Basic
import Mathlib.Data.List.InsertIdx

/-!
# An array with a count

The first cells of an array, as many as the count says, are in use. The loops that shift cells up
or down, one after the other, insert into the list of these (`take_set_shiftUp`) and remove from it
(`take_shiftDown`).
-/

namespace Slots

variable {α : Type*} {cells : List α} {i j k n : ℕ}

/-- `cells[dst] = cells[src]`. -/
def move (dst src : ℕ) (cells : List α) : List α := cells[src]?.elim cells (cells.set dst)

@[simp] theorem length_move {dst src : ℕ} : (move dst src cells).length = cells.length := by
  unfold move
  cases cells[src]? with
  | none => rfl
  | some x => exact List.length_set

theorem getElem?_move {dst src : ℕ} (h : src < cells.length) (h' : dst < cells.length) (m : ℕ) :
    (move dst src cells)[m]? = if m = dst then cells[src]? else cells[m]? := by
  unfold move
  rw [List.getElem?_eq_getElem h, Option.elim_some, List.getElem?_set]
  by_cases hm : m = dst
  · subst hm
    rw [if_pos rfl, if_pos h', if_pos rfl]
  · rw [if_neg (Ne.symm hm), if_neg hm]

/-! ## Up -/

/-- `for (j = n - 1; j > i; j--) cells[j] = cells[j - 1];` -/
def shiftUp (i : ℕ) : ℕ → List α → List α
  | 0, cells => cells
  | j + 1, cells => if i < j then shiftUp i j (move j (j - 1) cells) else cells

@[simp] theorem length_shiftUp : (shiftUp i n cells).length = cells.length := by
  induction n generalizing cells with
  | zero => rfl
  | succ j ih =>
    unfold shiftUp
    split_ifs
    · rw [ih, length_move]
    · rfl

theorem getElem?_shiftUp (hn : n ≤ cells.length) (m : ℕ) :
    (shiftUp i n cells)[m]? = if i < m ∧ m < n then cells[m - 1]? else cells[m]? := by
  induction n generalizing cells with
  | zero => rw [if_neg (by omega)]; rfl
  | succ j ih =>
    unfold shiftUp
    split_ifs with h1 h2 h2
    · rw [ih (by rw [length_move]; omega), getElem?_move (by omega) (by omega),
        getElem?_move (by omega) (by omega)]
      rcases Nat.lt_or_ge m j with hm | hm
      · rw [if_pos ⟨h2.1, hm⟩, if_neg (by omega)]
      · obtain rfl : m = j := by omega
        rw [if_neg (by omega), if_pos rfl]
    · rw [ih (by rw [length_move]; omega), if_neg (by omega),
        getElem?_move (by omega) (by omega), if_neg (by omega)]
    · omega
    · rfl

/-- Shifting up and writing to the place that gets free is inserting, up to the new count. -/
theorem take_set_shiftUp {x : α} {n' : ℕ} (hi : i ≤ n) (hin : i < n') (hn : n ≤ n')
    (hn' : n' ≤ n + 1) (hlen : n' ≤ cells.length) :
    ((shiftUp i n' cells).set i x).take n' = ((cells.take n).insertIdx i x).take n' := by
  apply List.ext_getElem?
  intro m
  rw [List.getElem?_take, List.getElem?_take]
  by_cases hm : m < n'
  · rw [if_pos hm, if_pos hm, List.getElem?_set, getElem?_shiftUp hlen, length_shiftUp,
      List.getElem?_insertIdx]
    rcases Nat.lt_trichotomy m i with h | h | h
    · rw [if_neg (by omega), if_neg (by omega), if_pos h, List.getElem?_take_of_lt (by omega)]
    · subst h
      rw [if_pos rfl, if_pos (by omega), if_neg (by omega), if_pos rfl,
        if_pos (by rw [List.length_take]; omega)]
    · rw [if_neg (by omega), if_pos ⟨h, hm⟩, if_neg (by omega), if_neg (by omega),
        List.getElem?_take_of_lt (by omega)]
  · rw [if_neg hm, if_neg hm]

/-- The first places of a list after an insertion. -/
theorem take_insertIdx {l : List α} {x : α} {c : ℕ} (hi : i ≤ l.length) (hc : i < c) :
    (l.insertIdx i x).take c = l.take i ++ x :: (l.drop i).take (c - 1 - i) := by
  induction i generalizing l c with
  | zero =>
    obtain ⟨c, rfl⟩ := Nat.exists_eq_add_of_lt hc
    rw [List.insertIdx_zero, List.take_zero, List.drop_zero, Nat.zero_add, List.take_succ_cons]
    rfl
  | succ i ih =>
    cases l with
    | nil => exact absurd hi (Nat.not_succ_le_zero i)
    | cons a l =>
      obtain ⟨c, rfl⟩ : ∃ c', c = c' + 1 := ⟨c - 1, by omega⟩
      have he : c + 1 - 1 - (i + 1) = c - 1 - i := by omega
      rw [List.insertIdx_succ_cons, List.take_succ_cons, List.take_succ_cons, List.drop_succ_cons,
        ih (Nat.le_of_succ_le_succ hi) (Nat.lt_of_succ_lt_succ hc), he]
      rfl

/-! ## Down -/

/-- `for (j = i; j < i + k; j++) cells[j] = cells[j + 1];` -/
def shiftDown (i : ℕ) : ℕ → List α → List α
  | 0, cells => cells
  | k + 1, cells => shiftDown (i + 1) k (move i (i + 1) cells)

@[simp] theorem length_shiftDown : (shiftDown i k cells).length = cells.length := by
  induction k generalizing i cells with
  | zero => rfl
  | succ k ih =>
    unfold shiftDown
    rw [ih, length_move]

theorem getElem?_shiftDown (hk : i + k < cells.length) (m : ℕ) :
    (shiftDown i k cells)[m]? = if i ≤ m ∧ m < i + k then cells[m + 1]? else cells[m]? := by
  induction k generalizing i cells with
  | zero => rw [if_neg (by omega)]; rfl
  | succ k ih =>
    unfold shiftDown
    rw [ih (by rw [length_move]; omega), getElem?_move (by omega) (by omega),
      getElem?_move (by omega) (by omega)]
    rcases Nat.lt_trichotomy m i with h | h | h
    · rw [if_neg (by omega), if_neg (by omega), if_neg (by omega)]
    · subst h
      rw [if_neg (by omega), if_pos rfl, if_pos (by omega)]
    · by_cases hm : m < i + (k + 1)
      · rw [if_pos (by omega), if_neg (by omega), if_pos (by omega)]
      · rw [if_neg (by omega), if_neg (by omega), if_neg (by omega)]

/-- Shifting down is removing. -/
theorem take_shiftDown (hi : i < n) (hn : n ≤ cells.length) :
    (shiftDown i (n - 1 - i) cells).take (n - 1) = (cells.take n).eraseIdx i := by
  apply List.ext_getElem?
  intro m
  rw [List.getElem?_take, List.getElem?_eraseIdx]
  by_cases hm : m < n - 1
  · rw [if_pos hm, getElem?_shiftDown (by omega)]
    by_cases h : m < i
    · rw [if_neg (by omega), if_pos h, List.getElem?_take_of_lt (by omega)]
    · rw [if_pos (by omega), if_neg h, List.getElem?_take_of_lt (by omega)]
  · rw [if_neg hm]
    by_cases h : m < i
    · omega
    · rw [if_neg h, List.getElem?_take, if_neg (by omega)]

end Slots
