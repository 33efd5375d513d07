import DtnDht.Lib.Modify
import Mathlib.Data.List.Nodup
import Mathlib.Data.List.Range
import Mathlib.Tactic.Common

/-!
# Linked records and a ledger of releases

Records are told apart by the order in which they were created, and every release of a record is
written down. A released record keeps its contents, so that a program that releases one twice goes
on. Releasing a list in which each record leads to the one created after it writes down each of
them once, from the last to the first (`freeList_of_linked`).
-/

namespace Ledger

variable {α : Type*}

/-- A record: what it holds, and the one it leads to. -/
structure Cell (α : Type*) where
  content : Option α
  next : Option ℕ

/-- All records created so far, and the releases so far, the latest last. -/
structure Heap (α : Type*) where
  cells : List (Cell α)
  released : List ℕ

namespace Heap

variable (h : Heap α)

/-- No records. -/
def empty : Heap α := ⟨[], []⟩

/-- A new record, empty and leading nowhere. -/
def create : ℕ × Heap α := (h.cells.length, { h with cells := h.cells ++ [⟨none, none⟩] })

def next (k : ℕ) : Option ℕ := h.cells[k]?.bind Cell.next

def content (k : ℕ) : Option α := h.cells[k]?.bind Cell.content

def setNext (k : ℕ) (p : Option ℕ) : Heap α :=
  { h with cells := h.cells.modify k fun c => { c with next := p } }

def setContent (k : ℕ) (a : α) : Heap α :=
  { h with cells := h.cells.modify k fun c => { c with content := some a } }

/-- Release a record. -/
def free (k : ℕ) : Heap α := { h with released := h.released ++ [k] }

/-- Release the records of a list, its tail first; with fuel. -/
def freeListAux : ℕ → Heap α → Option ℕ → Heap α
  | 0, h, _ => h
  | _ + 1, h, none => h
  | fuel + 1, h, some k => (freeListAux fuel h (h.next k)).free k

/-- Release the records of a list, its tail first. -/
def freeList (p : Option ℕ) : Heap α := freeListAux h.cells.length h p

/-- What the records of a list hold; with fuel. -/
def toListAux : ℕ → Heap α → Option ℕ → List (Option α)
  | 0, _, _ => []
  | _ + 1, _, none => []
  | fuel + 1, h, some k => h.content k :: toListAux fuel h (h.next k)

/-- What the records of a list hold. -/
def toList (p : Option ℕ) : List (Option α) := toListAux h.cells.length h p

/-- Record `k` leads to the one created after it, and so on for `m` records; the last leads
nowhere. -/
def Linked (h : Heap α) : ℕ → ℕ → Prop
  | k, 0 => h.next k = none
  | k, m + 1 => h.next k = some (k + 1) ∧ Linked h (k + 1) m

@[simp] theorem create_fst : h.create.1 = h.cells.length := rfl

@[simp] theorem length_cells_create : h.create.2.cells.length = h.cells.length + 1 := by
  simp [create]

@[simp] theorem released_create : h.create.2.released = h.released := rfl

@[simp] theorem length_cells_setNext (k : ℕ) (p : Option ℕ) :
    (h.setNext k p).cells.length = h.cells.length := by
  simp [setNext]

@[simp] theorem released_setNext (k : ℕ) (p : Option ℕ) :
    (h.setNext k p).released = h.released := rfl

@[simp] theorem length_cells_setContent (k : ℕ) (a : α) :
    (h.setContent k a).cells.length = h.cells.length := by
  simp [setContent]

@[simp] theorem released_setContent (k : ℕ) (a : α) :
    (h.setContent k a).released = h.released := rfl

@[simp] theorem cells_free (k : ℕ) : (h.free k).cells = h.cells := rfl

@[simp] theorem released_free (k : ℕ) : (h.free k).released = h.released ++ [k] := rfl

variable {h}

theorem getElem?_cells_create {j : ℕ} (hj : j < h.cells.length) :
    h.create.2.cells[j]? = h.cells[j]? := List.getElem?_append_left hj

theorem getElem?_cells_setNext {j k : ℕ} (p : Option ℕ) (hjk : j ≠ k) :
    (h.setNext k p).cells[j]? = h.cells[j]? :=
  List.getElem?_modify_ne _ _ hjk.symm

theorem getElem?_cells_setContent {j k : ℕ} (a : α) (hjk : j ≠ k) :
    (h.setContent k a).cells[j]? = h.cells[j]? :=
  List.getElem?_modify_ne _ _ hjk.symm

theorem next_setNext {k : ℕ} (p : Option ℕ) (hk : k < h.cells.length) :
    (h.setNext k p).next k = p := by
  rw [next, setNext, List.getElem?_modify_eq, List.getElem?_eq_getElem hk]
  rfl

theorem content_setNext (j k : ℕ) (p : Option ℕ) : (h.setNext k p).content j = h.content j := by
  rw [content, setNext, List.getElem?_modify, content]
  cases h.cells[j]? with
  | none => rfl
  | some c => by_cases hk : k = j <;> simp [hk]

theorem content_setContent {k : ℕ} (a : α) (hk : k < h.cells.length) :
    (h.setContent k a).content k = some a := by
  rw [content, setContent, List.getElem?_modify_eq, List.getElem?_eq_getElem hk]
  rfl

theorem next_create : h.create.2.next h.cells.length = none := by
  simp [next, create]

/-- Releasing a record changes no links. -/
theorem linked_free {j k m : ℕ} : Linked (h.free j) k m ↔ Linked h k m := by
  induction m generalizing k with
  | zero => exact Iff.rfl
  | succ m ih => exact and_congr Iff.rfl ih

/-! ## Releasing a list -/

theorem freeListAux_of_linked {m : ℕ} : ∀ {fuel k : ℕ}, Linked h k m → m < fuel →
    freeListAux fuel h (some k) =
      { h with released := h.released ++ (List.range' k (m + 1)).reverse } := by
  induction m with
  | zero =>
    intro fuel k hlink hfuel
    obtain ⟨fuel, rfl⟩ : ∃ f, fuel = f + 1 := ⟨fuel - 1, by omega⟩
    have hnone : freeListAux fuel h none = h := by cases fuel <;> rfl
    rw [freeListAux, show h.next k = none from hlink, hnone]
    rfl
  | succ m ih =>
    intro fuel k hlink hfuel
    obtain ⟨fuel, rfl⟩ : ∃ f, fuel = f + 1 := ⟨fuel - 1, by omega⟩
    obtain ⟨hnext, hlink⟩ := hlink
    rw [freeListAux, hnext, ih hlink (by omega), List.range'_succ (n := m + 1), List.reverse_cons,
      ← List.append_assoc]
    rfl

theorem freeList_of_linked {k m : ℕ} (hlink : Linked h k m) (hm : m < h.cells.length) :
    h.freeList (some k) = { h with released := h.released ++ (List.range' k (m + 1)).reverse } :=
  freeListAux_of_linked hlink hm

/-! ## Reading a list -/

theorem toListAux_of_linked {m : ℕ} : ∀ {fuel k : ℕ}, Linked h k m → m < fuel →
    toListAux fuel h (some k) = (List.range' k (m + 1)).map h.content := by
  induction m with
  | zero =>
    intro fuel k hlink hfuel
    obtain ⟨fuel, rfl⟩ : ∃ f, fuel = f + 1 := ⟨fuel - 1, by omega⟩
    have hnone : toListAux fuel h none = [] := by cases fuel <;> rfl
    rw [toListAux, show h.next k = none from hlink, hnone]
    rfl
  | succ m ih =>
    intro fuel k hlink hfuel
    obtain ⟨fuel, rfl⟩ : ∃ f, fuel = f + 1 := ⟨fuel - 1, by omega⟩
    obtain ⟨hnext, hlink⟩ := hlink
    rw [toListAux, hnext, ih hlink (by omega), List.range'_succ (n := m + 1), List.map_cons]

theorem toList_of_linked {k m : ℕ} (hlink : Linked h k m) (hm : m < h.cells.length) :
    h.toList (some k) = (List.range' k (m + 1)).map h.content :=
  toListAux_of_linked hlink hm

end Heap

/-! ## Filling a list one record ahead

A parser fills the record it is given, creates the next one before it knows whether there is
another item, and releases that if there is none. -/

/-- Items were read into record `d`, the last one then, and those created after it; one more was
created for the end and released. -/
structure Filled (h h' : Heap α) (d : ℕ) (as : List α) : Prop where
  frame : ∀ j < d, h'.cells[j]? = h.cells[j]?
  cells : h'.cells.length = d + 1 + as.length
  linked : Heap.Linked h' d (as.length - 1)
  contents : (List.range' d as.length).map h'.content = as.map some
  released : h'.released = h.released ++ if as = [] then [] else [d + as.length]

/-- The records for an item, before the rest is read. -/
def withNext (h : Heap α) (d : ℕ) (a : α) : Heap α :=
  (h.setContent d a).create.2.setNext d (some (d + 1))

section

variable {h : Heap α} {d : ℕ} (hlen : h.cells.length = d + 1)
include hlen

theorem withNext_spec (a : α) :
    (withNext h d a).cells.length = d + 2 ∧
      (withNext h d a).next d = some (d + 1) ∧ (withNext h d a).next (d + 1) = none ∧
      (withNext h d a).content d = some a ∧
      (∀ j < d, (withNext h d a).cells[j]? = h.cells[j]?) ∧
      (withNext h d a).released = h.released := by
  set h1 := h.setContent d a with hh1
  have hlen1 : h1.cells.length = d + 1 := by simp [hh1, hlen]
  have hlen2 : h1.create.2.cells.length = d + 2 := by simp [hlen1]
  have hframe : ∀ j ≤ d, h1.create.2.cells[j]? = h1.cells[j]? := fun j hj =>
    Heap.getElem?_cells_create (by omega)
  refine ⟨by simp [withNext, hlen], Heap.next_setNext _ (by rw [← hh1]; omega), ?_, ?_, ?_,
    rfl⟩
  · have hnew : (h1.create.2.setNext d (some (d + 1))).cells[d + 1]? = h1.create.2.cells[d + 1]? :=
      Heap.getElem?_cells_setNext _ (by omega)
    rw [withNext, Heap.next, hnew, ← hlen1]
    exact Heap.next_create
  · rw [withNext, Heap.content_setNext, Heap.content, ← hh1, hframe d le_rfl]
    exact Heap.content_setContent a (by omega)
  · intro j hj
    rw [withNext, Heap.getElem?_cells_setNext _ hj.ne, hframe j hj.le, hh1,
      Heap.getElem?_cells_setContent _ hj.ne]

/-- The record is linked in first and filled then. -/
theorem setContent_create (a : α) :
    (h.create.2.setNext d (some h.create.1)).setContent d a = withNext h d a := by
  obtain ⟨cells, released⟩ := h
  obtain ⟨cells, c, rfl⟩ : ∃ xs x, cells = xs ++ [x] :=
    ⟨_, _, (List.dropLast_append_getLast (List.ne_nil_of_length_eq_add_one hlen)).symm⟩
  obtain rfl : cells.length = d := by simpa using hlen
  unfold withNext Heap.setContent Heap.setNext Heap.create
  simp only [List.append_assoc, List.singleton_append, List.modify_append_cons, List.length_append,
    List.length_singleton]

variable {h' : Heap α} {a : α}

/-- What is read behind record `d` leaves it as it is. -/
theorem cell_of_frame (hframe : ∀ j < d + 1, h'.cells[j]? = (withNext h d a).cells[j]?) :
    h'.next d = some (d + 1) ∧ h'.content d = some a ∧ ∀ j < d, h'.cells[j]? = h.cells[j]? := by
  obtain ⟨-, hnext, -, hcontent, hbelow, -⟩ := withNext_spec hlen a
  have hd := hframe d (Nat.lt_succ_self d)
  refine ⟨?_, ?_, ?_⟩
  · rw [Heap.next, hd]
    exact hnext
  · rw [Heap.content, hd]
    exact hcontent
  · intro j hj
    rw [hframe j (by omega), hbelow j hj]

/-- There is no item. -/
theorem Filled.nil (hnext : h.next d = none) : Filled h h d [] :=
  ⟨fun _ _ => rfl, hlen, hnext, rfl, (List.append_nil _).symm⟩

theorem Filled.nil_setNext : Filled h (h.setNext d none) d [] := by
  refine ⟨fun j hj => Heap.getElem?_cells_setNext _ hj.ne, ?_, ?_, rfl, (List.append_nil _).symm⟩
  · rw [Heap.length_cells_setNext]
    exact hlen
  · exact Heap.next_setNext none (by omega)

/-- The item is the last one: the record for the next is released. -/
theorem Filled.singleton (hrec : Filled (withNext h d a) h' (d + 1) []) :
    Filled h ((h'.freeList (h'.next d)).setNext d none) d [a] := by
  obtain ⟨hnext, hcontent, hbelow⟩ := cell_of_frame hlen hrec.frame
  have hcells : h'.cells.length = d + 2 := hrec.cells
  have hfree : h'.freeList (h'.next d) = { h' with released := h'.released ++ [d + 1] } := by
    rw [hnext]
    exact Heap.freeList_of_linked (m := 0) hrec.linked (by omega)
  have hreleased : h'.released = h.released := by
    rw [hrec.released, if_pos rfl, List.append_nil]
    exact (withNext_spec hlen a).2.2.2.2.2
  rw [hfree]
  refine ⟨?_, ?_, ?_, ?_, ?_⟩
  · intro j hj
    rw [Heap.getElem?_cells_setNext _ hj.ne]
    exact hbelow j hj
  · rw [Heap.length_cells_setNext]
    exact hcells
  · exact Heap.next_setNext (h := { h' with released := h'.released ++ [d + 1] }) none
      (show d < h'.cells.length by omega)
  · show [Heap.content _ d] = [some a]
    rw [Heap.content_setNext]
    exact congrArg (fun c => [c]) hcontent
  · rw [Heap.released_setNext, if_neg (List.cons_ne_nil _ _), hreleased]
    rfl

/-- More items follow. -/
theorem Filled.cons {as : List α} (hne : as ≠ [])
    (hrec : Filled (withNext h d a) h' (d + 1) as) :
    Filled h h' d (a :: as) := by
  obtain ⟨hnext, hcontent, hbelow⟩ := cell_of_frame hlen hrec.frame
  have hpos : 0 < as.length := List.length_pos_iff.mpr hne
  refine ⟨hbelow, ?_, ?_, ?_, ?_⟩
  · rw [hrec.cells, List.length_cons]
    omega
  · rw [List.length_cons, show as.length + 1 - 1 = (as.length - 1) + 1 by omega]
    exact ⟨hnext, hrec.linked⟩
  · rw [List.length_cons, List.range'_succ, List.map_cons, hcontent, hrec.contents, List.map_cons]
  · rw [hrec.released, if_neg hne, if_neg (List.cons_ne_nil _ _), List.length_cons,
      (withNext_spec hlen a).2.2.2.2.2, show d + 1 + as.length = d + (as.length + 1) by
        omega]

end

/-- The list that was filled holds the items, and nothing behind them. -/
theorem Filled.toList_eq {h h' : Heap α} {d : ℕ} {as : List α} (hf : Filled h h' d as)
    (hne : as ≠ []) : h'.toList (some d) = as.map some := by
  have hpos : 0 < as.length := List.length_pos_iff.mpr hne
  have hcells := hf.cells
  rw [Heap.toList_of_linked hf.linked (by omega), Nat.sub_add_cancel hpos]
  exact hf.contents

end Ledger
