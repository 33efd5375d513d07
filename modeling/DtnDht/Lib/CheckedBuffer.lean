import DtnDht.Lib.CString
import DtnDht.Lib.Occurrence
import Mathlib.Data.List.GetD

/-!
# Buffers with checked accesses

A buffer is the list of the bytes in front of its terminating NUL. A pointer into it is an index,
and what C leaves undefined is a fault: inspecting a byte behind the NUL (`peek`), copying bytes
that are not all in front of it (`copyOut`), writing an array behind its end (`store`), passing a
negative length (`memmem`), and a loop without end, which runs out of the turns it is given. A
computation that returns a value meets none of them.

The text functions work on bytes; each has the value of the function on lists that it stands for
(`memcmp_eq`, `memmem_eq`, `strtol_eq`, `scanTo_eq`).
-/

namespace CheckedBuffer

open CString Occurrence

/-- What may go wrong. -/
inductive Fault where
  | read
  | copy
  | write
  | negative
  | endless
  deriving DecidableEq, Repr

/-- A computation that may go wrong. -/
abbrev Checked := Except Fault

@[simp]
theorem ok_bind {α β : Type} (a : α) (f : α → Checked β) : (Except.ok a >>= f) = f a := rfl

@[simp]
theorem pure_eq_ok {α : Type} (a : α) : (pure a : Checked α) = .ok a := rfl

/-! ## Arrays -/

/-- An array of `n` bytes. -/
abbrev CharArray (n : ℕ) := {b : Bytes // b.length = n}

/-- `memcpy(dst + k, src, ...)` of all bytes of `src`. -/
def store {n : ℕ} (dst : CharArray n) (k : ℕ) (src : Bytes) : Checked (CharArray n) :=
  if h : k + src.length ≤ n then
    .ok ⟨dst.1.take k ++ src ++ dst.1.drop (k + src.length), by
      simp only [List.length_append, List.length_take, List.length_drop, dst.2]
      omega⟩
  else .error .write

theorem store_eq {n : ℕ} (dst : CharArray n) {k : ℕ} {s : Bytes} (h : k + s.length ≤ n) :
    ∃ dst' : CharArray n, store dst k s = .ok dst' ∧
      dst'.1 = dst.1.take k ++ s ++ dst.1.drop (k + s.length) :=
  ⟨_, dif_pos h, rfl⟩

/-! ## Accesses -/

variable (buf : Bytes)

/-- The byte at an index. -/
def peek (i : ℕ) : Checked UInt8 := if i ≤ buf.length then .ok (buf.getD i 0) else .error .read

/-- The bytes that `memcpy` copies from an index. -/
def copyOut (i n : ℕ) : Checked Bytes :=
  if i + n ≤ buf.length then .ok ((buf.drop i).take n) else .error .copy

variable {buf} {i j k n : ℕ} {c : UInt8}

theorem peek_eq (h : i ≤ buf.length) : peek buf i = .ok (buf.getD i 0) := if_pos h

theorem copyOut_eq (h : i + n ≤ buf.length) : copyOut buf i n = .ok ((buf.drop i).take n) :=
  if_pos h

/-- A byte that is not NUL stands in front of the terminating NUL. -/
theorem lt_length_of_getD_ne (h : buf.getD i 0 ≠ 0) : i < buf.length := by
  by_contra hle
  exact h (List.getD_eq_default _ _ (by omega))

theorem getD_eq_iff (hc : c ≠ 0) : buf.getD i 0 = c ↔ (buf.drop i).head? = some c := by
  rw [List.head?_drop, List.getD_eq_getElem?_getD]
  cases buf[i]? with
  | none => simpa using hc.symm
  | some b => simp

/-! ## Loops -/

variable (buf) in
/-- `while (p(buf[i])) i++`. -/
def scan (p : UInt8 → Bool) : ℕ → ℕ → Checked ℕ
  | 0, _ => .error .endless
  | turns + 1, i => do
    let b ← peek buf i
    if p b then scan p turns (i + 1) else return i

theorem scan_eq {p : UInt8 → Bool} (hp : p 0 = false) {turns : ℕ} (hi : i ≤ buf.length)
    (hturns : buf.length < turns + i) :
    scan buf p turns i = .ok (i + ((buf.drop i).takeWhile p).length) := by
  induction turns generalizing i with
  | zero => omega
  | succ turns ih =>
    unfold scan
    rw [peek_eq hi, ok_bind]
    rcases Nat.lt_or_ge i buf.length with hlt | hge
    · rw [List.getD_eq_getElem _ _ hlt, List.drop_eq_getElem_cons hlt]
      by_cases hb : p buf[i] = true
      · rw [if_pos hb, ih (by omega) (by omega), List.takeWhile_cons_of_pos hb, List.length_cons,
          Nat.add_assoc, Nat.add_comm 1]
      · rw [if_neg hb, List.takeWhile_cons_of_neg hb]
        rfl
    · rw [List.getD_eq_default _ _ hge, hp, List.drop_eq_nil_of_le hge]
      rfl

/-- What `scan` passes over is what a reader of the list drops. -/
theorem drop_scan (p : UInt8 → Bool) (buf : Bytes) (i : ℕ) :
    buf.drop (i + ((buf.drop i).takeWhile p).length) = (buf.drop i).dropWhile p := by
  rw [← List.drop_drop]
  generalize buf.drop i = s
  calc s.drop (s.takeWhile p).length
      = (s.takeWhile p ++ s.dropWhile p).drop (s.takeWhile p).length := by
        rw [List.takeWhile_append_dropWhile]
    _ = s.dropWhile p := List.drop_left

theorem scan_le (p : UInt8 → Bool) (hi : i ≤ buf.length) :
    i + ((buf.drop i).takeWhile p).length ≤ buf.length := by
  have h := (List.takeWhile_prefix p (l := buf.drop i)).length_le
  rw [List.length_drop] at h
  omega

/-! ## Text -/

variable (buf) in
/-- `memcmp(buf + i, s, strlen(s)) == 0`. -/
def memcmp : ℕ → Bytes → Checked Bool
  | _, [] => .ok true
  | i, c :: s => do
    let b ← peek buf i
    if b = c then memcmp (i + 1) s else return false

/-- A comparison stops at the terminating NUL. -/
theorem memcmp_eq {s : Bytes} (hs : 0 ∉ s) (hi : i ≤ buf.length) :
    memcmp buf i s = .ok (s.isPrefixOf (buf.drop i)) := by
  induction s generalizing i with
  | nil => rfl
  | cons c s ih =>
    rw [List.mem_cons, not_or] at hs
    unfold memcmp
    rw [peek_eq hi, ok_bind]
    rcases Nat.lt_or_ge i buf.length with hlt | hge
    · rw [List.getD_eq_getElem _ _ hlt, List.drop_eq_getElem_cons hlt, List.isPrefixOf_cons_cons]
      by_cases hb : buf[i] = c
      · rw [if_pos hb, ih hs.2 hlt, hb, beq_self_eq_true, Bool.true_and]
      · rw [if_neg hb, beq_eq_false_iff_ne.mpr (Ne.symm hb), Bool.false_and]
        rfl
    · rw [List.getD_eq_default _ _ hge, if_neg hs.1, List.drop_eq_nil_of_le hge]
      rfl

variable (buf) in
/-- The loop of `dht_memmem`, with `turns` places to look at. -/
def memmemFrom (s : Bytes) : ℕ → ℕ → Checked (Option ℕ)
  | 0, _ => .ok none
  | turns + 1, i => do
    let found ← memcmp buf i s
    if found then return some i else memmemFrom s turns (i + 1)

variable (buf) in
/-- `dht_memmem(buf + i, len, s, strlen(s))`. -/
def memmem (i : ℕ) (len : ℤ) (s : Bytes) : Checked (Option ℕ) :=
  if len < 0 then .error .negative
  else if len < s.length then .ok none
  else memmemFrom buf s (len.toNat - s.length + 1) i

theorem memmemFrom_eq {s : Bytes} (hs : 0 ∉ s) {turns : ℕ} (hi : i ≤ buf.length)
    (hturns : i + turns + s.length = buf.length + 1) :
    memmemFrom buf s turns i = .ok ((findInfix s (buf.drop i)).map (i + ·)) := by
  induction turns generalizing i with
  | zero =>
    have hnone : findInfix s (buf.drop i) = none := by
      rw [findInfix_eq_none_iff]
      exact not_infix_of_length_lt (by rw [List.length_drop]; omega)
    rw [hnone]
    rfl
  | succ turns ih =>
    unfold memmemFrom
    rw [memcmp_eq hs hi, ok_bind]
    by_cases h : s <+: buf.drop i
    · rw [if_pos (List.isPrefixOf_iff_prefix.mpr h), findInfix_eq_zero h]
      rfl
    · rw [if_neg (mt List.isPrefixOf_iff_prefix.mp h)]
      have hlt : i < buf.length := by
        by_contra hge
        have hnil : s = [] := List.length_eq_zero_iff.mp (by omega)
        exact h (hnil ▸ List.nil_prefix)
      rw [List.drop_eq_getElem_cons hlt] at h ⊢
      rw [ih hlt (by omega), findInfix_cons_eq_map h, Option.map_map]
      congr 2
      funext k
      exact (Nat.add_right_comm i 1 k).symm ▸ rfl

/-- A search up to the terminating NUL. -/
theorem memmem_eq {s : Bytes} (hs : 0 ∉ s) (hi : i ≤ buf.length) {len : ℤ}
    (hlen : i + len = buf.length) :
    memmem buf i len s = .ok ((findInfix s (buf.drop i)).map (i + ·)) := by
  unfold memmem
  rw [if_neg (by omega)]
  split_ifs with hlt
  · have hnone : findInfix s (buf.drop i) = none := by
      rw [findInfix_eq_none_iff]
      exact not_infix_of_length_lt (by rw [List.length_drop]; omega)
    rw [hnone]
    rfl
  · exact memmemFrom_eq hs hi (by omega)

variable (buf) in
/-- `strtol(buf + i, &q, 10)`: the number and `q`. -/
def strtol (i : ℕ) : Checked (ℤ × ℕ) := do
  let k ← scan buf isSpace (buf.length + 1) i
  let sign ← peek buf k
  let start := if sign = 43 ∨ sign = 45 then k + 1 else k
  let stop ← scan buf isDigit (buf.length + 1) start
  if stop = start then return (0, i)
  else
    let v : ℤ := digitsValue ((buf.drop start).take (stop - start))
    return (max longMin (min longMax (if sign = 45 then -v else v)), stop)

theorem readSign_drop (buf : Bytes) (k : ℕ) :
    readSign (buf.drop k) = (decide (buf.getD k 0 = 45),
      buf.drop (if buf.getD k 0 = 43 ∨ buf.getD k 0 = 45 then k + 1 else k)) := by
  rcases Nat.lt_or_ge k buf.length with hlt | hge
  · rw [List.getD_eq_getElem _ _ hlt, List.drop_eq_getElem_cons hlt]
    generalize hb : buf[k] = b
    by_cases h43 : b = 43
    · subst h43
      rfl
    · by_cases h45 : b = 45
      · subst h45
        rfl
      · rw [if_neg (by simp [h43, h45]), decide_eq_false h45, List.drop_eq_getElem_cons hlt,
          hb]
        unfold readSign
        split
        · rename_i heq
          exact absurd (List.cons.inj heq).1 h43
        · rename_i heq
          exact absurd (List.cons.inj heq).1 h45
        · rfl
  · rw [List.getD_eq_default _ _ hge, List.drop_eq_nil_of_le hge]
    rw [if_neg (by decide), List.drop_eq_nil_of_le hge]
    rfl

/-- A number is read from bytes in front of the terminating NUL. -/
theorem strtol_eq (hi : i ≤ buf.length) : ∃ l q, i ≤ q ∧ q ≤ buf.length ∧
    strtol buf i = .ok (l, q) ∧ CString.strtol (buf.drop i) = (l, buf.drop q) := by
  have hk := scan_le isSpace hi
  have hspace := drop_scan isSpace buf i
  unfold strtol
  rw [scan_eq rfl hi (by omega), ok_bind, peek_eq hk, ok_bind]
  dsimp only
  generalize hkdef : i + ((buf.drop i).takeWhile isSpace).length = k at hk hspace
  have hsign := readSign_drop buf k
  have hstart : (if buf.getD k 0 = 43 ∨ buf.getD k 0 = 45 then k + 1 else k) ≤ buf.length := by
    split_ifs with hc
    · refine lt_length_of_getD_ne fun h0 => ?_
      rw [h0] at hc
      exact absurd hc (by decide)
    · exact hk
  have hle : k ≤ if buf.getD k 0 = 43 ∨ buf.getD k 0 = 45 then k + 1 else k := by
    split_ifs <;> omega
  generalize (if buf.getD k 0 = 43 ∨ buf.getD k 0 = 45 then k + 1 else k) = start
    at hsign hstart hle
  rw [scan_eq rfl hstart (by omega), ok_bind]
  have hstop := scan_le isDigit hstart
  have hdigits := drop_scan isDigit buf start
  have htake : (buf.drop start).take ((buf.drop start).takeWhile isDigit).length =
      (buf.drop start).takeWhile isDigit :=
    (List.prefix_iff_eq_take.mp (List.takeWhile_prefix _)).symm
  unfold CString.strtol
  dsimp only
  rw [← hspace, hsign]
  generalize hds : (buf.drop start).takeWhile isDigit = ds at hstop hdigits htake
  dsimp only
  rw [Nat.add_sub_cancel_left, htake]
  by_cases hnil : ds = []
  · subst hnil
    exact ⟨0, i, le_rfl, hi, by simp, by simp⟩
  · have hne : ¬ start + ds.length = start := by
      have := List.length_pos_iff.mpr hnil
      omega
    rw [if_neg hnil, if_neg hne]
    refine ⟨_, start + ds.length, by omega, hstop, rfl, ?_⟩
    rw [← hdigits]
    simp

end CheckedBuffer
