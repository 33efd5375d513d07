import Mathlib.Data.List.TakeWhile
import Mathlib.Tactic.Common
import Mathlib.Tactic.Ring

/-!
# Byte strings and the C library's text functions

Byte strings are lists; the terminating NUL of a C string is the end of the list. `decimal` is
the output of `%d` on a non-negative number and `strtol` reads a decimal number back together
with the bytes it stops at (`strtol_decimal`). `snprintf` writes at most `room` bytes, the last
of them a NUL when the text does not fit; `inc` and `copy` append to a buffer of a fixed size
and fail when it would overflow.
-/

/-- A string of bytes. -/
abbrev Bytes := List UInt8

namespace CString

/-- The bytes of an ASCII literal. -/
def str (s : String) : Bytes := s.toList.map fun c => UInt8.ofNat c.toNat

/-! ## Decimal numerals -/

/-- The digit byte of `d < 10`. -/
def digitByte (d : ℕ) : UInt8 := UInt8.ofNat (48 + d)

/-- The text of `%d` for a non-negative number. -/
def decimal (n : ℕ) : Bytes := (Nat.toDigits 10 n).map fun c => UInt8.ofNat c.toNat

/-- `isdigit`. -/
def isDigit (c : UInt8) : Bool := 48 ≤ c && c ≤ 57

/-- `isspace` in the C locale. -/
def isSpace (c : UInt8) : Bool := c == 32 || (9 ≤ c && c ≤ 13)

/-- The number a string of digits spells. -/
def digitsValue (ds : Bytes) : ℕ := ds.foldl (fun v d => 10 * v + (d.toNat - 48)) 0

theorem digitChar_byte : ∀ d < 10, UInt8.ofNat (Nat.digitChar d).toNat = digitByte d := by
  decide

theorem decimal_of_lt {n : ℕ} (h : n < 10) : decimal n = [digitByte n] := by
  simp [decimal, Nat.toDigits_of_lt_base h, digitChar_byte n h]

/-- The last digit comes off the end. -/
theorem decimal_of_le {n : ℕ} (h : 10 ≤ n) :
    decimal n = decimal (n / 10) ++ [digitByte (n % 10)] := by
  simp [decimal, Nat.toDigits_of_base_le (by decide) h,
    digitChar_byte (n % 10) (Nat.mod_lt _ (by decide))]

theorem isDigit_digitByte : ∀ d < 10, isDigit (digitByte d) = true := by decide

theorem toNat_digitByte : ∀ d < 10, (digitByte d).toNat = 48 + d := by decide

theorem decimal_ne_nil (n : ℕ) : decimal n ≠ [] := by
  rcases lt_or_ge n 10 with h | h
  · simp [decimal_of_lt h]
  · simp [decimal_of_le h]

theorem isDigit_of_mem_decimal {n : ℕ} : ∀ c ∈ decimal n, isDigit c = true := by
  induction n using Nat.strong_induction_on with
  | _ n ih =>
    intro c hc
    rcases lt_or_ge n 10 with h | h
    · rw [decimal_of_lt h, List.mem_singleton] at hc
      exact hc ▸ isDigit_digitByte n h
    · rw [decimal_of_le h, List.mem_append, List.mem_singleton] at hc
      rcases hc with hc | rfl
      · exact ih (n / 10) (by omega) c hc
      · exact isDigit_digitByte _ (Nat.mod_lt _ (by decide))

theorem digitsValue_append_digit (ds : Bytes) (d : UInt8) :
    digitsValue (ds ++ [d]) = 10 * digitsValue ds + (d.toNat - 48) := by
  simp [digitsValue]

theorem digitsValue_decimal (n : ℕ) : digitsValue (decimal n) = n := by
  induction n using Nat.strong_induction_on with
  | _ n ih =>
    rcases lt_or_ge n 10 with h | h
    · rw [decimal_of_lt h, ← List.nil_append [digitByte n], digitsValue_append_digit,
        toNat_digitByte n h]
      simp [digitsValue]
    · rw [decimal_of_le h, digitsValue_append_digit, ih (n / 10) (by omega),
        toNat_digitByte _ (Nat.mod_lt _ (by decide))]
      omega

theorem length_decimal_le {n k : ℕ} (hk : 0 < k) (h : n < 10 ^ k) : (decimal n).length ≤ k := by
  induction k generalizing n with
  | zero => omega
  | succ k ih =>
    rcases lt_or_ge n 10 with h' | h'
    · simp [decimal_of_lt h']
    · have hk' : 0 < k := by
        rcases Nat.eq_zero_or_pos k with rfl | hk'
        · omega
        · exact hk'
      have := ih hk' (n := n / 10) (by rw [Nat.pow_succ] at h; omega)
      simp only [decimal_of_le h', List.length_append, List.length_singleton]
      omega

/-! ## `strtol` -/

/-- `LONG_MAX`. -/
def longMax : ℤ := 2 ^ 63 - 1

/-- `LONG_MIN`. -/
def longMin : ℤ := -2 ^ 63

/-- The optional sign `strtol` reads: whether the number is negative, and the bytes after it. -/
def readSign : Bytes → Bool × Bytes
  | 43 :: u => (false, u)
  | 45 :: u => (true, u)
  | u => (false, u)

/-- `strtol(s, &q, 10)`: the number and the bytes from `q` on. Without a digit the number is 0
and `q` is `s`; a number out of range is cut to `LONG_MIN` or `LONG_MAX`. -/
def strtol (s : Bytes) : ℤ × Bytes :=
  let u := readSign (s.dropWhile isSpace)
  let ds := u.2.takeWhile isDigit
  if ds = [] then (0, s)
  else
    let v : ℤ := if u.1 then -(digitsValue ds : ℤ) else digitsValue ds
    (max longMin (min longMax v), u.2.dropWhile isDigit)

theorem not_isSpace_of_isDigit {c : UInt8} (h : isDigit c = true) : isSpace c = false := by
  simp only [isDigit, Bool.and_eq_true, decide_eq_true_eq, UInt8.le_iff_toNat_le] at h
  simp only [isSpace, Bool.or_eq_false_iff, beq_eq_false_iff_ne, ne_eq, Bool.and_eq_false_iff,
    decide_eq_false_iff_not, UInt8.le_iff_toNat_le, ← UInt8.toNat_inj]
  change 48 ≤ c.toNat ∧ c.toNat ≤ 57 at h
  change ¬ c.toNat = 32 ∧ (¬ 9 ≤ c.toNat ∨ ¬ c.toNat ≤ 13)
  omega

theorem readSign_of_isDigit {c : UInt8} {u : Bytes} (h : isDigit c = true) :
    readSign (c :: u) = (false, c :: u) := by
  have h1 : c ≠ 43 := by rintro rfl; exact absurd h (by decide)
  have h2 : c ≠ 45 := by rintro rfl; exact absurd h (by decide)
  unfold readSign
  split
  · rename_i he; exact absurd (List.cons.inj he).1 h1
  · rename_i he; exact absurd (List.cons.inj he).1 h2
  · rfl

/-- Digits followed by another byte are read up to that byte. -/
theorem strtol_digits {ds r : Bytes} {c : UInt8} (hne : ds ≠ []) (hds : ∀ d ∈ ds, isDigit d = true)
    (hc : isDigit c = false) (hv : (digitsValue ds : ℤ) ≤ longMax) :
    strtol (ds ++ c :: r) = ((digitsValue ds : ℤ), c :: r) := by
  obtain ⟨d, ds', rfl⟩ := List.exists_cons_of_ne_nil hne
  have hd : isDigit d = true := hds d List.mem_cons_self
  have hsp : ((d :: ds') ++ c :: r).dropWhile isSpace = (d :: ds') ++ c :: r := by
    rw [List.cons_append, List.dropWhile_cons_of_neg]
    simp [not_isSpace_of_isDigit hd]
  have htake : ((d :: ds') ++ c :: r).takeWhile isDigit = d :: ds' := by
    rw [List.takeWhile_append_of_pos hds, List.takeWhile_cons_of_neg (by simp [hc]),
      List.append_nil]
  have hdrop : ((d :: ds') ++ c :: r).dropWhile isDigit = c :: r := by
    rw [List.dropWhile_append_of_pos hds, List.dropWhile_cons_of_neg (by simp [hc])]
  have hsign : readSign ((d :: ds') ++ c :: r) = (false, (d :: ds') ++ c :: r) :=
    readSign_of_isDigit hd
  unfold strtol
  rw [hsp, hsign]
  simp only [htake, hdrop, List.cons_ne_nil, if_false, Bool.false_eq_true]
  rw [min_eq_right hv, max_eq_right]
  exact le_trans (by decide) (Int.natCast_nonneg _)

theorem strtol_decimal {n : ℕ} {c : UInt8} {r : Bytes} (hc : isDigit c = false)
    (hn : (n : ℤ) ≤ longMax) : strtol (decimal n ++ c :: r) = ((n : ℤ), c :: r) := by
  have h := strtol_digits (decimal_ne_nil n) isDigit_of_mem_decimal hc (r := r)
    (by rwa [digitsValue_decimal])
  rwa [digitsValue_decimal] at h

theorem readSign_suffix (s : Bytes) : (readSign s).2 <:+ s := by
  unfold readSign
  split
  · exact List.suffix_cons _ _
  · exact List.suffix_cons _ _
  · exact List.suffix_refl _

/-- `strtol` stops inside the text. -/
theorem strtol_suffix (s : Bytes) : (strtol s).2 <:+ s := by
  unfold strtol
  dsimp only
  by_cases hds : (readSign (s.dropWhile isSpace)).2.takeWhile isDigit = []
  · simp only [if_pos hds, List.suffix_rfl]
  · rw [if_neg hds]
    exact ((List.dropWhile_suffix _).trans (readSign_suffix _)).trans (List.dropWhile_suffix _)

/-- A text that starts with neither a space nor a sign nor a digit holds no number. -/
theorem strtol_of_not_numeral {c : UInt8} {s : Bytes} (hspace : isSpace c = false)
    (hdigit : isDigit c = false) (hplus : c ≠ 43) (hminus : c ≠ 45) :
    strtol (c :: s) = (0, c :: s) := by
  have hsign : readSign (c :: s) = (false, c :: s) := by
    unfold readSign
    split
    · rename_i he; exact absurd (List.cons.inj he).1 hplus
    · rename_i he; exact absurd (List.cons.inj he).1 hminus
    · rfl
  unfold strtol
  rw [List.dropWhile_cons_of_neg (by rw [hspace]; exact Bool.false_ne_true), hsign]
  dsimp only
  rw [List.takeWhile_cons_of_neg (by rw [hdigit]; exact Bool.false_ne_true), if_pos rfl]

/-! ## Buffers of a fixed size -/

/-- What `snprintf` leaves in the `room` bytes it may use: the text if its terminator fits too,
else as much of the text as leaves room for the terminator. -/
def snprintf (room : ℕ) (s : Bytes) : Bytes :=
  if s.length < room then s else (s.take (room - 1) ++ [0]).take room

/-- `snprintf(buf + i, size - i, …)` and the check that its result still fits, `buf` being the
`i` bytes written so far. -/
def inc (size : ℕ) (s buf : Bytes) : Option Bytes :=
  if size < buf.length + s.length then none else some (buf ++ snprintf (size - buf.length) s)

/-- `memcpy(buf + i, src, delta)` and its check. -/
def copy (size : ℕ) (src buf : Bytes) : Option Bytes :=
  if size < buf.length + src.length then none else some (buf ++ src)

/-- `memcpy(dst, src, n)` into the array `dst`. -/
def memcpy (dst src : Bytes) (n : ℕ) : Bytes := src.take n ++ dst.drop n

theorem memcpy_take (dst s : Bytes) : (memcpy dst s s.length).take s.length = s := by
  simp [memcpy]

theorem take_memcpy (dst : Bytes) {src : Bytes} {n : ℕ} (h : n ≤ src.length) :
    (memcpy dst src n).take n = src.take n :=
  List.take_left' (List.length_take_of_le h)

theorem drop_memcpy (dst : Bytes) {src : Bytes} {n : ℕ} (h : n ≤ src.length) :
    (memcpy dst src n).drop n = dst.drop n :=
  List.drop_left' (List.length_take_of_le h)

/-- `f` appends `s` to every buffer that has room for it and one byte more. -/
def Appends (size : ℕ) (s : Bytes) (f : Bytes → Option Bytes) : Prop :=
  ∀ buf : Bytes, buf.length + s.length < size → f buf = some (buf ++ s)

theorem appends_inc (size : ℕ) (s : Bytes) : Appends size s (inc size s) := by
  intro buf h
  rw [inc, if_neg (by omega), snprintf, if_pos (by omega)]

theorem appends_copy (size : ℕ) (s : Bytes) : Appends size s (copy size s) := by
  intro buf h
  rw [copy, if_neg (by omega)]

theorem appends_pure (size : ℕ) : Appends size [] some := by
  intro buf _
  rw [List.append_nil]

theorem Appends.bind {size : ℕ} {s t : Bytes} {f g : Bytes → Option Bytes}
    (hf : Appends size s f) (hg : Appends size t g) :
    Appends size (s ++ t) (fun buf => f buf >>= g) := by
  intro buf h
  rw [List.length_append] at h
  show (f buf).bind g = _
  rw [hf buf (by omega), Option.bind_some, hg (buf ++ s) (by rw [List.length_append]; omega),
    List.append_assoc]

/-- A loop whose body appends `enc x` for the element `x` appends all of them in order. -/
theorem Appends.foldlM {β : Type*} {size : ℕ} {f : Bytes → β → Option Bytes} {enc : β → Bytes}
    (hf : ∀ x, Appends size (enc x) (fun buf => f buf x)) (xs : List β) :
    Appends size (xs.flatMap enc) (fun buf => xs.foldlM f buf) := by
  induction xs with
  | nil => exact appends_pure size
  | cons x xs ih => simpa only [List.foldlM_cons, List.flatMap_cons] using (hf x).bind ih

/-- `f` appends `s` to a buffer with room for it and one byte more, fills up a buffer with just
enough room, whatever with, and fails if there is less. -/
structure Writes (size : ℕ) (s : Bytes) (f : Bytes → Option Bytes) : Prop where
  appends : Appends size s f
  fills : ∀ buf : Bytes, buf.length + s.length = size → ∃ out, f buf = some out ∧ out.length = size
  fails : ∀ buf : Bytes, buf.length ≤ size → size < buf.length + s.length → f buf = none

theorem length_snprintf (s : Bytes) : (snprintf s.length s).length = s.length := by
  rw [snprintf, if_neg (lt_irrefl _), List.length_take, List.length_append, List.length_take,
    List.length_singleton]
  omega

theorem writes_inc (size : ℕ) (s : Bytes) : Writes size s (inc size s) where
  appends := appends_inc size s
  fills buf h := by
    refine ⟨_, if_neg (by omega), ?_⟩
    rw [← h, Nat.add_sub_cancel_left, List.length_append, length_snprintf]
  fails _ _ h := if_pos h

theorem writes_copy (size : ℕ) (s : Bytes) : Writes size s (copy size s) where
  appends := appends_copy size s
  fills buf h := ⟨_, if_neg (by omega), by rw [List.length_append, h]⟩
  fails _ _ h := if_pos h

theorem writes_pure (size : ℕ) : Writes size [] some where
  appends := appends_pure size
  fills buf h := ⟨buf, rfl, h⟩
  fails _ h h' := absurd h' (not_lt.mpr h)

theorem Writes.bind {size : ℕ} {s t : Bytes} {f g : Bytes → Option Bytes}
    (hf : Writes size s f) (hg : Writes size t g) :
    Writes size (s ++ t) (fun buf => f buf >>= g) where
  appends := hf.appends.bind hg.appends
  fills buf h := by
    rw [List.length_append, ← Nat.add_assoc] at h
    show ∃ out, (f buf).bind g = some out ∧ _
    rcases Nat.eq_zero_or_pos t.length with ht | ht
    · -- The first writer has filled the buffer, and the second adds nothing.
      obtain ⟨mid, hmid, hlen⟩ := hf.fills buf (by omega)
      rw [hmid, Option.bind_some]
      exact hg.fills mid (by omega)
    · rw [hf.appends buf (by omega), Option.bind_some]
      exact hg.fills (buf ++ s) (by rwa [List.length_append])
  fails buf hbuf h := by
    rw [List.length_append, ← Nat.add_assoc] at h
    show (f buf).bind g = none
    rcases lt_trichotomy (buf.length + s.length) size with hlt | heq | hgt
    · rw [hf.appends buf hlt, Option.bind_some]
      exact hg.fails _ (by rw [List.length_append]; omega) (by rwa [List.length_append])
    · obtain ⟨mid, hmid, hlen⟩ := hf.fills buf heq
      rw [hmid, Option.bind_some]
      exact hg.fails mid hlen.le (by omega)
    · rw [hf.fails buf hbuf hgt, Option.bind_none]

/-- A loop whose body writes `enc x` for the element `x` writes all of them in order. -/
theorem Writes.foldlM {β : Type*} {size : ℕ} {f : Bytes → β → Option Bytes} {enc : β → Bytes}
    (hf : ∀ x, Writes size (enc x) (fun buf => f buf x)) (xs : List β) :
    Writes size (xs.flatMap enc) (fun buf => xs.foldlM f buf) := by
  induction xs with
  | nil => exact writes_pure size
  | cons x xs ih => simpa only [List.foldlM_cons, List.flatMap_cons] using (hf x).bind ih

/-- `f` leaves what it finds in the buffer in its place. -/
def Extends (f : Bytes → Option Bytes) : Prop := ∀ buf, ∀ out ∈ f buf, buf <+: out

theorem extends_some : Extends some := fun _ _ hout =>
  Option.some_inj.mp hout ▸ List.prefix_rfl

theorem extends_inc (size : ℕ) (s : Bytes) : Extends (inc size s) := by
  intro buf out hout
  unfold inc at hout
  split_ifs at hout
  · exact absurd hout (Option.not_mem_none out)
  · exact Option.some_inj.mp hout ▸ List.prefix_append _ _

theorem extends_copy (size : ℕ) (src : Bytes) : Extends (copy size src) := by
  intro buf out hout
  unfold copy at hout
  split_ifs at hout
  · exact absurd hout (Option.not_mem_none out)
  · exact Option.some_inj.mp hout ▸ List.prefix_append _ _

theorem Extends.bind {f g : Bytes → Option Bytes} (hf : Extends f) (hg : Extends g) :
    Extends fun buf => f buf >>= g := by
  intro buf out hout
  obtain ⟨mid, hmid, hrest⟩ := Option.bind_eq_some_iff.mp hout
  exact (hf buf mid hmid).trans (hg mid out hrest)

theorem Extends.ite {f g : Bytes → Option Bytes} {p : Prop} [Decidable p] (hf : Extends f)
    (hg : Extends g) : Extends fun buf => if p then f buf else g buf := by
  split_ifs
  · exact hf
  · exact hg

theorem Extends.foldlM {β : Type*} {f : Bytes → β → Option Bytes}
    (hf : ∀ x, Extends fun buf => f buf x) (xs : List β) :
    Extends fun buf => xs.foldlM f buf := by
  induction xs with
  | nil => exact extends_some
  | cons x xs ih => simpa only [List.foldlM_cons] using (hf x).bind ih

end CString
