import DtnDht.Lib.CString
import Mathlib.Data.List.Basic

/-!
# Socket addresses

A `struct sockaddr` is the bytes the caller passes, in the layout of Linux: two bytes of family
in host order, two of port in network order, then for IPv4 four bytes of address and eight of
padding, for IPv6 four bytes of flow label, sixteen of address and four of scope.
-/

namespace DtnDht

/-- `AF_INET`. -/
def afInet : ℕ := 2

/-- `AF_INET6`. -/
def afInet6 : ℕ := 10

/-- The bytes behind a `struct sockaddr *`. -/
abbrev Sockaddr := Bytes

/-- `len` bytes of `s` from offset `off` on. -/
def slice (s : Bytes) (off len : ℕ) : Bytes := (s.drop off).take len

theorem slice_slice (s : Bytes) (off : ℕ) {len a n : ℕ} (h : a + n ≤ len) :
    slice (slice s off len) a n = slice s (off + a) n := by
  unfold slice
  rw [List.drop_take, List.drop_drop, List.take_take, min_eq_left (by omega)]

theorem length_slice {s : Bytes} {off len : ℕ} (h : off + len ≤ s.length) :
    (slice s off len).length = len := by
  unfold slice
  rw [List.length_take, List.length_drop]
  omega

theorem length_slice_le (s : Bytes) (off len : ℕ) : (slice s off len).length ≤ len :=
  List.length_take_le len _

/-- `memcpy(s + off, src, src.length)`. -/
def write (s : Bytes) (off : ℕ) (src : Bytes) : Bytes :=
  s.take off ++ (src ++ s.drop (off + src.length))

theorem length_write {s src : Bytes} {off : ℕ} (h : off + src.length ≤ s.length) :
    (write s off src).length = s.length := by
  simp only [write, List.length_append, List.length_take, List.length_drop]
  omega

theorem getElem?_write {s src : Bytes} {off : ℕ} (h : off + src.length ≤ s.length) (i : ℕ) :
    (write s off src)[i]? =
      if off ≤ i ∧ i < off + src.length then src[i - off]? else s[i]? := by
  have hl : (s.take off).length = off := by
    rw [List.length_take]
    omega
  unfold write
  rcases lt_or_ge i off with hi | hi
  · rw [if_neg (by omega), List.getElem?_append_left (by omega), List.getElem?_take_of_lt hi]
  · rw [List.getElem?_append_right (by omega), hl]
    rcases lt_or_ge i (off + src.length) with hi' | hi'
    · rw [if_pos ⟨hi, hi'⟩, List.getElem?_append_left (by omega)]
    · rw [if_neg (by omega), List.getElem?_append_right (by omega), List.getElem?_drop]
      congr 1
      omega

/-- What is written is read back. -/
theorem slice_write {s src : Bytes} {off n : ℕ} (h : off + src.length ≤ s.length)
    (hn : src.length = n) : slice (write s off src) off n = src := by
  subst hn
  apply List.ext_getElem?
  intro i
  unfold slice
  rw [List.getElem?_take, List.getElem?_drop, getElem?_write h]
  split_ifs with h1 h2
  · rw [Nat.add_sub_cancel_left]
  · omega
  · rw [List.getElem?_eq_none (by omega)]

/-- Bytes outside what is written stay. -/
theorem slice_write_of_disjoint {s src : Bytes} {off a n : ℕ} (h : off + src.length ≤ s.length)
    (hd : a + n ≤ off ∨ off + src.length ≤ a) : slice (write s off src) a n = slice s a n := by
  apply List.ext_getElem?
  intro i
  unfold slice
  rw [List.getElem?_take, List.getElem?_take, List.getElem?_drop, List.getElem?_drop,
    getElem?_write h]
  split_ifs with h1 h2
  · omega
  · rfl
  · rfl

namespace Sockaddr

/-- `sa->sa_family`. -/
def family (sa : Sockaddr) : ℕ := (sa.getD 0 0).toNat + 256 * (sa.getD 1 0).toNat

theorem family_write {s src : Bytes} {off : ℕ} (h : off + src.length ≤ s.length) (ho : 2 ≤ off) :
    family (write s off src) = family s := by
  unfold family
  rw [List.getD_eq_getElem?_getD, List.getD_eq_getElem?_getD, getElem?_write h, getElem?_write h,
    if_neg (by omega), if_neg (by omega), List.getD_eq_getElem?_getD, List.getD_eq_getElem?_getD]

/-- `sin_port`, and `sin6_port` at the same offset. -/
def port (sa : Sockaddr) : Bytes := slice sa 2 2

/-- `sin_addr`. -/
def sinAddr (sa : Sockaddr) : Bytes := slice sa 4 4

/-- `sin6_addr`. -/
def sin6Addr (sa : Sockaddr) : Bytes := slice sa 8 16

/-- The address proper, by family. -/
def ip (sa : Sockaddr) : Bytes := if sa.family = afInet then sa.sinAddr else sa.sin6Addr

end Sockaddr

/-- `sizeof(struct sockaddr_in)`. -/
def sizeofSockaddrIn : ℕ := 16

/-- `sizeof(struct sockaddr_in6)`. -/
def sizeofSockaddrIn6 : ℕ := 28

/-- `sizeof(struct sockaddr_storage)`. -/
def sizeofSockaddrStorage : ℕ := 128

/-- A zeroed `struct sockaddr_in` with its family, port and address set. -/
def sockaddrIn (ip port : Bytes) : Sockaddr :=
  [2, 0] ++ port ++ ip ++ List.replicate 8 0

/-- A zeroed `struct sockaddr_in6` with its family, port and address set. -/
def sockaddrIn6 (ip port : Bytes) : Sockaddr :=
  [10, 0] ++ port ++ List.replicate 4 0 ++ ip ++ List.replicate 4 0

/-- `sa` and `salen` are those of an IPv4 or an IPv6 address. -/
def IsSockaddr (sa : Sockaddr) (salen : ℕ) : Prop :=
  (sa.family = afInet ∧ salen = sizeofSockaddrIn ∨
    sa.family = afInet6 ∧ salen = sizeofSockaddrIn6) ∧ salen ≤ sa.length

instance (sa : Sockaddr) (salen : ℕ) : Decidable (IsSockaddr sa salen) := by
  unfold IsSockaddr; infer_instance

/-! ## Endpoints -/

/-- The family, address and port of a socket address. -/
def endpoint (sa : Sockaddr) : ℕ × Bytes × Bytes := (sa.family, sa.ip, sa.port)

theorem endpoint_sockaddrIn {ip port : Bytes} (hip : ip.length = 4) (hport : port.length = 2) :
    endpoint (sockaddrIn ip port) = (afInet, ip, port) := by
  obtain ⟨p, q, rfl⟩ := List.length_eq_two.mp hport
  refine Prod.ext rfl (Prod.ext ?_ rfl)
  have hslice : (sockaddrIn ip [p, q]).ip = (ip ++ List.replicate 8 0).take 4 := rfl
  rw [← hip, List.take_left] at hslice
  exact hslice

theorem endpoint_sockaddrIn6 {ip port : Bytes} (hip : ip.length = 16) (hport : port.length = 2) :
    endpoint (sockaddrIn6 ip port) = (afInet6, ip, port) := by
  obtain ⟨p, q, rfl⟩ := List.length_eq_two.mp hport
  refine Prod.ext rfl (Prod.ext ?_ rfl)
  have hslice : (sockaddrIn6 ip [p, q]).ip = (ip ++ List.replicate 4 0).take 16 := rfl
  rw [← hip, List.take_left] at hslice
  exact hslice

theorem slice_congr {s t : Bytes} {n off len : ℕ} (h : s.take n = t.take n) (hn : off + len ≤ n) :
    slice s off len = slice t off len := by
  have hslice (s : Bytes) : slice s off len = slice (s.take n) off len := by
    unfold slice
    rw [List.drop_take, List.take_take, min_eq_left (by omega)]
  rw [hslice s, hslice t, h]

theorem family_congr {s t : Sockaddr} {n : ℕ} (h : s.take n = t.take n) (hn : 2 ≤ n) :
    Sockaddr.family s = Sockaddr.family t := by
  have hget (i : ℕ) (hi : i < n) : s.getD i 0 = t.getD i 0 := by
    rw [List.getD_eq_getElem?_getD, List.getD_eq_getElem?_getD, ← List.getElem?_take_of_lt hi, h,
      List.getElem?_take_of_lt hi]
  unfold Sockaddr.family
  rw [hget 0 (by omega), hget 1 (by omega)]

/-- The endpoint stands in the bytes of an address. -/
theorem endpoint_congr {sa t : Sockaddr} {salen : ℕ} (h : IsSockaddr sa salen)
    (ht : sa.take salen = t.take salen) : endpoint sa = endpoint t := by
  obtain ⟨⟨hfam, rfl⟩ | ⟨hfam, rfl⟩, -⟩ := h
  · have hfam' : sa.family = t.family := family_congr ht (by decide)
    unfold endpoint Sockaddr.ip
    rw [if_pos hfam, if_pos (hfam'.symm.trans hfam), hfam']
    refine Prod.ext rfl (Prod.ext ?_ ?_)
    · exact slice_congr ht (by decide)
    · exact slice_congr ht (by decide)
  · have hfam' : sa.family = t.family := family_congr ht (by decide)
    have hne : ¬ sa.family = afInet := by rw [hfam]; decide
    unfold endpoint Sockaddr.ip
    rw [if_neg hne, if_neg (hfam' ▸ hne), hfam']
    refine Prod.ext rfl (Prod.ext ?_ ?_)
    · exact slice_congr ht (by decide)
    · exact slice_congr ht (by decide)

end DtnDht
