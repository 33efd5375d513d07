import DtnDht.Lib.Records
import DtnDht.Maintenance

/-!
# Saving and restoring the nodes

`bootstrapping_save_conf` writes the IPv4 nodes as records of 6 bytes, 20 zero bytes and the IPv6
nodes as records of 18 bytes; `bootstrapping_load_conf` takes the first 20 zero bytes for the
separator. A last IPv4 port whose low byte is zero lengthens the separator to the left by one, the
lengths no longer add up and nothing is restored. That is the only way it goes wrong
(`restored_iff`).
-/

namespace DtnDht

open CString Occurrence Records

/-- What is written for an IPv4 node. -/
def record4 (sin : Sockaddr) : Bytes := sin.sinAddr ++ sin.port

/-- What is written for an IPv6 node. -/
def record6 (sin6 : Sockaddr) : Bytes := sin6.sin6Addr ++ sin6.port

/-- `separator`. -/
def separator : Bytes := List.replicate 20 0

/-- The file after `bootstrapping_save_conf` if every write succeeds. -/
def bootstrappingSaveConf (r : Routing) (now : ℤ) (myid : Id) : Bytes :=
  let nodes := r.dhtGetNodes now myid 300 300
  nodes.1.flatMap record4 ++ separator ++ nodes.2.flatMap record6

/-- `300 * ipv4 + separator + 300 * ipv6`. -/
def inputSize : ℕ := 300 * 6 + 20 + 300 * 18

/-- `size_t` arithmetic is modulo this number. -/
def sizeModulus : ℕ := 2 ^ 64

/-- A `struct sockaddr_in6` whose family, address and port are set; the rest is what `in6` held. -/
def sockaddrIn6Over (in6 ip port : Bytes) : Sockaddr :=
  [10, 0] ++ port ++ slice in6 4 4 ++ ip ++ slice in6 24 4

/-- The calls of `dht_ping_node` that `bootstrapping_load_conf` makes on a file. `behind` is the
memory behind the buffer, which the comparison with the separator may read, and `in6` the initial
contents of its local variable. -/
def bootstrappingLoadConf (behind in6 file : Bytes) : List (Sockaddr × ℕ) :=
  let inputlen := min file.length inputSize
  let inputbuf := file.take inputSize ++ List.replicate (inputSize - inputlen) 1
  match (findInfix separator (inputbuf ++ behind)).filter (· < inputlen) with
  | none => []
  | some psep =>
    let numberOfIPv4 := psep / 6
    let numberOfIPv6 := (inputlen + sizeModulus - (psep + 20)) % sizeModulus / 18
    if inputlen = (numberOfIPv4 * 6 + 20 + numberOfIPv6 * 18) % sizeModulus then
      (List.range numberOfIPv4).map (fun i =>
        (sockaddrIn (slice inputbuf (6 * i) 4) (slice inputbuf (6 * i + 4) 2),
          sizeofSockaddrIn)) ++
      (List.range numberOfIPv6).map fun i =>
        (sockaddrIn6Over in6 (slice inputbuf (18 * i + 20 + 6 * numberOfIPv4) 16)
          (slice inputbuf (18 * i + 16 + 20 + 6 * numberOfIPv4) 2), sizeofSockaddrIn6)
    else []

/-! ## Records -/

/-- A `struct sockaddr_in` with an address a node of the table may have. -/
structure IsNode4 (sin : Sockaddr) : Prop where
  length : sin.length = sizeofSockaddrIn
  family : sin.family = afInet
  not_martian : isMartian sin = false

/-- A `struct sockaddr_in6` with an address a node of the table may have. -/
structure IsNode6 (sin6 : Sockaddr) : Prop where
  length : sin6.length = sizeofSockaddrIn6
  family : sin6.family = afInet6
  not_martian : isMartian sin6 = false

theorem IsNode4.length_record {sin : Sockaddr} (h : IsNode4 sin) : (record4 sin).length = 6 := by
  have hl := h.length
  unfold sizeofSockaddrIn at hl
  rw [record4, Sockaddr.sinAddr, Sockaddr.port, List.length_append, length_slice (by omega),
    length_slice (by omega)]

theorem IsNode6.length_record {sin6 : Sockaddr} (h : IsNode6 sin6) :
    (record6 sin6).length = 18 := by
  have hl := h.length
  unfold sizeofSockaddrIn6 at hl
  rw [record6, Sockaddr.sin6Addr, Sockaddr.port, List.length_append, length_slice (by omega),
    length_slice (by omega)]

/-- An IPv4 node has a record of four bytes of address, the first not zero, and two of port, not
both zero. -/
theorem IsNode4.record {sin : Sockaddr} (h : IsNode4 sin) : ∃ a b c d p q : UInt8,
    sin.sinAddr = [a, b, c, d] ∧ sin.port = [p, q] ∧ a ≠ 0 ∧ ¬ (p = 0 ∧ q = 0) := by
  obtain ⟨hlen, hfam, hmart⟩ := h
  obtain ⟨x0, x1, p, q, a, b, c, d, t, rfl⟩ : ∃ x0 x1 p q a b c d t,
      sin = x0 :: x1 :: p :: q :: a :: b :: c :: d :: t := by
    match sin, hlen with
    | x0 :: x1 :: p :: q :: a :: b :: c :: d :: t, _ => exact ⟨x0, x1, p, q, a, b, c, d, t, rfl⟩
  refine ⟨a, b, c, d, p, q, rfl, rfl, ?_, ?_⟩
  · rintro rfl
    rw [isMartian, if_pos hfam] at hmart
    simp [Sockaddr.sinAddr, slice] at hmart
  · rintro ⟨rfl, rfl⟩
    rw [isMartian, if_pos hfam] at hmart
    simp [Sockaddr.port, slice] at hmart

/-! ## The separator -/

/-- How much of the IPv4 records comes before the first 20 zeros. -/
def lastPortLow (sins : List Sockaddr) : UInt8 := sins.getLast?.elim 1 fun s => s.port.getD 1 0

theorem findInfix_separator {sins : List Sockaddr} (h : ∀ s ∈ sins, IsNode4 s) (tail : Bytes) :
    findInfix separator (sins.flatMap record4 ++ separator ++ tail) =
      some (6 * sins.length - if lastPortLow sins = 0 then 1 else 0) := by
  have hlen : ∀ r ∈ sins.map record4, r.length = 6 := by
    intro r hr
    obtain ⟨s, hs, rfl⟩ := List.mem_map.mp hr
    exact (h s hs).length_record
  have hhead : ∀ r ∈ sins.map record4, r.head? ≠ some 0 := by
    intro r hr
    obtain ⟨s, hs, rfl⟩ := List.mem_map.mp hr
    obtain ⟨a, b, c, d, p, q, ha, hp, h0, -⟩ := (h s hs).record
    rw [record4, ha]
    simpa using h0
  have hrun := not_replicate_infix (m := 20) hlen hhead (by decide) (by decide)
  rw [List.flatMap_def, separator, findInfix_replicate hrun]
  congr 1
  have hlength := length_flatten hlen
  rw [List.length_map] at hlength
  rcases List.eq_nil_or_concat sins with rfl | ⟨ss, s, rfl⟩
  · rfl
  obtain ⟨a, b, c, d, p, q, ha, hp, -, h0⟩ := (h s (by simp)).record
  have hlow : lastPortLow (ss.concat s) = q := by simp [lastPortLow, hp]
  have hflat : ((ss.concat s).map record4).flatten =
      ((ss.map record4).flatten ++ [a, b, c, d, p]) ++ [q] := by
    simp [record4, ha, hp]
  rw [hlow, hflat]
  rw [hflat] at hlength
  split_ifs with hq
  · have hp0 : ¬ p = 0 := fun hp0 => h0 ⟨hp0, hq⟩
    have hsplit : (ss.map record4).flatten ++ [a, b, c, d, p] =
        ((ss.map record4).flatten ++ [a, b, c, d]) ++ [p] := by simp
    rw [List.rdropWhile_concat_pos _ _ _ (by simpa using hq), hsplit,
      List.rdropWhile_concat_neg _ _ _ (by simpa using hp0), ← hsplit]
    rw [List.length_append] at hlength
    simp only [List.length_singleton] at hlength
    omega
  · rw [List.rdropWhile_concat_neg _ _ _ (by simpa using hq), hlength]
    omega

/-! ## Restoring -/

theorem length_flatMap_record4 {sins : List Sockaddr} (h : ∀ s ∈ sins, IsNode4 s) :
    (sins.flatMap record4).length = 6 * sins.length := by
  rw [List.flatMap_def, length_flatten (n := 6), List.length_map, Nat.mul_comm]
  rintro r hr
  obtain ⟨s, hs, rfl⟩ := List.mem_map.mp hr
  exact (h s hs).length_record

theorem length_flatMap_record6 {sins6 : List Sockaddr} (h : ∀ s ∈ sins6, IsNode6 s) :
    (sins6.flatMap record6).length = 18 * sins6.length := by
  rw [List.flatMap_def, length_flatten (n := 18), List.length_map, Nat.mul_comm]
  rintro r hr
  obtain ⟨s, hs, rfl⟩ := List.mem_map.mp hr
  exact (h s hs).length_record

/-- Reading the IPv4 records. -/
theorem read_records4 {sins : List Sockaddr} (h : ∀ s ∈ sins, IsNode4 s) (tail : Bytes) :
    (List.range sins.length).map (fun i => (sockaddrIn
        (slice (sins.flatMap record4 ++ tail) (6 * i) 4)
        (slice (sins.flatMap record4 ++ tail) (6 * i + 4) 2), sizeofSockaddrIn)) =
      sins.map fun s => (sockaddrIn s.sinAddr s.port, sizeofSockaddrIn) := by
  have hlen : ∀ r ∈ sins.map record4, r.length = 6 := by
    intro r hr
    obtain ⟨s, hs, rfl⟩ := List.mem_map.mp hr
    exact (h s hs).length_record
  have hread := map_range_flatten
    (fun r => (sockaddrIn (slice r 0 4) (slice r 4 2), sizeofSockaddrIn)) hlen tail
  rw [List.length_map, List.map_map] at hread
  refine Eq.trans ?_ (hread.trans (List.map_congr_left fun s hs => ?_))
  · apply List.map_congr_left
    intro i _
    rw [List.flatMap_def]
    have h1 := slice_slice ((sins.map record4).flatten ++ tail) (6 * i) (by decide : 0 + 4 ≤ 6)
    have h2 := slice_slice ((sins.map record4).flatten ++ tail) (6 * i) (by decide : 4 + 2 ≤ 6)
    rw [← h2]
    exact congrArg (fun ip => (sockaddrIn ip _, sizeofSockaddrIn)) h1.symm
  · obtain ⟨a, b, c, d, p, q, ha, hp, -, -⟩ := (h s hs).record
    simp [record4, ha, hp, slice]

/-- Reading the IPv6 records. -/
theorem read_records6 {sins6 : List Sockaddr} (h : ∀ s ∈ sins6, IsNode6 s) (in6 tail : Bytes) :
    (List.range sins6.length).map (fun i => (sockaddrIn6Over in6
        (slice (sins6.flatMap record6 ++ tail) (18 * i) 16)
        (slice (sins6.flatMap record6 ++ tail) (18 * i + 16) 2), sizeofSockaddrIn6)) =
      sins6.map fun s => (sockaddrIn6Over in6 s.sin6Addr s.port, sizeofSockaddrIn6) := by
  have hlen : ∀ r ∈ sins6.map record6, r.length = 18 := by
    intro r hr
    obtain ⟨s, hs, rfl⟩ := List.mem_map.mp hr
    exact (h s hs).length_record
  have hread := map_range_flatten
    (fun r => (sockaddrIn6Over in6 (slice r 0 16) (slice r 16 2), sizeofSockaddrIn6)) hlen tail
  rw [List.length_map, List.map_map] at hread
  refine Eq.trans ?_ (hread.trans (List.map_congr_left fun s hs => ?_))
  · apply List.map_congr_left
    intro i _
    rw [List.flatMap_def]
    have h1 := slice_slice ((sins6.map record6).flatten ++ tail) (18 * i)
      (by decide : 0 + 16 ≤ 18)
    have h2 := slice_slice ((sins6.map record6).flatten ++ tail) (18 * i)
      (by decide : 16 + 2 ≤ 18)
    rw [← h2]
    exact congrArg (fun ip => (sockaddrIn6Over in6 ip _, sizeofSockaddrIn6)) h1.symm
  · have hl := (h s hs).length
    unfold sizeofSockaddrIn6 at hl
    have h16 : s.sin6Addr.length = 16 := length_slice (by omega)
    have h2 : s.port.length = 2 := length_slice (by omega)
    have e1 : slice (record6 s) 0 16 = s.sin6Addr := List.take_left' h16
    have e2 : slice (record6 s) 16 2 = s.port := by
      unfold slice record6
      rw [List.drop_left' h16, List.take_of_length_le h2.le]
    simp only [Function.comp, e1, e2]

variable {sins sins6 : List Sockaddr}

/-- A difference in `size_t` that is not negative. -/
theorem size_sub {inputlen psep d : ℕ} (h : inputlen = psep + 20 + d) (hd : d < sizeModulus) :
    (inputlen + sizeModulus - (psep + 20)) % sizeModulus = d := by
  have e : inputlen + sizeModulus - (psep + 20) = d + sizeModulus := by omega
  rw [e, Nat.add_mod_right, Nat.mod_eq_of_lt hd]

theorem lt_sizeModulus {d : ℕ} (hd : d < 10000) : d < sizeModulus :=
  hd.trans (by decide)

/-- What is pinged when a complete file is loaded. -/
theorem bootstrappingLoadConf_eq (h : ∀ s ∈ sins, IsNode4 s) (h6 : ∀ s ∈ sins6, IsNode6 s)
    (hn : sins.length ≤ 300) (hn6 : sins6.length ≤ 300) (behind in6 : Bytes) :
    bootstrappingLoadConf behind in6
        (sins.flatMap record4 ++ separator ++ sins6.flatMap record6) =
      if lastPortLow sins = 0 then []
      else sins.map (fun s => (sockaddrIn s.sinAddr s.port, sizeofSockaddrIn)) ++
        sins6.map fun s => (sockaddrIn6Over in6 s.sin6Addr s.port, sizeofSockaddrIn6) := by
  have hl4 := length_flatMap_record4 h
  have hl6 := length_flatMap_record6 h6
  have hsep : separator.length = 20 := rfl
  set file := sins.flatMap record4 ++ separator ++ sins6.flatMap record6 with hfile
  have hlen : file.length = 6 * sins.length + 20 + 18 * sins6.length := by
    rw [hfile, List.length_append, List.length_append, hl4, hl6, hsep]
  have hsize : file.length ≤ inputSize := by
    rw [hlen]; unfold inputSize; omega
  set ones := List.replicate (inputSize - min file.length inputSize) (1 : UInt8) with hones
  have hfind := findInfix_separator h (sins6.flatMap record6 ++ ones ++ behind)
  have hbuf : file.take inputSize ++ ones ++ behind =
      sins.flatMap record4 ++ separator ++ (sins6.flatMap record6 ++ ones ++ behind) := by
    rw [List.take_of_length_le hsize, hfile]
    simp only [List.append_assoc]
  have hpos : (6 * sins.length - if lastPortLow sins = 0 then 1 else 0) <
      min file.length inputSize := by
    rw [min_eq_left hsize, hlen]
    omega
  unfold bootstrappingLoadConf
  dsimp only
  rw [← hones, hbuf, hfind, Option.filter_some, if_pos (decide_eq_true hpos), min_eq_left hsize,
    hlen]
  by_cases hlow : lastPortLow sins = 0
  · -- the separator is found one byte early, and 6 bytes are missing from the sum
    rw [if_pos hlow]
    have hpos' : 0 < sins.length := by
      rcases sins with _ | ⟨s, sins⟩
      · exact absurd hlow (by decide)
      · simp
    have e4 : (6 * sins.length - 1) / 6 = sins.length - 1 := by omega
    have e6 : (18 * sins6.length + 1) / 18 = sins6.length := by omega
    have hlen : 6 * sins.length + 20 + 18 * sins6.length =
        6 * sins.length - 1 + 20 + (18 * sins6.length + 1) := by omega
    have hsub := size_sub hlen (lt_sizeModulus (by omega))
    have hsum : 6 * sins.length + 20 + 18 * sins6.length ≠
        ((sins.length - 1) * 6 + 20 + sins6.length * 18) % sizeModulus := by
      rw [Nat.mod_eq_of_lt (lt_sizeModulus (by omega))]
      omega
    dsimp only
    rw [if_pos hlow, hsub, e4, e6, if_neg hsum]
  · rw [if_neg hlow]
    dsimp only
    rw [if_neg hlow]
    have e4 : (6 * sins.length - 0) / 6 = sins.length := by omega
    have e6 : 18 * sins6.length / 18 = sins6.length := by omega
    have hlen : 6 * sins.length + 20 + 18 * sins6.length =
        6 * sins.length - 0 + 20 + 18 * sins6.length := by omega
    have hsub := size_sub hlen (lt_sizeModulus (by omega))
    have hsum : 6 * sins.length + 20 + 18 * sins6.length =
        (sins.length * 6 + 20 + sins6.length * 18) % sizeModulus := by
      rw [Nat.mod_eq_of_lt (lt_sizeModulus (by omega))]
      omega
    rw [hsub, e4, e6, if_pos hsum, List.take_of_length_le hsize]
    have hfile4 : file ++ ones = sins.flatMap record4 ++
        (separator ++ sins6.flatMap record6 ++ ones) := by
      rw [hfile]; simp only [List.append_assoc]
    have hfile6 : ∀ off n, slice (file ++ ones) (off + 20 + 6 * sins.length) n =
        slice (sins6.flatMap record6 ++ ones) off n := by
      intro off n
      have : file ++ ones = (sins.flatMap record4 ++ separator) ++
          (sins6.flatMap record6 ++ ones) := by
        rw [hfile]; simp only [List.append_assoc]
      unfold slice
      rw [this, show off + 20 + 6 * sins.length =
        (sins.flatMap record4 ++ separator).length + off by
          rw [List.length_append, hl4, hsep]; omega, ← List.drop_drop, List.drop_left]
    rw [← read_records6 h6 in6 ones, ← read_records4 h (separator ++ sins6.flatMap record6 ++ ones),
      ← hfile4]
    simp only [hfile6]

/-- Loading the saved file pings the saved IPv4 and then the saved IPv6 nodes, in order. -/
def Restored (behind in6 : Bytes) (r : Routing) (now : ℤ) (myid : Id) : Prop :=
  let nodes := r.dhtGetNodes now myid 300 300
  (bootstrappingLoadConf behind in6 (bootstrappingSaveConf r now myid)).map
      (fun call => endpoint call.1) = nodes.1.map endpoint ++ nodes.2.map endpoint

theorem IsNode4.endpoint_sockaddrIn {s : Sockaddr} (h : IsNode4 s) :
    endpoint (sockaddrIn s.sinAddr s.port) = endpoint s := by
  obtain ⟨a, b, c, d, p, q, ha, hp, -, -⟩ := h.record
  unfold endpoint Sockaddr.ip
  rw [if_pos h.family, h.family, ha, hp]
  rfl

theorem endpoint_sockaddrIn6Over {s : Sockaddr} (h : IsNode6 s) {in6 : Bytes}
    (hin6 : in6.length = sizeofSockaddrIn6) :
    endpoint (sockaddrIn6Over in6 s.sin6Addr s.port) = endpoint s := by
  have hl := h.length
  unfold sizeofSockaddrIn6 at hl hin6
  have h16 : s.sin6Addr.length = 16 := length_slice (by omega)
  have h2 : s.port.length = 2 := length_slice (by omega)
  have h4 : (slice in6 4 4).length = 4 := length_slice (by omega)
  obtain ⟨p, q, hp⟩ := List.length_eq_two.mp h2
  have hfam : (sockaddrIn6Over in6 s.sin6Addr s.port).family = afInet6 := rfl
  have hport : (sockaddrIn6Over in6 s.sin6Addr s.port).port = s.port := by
    rw [hp]; rfl
  have haddr : (sockaddrIn6Over in6 s.sin6Addr s.port).sin6Addr = s.sin6Addr := by
    have e : sockaddrIn6Over in6 s.sin6Addr s.port =
        ([10, 0] ++ s.port ++ slice in6 4 4) ++ (s.sin6Addr ++ slice in6 24 4) := by
      simp only [sockaddrIn6Over, List.append_assoc]
    change slice _ 8 16 = _
    unfold slice
    rw [e, List.drop_left' (by simp [h2, h4]), List.take_left' h16]
  unfold endpoint Sockaddr.ip
  have hne : ¬ afInet6 = afInet := by decide
  rw [hfam, hport, haddr, h.family, if_neg hne, if_neg hne]

/-- **Saved nodes are restored** exactly when there is no IPv4 node or the low byte of the port of
the last one is not zero. -/
theorem restored_iff {behind in6 : Bytes} (hin6 : in6.length = sizeofSockaddrIn6) {r : Routing}
    {now : ℤ} {myid : Id} (h : ∀ s ∈ (r.dhtGetNodes now myid 300 300).1, IsNode4 s)
    (h6 : ∀ s ∈ (r.dhtGetNodes now myid 300 300).2, IsNode6 s) :
    Restored behind in6 r now myid ↔
      ∀ s ∈ (r.dhtGetNodes now myid 300 300).1.getLast?, s.port.getD 1 0 ≠ 0 := by
  have hn : (r.dhtGetNodes now myid 300 300).1.length ≤ 300 := by
    simp only [Routing.dhtGetNodes, List.length_map]
    exact List.length_take_le _ _
  have hn6 : (r.dhtGetNodes now myid 300 300).2.length ≤ 300 := by
    simp only [Routing.dhtGetNodes, List.length_map]
    exact List.length_take_le _ _
  unfold Restored bootstrappingSaveConf
  dsimp only
  generalize (r.dhtGetNodes now myid 300 300).1 = sins at *
  generalize (r.dhtGetNodes now myid 300 300).2 = sins6 at *
  rw [bootstrappingLoadConf_eq h h6 hn hn6]
  have hlow : lastPortLow sins = 0 ↔ ∃ s ∈ sins.getLast?, s.port.getD 1 0 = 0 := by
    unfold lastPortLow
    cases sins.getLast? <;> simp
  split_ifs with h0
  · obtain ⟨s, hs, hport⟩ := hlow.mp h0
    have hmem : s ∈ sins := List.mem_of_getLast? hs
    constructor
    · intro he
      rw [List.map_nil, eq_comm, List.append_eq_nil_iff, List.map_eq_nil_iff] at he
      rw [he.1] at hmem
      exact absurd hmem List.not_mem_nil
    · exact fun hall => absurd hport (hall s hs)
  · constructor
    · exact fun _ s hs hport => h0 (hlow.mpr ⟨s, hs, hport⟩)
    · intro _
      rw [List.map_append, List.map_map, List.map_map]
      congr 1
      · exact List.map_congr_left fun s hs => (h s hs).endpoint_sockaddrIn
      · exact List.map_congr_left fun s hs => endpoint_sockaddrIn6Over (h6 s hs) hin6

/-- A table with one good node. -/
def oneNode (port : Bytes) : Routing where
  buckets := [{ callocBucket afInet Id.zeroes with
    count := 1
    nodes := [⟨Id.ofBytes [1], memcpy zeroStorage (sockaddrIn [9, 9, 9, 9] port) 16, 16,
      1000, 1000, 0, 0⟩] }]
  buckets6 := []
  mybucketGrowTime := 0
  mybucket6GrowTime := 0

theorem dhtGetNodes_oneNode (p : UInt8) :
    (oneNode [0x1a, p]).dhtGetNodes 1000 Id.zeroes 300 300 =
      ([sockaddrIn [9, 9, 9, 9] [0x1a, p]], []) := by
  rfl

/-- A node with port 6881 is restored. -/
theorem restored_oneNode :
    Restored [] (List.replicate 28 7) (oneNode [0x1a, 0xe1]) 1000 Id.zeroes := by
  refine (restored_iff rfl ?_ ?_).mpr ?_
  · rw [dhtGetNodes_oneNode, List.forall_mem_singleton]
    exact ⟨rfl, rfl, by decide⟩
  · rw [dhtGetNodes_oneNode]
    exact fun s hs => absurd hs List.not_mem_nil
  · rw [dhtGetNodes_oneNode]
    decide

/-- A node with port 6656 is not: the file has 26 bytes, the first 20 zeros start at its sixth. -/
theorem restored_lowPortZero :
    isMartian (sockaddrIn [9, 9, 9, 9] [0x1a, 0]) = false ∧
      (oneNode [0x1a, 0]).dhtGetNodes 1000 Id.zeroes 300 300 =
        ([sockaddrIn [9, 9, 9, 9] [0x1a, 0]], []) ∧
      ¬ Restored [] (List.replicate 28 7) (oneNode [0x1a, 0]) 1000 Id.zeroes := by
  refine ⟨by decide, dhtGetNodes_oneNode 0, fun h => ?_⟩
  have hnode : IsNode4 (sockaddrIn [9, 9, 9, 9] [0x1a, 0]) := ⟨rfl, rfl, by decide⟩
  have hnodes : ∀ s ∈ [sockaddrIn [9, 9, 9, 9] [0x1a, 0]], IsNode4 s := by simpa using hnode
  have hnodes6 : ∀ s ∈ ([] : List Sockaddr), IsNode6 s := by simp
  have hload := bootstrappingLoadConf_eq hnodes hnodes6 (by decide) (by decide)
    [] (List.replicate 28 7)
  rw [if_pos (by decide)] at hload
  unfold Restored bootstrappingSaveConf at h
  simp only [dhtGetNodes_oneNode, hload] at h
  exact absurd h (by decide)

end DtnDht
