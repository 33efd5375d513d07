import DtnDht.Blacklist
import DtnDht.Rating
import DtnDht.Table

/-!
# The callback

The DHT calls `callback` when a search is done and when values are found. The values are decoded
into an array of `struct sockaddr_storage`, rated, and queried by `dht_ping_dtn_node`. The IPv6
branch stores the address of a `struct sockaddr_in6` but calls it `AF_INET`, and every query is
given the length of the replying node's address. So the queries are right if and only if there are
none or the values and the replying node are IPv4 (`callback_pings_iff`).
-/

namespace DtnDht

/-- The statics of `dtndht.c`, `rating.c`, `blacklist.c` and `bootstrapping.c`. -/
structure Dtn where
  announcetable : List DhtEntry := []
  lookuptable : List DhtEntry := []
  minimumRating : ℕ := 1
  ratings : List RatingEntry := []
  blacklist : Blacklist := {}
  dhtHasBeenReady : Bool := false

/-- `DHT_EVENT_*`. -/
inductive DhtEvent where
  | values
  | values6
  | searchDone
  | searchDone6
  deriving DecidableEq, Repr

/-- A call of `dht_ping_dtn_node` and the record it is made for. -/
structure PingDtnNode where
  record : ℕ
  sa : Sockaddr
  salen : ℕ
  deriving DecidableEq, Repr

/-- `cpyvaluetosocketstorage`. -/
def cpyvaluetosocketstorage (target : Sockaddr) (value : Bytes) (type : ℕ) : Sockaddr :=
  if type = afInet then
    write (write (write target 2 [0, 0]) 4 (slice value 0 4)) 2 (slice value 4 2)
  else if type = afInet6 then
    write (write (write target 2 [0, 0]) 8 (slice value 0 16)) 2 (slice value 16 2)
  else target

/-- `ss[i]` after decoding record `i`, when it held `mem i` before. -/
def decodeRecord (mem : ℕ → Sockaddr) (data : Bytes) (size type i : ℕ) : Sockaddr :=
  cpyvaluetosocketstorage (write (mem i) 0 [2, 0]) (data.drop (i * size)) type

/-- The status after a search is done. -/
def LookupStatus.finish : LookupStatus → LookupStatus
  | .searching => .done
  | .repeatSearch => .doneAndReadyForRepeat
  | status => status

/-- The calls of `get_rating` for `n` records; the target is `ss` at each of them. -/
def rateRecords (md : Bytes) (infoHash : Id) (ss : Sockaddr) :
    ℕ → List RatingEntry → List ℕ × List RatingEntry
  | 0, list => ([], list)
  | n + 1, list =>
    let (rating, list) := getRating md list infoHash ss
    let (ratings, list) := rateRecords md infoHash ss n list
    (rating :: ratings, list)

/-- The test before a value is queried. -/
def isRated (minimumRating rating : ℕ) : Bool := 0 < rating && minimumRating ≤ rating

section

/-! `sha1` is the hash function and `mem` what the array `ss` of `callback` holds when it is
allocated. -/

variable (sha1 : Bytes → Bytes) (mem : ℕ → Sockaddr)

namespace Dtn

/-- `callback`, a search is done. -/
def searchDone (d : Dtn) (infoHash : Id) : Dtn :=
  { d with
    lookuptable := modifyEntry infoHash
      (fun entry => { entry with status := entry.status.finish }) d.lookuptable }

/-- `callback`, values of `size` bytes are found. -/
def valuesFound (d : Dtn) (size type : ℕ) (infoHash : Id) (data : Bytes) (frm : Sockaddr)
    (fromlen : ℕ) : Dtn × List PingDtnNode :=
  if d.blacklist.enabled && d.blacklist.idBlacklisted infoHash then
    ({ d with blacklist := d.blacklist.blacklistNode frm infoHash.bytes }, [])
  else if getFromList infoHash d.lookuptable = none then (d, [])
  else
    let count := data.length / size
    let ss := decodeRecord mem data size type
    let (ratings, list) :=
      rateRecords (sha1 (frm.take fromlen)) infoHash (ss 0) count d.ratings
    ({ d with ratings := list },
      ((List.range count).filter fun i => isRated d.minimumRating (ratings.getD i 0)).map
        fun i => ⟨i, ss i, fromlen⟩)

/-- `callback`. -/
def callback (d : Dtn) (event : DhtEvent) (infoHash : Id) (data : Bytes) (frm : Sockaddr)
    (fromlen : ℕ) : Dtn × List PingDtnNode :=
  match event with
  | .searchDone | .searchDone6 => (d.searchDone infoHash, [])
  | .values => d.valuesFound sha1 mem 6 afInet infoHash data frm fromlen
  | .values6 => d.valuesFound sha1 mem 18 afInet6 infoHash data frm fromlen

end Dtn

end

/-! ## Decoding -/

section

variable {target : Sockaddr} {value : Bytes}

theorem length_write_zero_port (h : target.length = sizeofSockaddrStorage) :
    (write target 2 [0, 0]).length = 128 := by
  rw [length_write (by simp [h, sizeofSockaddrStorage])]
  exact h

theorem family_write_address (h : target.length = sizeofSockaddrStorage) {off : ℕ} {ip port : Bytes}
    (ho : 2 ≤ off) (hip : off + ip.length ≤ 128) (hport : port.length ≤ 2) :
    Sockaddr.family (write (write (write target 2 [0, 0]) off ip) 2 port) = target.family := by
  have h1 := length_write_zero_port h
  have h2 : (write (write target 2 [0, 0]) off ip).length = 128 := by
    rw [length_write (by omega), h1]
  rw [Sockaddr.family_write (by omega) le_rfl, Sockaddr.family_write (by omega) ho,
    Sockaddr.family_write (by simp [h, sizeofSockaddrStorage]) le_rfl]

theorem length_cpyvaluetosocketstorage (h : target.length = sizeofSockaddrStorage) (type : ℕ) :
    (cpyvaluetosocketstorage target value type).length = 128 := by
  have h1 := length_write_zero_port h
  have hw {off : ℕ} {ip port : Bytes} (hip : off + ip.length ≤ 128) (hport : port.length ≤ 2) :
      (write (write (write target 2 [0, 0]) off ip) 2 port).length = 128 := by
    have h2 : (write (write target 2 [0, 0]) off ip).length = 128 := by
      rw [length_write (by omega), h1]
    rw [length_write (by omega), h2]
  unfold cpyvaluetosocketstorage
  split_ifs
  · have := length_slice_le value 0 4
    exact hw (by omega) (length_slice_le value 4 2)
  · have := length_slice_le value 0 16
    exact hw (by omega) (length_slice_le value 16 2)
  · exact h

theorem family_cpyvaluetosocketstorage (h : target.length = sizeofSockaddrStorage) (type : ℕ) :
    (cpyvaluetosocketstorage target value type).family = target.family := by
  unfold cpyvaluetosocketstorage
  split_ifs
  · have := length_slice_le value 0 4
    exact family_write_address h (by decide) (by omega) (length_slice_le value 4 2)
  · have := length_slice_le value 0 16
    exact family_write_address h (by decide) (by omega) (length_slice_le value 16 2)
  · rfl

/-- The address and the port of an IPv4 record. -/
theorem sinAddr_port_cpyvaluetosocketstorage (h : target.length = sizeofSockaddrStorage)
    (hv : 6 ≤ value.length) :
    (cpyvaluetosocketstorage target value afInet).sinAddr = slice value 0 4 ∧
      (cpyvaluetosocketstorage target value afInet).port = slice value 4 2 := by
  have h1 := length_write_zero_port h
  have ha : (slice value 0 4).length = 4 := length_slice (by omega)
  have hp : (slice value 4 2).length = 2 := length_slice (by omega)
  have h2 : (write (write target 2 [0, 0]) 4 (slice value 0 4)).length = 128 := by
    rw [length_write (by omega), h1]
  rw [cpyvaluetosocketstorage, if_pos rfl]
  constructor
  · rw [Sockaddr.sinAddr, slice_write_of_disjoint (by omega) (by omega),
      slice_write (by omega) ha]
  · rw [Sockaddr.port, slice_write (by omega) hp]

end

/-- The contents of a `struct sockaddr_storage`. -/
abbrev SockaddrStorage := {s : Sockaddr // s.length = sizeofSockaddrStorage}

variable (mem : ℕ → SockaddrStorage) (data : Bytes)

theorem length_write_family (i : ℕ) :
    (write (mem i).1 0 [2, 0]).length = sizeofSockaddrStorage := by
  rw [length_write (by simp [(mem i).2, sizeofSockaddrStorage]), (mem i).2]

theorem length_decodeRecord (size type i : ℕ) :
    (decodeRecord (fun i => (mem i).1) data size type i).length = 128 :=
  length_cpyvaluetosocketstorage (length_write_family mem i) type

/-- Every record becomes an `AF_INET` address. -/
theorem family_decodeRecord (size type i : ℕ) :
    (decodeRecord (fun i => (mem i).1) data size type i).family = afInet :=
  family_cpyvaluetosocketstorage (length_write_family mem i) type

variable {mem data}

/-- An IPv4 record becomes its address. -/
theorem sinAddr_port_decodeRecord {i : ℕ} (hi : i * 6 + 6 ≤ data.length) :
    (decodeRecord (fun i => (mem i).1) data 6 afInet i).sinAddr = slice data (i * 6) 4 ∧
      (decodeRecord (fun i => (mem i).1) data 6 afInet i).port = slice data (i * 6 + 4) 2 := by
  have hv : 6 ≤ (data.drop (i * 6)).length := by
    rw [List.length_drop]
    omega
  obtain ⟨ha, hp⟩ := sinAddr_port_cpyvaluetosocketstorage (length_write_family mem i) hv
  rw [slice, List.drop_drop] at ha hp
  exact ⟨ha, hp⟩

/-! ## Rating -/

/-- The copy of a decoded record is the rating of the record. -/
theorem rates_ratingCreate (md : Bytes) {ss : Sockaddr} (h : ss.family = afInet)
    (hl : 8 ≤ ss.length) : (ratingCreate md ss).rates ss = true := by
  obtain ⟨x0, x1, p, q, a, b, c, d, t, rfl⟩ : ∃ x0 x1 p q a b c d t,
      ss = x0 :: x1 :: p :: q :: a :: b :: c :: d :: t := by
    match ss, hl with
    | x0 :: x1 :: p :: q :: a :: b :: c :: d :: t, _ => exact ⟨x0, x1, p, q, a, b, c, d, t, rfl⟩
  unfold ResultRating.rates sockaddrStorageEquals ratingCreate copyTarget
  dsimp only
  rw [if_pos h]
  have hf : Sockaddr.family (sockaddrIn (Sockaddr.sinAddr (x0 :: x1 :: p :: q :: a :: b :: c ::
      d :: t)) (Sockaddr.port (x0 :: x1 :: p :: q :: a :: b :: c :: d :: t))) = afInet := rfl
  rw [hf, if_neg (not_not.mpr h.symm), if_pos rfl, Bool.and_eq_true]
  exact ⟨beq_self_eq_true _, beq_self_eq_true _⟩

/-- All records of an array get the rating of its first. -/
theorem rateRecords_fst {md : Bytes} {infoHash : Id} {ss : Sockaddr}
    (ht : (ratingCreate md ss).rates ss = true) (n : ℕ) (list : List RatingEntry) :
    (rateRecords md infoHash ss n list).1 = List.replicate n (standing md list infoHash ss) := by
  induction n generalizing list with
  | zero => rfl
  | succ n ih =>
    rw [rateRecords, List.replicate_succ]
    dsimp only
    rw [ih, getRating_fst, standing_getRating infoHash ht]

/-! ## The queries -/

namespace DhtEvent

/-- The family of the records of an event. -/
def family (event : DhtEvent) : ℕ := if event = .values6 then afInet6 else afInet

/-- The length of the address in a record. -/
def ipLength (event : DhtEvent) : ℕ := if event = .values6 then 16 else 4

/-- The length of a socket address of the family. -/
def salen (event : DhtEvent) : ℕ :=
  if event = .values6 then sizeofSockaddrIn6 else sizeofSockaddrIn

/-- The length of a record: an address and a port. -/
def recordSize (event : DhtEvent) : ℕ := event.ipLength + 2

end DhtEvent

/-- A query passes the family, the address and the port of its record and the length of that
family's addresses. -/
structure PingsRecord (event : DhtEvent) (data : Bytes) (ping : PingDtnNode) : Prop where
  family : ping.sa.family = event.family
  ip : ping.sa.ip = slice data (ping.record * event.recordSize) event.ipLength
  port : ping.sa.port = slice data (ping.record * event.recordSize + event.ipLength) 2
  salen : ping.salen = event.salen

/-- Values of an event are queried: the hash is not blacklisted, and the address decoded from the
first record has the rating it needs when the replying node is counted. -/
def IsQueried (sha1 : Bytes → Bytes) (mem : ℕ → Sockaddr) (d : Dtn) (event : DhtEvent)
    (infoHash : Id) (data : Bytes) (frm : Sockaddr) (fromlen : ℕ) : Prop :=
  (d.blacklist.enabled && d.blacklist.idBlacklisted infoHash) = false ∧
    isRated d.minimumRating (standing (sha1 (frm.take fromlen)) d.ratings infoHash
      (decodeRecord mem data event.recordSize event.family 0)) = true

section

variable {sha1 : Bytes → Bytes} {d : Dtn} {event : DhtEvent} {infoHash : Id} {frm : Sockaddr}
  {fromlen k : ℕ}

/-- What `callback` queries: all records or none. -/
theorem callback_pings (hev : event = .values ∨ event = .values6)
    (hin : getFromList infoHash d.lookuptable ≠ none)
    (hcount : data.length / event.recordSize = k) (ping : PingDtnNode) :
    ping ∈ (d.callback sha1 (fun i => (mem i).1) event infoHash data frm fromlen).2 ↔
      IsQueried sha1 (fun i => (mem i).1) d event infoHash data frm fromlen ∧ ∃ i < k,
        ping = ⟨i, decodeRecord (fun i => (mem i).1) data event.recordSize event.family i,
          fromlen⟩ := by
  have hcall : d.callback sha1 (fun i => (mem i).1) event infoHash data frm fromlen =
      d.valuesFound sha1 (fun i => (mem i).1) event.recordSize event.family infoHash data frm
        fromlen := by
    rcases hev with rfl | rfl <;> rfl
  rw [hcall, Dtn.valuesFound, hcount, if_neg hin]
  unfold IsQueried
  cases hbl : d.blacklist.enabled && d.blacklist.idBlacklisted infoHash with
  | true => simp
  | false =>
    have hl := length_decodeRecord mem data event.recordSize event.family 0
    have ht := rates_ratingCreate (sha1 (frm.take fromlen))
      (family_decodeRecord mem data event.recordSize event.family 0) (by omega)
    have hget {i rating : ℕ} (hi : i < k) : (List.replicate k rating).getD i 0 = rating := by
      rw [List.getD_eq_getElem?_getD, List.getElem?_replicate, if_pos hi, Option.getD_some]
    dsimp only
    rw [if_neg Bool.false_ne_true, rateRecords_fst ht]
    simp only [List.mem_map, List.mem_filter, List.mem_range]
    constructor
    · rintro ⟨i, ⟨hi, hr⟩, rfl⟩
      rw [hget hi] at hr
      exact ⟨⟨trivial, hr⟩, i, hi, rfl⟩
    · rintro ⟨⟨-, hr⟩, i, hi, rfl⟩
      refine ⟨i, ⟨hi, ?_⟩, rfl⟩
      rwa [hget hi]

/-- **Found values are queried at the right address if and only if no value is queried, or the
values and the replying node are IPv4.** -/
theorem callback_pings_iff (hev : event = .values ∨ event = .values6)
    (hin : getFromList infoHash d.lookuptable ≠ none)
    (hdata : data.length = k * event.recordSize) (hfrm : IsSockaddr frm fromlen) :
    (∀ ping ∈ (d.callback sha1 (fun i => (mem i).1) event infoHash data frm fromlen).2,
      PingsRecord event data ping) ↔
    (k = 0 ∨ ¬ IsQueried sha1 (fun i => (mem i).1) d event infoHash data frm fromlen) ∨
      event = .values ∧ frm.family = afInet := by
  have hpos : 0 < event.recordSize := Nat.succ_pos _
  have hcount : data.length / event.recordSize = k := by rw [hdata, Nat.mul_div_cancel _ hpos]
  simp only [callback_pings hev hin hcount]
  constructor
  · intro h
    by_contra hc
    obtain ⟨hq, hnot⟩ := not_or.mp hc
    obtain ⟨hk, hq⟩ := not_or.mp hq
    have h0 := h _ ⟨not_not.mp hq, 0, Nat.pos_of_ne_zero hk, rfl⟩
    have hfam : event.family = afInet := h0.family.symm.trans (family_decodeRecord mem data _ _ _)
    rcases hev with rfl | rfl
    · have hlen : fromlen = sizeofSockaddrIn := h0.salen
      refine hnot ⟨rfl, ?_⟩
      rcases hfrm.1 with ⟨hf, -⟩ | ⟨-, hl⟩
      · exact hf
      · exact absurd (hlen.symm.trans hl) (by decide)
    · exact absurd hfam (by decide)
  · rintro ((rfl | hq) | ⟨rfl, hf⟩) ping ⟨hq', i, hi, rfl⟩
    · omega
    · exact absurd hq' hq
    · have hdata6 : data.length = k * 6 := hdata
      obtain ⟨ha, hp⟩ := sinAddr_port_decodeRecord (by omega : i * 6 + 6 ≤ data.length)
      have hfam := family_decodeRecord mem data 6 afInet i
      have hlen : fromlen = sizeofSockaddrIn := by
        rcases hfrm.1 with ⟨-, hl⟩ | ⟨hf', -⟩
        · exact hl
        · exact absurd (hf.symm.trans hf') (by decide)
      exact ⟨hfam, (if_pos hfam).trans ha, hp, hlen⟩

end

/-! ## A lookup that two nodes answer -/

/-- The node 2001:db8::n, port 6881. -/
def replier6 (n : UInt8) : Sockaddr :=
  sockaddrIn6 [0x20, 1, 0x0d, 0xb8, 0, 0, 0, 0, 0, 0, 0, 0, 0, 0, 0, n] [0x1a, 0xe1]

/-- The node 192.0.2.n, port 6881. -/
def replier4 (n : UInt8) : Sockaddr := sockaddrIn [192, 0, 2, n] [0x1a, 0xe1]

/-- The digests of the addresses of `replier6 1` and `replier6 2`. -/
def sha1Repliers (bs : Bytes) : Bytes :=
  if bs = replier6 1 then
    [20, 113, 60, 225, 23, 89, 107, 123, 217, 181, 134, 222, 168, 154, 169, 109, 58, 91, 230, 27]
  else
    [136, 19, 176, 86, 182, 166, 239, 223, 129, 124, 87, 97, 65, 224, 205, 61, 124, 57, 121, 3]

theorem length_replicate_storage : (List.replicate 128 (0 : UInt8)).length = 128 :=
  List.length_replicate

/-- A fresh `struct sockaddr_storage`. -/
def freshStorage : SockaddrStorage := ⟨List.replicate 128 0, length_replicate_storage⟩

/-- A lookup has been started. -/
def lookingUp : Dtn := { lookuptable := [⟨Id.zeroes, false, .searching, 0⟩] }

/-- IPv4 values of an IPv4 node. -/
theorem callback_pings_ipv4 :
    IsSockaddr (replier4 1) 16 ∧
      ∀ ping ∈ (lookingUp.callback sha1Repliers (fun _ => freshStorage.1) .values Id.zeroes
        [192, 0, 2, 9, 0x1a, 0xe1] (replier4 1) 16).2,
        PingsRecord .values [192, 0, 2, 9, 0x1a, 0xe1] ping := by
  have hin : getFromList Id.zeroes lookingUp.lookuptable ≠ none := by decide
  have hfrm : IsSockaddr (replier4 1) 16 := by decide
  have hdata : [192, 0, 2, 9, 0x1a, 0xe1].length = 1 * DhtEvent.values.recordSize := rfl
  exact ⟨hfrm, (callback_pings_iff (Or.inl rfl) hin hdata hfrm).mpr (Or.inr ⟨rfl, rfl⟩)⟩

/-- What two IPv6 nodes report, 2001:db8::9, port 6881, is queried as 0.0.0.0. -/
theorem callback_pings_ipv6 :
    let data : Bytes :=
      [0x20, 1, 0x0d, 0xb8, 0, 0, 0, 0, 0, 0, 0, 0, 0, 0, 0, 9] ++ [0x1a, 0xe1]
    let d := (lookingUp.callback sha1Repliers (fun _ => freshStorage.1) .values6 Id.zeroes data
      (replier6 1) 28).1
    getFromList Id.zeroes d.lookuptable ≠ none ∧
      ¬ ∀ ping ∈ (d.callback sha1Repliers (fun _ => freshStorage.1) .values6 Id.zeroes data
        (replier6 2) 28).2, PingsRecord .values6 data ping := by
  intro data d
  have hin : getFromList Id.zeroes d.lookuptable ≠ none := by decide
  refine ⟨hin, fun h => ?_⟩
  have hq : IsQueried sha1Repliers (fun _ => freshStorage.1) d .values6 Id.zeroes data
      (replier6 2) 28 := by
    constructor <;> decide
  have hcount : data.length / DhtEvent.values6.recordSize = 1 := by decide
  have hping := h _ ((callback_pings (Or.inr rfl) hin hcount _).mpr ⟨hq, 0, Nat.one_pos, rfl⟩)
  exact absurd hping.family (by decide)

end DtnDht
