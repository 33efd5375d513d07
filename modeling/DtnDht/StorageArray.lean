import DtnDht.Lib.Modify
import DtnDht.Storage

/-!
# Stored peers in their arrays

`storage_store` keeps the peers of a hash in an array that it doubles, up to 2048 cells, and leaves
early when `calloc` or `realloc` fails; `expire_storage` moves the last peer into the place of an
expired one and unlinks the storages that become empty from the list it walks. The invariant
(`StoreOk`) holds after every run, and what expiry keeps is exactly what is recent
(`storage_invariant`). On what the arrays hold both do what the model on lists says
(`toStorage_storage_store`, `toStorage_storage_expire`).
-/

namespace DtnDht

/-- `struct storage`, without the link; `cells` is the array, of which `numpeers` are in use. -/
structure StorageRecord where
  id : Id
  numpeers : ℕ
  maxpeers : ℕ
  cells : List Peer

/-- The peers in use. -/
def StorageRecord.peers (st : StorageRecord) : List Peer := st.cells.take st.numpeers

/-- `storage` and `numstorage`. -/
structure Store where
  storage : List StorageRecord
  numstorage : ℤ

/-- The rest of `storage_store`, on the storage of the hash; `realloc` is what the new cells hold,
none if it fails. -/
def StorageRecord.store (now : ℤ) (ip : Bytes) (port : UInt16) (realloc : Option (ℕ → Peer))
    (st : StorageRecord) : ℤ × StorageRecord :=
  match (st.cells.take st.numpeers).findIdx? fun p => p.port == port && p.ip == ip with
  | some i =>
    -- "Already there, only need to refresh"
    (0, { st with cells := st.cells.modify i fun p => { p with time := now } })
  | none =>
    if st.maxpeers ≤ st.numpeers then
      -- "Need to expand the array."
      if dhtMaxPeers ≤ st.maxpeers then (0, st)
      else
        let n := min (if st.maxpeers = 0 then 2 else 2 * st.maxpeers) dhtMaxPeers
        match realloc with
        | none => (-1, st)
        | some mem =>
          let cells := st.cells ++ (List.range (n - st.maxpeers)).map mem
          (1, { st with
            maxpeers := n
            cells := cells.set st.numpeers ⟨now, ip, port⟩
            numpeers := st.numpeers + 1 })
    else
      (1, { st with
        cells := st.cells.set st.numpeers ⟨now, ip, port⟩, numpeers := st.numpeers + 1 })

/-- `storage_store`; `calloc` says whether the allocation of a storage succeeds. -/
def Store.store (now : ℤ) (id : Id) (sa : Sockaddr) (port : UInt16) (calloc : Bool)
    (realloc : Option (ℕ → Peer)) (s : Store) : ℤ × Store :=
  if sa.family = afInet ∨ sa.family = afInet6 then
    match s.storage.findIdx? fun st => idCmp id st.id = .eq with
    | some i =>
      (s.storage[i]?.elim (-1) fun st => (st.store now sa.ip port realloc).1,
        { s with storage := s.storage.modify i fun st => (st.store now sa.ip port realloc).2 })
    | none =>
      if s.numstorage ≥ dhtMaxHashes then (-1, s)
      else if calloc then
        let (rc, st) := (StorageRecord.mk id 0 0 []).store now sa.ip port realloc
        (rc, ⟨st :: s.storage, s.numstorage + 1⟩)
      else (-1, s)
  else (-1, s)

/-- The inner loop of `expire_storage`, from index `i` on; with as many turns as it is allowed. -/
def expirePeersFrom (now : ℤ) : ℕ → ℕ → StorageRecord → StorageRecord
  | 0, _, st => st
  | turns + 1, i, st =>
    if i < st.numpeers then
      match st.cells[i]? with
      | none => st
      | some p =>
        if p.time < now - 32 * 60 then
          let cells := if i ≠ st.numpeers - 1 then
            st.cells[st.numpeers - 1]?.elim st.cells (st.cells.set i) else st.cells
          expirePeersFrom now turns i { st with cells := cells, numpeers := st.numpeers - 1 }
        else expirePeersFrom now turns (i + 1) st
    else st

/-- The loop of `expire_storage`, `st` being the storage at position `i` of the list and `previous`
the one before it. -/
def expireFrom (now : ℤ) : ℕ → ℕ → Store → Store
  | 0, _, s => s
  | turns + 1, i, s =>
    match s.storage[i]? with
    | none => s
    | some st =>
      let st := expirePeersFrom now st.numpeers 0 st
      if st.numpeers = 0 then
        let numstorage := s.numstorage - 1
        expireFrom now turns i
          ⟨s.storage.eraseIdx i, if numstorage < 0 then 0 else numstorage⟩
      else expireFrom now turns (i + 1) { s with storage := s.storage.set i st }

/-- `expire_storage`. -/
def Store.expire (now : ℤ) (s : Store) : Store := expireFrom now s.storage.length 0 s

/-! ## The invariant -/

/-- What tells peers apart: length of the address, address and port. -/
def Peer.key (p : Peer) : ℕ × Bytes × UInt16 := (p.ip.length, p.ip, p.port)

/-- The array of a storage is in order. -/
structure RecordOk (st : StorageRecord) : Prop where
  numpeers_le : st.numpeers ≤ st.maxpeers
  maxpeers_le : st.maxpeers ≤ dhtMaxPeers
  cells : st.cells.length = st.maxpeers
  distinct : (st.peers.map Peer.key).Nodup

/-- The storages are in order. -/
structure StoreOk (s : Store) : Prop where
  distinct : (s.storage.map StorageRecord.id).Nodup
  numstorage : s.numstorage = s.storage.length
  le : s.storage.length ≤ dhtMaxHashes
  records : ∀ st ∈ s.storage, RecordOk st

variable {now : ℤ} {ip : Bytes} {port : UInt16} {realloc : Option (ℕ → Peer)} {st : StorageRecord}

theorem RecordOk.length_peers (h : RecordOk st) : st.peers.length = st.numpeers := by
  unfold StorageRecord.peers
  rw [List.length_take, h.cells]
  exact min_eq_left h.numpeers_le

/-! ## Storing -/

/-- A peer with the address and the port is found just if its key is there. -/
theorem findIdx?_peer_eq_none {peers : List Peer}
    (h : (peers.findIdx? fun p => p.port == port && p.ip == ip) = none) :
    Peer.key ⟨now, ip, port⟩ ∉ peers.map Peer.key := by
  intro hmem
  obtain ⟨p, hp, hkey⟩ := List.mem_map.mp hmem
  have hne := List.findIdx?_eq_none_iff.mp h p hp
  simp only [Peer.key, Prod.mk.injEq] at hkey
  simp [hkey.2.1, hkey.2.2] at hne

/-- A peer behind those in use. -/
theorem take_set_succ {cells : List Peer} {n : ℕ} (hn : n < cells.length) (p : Peer) :
    (cells.set n p).take (n + 1) = cells.take n ++ [p] := by
  rw [List.take_succ_eq_append_getElem (by rwa [List.length_set]), List.take_set_of_le le_rfl,
    List.getElem_set_self]

theorem recordOk_push (h : RecordOk st) {n : ℕ} {cells : List Peer} (hn : n ≤ dhtMaxPeers)
    (hroom : st.numpeers < n) (hlen : cells.length = n)
    (hcells : cells.take st.numpeers = st.peers) {p : Peer} (hp : p.key ∉ st.peers.map Peer.key) :
    RecordOk { st with maxpeers := n, cells := cells.set st.numpeers p,
                       numpeers := st.numpeers + 1 } := by
  refine ⟨hroom, hn, by rw [List.length_set]; exact hlen, ?_⟩
  unfold StorageRecord.peers
  dsimp only
  rw [take_set_succ (by omega), hcells, List.map_append]
  exact List.nodup_append.mpr ⟨h.distinct, List.nodup_singleton _, fun a ha b hb => by
    rintro rfl
    exact hp (List.mem_singleton.mp hb ▸ ha)⟩

theorem recordOk_store (h : RecordOk st) : RecordOk (st.store now ip port realloc).2 := by
  unfold StorageRecord.store
  cases hfind : (st.cells.take st.numpeers).findIdx? fun p => p.port == port && p.ip == ip with
  | some i =>
    refine ⟨h.numpeers_le, h.maxpeers_le, by rw [List.length_modify]; exact h.cells, ?_⟩
    unfold StorageRecord.peers
    dsimp only
    rw [List.take_modify, List.map_modify_of_eq (f := fun p => { p with time := now })
      (g := Peer.key) fun p _ => rfl]
    exact h.distinct
  | none =>
    have hnew : Peer.key ⟨now, ip, port⟩ ∉ st.peers.map Peer.key := findIdx?_peer_eq_none hfind
    have hcells := h.cells
    have hle := h.numpeers_le
    have hmax := h.maxpeers_le
    dsimp only
    by_cases hfull : st.maxpeers ≤ st.numpeers
    · rw [if_pos hfull]
      by_cases hmost : dhtMaxPeers ≤ st.maxpeers
      · rw [if_pos hmost]
        exact h
      rw [if_neg hmost]
      cases realloc with
      | none => exact h
      | some mem =>
        have hgrown : st.maxpeers < min (if st.maxpeers = 0 then 2 else 2 * st.maxpeers)
            dhtMaxPeers := by
          unfold dhtMaxPeers at hmost ⊢
          split_ifs <;> omega
        refine recordOk_push h (min_le_right _ _) (by omega) ?_ ?_ hnew
        · rw [List.length_append, List.length_map, List.length_range]
          omega
        · exact List.take_append_of_le_length (by omega)
    · rw [if_neg hfull]
      exact recordOk_push h hmax (by omega) hcells rfl hnew

theorem id_store : (st.store now ip port realloc).2.id = st.id := by
  unfold StorageRecord.store
  split
  · rfl
  · cases realloc with
    | none => dsimp only; split_ifs <;> rfl
    | some mem => dsimp only; split_ifs <;> rfl

theorem recordOk_calloc (id : Id) : RecordOk ⟨id, 0, 0, []⟩ :=
  ⟨le_rfl, Nat.zero_le _, rfl, List.nodup_nil⟩

theorem storeOk_store {s : Store} (h : StoreOk s) (id : Id) (sa : Sockaddr) (calloc : Bool) :
    StoreOk (s.store now id sa port calloc realloc).2 := by
  unfold Store.store
  by_cases hfam : sa.family = afInet ∨ sa.family = afInet6
  · rw [if_pos hfam]
    cases hfind : s.storage.findIdx? fun st => idCmp id st.id = .eq with
    | some i =>
      dsimp only
      refine ⟨?_, ?_, ?_, ?_⟩
      · dsimp only
        rw [List.map_modify_of_eq (g := StorageRecord.id) fun st _ => id_store]
        exact h.distinct
      · dsimp only
        rw [List.length_modify]
        exact h.numstorage
      · dsimp only
        rw [List.length_modify]
        exact h.le
      · exact List.forall_mem_modify h.records fun st _ hst => recordOk_store hst
    | none =>
      dsimp only
      split_ifs with hmost
      · exact h
      · have hlt : s.storage.length < dhtMaxHashes := by
          have hnum := h.numstorage
          omega
        have hnew : id ∉ s.storage.map StorageRecord.id := by
          intro hmem
          obtain ⟨st, hst, he⟩ := List.mem_map.mp hmem
          have hne := List.findIdx?_eq_none_iff.mp hfind st hst
          rw [he] at hne
          simp at hne
        refine ⟨?_, ?_, ?_, ?_⟩
        · dsimp only
          rw [List.map_cons, id_store]
          exact List.nodup_cons.mpr ⟨hnew, h.distinct⟩
        · dsimp only
          rw [List.length_cons, h.numstorage, Nat.cast_succ]
        · exact hlt
        · exact List.forall_mem_cons.mpr ⟨recordOk_store (recordOk_calloc id), h.records⟩
      · exact h
  · rw [if_neg hfam]
    exact h

/-! ## Expiring -/

/-- The loop over the peers leaves in the array what the model on lists says. -/
theorem expirePeersFrom_eq (now : ℤ) : ∀ (turns : ℕ) (kept left rest : List Peer)
    (st : StorageRecord), st.cells = kept ++ left ++ rest →
    st.numpeers = kept.length + left.length → left.length ≤ turns →
    ∃ rest', (kept ++ expirePeers now turns left ++ rest').length = st.cells.length ∧
      expirePeersFrom now turns kept.length st = { st with
        cells := kept ++ expirePeers now turns left ++ rest'
        numpeers := kept.length + (expirePeers now turns left).length } := by
  intro turns
  induction turns with
  | zero =>
    intro kept left rest st hcells hnum hle
    obtain rfl := List.length_eq_zero_iff.mp (Nat.le_zero.mp hle)
    refine ⟨rest, by rw [hcells]; rfl, ?_⟩
    obtain ⟨id, numpeers, maxpeers, cells⟩ := st
    dsimp only at hcells hnum
    rw [expirePeersFrom, hcells, hnum]
    rfl
  | succ turns ih =>
    intro kept left rest st hcells hnum hle
    cases left with
    | nil =>
      refine ⟨rest, by rw [hcells]; rfl, ?_⟩
      obtain ⟨id, numpeers, maxpeers, cells⟩ := st
      dsimp only at hcells hnum
      rw [expirePeersFrom, if_neg (by rw [hnum]; simp), hcells, hnum]
      rfl
    | cons p left =>
      have hlt : kept.length < st.numpeers := by
        rw [hnum, List.length_cons]
        omega
      have hget : st.cells[kept.length]? = some p := by
        rw [hcells, List.append_assoc, List.getElem?_append_right le_rfl, Nat.sub_self]
        rfl
      rw [expirePeersFrom, if_pos hlt, hget, expirePeers]
      dsimp only
      by_cases hold : p.time < now - 32 * 60
      · rw [if_pos hold, if_pos hold]
        rcases List.eq_nil_or_concat left with rfl | ⟨front, q, rfl⟩
        · -- the expired peer is the last one
          rw [if_neg (by rw [hnum]; simp)]
          obtain ⟨rest', hlen, heq⟩ := ih kept [] (p :: rest)
            { st with numpeers := st.numpeers - 1 }
            (by rw [hcells]; simp) (by dsimp only; rw [hnum]; simp) (Nat.zero_le _)
          exact ⟨rest', hlen, heq⟩
        · -- the last one takes its place
          have hlast : st.cells[st.numpeers - 1]? = some q := by
            rw [hcells, hnum, List.concat_eq_append]
            simp
          rw [if_pos (by rw [hnum]; simp), hlast, List.concat_eq_append, List.getLast?_concat,
            List.dropLast_concat]
          obtain ⟨rest', hlen, heq⟩ := ih kept (q :: front) (q :: rest)
            { st with cells := st.cells.set kept.length q, numpeers := st.numpeers - 1 }
            (by dsimp only; rw [hcells]; simp) (by dsimp only; rw [hnum]; simp)
            (by simpa using hle)
          exact ⟨rest', hlen.trans List.length_set, heq⟩
      · rw [if_neg hold, if_neg hold]
        obtain ⟨rest', hlen, heq⟩ := ih (kept ++ [p]) left rest st
          (by rw [hcells]; simp) (by rw [hnum]; simp; omega) (by simpa using hle)
        rw [List.length_append, List.length_singleton] at heq
        rw [heq]
        refine ⟨rest', by simpa using hlen, ?_⟩
        simp [Nat.add_assoc, Nat.add_comm 1]

/-- A peer that has not expired. -/
def Peer.recent (now : ℤ) (p : Peer) : Bool := now - 1920 ≤ p.time

theorem expirePeers_perm (now : ℤ) : ∀ (turns : ℕ) (left : List Peer), left.length ≤ turns →
    (expirePeers now turns left).Perm (left.filter (Peer.recent now)) := by
  intro turns
  induction turns with
  | zero =>
    intro left hle
    obtain rfl := List.length_eq_zero_iff.mp (Nat.le_zero.mp hle)
    exact List.Perm.refl _
  | succ turns ih =>
    intro left hle
    cases left with
    | nil => exact List.Perm.refl _
    | cons p left =>
      rw [expirePeers]
      by_cases hold : p.time < now - 32 * 60
      · have hp : Peer.recent now p = false := by
          unfold Peer.recent
          rw [decide_eq_false_iff_not]
          omega
        rw [if_pos hold, List.filter_cons_of_neg (by rw [hp]; exact Bool.false_ne_true)]
        rcases List.eq_nil_or_concat left with rfl | ⟨front, q, rfl⟩
        · exact ih [] (Nat.zero_le _)
        · rw [List.concat_eq_append, List.getLast?_concat, List.dropLast_concat]
          refine (ih (q :: front) (by simpa using hle)).trans (List.Perm.filter _ ?_)
          exact (List.perm_append_singleton q front).symm
      · have hp : Peer.recent now p = true := by
          unfold Peer.recent
          rw [decide_eq_true_iff]
          omega
        rw [if_neg hold, List.filter_cons_of_pos hp]
        exact (ih left (Nat.le_of_succ_le_succ hle)).cons p

/-- What expiry leaves of a storage. -/
structure Expired (now : ℤ) (st st' : StorageRecord) : Prop where
  id : st'.id = st.id
  maxpeers : st'.maxpeers = st.maxpeers
  peers : st'.peers.Perm (st.peers.filter (Peer.recent now))

/-- The loop over the peers of a storage in order. -/
theorem expirePeersFrom_zero (now : ℤ) (h : RecordOk st) :
    (expirePeersFrom now st.numpeers 0 st).numpeers =
        (expirePeers now st.peers.length st.peers).length ∧
      (expirePeersFrom now st.numpeers 0 st).peers =
        expirePeers now st.peers.length st.peers ∧
      (expirePeersFrom now st.numpeers 0 st).cells.length = st.cells.length ∧
      (expirePeersFrom now st.numpeers 0 st).id = st.id ∧
      (expirePeersFrom now st.numpeers 0 st).maxpeers = st.maxpeers := by
  have hlen := h.length_peers
  obtain ⟨rest', hcells, heq⟩ := expirePeersFrom_eq now st.numpeers [] st.peers
    (st.cells.drop st.numpeers) st (List.take_append_drop _ _).symm (by simp [hlen]) hlen.le
  rw [List.length_nil] at heq
  rw [heq, hlen]
  refine ⟨by simp, ?_, hcells, rfl, rfl⟩
  unfold StorageRecord.peers
  simp

theorem recordOk_expirePeersFrom (h : RecordOk st) :
    RecordOk (expirePeersFrom now st.numpeers 0 st) := by
  obtain ⟨hnum, hpeers, hcells, -, hmax⟩ := expirePeersFrom_zero now h
  have hperm := expirePeers_perm now st.peers.length st.peers le_rfl
  have hfewer : (expirePeers now st.peers.length st.peers).length ≤ st.numpeers :=
    calc (expirePeers now st.peers.length st.peers).length
        = (st.peers.filter (Peer.recent now)).length := hperm.length_eq
      _ ≤ st.peers.length := List.length_filter_le _ _
      _ ≤ st.numpeers := List.length_take_le _ _
  refine ⟨?_, ?_, ?_, ?_⟩
  · rw [hnum, hmax]
    exact hfewer.trans h.numpeers_le
  · rw [hmax]
    exact h.maxpeers_le
  · rw [hcells, hmax]
    exact h.cells
  · rw [hpeers]
    refine (hperm.map Peer.key).nodup_iff.mpr ?_
    exact h.distinct.sublist (List.Sublist.map _ List.filter_sublist)

theorem expired_expirePeersFrom (h : RecordOk st) :
    Expired now st (expirePeersFrom now st.numpeers 0 st) := by
  obtain ⟨-, hpeers, -, hid, hmax⟩ := expirePeersFrom_zero now h
  exact ⟨hid, hmax, hpeers ▸ expirePeers_perm now _ _ le_rfl⟩

/-- A storage is freed just if none of its peers is recent. -/
theorem numpeers_expirePeersFrom_ne_zero (h : RecordOk st) :
    (expirePeersFrom now st.numpeers 0 st).numpeers ≠ 0 ↔
      st.peers.any (Peer.recent now) = true := by
  rw [(expirePeersFrom_zero now h).1, (expirePeers_perm now _ _ le_rfl).length_eq, ne_eq,
    List.length_eq_zero_iff, List.filter_eq_nil_iff, List.any_eq_true]
  push Not
  rfl

/-- The loop over the storages: those that keep a peer stay, in their order. -/
theorem expireFrom_eq (now : ℤ) : ∀ (turns : ℕ) (kept left : List StorageRecord),
    left.length ≤ turns →
    expireFrom now turns kept.length ⟨kept ++ left, (kept ++ left).length⟩ =
      ⟨kept ++ (left.map fun st => expirePeersFrom now st.numpeers 0 st).filter (·.numpeers ≠ 0),
        (kept ++ (left.map fun st => expirePeersFrom now st.numpeers 0 st).filter
          (·.numpeers ≠ 0)).length⟩ := by
  intro turns
  induction turns with
  | zero =>
    intro kept left hle
    obtain rfl := List.length_eq_zero_iff.mp (Nat.le_zero.mp hle)
    rfl
  | succ turns ih =>
    intro kept left hle
    cases left with
    | nil =>
      rw [expireFrom]
      simp
    | cons st left =>
      have hget : (kept ++ st :: left)[kept.length]? = some st := by
        rw [List.getElem?_append_right le_rfl, Nat.sub_self]
        rfl
      rw [expireFrom, hget, List.map_cons]
      dsimp only
      by_cases hempty : (expirePeersFrom now st.numpeers 0 st).numpeers = 0
      · -- unlinked
        have hrest : (kept ++ st :: left).eraseIdx kept.length = kept ++ left := by
          rw [List.eraseIdx_append_of_length_le le_rfl, Nat.sub_self]
          rfl
        have hnum : (((kept ++ st :: left).length : ℕ) : ℤ) - 1 = (kept ++ left).length := by
          simp
          omega
        rw [if_pos hempty, List.filter_cons_of_neg (by simpa using hempty), hrest, hnum,
          if_neg (by omega)]
        exact ih kept left (Nat.le_of_succ_le_succ hle)
      · have hset : (kept ++ st :: left).set kept.length (expirePeersFrom now st.numpeers 0 st) =
            (kept ++ [expirePeersFrom now st.numpeers 0 st]) ++ left := by
          rw [List.set_append_right _ _ le_rfl, Nat.sub_self, List.append_assoc]
          rfl
        have hlen : (kept ++ st :: left).length =
            ((kept ++ [expirePeersFrom now st.numpeers 0 st]) ++ left).length := by
          simp
        rw [if_neg hempty, List.filter_cons_of_pos (by simpa using hempty), hset, hlen]
        have hnext := ih (kept ++ [expirePeersFrom now st.numpeers 0 st]) left
          (Nat.le_of_succ_le_succ hle)
        have hkept : (kept ++ [expirePeersFrom now st.numpeers 0 st]).length = kept.length + 1 :=
          List.length_append
        rw [hkept] at hnext
        rw [hnext, List.append_assoc, List.singleton_append]

theorem expire_eq {s : Store} (h : StoreOk s) :
    (s.expire now).storage = (s.storage.map fun st => expirePeersFrom now st.numpeers 0 st).filter
        (·.numpeers ≠ 0) ∧
      (s.expire now).numstorage = (s.expire now).storage.length := by
  obtain ⟨storage, numstorage⟩ := s
  obtain rfl : numstorage = storage.length := h.numstorage
  have heq := expireFrom_eq now storage.length [] storage le_rfl
  unfold Store.expire
  dsimp only
  rw [List.length_nil, List.nil_append] at heq
  rw [heq]
  exact ⟨List.nil_append _, rfl⟩

/-- Expiry keeps the storages with a recent peer. -/
theorem storage_expire {s : Store} (h : StoreOk s) :
    (s.expire now).storage = (s.storage.filter fun st => st.peers.any (Peer.recent now)).map
      fun st => expirePeersFrom now st.numpeers 0 st := by
  rw [(expire_eq h).1, List.filter_map]
  congr 1
  apply List.filter_congr
  intro st hst
  rw [Bool.eq_iff_iff, Function.comp_apply, decide_eq_true_iff]
  exact numpeers_expirePeersFrom_ne_zero (h.records st hst)

theorem storeOk_expire {s : Store} (h : StoreOk s) : StoreOk (s.expire now) := by
  refine ⟨?_, (expire_eq h).2, ?_, ?_⟩
  · have hids : (s.expire now).storage.map StorageRecord.id =
        (s.storage.filter fun st => st.peers.any (Peer.recent now)).map StorageRecord.id := by
      rw [storage_expire h, List.map_map]
      apply List.map_congr_left
      intro st hst
      exact (expirePeersFrom_zero now (h.records st (List.mem_of_mem_filter hst))).2.2.2.1
    rw [hids]
    exact h.distinct.sublist (List.Sublist.map _ List.filter_sublist)
  · rw [storage_expire h, List.length_map]
    exact (List.length_filter_le _ _).trans h.le
  · intro st' hst'
    rw [storage_expire h] at hst'
    obtain ⟨st, hst, rfl⟩ := List.mem_map.mp hst'
    exact recordOk_expirePeersFrom (h.records st (List.mem_of_mem_filter hst))

/-! ## Runs -/

/-- A call, at a time; the allocations that it makes succeed or fail. -/
inductive StorageCall
  | store (now : ℤ) (id : Id) (sa : Sockaddr) (port : UInt16) (calloc : Bool)
      (realloc : Option (ℕ → Peer))
  | expire (now : ℤ)

/-- What a call does to the storages. -/
def StorageCall.run (s : Store) : StorageCall → Store
  | .store now id sa port calloc realloc => (s.store now id sa port calloc realloc).2
  | .expire now => s.expire now

/-- The storages after the calls. -/
def storageCalls (calls : List StorageCall) : Store := calls.foldl StorageCall.run ⟨[], 0⟩

theorem storeOk_run {s : Store} (h : StoreOk s) (call : StorageCall) : StoreOk (call.run s) := by
  cases call with
  | store now id sa port calloc realloc => exact storeOk_store h id sa calloc
  | expire now => exact storeOk_expire h

theorem storeOk_empty : StoreOk ⟨[], 0⟩ :=
  ⟨List.nodup_nil, rfl, Nat.zero_le _, fun _ h => absurd h List.not_mem_nil⟩

theorem storeOk_storageCalls (calls : List StorageCall) : StoreOk (storageCalls calls) := by
  unfold storageCalls
  generalize hs : (⟨[], 0⟩ : Store) = s
  have h : StoreOk s := hs ▸ storeOk_empty
  clear hs
  induction calls generalizing s with
  | nil => exact h
  | cons call calls ih =>
    rw [List.foldl_cons]
    exact ih _ (storeOk_run h call)

/-- **The storages after any calls are in order, whichever allocations fail.** From there expiry
keeps the hashes with a recent peer, of each of them the recent peers, as they are, and no other
hash. -/
theorem storage_invariant (calls : List StorageCall) :
    StoreOk (storageCalls calls) ∧
      ∀ now, List.Forall₂ (Expired now)
        ((storageCalls calls).storage.filter fun st => st.peers.any (Peer.recent now))
        ((storageCalls calls).expire now).storage := by
  have h := storeOk_storageCalls calls
  refine ⟨h, fun now => ?_⟩
  rw [storage_expire h, List.forall₂_map_right_iff, List.forall₂_same]
  intro st hst
  exact expired_expirePeersFrom (h.records st (List.mem_of_mem_filter hst))

/-! ## The model on lists -/

/-- A storage with the peers in use only. -/
def StorageRecord.toStorage (st : StorageRecord) : Storage := ⟨st.id, st.maxpeers, st.peers⟩

theorem toStorage_store (h : RecordOk st) (mem : ℕ → Peer) :
    (st.store now ip port (some mem)).2.toStorage = st.toStorage.store now ip port := by
  have hlen := h.length_peers
  have hcells := h.cells
  have hle := h.numpeers_le
  unfold StorageRecord.store Storage.store StorageRecord.toStorage
  dsimp only
  rw [hlen]
  cases hfind : (st.cells.take st.numpeers).findIdx? fun p => p.port == port && p.ip == ip with
  | some i =>
    have hfind' : (st.peers.findIdx? fun p => p.port == port && p.ip == ip) = some i := hfind
    rw [hfind']
    unfold StorageRecord.peers
    dsimp only
    rw [List.take_modify]
  | none =>
    have hfind' : (st.peers.findIdx? fun p => p.port == port && p.ip == ip) = none := hfind
    rw [hfind']
    dsimp only
    by_cases hfull : st.maxpeers ≤ st.numpeers
    · rw [if_pos hfull, if_pos hfull]
      by_cases hmost : dhtMaxPeers ≤ st.maxpeers
      · rw [if_pos hmost, if_pos hmost]
      · rw [if_neg hmost, if_neg hmost]
        unfold StorageRecord.peers
        dsimp only
        rw [take_set_succ, List.take_append_of_le_length (by omega)]
        rw [List.length_append, List.length_map, List.length_range]
        unfold dhtMaxPeers at hmost ⊢
        split_ifs <;> omega
    · rw [if_neg hfull, if_neg hfull]
      unfold StorageRecord.peers
      dsimp only
      rw [take_set_succ (by omega)]

theorem toStorage_storage_store {s : Store} (h : StoreOk s) (id : Id) (sa : Sockaddr)
    (mem : ℕ → Peer) :
    (s.store now id sa port true (some mem)).2.storage.map StorageRecord.toStorage =
      storageStore now id sa port (s.storage.map StorageRecord.toStorage) := by
  unfold Store.store storageStore
  by_cases hfam : sa.family = afInet ∨ sa.family = afInet6
  · rw [if_pos hfam, if_pos hfam, List.findIdx?_map]
    have hpred : ((fun st : Storage => decide (idCmp id st.id = .eq)) ∘
        StorageRecord.toStorage) = fun st => decide (idCmp id st.id = .eq) := rfl
    rw [hpred]
    cases hfind : s.storage.findIdx? fun st => idCmp id st.id = .eq with
    | some i =>
      dsimp only
      exact List.map_modify_of_comm fun st hst => toStorage_store (h.records st hst) mem
    | none =>
      dsimp only
      have hnum := h.numstorage
      rw [List.length_map]
      by_cases hmost : dhtMaxHashes ≤ s.storage.length
      · rw [if_pos (by omega), if_pos hmost]
      · rw [if_neg (by omega), if_neg hmost, if_pos rfl, List.map_cons,
          toStorage_store (recordOk_calloc id) mem]
        rfl
  · rw [if_neg hfam, if_neg hfam]

theorem toStorage_storage_expire {s : Store} (h : StoreOk s) :
    (s.expire now).storage.map StorageRecord.toStorage =
      expireStorage now (s.storage.map StorageRecord.toStorage) := by
  unfold expireStorage
  rw [(expire_eq h).1, List.map_map]
  have hmap : s.storage.map (StorageRecord.toStorage ∘ fun st =>
      expirePeersFrom now st.numpeers 0 st) = s.storage.map ((fun st : Storage =>
      { st with peers := expirePeers now st.peers.length st.peers }) ∘
      StorageRecord.toStorage) := by
    apply List.map_congr_left
    intro st hst
    obtain ⟨-, hpeers, -, hid, hmax⟩ := expirePeersFrom_zero now (h.records st hst)
    simp only [Function.comp_apply, StorageRecord.toStorage, hpeers, hid, hmax]
  rw [← hmap, ← List.map_map, List.filter_map (p := fun st : Storage => !st.peers.isEmpty)]
  congr 1
  apply List.filter_congr
  intro st' hst'
  obtain ⟨st, hst, rfl⟩ := List.mem_map.mp hst'
  obtain ⟨hnum, hpeers, -⟩ := expirePeersFrom_zero now (h.records st hst)
  rw [Bool.eq_iff_iff, decide_eq_true_iff, hnum]
  simp only [Function.comp_apply, StorageRecord.toStorage, hpeers]
  rw [Bool.not_eq_true', List.isEmpty_eq_false_iff, ne_eq, List.length_eq_zero_iff]

end DtnDht
