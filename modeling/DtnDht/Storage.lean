import DtnDht.Id
import DtnDht.Sockaddr

/-!
# Stored peers

"A struct storage stores all the stored peer addresses for a given info hash." `numpeers` is the
length of the list of peers and `numstorage` that of the list of storages. Allocations succeed.
-/

namespace DtnDht

/-- `struct peer`; `len` is the length of the address. -/
structure Peer where
  time : ℤ
  ip : Bytes
  port : UInt16
  deriving DecidableEq

/-- `struct storage`. -/
structure Storage where
  id : Id
  maxpeers : ℕ
  peers : List Peer
  deriving DecidableEq

/-- `DHT_MAX_PEERS`. -/
def dhtMaxPeers : ℕ := 2048

/-- `DHT_MAX_HASHES`. -/
def dhtMaxHashes : ℕ := 16384

/-- `find_storage`. -/
def findStorage (id : Id) (storage : List Storage) : Option Storage :=
  storage.find? fun st => idCmp id st.id = .eq

/-- What `storage_store` does to the storage of the hash. -/
def Storage.store (now : ℤ) (ip : Bytes) (port : UInt16) (st : Storage) : Storage :=
  match st.peers.findIdx? fun p => p.port == port && p.ip == ip with
  | some i =>
    -- "Already there, only need to refresh"
    { st with peers := st.peers.modify i fun p => { p with time := now } }
  | none =>
    if st.maxpeers ≤ st.peers.length then
      if dhtMaxPeers ≤ st.maxpeers then st
      else
        let n := if st.maxpeers = 0 then 2 else 2 * st.maxpeers
        { st with maxpeers := min n dhtMaxPeers, peers := st.peers ++ [⟨now, ip, port⟩] }
    else { st with peers := st.peers ++ [⟨now, ip, port⟩] }

/-- `storage_store`. -/
def storageStore (now : ℤ) (id : Id) (sa : Sockaddr) (port : UInt16) (storage : List Storage) :
    List Storage :=
  if sa.family = afInet ∨ sa.family = afInet6 then
    match storage.findIdx? fun st => idCmp id st.id = .eq with
    | some i => storage.modify i (·.store now sa.ip port)
    | none =>
      if dhtMaxHashes ≤ storage.length then storage
      else (Storage.mk id 0 []).store now sa.ip port :: storage
  else storage

/-- The loop of `expire_storage` over the peers of a storage; the last peer takes the place of an
expired one. -/
def expirePeers (now : ℤ) : ℕ → List Peer → List Peer
  | 0, peers => peers
  | _, [] => []
  | n + 1, p :: peers =>
    if p.time < now - 32 * 60 then
      expirePeers now n (peers.getLast?.elim [] fun q => q :: peers.dropLast)
    else p :: expirePeers now n peers

/-- `expire_storage`; a storage without peers is freed. -/
def expireStorage (now : ℤ) (storage : List Storage) : List Storage :=
  (storage.map fun st => { st with peers := expirePeers now st.peers.length st.peers }).filter
    fun st => !st.peers.isEmpty

end DtnDht
