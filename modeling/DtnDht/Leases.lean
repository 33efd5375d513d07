import DtnDht.Clock
import DtnDht.LocalArrays
import DtnDht.PeersAnswer
import DtnDht.RateLimit
import DtnDht.StorageArray
import DtnDht.TokenHome

/-!
# How long a node keeps its word

A node hands out tokens with which a peer may announce itself, and it serves the peers that did.
Both are good for a while whatever the application calls and whatever comes in meanwhile: a token
for 15 minutes, since the secret is not drawn twice within that time, and a stored peer for 32
minutes, since neither expiry nor other announcements drop it before. The clock does not go back.
-/

namespace DtnDht

open CString Relation

/-! ## Stored peers -/

/-- A peer is among those stored for the hash, and was announced no earlier than `t`. -/
def HasPeer (t : ℤ) (id : Id) (ip : Bytes) (port : UInt16) (storage : List Storage) : Prop :=
  ∃ st ∈ findStorage id storage, ∃ p ∈ st.peers, p.ip = ip ∧ p.port = port ∧ t ≤ p.time

/-- `storage_store` has room for another peer of the hash. -/
def HasRoom (id : Id) (storage : List Storage) : Prop :=
  (findStorage id storage = none → storage.length < dhtMaxHashes) ∧
    ∀ st ∈ findStorage id storage, st.peers.length < dhtMaxPeers

instance (id : Id) (storage : List Storage) : Decidable (HasRoom id storage) := by
  unfold HasRoom; infer_instance

section

variable {now t : ℤ} {id id' : Id} {ip ip' : Bytes} {port port' : UInt16} {st : Storage}
  {storage : List Storage} {sa : Sockaddr}

theorem Storage.id_store (now : ℤ) (ip : Bytes) (port : UInt16) (st : Storage) :
    (st.store now ip port).id = st.id := by
  unfold Storage.store
  split
  · rfl
  · split_ifs <;> rfl

theorem mem_findStorage (h : findStorage id storage = some st) : st ∈ storage ∧ id = st.id := by
  unfold findStorage at h
  exact ⟨List.mem_of_find?_eq_some h, idCmp_eq_eq.mp (of_decide_eq_true
    (List.find?_some (p := fun st : Storage => idCmp id st.id = .eq) h))⟩

/-- `storage_store` drops no peer and makes none older. -/
theorem kept_store (ht : t ≤ now)
    (h : ∃ p ∈ st.peers, p.ip = ip ∧ p.port = port ∧ t ≤ p.time) (ip' : Bytes) (port' : UInt16) :
    ∃ p ∈ (st.store now ip' port').peers, p.ip = ip ∧ p.port = port ∧ t ≤ p.time := by
  obtain ⟨p, hp, hip, hport, htime⟩ := h
  unfold Storage.store
  split
  · rename_i i _
    obtain ⟨k, hk⟩ := List.mem_iff_getElem?.mp hp
    by_cases hki : k = i
    · subst hki
      exact ⟨_, List.mem_modify_iff.mpr (Or.inl ⟨p, hk, rfl⟩), hip, hport, ht⟩
    · exact ⟨p, List.mem_modify_iff.mpr (Or.inr ⟨k, hki, hk⟩), hip, hport, htime⟩
  · by_cases hfull : st.maxpeers ≤ st.peers.length
    · rw [if_pos hfull]
      by_cases hmax : dhtMaxPeers ≤ st.maxpeers
      · rw [if_pos hmax]
        exact ⟨p, hp, hip, hport, htime⟩
      · rw [if_neg hmax]
        exact ⟨p, List.mem_append_left _ hp, hip, hport, htime⟩
    · rw [if_neg hfull]
      exact ⟨p, List.mem_append_left _ hp, hip, hport, htime⟩

/-- An announced peer is stored as long as there is room for it. -/
theorem mem_store (hroom : st.peers.length < dhtMaxPeers) (now : ℤ) (ip : Bytes) (port : UInt16) :
    ∃ p ∈ (st.store now ip port).peers, p.ip = ip ∧ p.port = port ∧ now ≤ p.time := by
  unfold Storage.store
  split
  · rename_i i hi
    obtain ⟨hlt, hp, -⟩ := List.findIdx?_eq_some_iff_getElem.mp hi
    rw [Bool.and_eq_true, beq_iff_eq, beq_iff_eq] at hp
    exact ⟨_, List.mem_modify_iff.mpr (Or.inl ⟨_, List.getElem?_eq_getElem hlt, rfl⟩), hp.2, hp.1,
      le_rfl⟩
  · by_cases hfull : st.maxpeers ≤ st.peers.length
    · have hmax : ¬ dhtMaxPeers ≤ st.maxpeers := fun hmax =>
        absurd (hmax.trans hfull) (not_le.mpr hroom)
      rw [if_pos hfull, if_neg hmax]
      exact ⟨_, List.mem_append_right _ (List.mem_singleton.mpr rfl), rfl, rfl, le_rfl⟩
    · rw [if_neg hfull]
      exact ⟨_, List.mem_append_right _ (List.mem_singleton.mpr rfl), rfl, rfl, le_rfl⟩

theorem findStorage_modify_store (now : ℤ) (ip : Bytes) (port : UInt16) (id : Id)
    (storage : List Storage) (i : ℕ) :
    findStorage id (storage.modify i (·.store now ip port)) =
      if (storage.findIdx? fun st => idCmp id st.id = .eq) = some i
      then (findStorage id storage).map (·.store now ip port) else findStorage id storage :=
  List.find?_modify (fun st => by rw [Storage.id_store]) storage i

/-- Storing a peer keeps those that are stored. -/
theorem HasPeer.storageStore (h : HasPeer t id ip port storage) (ht : t ≤ now) (id' : Id)
    (sa : Sockaddr) (port' : UInt16) :
    HasPeer t id ip port (storageStore now id' sa port' storage) := by
  obtain ⟨st, hst, hp⟩ := h
  unfold DtnDht.storageStore
  by_cases hsa : sa.family = afInet ∨ sa.family = afInet6
  · rw [if_pos hsa]
    split
    · rename_i i _
      unfold HasPeer
      rw [findStorage_modify_store]
      split_ifs
      · exact ⟨_, Option.mem_map_of_mem _ hst, kept_store ht hp _ _⟩
      · exact ⟨st, hst, hp⟩
    · rename_i hnone
      by_cases hfull : dhtMaxHashes ≤ storage.length
      · rw [if_pos hfull]
        exact ⟨st, hst, hp⟩
      · rw [if_neg hfull]
        refine ⟨st, ?_, hp⟩
        obtain ⟨hmem, rfl⟩ := mem_findStorage hst
        have hother : ¬ id' = st.id := by
          simpa using List.findIdx?_eq_none_iff.mp hnone st hmem
        have hne : ¬ idCmp st.id ((Storage.mk id' 0 []).store now sa.ip port').id = .eq := by
          rw [Storage.id_store, idCmp_eq_eq]
          exact fun h => hother h.symm
        exact (List.find?_cons_of_neg (by simpa using hne)).trans hst
  · rw [if_neg hsa]
    exact ⟨st, hst, hp⟩

/-- A peer is stored as long as there is room for it. -/
theorem hasPeer_storageStore (hroom : HasRoom id storage)
    (hsa : sa.family = afInet ∨ sa.family = afInet6) (now : ℤ) (port : UInt16) :
    HasPeer now id sa.ip port (storageStore now id sa port storage) := by
  obtain ⟨hhashes, hpeers⟩ := hroom
  unfold storageStore HasPeer
  rw [if_pos hsa]
  cases hst : findStorage id storage with
  | none =>
    have hnone : storage.findIdx? (fun st => idCmp id st.id = .eq) = none :=
      List.findIdx?_eq_none_iff.mpr (by simpa using List.find?_eq_none.mp hst)
    rw [hnone]
    dsimp only
    rw [if_neg (not_le.mpr (hhashes hst))]
    have hempty : (Storage.mk id 0 []).peers.length < dhtMaxPeers := Nat.zero_lt_succ 2047
    refine ⟨_, List.find?_cons_of_pos ?_, mem_store hempty now sa.ip port⟩
    rw [Storage.id_store]
    simp
  | some st =>
    obtain ⟨i, hi⟩ : ∃ i, storage.findIdx? (fun st => idCmp id st.id = .eq) = some i := by
      obtain ⟨hmem, hid⟩ := mem_findStorage hst
      refine Option.isSome_iff_exists.mp (List.findIdx?_isSome.trans ?_)
      exact List.any_eq_true.mpr ⟨st, hmem, decide_eq_true (idCmp_eq_eq.mpr hid)⟩
    rw [hi]
    dsimp only
    rw [findStorage_modify_store, if_pos hi, hst]
    exact ⟨_, rfl, mem_store (hpeers st hst) now sa.ip port⟩

/-- `expire_storage` keeps a peer for 32 minutes. -/
theorem HasPeer.expireStorage (h : HasPeer t id ip port storage) (hnow : now ≤ t + 32 * 60) :
    HasPeer t id ip port (expireStorage now storage) := by
  obtain ⟨st, hst, p, hp, hip, hport, htime⟩ := h
  have hrecent : p.recent now = true := decide_eq_true (by omega)
  have hkept : p ∈ expirePeers now st.peers.length st.peers :=
    (expirePeers_perm now _ _ le_rfl).mem_iff.mpr (List.mem_filter.mpr ⟨hp, hrecent⟩)
  refine ⟨{ st with peers := expirePeers now st.peers.length st.peers }, ?_, p, hkept, hip, hport,
    htime⟩
  have hsome : (expirePeers now st.peers.length st.peers).isEmpty = false :=
    List.isEmpty_eq_false_iff.mpr (List.ne_nil_of_mem hkept)
  unfold DtnDht.expireStorage
  unfold findStorage at hst ⊢
  induction storage with
  | nil => exact absurd hst (by simp)
  | cons a storage ih =>
    rw [List.map_cons]
    by_cases ha : idCmp id a.id = .eq
    · rw [List.find?_cons_of_pos (by simpa using ha)] at hst
      obtain rfl := Option.some_inj.mp hst
      rw [List.filter_cons_of_pos (by simpa using hsome)]
      exact List.find?_cons_of_pos (by simpa using ha)
    · rw [List.find?_cons_of_neg (by simpa using ha)] at hst
      have hrest := ih hst
      rw [List.filter_cons]
      split_ifs
      · exact (List.find?_cons_of_neg (by simpa using ha)).trans hrest
      · exact hrest

end

/-! ## Within the time -/

namespace World

variable {w w' : World} {t : ℤ}

/-- A stored peer stays for 32 minutes. -/
theorem Steady.hasPeer (hw : w.Steady) (ht : t ≤ w.now) (hrun : Writes w w')
    (hd : w'.now ≤ t + 32 * 60) {id : Id} {ip : Bytes} {port : UInt16}
    (h : HasPeer t id ip port w.storage) : HasPeer t id ip port w'.storage := by
  refine forward_write.keeps (p := fun w => HasPeer t id ip port w.storage)
    (isLowerSet_Iic (t + 32 * 60)) (fun w w' ht hd hstep hp => ?_) hw ht hrun hd h
  cases hstep with
  | other hcore _ =>
    have hstorage : w'.storage = w.storage := congrArg Statics.storage hcore
    rwa [hstorage]
  | gettimeofday | routing | searches | searchTime | dhtSearch | rotateSecrets => exact hp
  | storageStore id' sa port' => exact hp.storageStore ht id' sa port'
  | expireStorage => exact hp.expireStorage hd

/-- The secret is the current one, or the previous one and not to be dropped within the 15 minutes
that began at `t`. -/
def Knows (t : ℤ) (secret : Bytes) (w : World) : Prop :=
  w.secrets.secret = secret ∨ w.secrets.oldsecret = secret ∧ t + 900 ≤ w.rotateSecretsTime

/-- A secret is known for 15 minutes. -/
theorem Steady.knows (hw : w.Steady) (ht : t ≤ w.now) (hrun : Writes w w') (hd : w'.now < t + 900)
    {secret : Bytes} (h : w.Knows t secret) : w'.Knows t secret := by
  refine forward_write.keeps (p := Knows t secret) (isLowerSet_Iio (t + 900))
    (fun w w' ht hd hstep hk => ?_) hw ht hrun hd h
  cases hstep with
  | other hcore _ =>
    simp only [core, Statics.mk.injEq] at hcore
    obtain ⟨-, -, -, -, -, -, hsecrets, htime⟩ := hcore
    unfold Knows
    rwa [hsecrets, htime]
  | gettimeofday | routing | searches | searchTime | dhtSearch | storageStore | expireStorage =>
    exact hk
  | rotateSecrets hdue =>
    have hnow : w.now < t + 900 := hd
    have hnext : (w.rotateSecrets).rotateSecretsTime = w.now + 900 + ((w.random).1 : ℕ) % 1800 :=
      rfl
    rcases hk with rfl | ⟨-, hlate⟩
    · exact Or.inr ⟨rfl, by rw [hnext]; omega⟩
    · exact absurd (hlate.trans hdue) (not_le.mpr hnow)

/-- The token of a known secret is accepted from the address that it was made for. -/
theorem Knows.tokenMatch {sha1 : Bytes → Bytes} (hdigest : ∀ b, (sha1 b).length = 20)
    {secret : Bytes} (h : w.Knows t secret) {sa sa' : Sockaddr} (hip : sa'.ip = sa.ip)
    (hport : sa'.port = sa.port) :
    DtnDht.tokenMatch sha1 w.secrets (tokenOf sha1 secret sa) sa' = true := by
  have hlen : (tokenOf sha1 secret sa).length = tokenSize := by
    rw [tokenOf, dhtHash, List.length_take, hdigest]
    rfl
  have htoken (secret : Bytes) : tokenOf sha1 secret sa' = tokenOf sha1 secret sa := by
    unfold tokenOf htonsPort
    rw [hip, hport]
  unfold DtnDht.tokenMatch makeToken
  rw [if_neg (not_not.mpr hlen), Bool.or_eq_true, beq_iff_eq, beq_iff_eq, if_neg Bool.false_ne_true,
    if_pos rfl, htoken, htoken]
  rcases h with rfl | ⟨rfl, -⟩
  · exact Or.inl rfl
  · exact Or.inr rfl

end World

/-! ## Answers -/

namespace World

/-- A transaction id fits into its array. -/
theorem length_tidBytes_le {lib : Platform} {w : World} {dg : Datagram} {m : Message}
    (hm : w.messageOf lib dg = some m) : m.tidBytes.length ≤ 16 := by
  obtain ⟨message, result, written, hfrom, hparse⟩ :=
    writesTid_parseDtnMessage lib.inetNtop dg.frm dg.buf 16
  have hdtn : (w.parseDtn lib dg).tidLen ≤ 16 := by
    have hlen : (w.parseDtn lib dg).tidLen = setTidLen 16 written :=
      congrArg DtnParse.tidLen (hparse w.stackTid.1)
    rw [hlen]
    cases written with
    | none => exact le_rfl
    | some t => exact (hfrom t rfl).2.1.trans (by decide)
  have hparsed : parseMessage dg.buf (w.parseDtn lib dg).tid (w.parseDtn lib dg).tidLen =
      some m := by
    unfold messageOf at hm
    dsimp only at hm
    split at hm
    · exact absurd hm (by simp)
    · exact absurd hm (by simp)
    · exact hm
  rw [parseMessage_eq_bind] at hparsed
  obtain ⟨⟨tid, tidLen⟩, htid, hrest⟩ := Option.bind_eq_some_iff.mp hparsed
  obtain ⟨m, -, rfl⟩ := Option.map_eq_some_iff.mp hrest
  refine (List.length_take_le _ _).trans ?_
  change tidLen ≤ 16
  unfold parseTid at htid
  cases hp : Occurrence.findInfix (str "1:t") dg.buf with
  | none =>
    rw [hp] at htid
    obtain ⟨-, rfl⟩ := Prod.mk.inj (Option.some_inj.mp htid)
    exact hdtn
  | some p =>
    rw [hp] at htid
    dsimp only at htid
    split at htid
    · rename_i t ht
      have hok := ((readField_eq_value_iff (Bytewise.tidOk_nonneg _)).mp ht).1
      rw [Bool.and_eq_true, decide_eq_true_eq, decide_eq_true_eq] at hok
      obtain ⟨-, rfl⟩ := Prod.mk.inj (Option.some_inj.mp htid)
      omega
    · obtain ⟨-, rfl⟩ := Prod.mk.inj (Option.some_inj.mp htid)
      exact Nat.zero_le 16
    · exact absurd htid (by simp)

/-- `dht_periodic`, when it has read the clock, answers the datagram as the query `m`. -/
structure Answering (lib : Platform) (w : World) (dg : Datagram) (m : Message) : Prop where
  heeded : w.ignores dg = false
  terminated : dg.terminated = true
  message : w.messageOf lib dg = some m
  answers : w.answersQuery m
  socket : 0 ≤ w.net.socket dg.frm
  sockaddr : IsSockaddr dg.frm dg.fromlen
  version : w.net.VersionFits

/-- A request for the peers of a hash. -/
structure Asks (lib : Platform) (w : World) (dg : Datagram) (m : Message) : Prop
    extends Answering lib w dg m where
  kind : m.kind = .getPeers
  infoHash : m.infoHash ≠ Id.zeroes

/-- An announcement for which there is room. -/
structure Announces (lib : Platform) (w : World) (dg : Datagram) (m : Message) : Prop
    extends Answering lib w dg m where
  kind : m.kind = .announcePeer
  infoHash : m.infoHash ≠ Id.zeroes
  port : m.port ≠ 0
  room : HasRoom m.infoHash w.storage

section

variable {lib : Platform} {clayer : List ConvergenceLayer} {w : World} {dg : Datagram} {m : Message}
  {frm : Sockaddr} {fromlen : ℕ} {sha1 : Bytes → Bytes}

/-- At most 50 peers are all served. -/
theorem mem_servedPeers {af j0 : ℕ} {peers : List Peer} {peer : Peer} (hpeer : peer ∈ peers)
    (hlen : peer.ip.length = if af = afInet then 4 else 16)
    (hcount : (peers.countP fun p => p.ip.length = if af = afInet then 4 else 16) ≤ 50) :
    peer ∈ servedPeers af peers j0 := by
  have hperm : (peers.drop j0 ++ peers.take j0).Perm peers :=
    List.perm_append_comm.trans (List.Perm.of_eq (List.take_append_drop j0 peers))
  unfold servedPeers
  rw [List.take_of_length_le]
  · exact List.mem_filter.mpr ⟨hperm.mem_iff.mpr hpeer, decide_eq_true hlen⟩
  · rwa [← List.countP_eq_length_filter, hperm.countP_eq]

theorem dhtPeriodic_of_answering (h : Answering lib w.gettimeofday dg m) :
    (w.dhtPeriodic lib clayer (some dg)).2 =
      (w.gettimeofday.stackTid.2.takeToken.2.query m dg.frm dg.fromlen lib.sha1).doDue := by
  have hanswers : w.gettimeofday.stackTid.2.answersQuery m := h.answers
  rw [dhtPeriodic_of_not_ignores h.heeded h.terminated, receive_of_message clayer h.message,
    handle_of_answersQuery hanswers]

theorem Answering.not_blacklisted (h : Answering lib w dg m) :
    w.net.nodeBlacklisted dg.frm dg.fromlen = false := by
  have hheeded := h.heeded
  unfold ignores at hheeded
  exact (Bool.or_eq_false_iff.mp hheeded).2

/-- `send_closest_nodes` sends one packet, which fits. -/
theorem replies_replyClosestNodes (hsocket : 0 ≤ w.net.socket frm)
    (hb : w.net.nodeBlacklisted frm fromlen = false) (hv : w.net.VersionFits)
    (htid : m.tidBytes.length ≤ 16) (id : Id) (af : ℕ) (st : Option Storage) {token : Bytes}
    (htoken : token.length ≤ 40) : ∃ nodes nodes6 x,
      (w.replyClosestNodes m frm fromlen id af st token).replies = w.replies ++
        [⟨nodesPeersText w.net m.tidBytes nodes nodes6 (answerPeers af x st) token, 0, frm,
          fromlen⟩] := by
  have hsend := sendClosestNodes_packet hv htid htoken hb hsocket w.now w.routing id m.want af st
    w.env.random
  exact ⟨_, _, _, (replies_reply _ _).trans (congrArg (w.replies ++ ·) hsend)⟩

/-- The answer to a request for peers. -/
theorem replies_getPeers (h0 : m.infoHash ≠ Id.zeroes) (hsocket : 0 ≤ w.net.socket frm)
    (hb : w.net.nodeBlacklisted frm fromlen = false) (hv : w.net.VersionFits)
    (htid : m.tidBytes.length ≤ 16) : ∃ nodes nodes6 x,
      (w.getPeers m frm fromlen sha1).replies = w.replies ++
        [⟨nodesPeersText w.net m.tidBytes nodes nodes6
          (answerPeers frm.family x (findStorage m.infoHash w.storage))
          (makeToken sha1 w.secrets frm false), 0, frm, fromlen⟩] := by
  have hnew := (calm_newNode w m.id frm fromlen 1).replies
  have htoken := length_makeToken_le sha1 w.secrets frm false
  have hreply (af : ℕ) (st : Option Storage) := replies_replyClosestNodes
    (w := w.newNode m.id frm fromlen 1) hsocket hb hv htid m.infoHash af st htoken
  unfold getPeers
  dsimp only
  rw [if_neg h0]
  cases hst : findStorage m.infoHash w.storage with
  | none =>
    obtain ⟨nodes, nodes6, x, h⟩ := hreply 0 none
    refine ⟨nodes, nodes6, x, ?_⟩
    rw [show findStorage m.infoHash (w.newNode m.id frm fromlen 1).storage = none from hst]
    exact h.trans (by rw [hnew]; rfl)
  | some st =>
    rw [show findStorage m.infoHash (w.newNode m.id frm fromlen 1).storage = some st from hst]
    dsimp only
    by_cases hpeers : st.peers ≠ []
    · obtain ⟨nodes, nodes6, x, h⟩ := hreply frm.family (some st)
      refine ⟨nodes, nodes6, x, ?_⟩
      rw [if_pos hpeers]
      exact h.trans (by rw [hnew]; rfl)
    · obtain ⟨nodes, nodes6, x, h⟩ := hreply 0 none
      refine ⟨nodes, nodes6, x, ?_⟩
      rw [if_neg hpeers, answerPeers, if_pos (not_not.mp hpeers)]
      exact h.trans (by rw [hnew]; rfl)

/-- The answer to an announcement with a good token, and what it stores. -/
theorem announcePeer_of_tokenMatch (h0 : m.infoHash ≠ Id.zeroes) (hport : m.port ≠ 0)
    (htoken : tokenMatch sha1 w.secrets m.token frm = true) (hsocket : 0 ≤ w.net.socket frm)
    (hb : w.net.nodeBlacklisted frm fromlen = false) (hv : w.net.VersionFits)
    (htid : m.tidBytes.length ≤ 16) :
    (w.announcePeer m frm fromlen sha1).replies =
        w.replies ++ [⟨pongText w.net m.tidBytes, 0, frm, fromlen⟩] ∧
      (w.announcePeer m frm fromlen sha1).storage =
        storageStore w.now m.infoHash frm m.port w.storage := by
  have hnew := (calm_newNode w m.id frm fromlen 1).replies
  have hmatch : ¬ (!tokenMatch sha1 (w.newNode m.id frm fromlen 1).secrets m.token frm) = true := by
    rw [show (w.newNode m.id frm fromlen 1).secrets = w.secrets from rfl, htoken]
    exact Bool.false_ne_true
  unfold announcePeer
  dsimp only
  rw [if_neg h0, if_neg hmatch, if_neg hport]
  refine ⟨?_, rfl⟩
  have hsend : dhtSendBuf w.net (sendPeerAnnounced w.net m.tidBytes) 0 frm fromlen =
      [⟨pongText w.net m.tidBytes, 0, frm, fromlen⟩] := by
    rw [sendPeerAnnounced, sendPong_eq hv htid, dhtSendBuf_of_socket hb hsocket]
  rw [replies_reply]
  exact congrArg₂ (· ++ ·) hnew hsend

/-- The state after `dht_periodic` has answered a query. -/
def answered (lib : Platform) (w : World) (dg : Datagram) (m : Message) : World :=
  (w.stackTid.2.takeToken.2.query m dg.frm dg.fromlen lib.sha1).doDue

theorem writes_answered (h : Answering lib w dg m) : Writes w (w.answered lib dg m) := by
  have htake : Writes w w.stackTid.2.takeToken.2 := Writes.other .refl rfl rfl
  exact (htake.query m lib.sha1 h.sockaddr).doDue

/-- A request for peers is answered with the token of the current secret. -/
theorem Asks.replies (h : Asks lib w dg m) : ∃ nodes nodes6 x,
    (w.answered lib dg m).replies = w.replies ++
      [⟨nodesPeersText w.net m.tidBytes nodes nodes6
        (answerPeers dg.frm.family x (findStorage m.infoHash w.storage))
        (makeToken lib.sha1 w.secrets dg.frm false), 0, dg.frm, dg.fromlen⟩] := by
  have hb : w.stackTid.2.takeToken.2.net.nodeBlacklisted dg.frm dg.fromlen = false :=
    h.not_blacklisted
  obtain ⟨nodes, nodes6, x, hreplies⟩ := replies_getPeers (w := w.stackTid.2.takeToken.2)
    h.infoHash h.socket hb h.version (length_tidBytes_le h.message)
  refine ⟨nodes, nodes6, x, (quiet_doDue _).replies.trans ?_⟩
  rw [query, h.kind]
  exact hreplies

/-- An announcement with a good token is acknowledged, and its sender is stored. -/
theorem Announces.stores (h : Announces lib w dg m) (hw : w.Steady)
    (htoken : tokenMatch lib.sha1 w.secrets m.token dg.frm = true) :
    (w.answered lib dg m).replies =
        w.replies ++ [⟨pongText w.net m.tidBytes, 0, dg.frm, dg.fromlen⟩] ∧
      HasPeer w.now m.infoHash dg.frm.ip m.port (w.answered lib dg m).storage := by
  have hb : w.stackTid.2.takeToken.2.net.nodeBlacklisted dg.frm dg.fromlen = false :=
    h.not_blacklisted
  obtain ⟨hreplies, hstorage⟩ := announcePeer_of_tokenMatch (w := w.stackTid.2.takeToken.2)
    h.infoHash h.port htoken h.socket hb h.version (length_tidBytes_le h.message)
  have htake : Writes w w.stackTid.2.takeToken.2 := Writes.other .refl rfl rfl
  have hrun := htake.query m lib.sha1 h.sockaddr
  have hnow := (answers_announcePeer m dg.frm dg.fromlen lib.sha1 w.stackTid.2.takeToken.2).now
  unfold answered
  rw [query, h.kind] at hrun ⊢
  dsimp only at hrun ⊢
  generalize w.stackTid.2.takeToken.2.announcePeer m dg.frm dg.fromlen lib.sha1 = w₁ at *
  have hdue := quiet_doDue w₁
  refine ⟨hdue.replies.trans hreplies, ?_⟩
  have hstored : HasPeer w.now m.infoHash dg.frm.ip m.port w₁.storage := by
    rw [hstorage]
    exact hasPeer_storageStore h.room (Routing.isFamily_of_isSockaddr h.sockaddr).1 _ _
  refine (forward_write.run hw hrun).1.hasPeer (forward_write.run hw hrun).2 (Writes.doDue .refl) ?_
    hstored
  have hlater : w₁.doDue.now = w.now := hdue.now.trans hnow
  omega

end

end World

namespace Process

variable {p : Process} {lib : Platform} {ctx : Context} {dg : Datagram} {m : Message}

theorem world_hear (h : (p.listening ctx).Answering lib dg m) :
    (p.hear lib ctx dg).world = (p.listening ctx).answered lib dg m :=
  World.dhtPeriodic_of_answering h

/-- **A token is good for 15 minutes.** In any run, a node that asks for the peers of a hash gets a
token with which an announcement from its address and port is acknowledged and stored, whatever
the process is called with in between. -/
theorem token_lasts {env : Env} (h0 : 0 ≤ env.clock 0) (hclock : Monotone env.clock)
    {past : List ProcessCall} (hpast : ∀ c ∈ past, c.Valid)
    (hdigest : ∀ b, (lib.sha1 b).length = 20)
    (h : (((start env).after past).listening ctx).Asks lib dg m) :
    let w := ((start env).after past).listening ctx
    let p := ((start env).after past).hear lib ctx dg
    let token := makeToken lib.sha1 w.secrets dg.frm false
    (∃ nodes nodes6 peers, p.world.replies = w.replies ++
        [⟨nodesPeersText w.net m.tidBytes nodes nodes6 peers token, 0, dg.frm, dg.fromlen⟩]) ∧
      ∀ later, (∀ c ∈ later, c.restarts = false ∧ c.Valid) → ∀ ctx' dg' m',
        let w' := (p.after later).listening ctx'
        w'.Announces lib dg' m' → m'.token = token →
        dg'.frm.ip = dg.frm.ip → dg'.frm.port = dg.frm.port → w'.now < w.now + 900 →
        ((p.after later).hear lib ctx' dg').world.replies =
            w'.replies ++ [⟨pongText w'.net m'.tidBytes, 0, dg'.frm, dg'.fromlen⟩] ∧
          HasPeer w'.now m'.infoHash dg'.frm.ip m'.port
            ((p.after later).hear lib ctx' dg').world.storage := by
  have hsteady := steady_after h0 hclock hpast
  generalize (start env).after past = p₀ at h hsteady
  have hw := (World.forward_write.run hsteady (p₀.writes_listening ctx)).1
  have hanswer := World.writes_answered h.toAnswering
  obtain ⟨nodes, nodes6, x, hreplies⟩ := h.replies
  rw [← world_hear h.toAnswering] at hreplies hanswer
  refine ⟨⟨nodes, nodes6, _, hreplies⟩, fun later hl ctx' dg' m' hann htoken hip hport htime => ?_⟩
  have hrun := hanswer.trans (writes_until _ hl ctx')
  have hw' := (World.forward_write.run hw hrun).1
  have hknown := hw.knows le_rfl hrun htime (Or.inl rfl)
  rw [world_hear hann.toAnswering]
  refine hann.stores hw' ?_
  rw [htoken]
  exact hknown.tokenMatch hdigest hip hport

/-- A peer that announces itself with a good token is stored for 32 minutes. -/
theorem hasPeer_announced {env : Env} (h0 : 0 ≤ env.clock 0) (hclock : Monotone env.clock)
    {past : List ProcessCall} (hpast : ∀ c ∈ past, c.Valid)
    (h : (((start env).after past).listening ctx).Announces lib dg m)
    (htoken : tokenMatch lib.sha1 (((start env).after past).listening ctx).secrets m.token dg.frm =
      true)
    {later : List ProcessCall} (hl : ∀ c ∈ later, c.restarts = false ∧ c.Valid) (ctx' : Context)
    (htime : (((((start env).after past).hear lib ctx dg).after later).listening ctx').now ≤
      (((start env).after past).listening ctx).now + 32 * 60) :
    HasPeer (((start env).after past).listening ctx).now m.infoHash dg.frm.ip m.port
      (((((start env).after past).hear lib ctx dg).after later).listening ctx').storage := by
  have hsteady := steady_after h0 hclock hpast
  generalize (start env).after past = p₀ at *
  have hw := (World.forward_write.run hsteady (p₀.writes_listening ctx)).1
  have hanswer := World.writes_answered h.toAnswering
  obtain ⟨-, hstored⟩ := h.stores hw htoken
  rw [← world_hear h.toAnswering] at hanswer hstored
  obtain ⟨hp, hnow⟩ := World.forward_write.run hw hanswer
  exact hp.hasPeer hnow (writes_until _ hl ctx') htime hstored

/-- **An announced peer is served for 32 minutes.** In any run, who announces itself for a hash with
a good token is among the peers that requests for the hash are answered with, whatever the process
is called with in between: it is one of those that the slice in the answer is cut from, and if there
are at most 50 of its family it is in the slice. -/
theorem announced_peer_served {env : Env} (h0 : 0 ≤ env.clock 0) (hclock : Monotone env.clock)
    {past : List ProcessCall} (hpast : ∀ c ∈ past, c.Valid)
    (h : (((start env).after past).listening ctx).Announces lib dg m)
    (htoken : tokenMatch lib.sha1 (((start env).after past).listening ctx).secrets m.token dg.frm =
      true)
    {later : List ProcessCall} (hl : ∀ c ∈ later, c.restarts = false ∧ c.Valid) {lib' : Platform}
    {ctx' : Context} {dg' : Datagram} {m' : Message}
    (h' : (((((start env).after past).hear lib ctx dg).after later).listening ctx').Asks lib' dg'
      m')
    (hhash : m'.infoHash = m.infoHash) (hfamily : dg'.frm.family = dg.frm.family)
    (htime : (((((start env).after past).hear lib ctx dg).after later).listening ctx').now ≤
      (((start env).after past).listening ctx).now + 32 * 60) :
    let q := (((start env).after past).hear lib ctx dg).after later
    let w' := q.listening ctx'
    ∃ st ps nodes nodes6 token x, findStorage m.infoHash w'.storage = some st ∧
      (q.hear lib' ctx' dg').world.replies = w'.replies ++
        [⟨nodesPeersText w'.net m'.tidBytes nodes nodes6 (some ps) token, 0, dg'.frm,
          dg'.fromlen⟩] ∧
      CircularSlice dg'.frm.family st.peers (x % st.peers.length) ps ∧
      (∃ peer ∈ st.peers, peer.ip = dg.frm.ip ∧ peer.port = m.port) ∧
      ((st.peers.countP fun peer =>
          peer.ip.length = if dg'.frm.family = afInet then 4 else 16) ≤ 50 →
        ∃ peer ∈ ps, peer.ip = dg.frm.ip ∧ peer.port = m.port) := by
  obtain ⟨st, hst, peer, hpeer, hip, hport, -⟩ :=
    hasPeer_announced h0 hclock hpast h htoken hl ctx' htime
  generalize (start env).after past = p₀ at *
  obtain ⟨nodes, nodes6, x, hreplies⟩ := h'.replies
  rw [← world_hear h'.toAnswering, hhash, Option.mem_def.mp hst, answerPeers,
    if_neg (List.ne_nil_of_mem hpeer)] at hreplies
  have hj : x % st.peers.length < st.peers.length := Nat.mod_lt _ (List.length_pos_of_mem hpeer)
  have hlen : peer.ip.length = if dg'.frm.family = afInet then 4 else 16 := by
    rw [hip, hfamily]
    exact Blacklist.length_ip h.sockaddr
  refine ⟨st, _, nodes, nodes6, _, x, hst, hreplies, servedPeers_eq hj ▸
    circularSlice_slicePeers hj _, ⟨peer, hpeer, hip, hport⟩, fun hcount =>
    ⟨peer, World.mem_servedPeers hpeer hlen hcount, hip, hport⟩⟩

/-! ## An announcement -/

theorem length_cutPlatform (b : Bytes) : (cutPlatform.sha1 b).length = 20 := by
  simp [cutPlatform]

/-- A node that has started, with a secret of eight ones. -/
def started : List ProcessCall := [.init World.ipv4Context (Id.ofBytes [1]) .succeed]

theorem valid_started : ∀ c ∈ started, c.Valid := List.forall_mem_singleton.mpr trivial

/-- A query of node 7, 9.9.9.9, for the peers of a hash. -/
def peersQuery : Datagram where
  buf := str "d1:ad2:id20:" ++ List.replicate 20 7 ++ str "9:info_hash20:" ++
    List.replicate 20 8 ++ str "e1:q9:get_peers1:t4:gp" ++ [1, 2] ++ str "1:y1:qe"
  terminated := true
  frm := sockaddrIn [9, 9, 9, 9] [26, 225]
  fromlen := 16

/-- How the two are read. -/
def readQuery (kind : MessageKind) (tid : Bytes) (port : UInt16) (token : Bytes) : Message where
  kind := kind
  tid := tid ++ List.replicate 12 0
  tidLen := 4
  id := Id.ofBytes (List.replicate 20 7)
  infoHash := Id.ofBytes (List.replicate 20 8)
  target := Id.zeroes
  port := port
  token := token
  nodes := []
  nodes6 := []
  values := []
  values6 := []
  want := -1

/-- The process has started, and the query comes in. -/
theorem asks_started : (((start (Env.still 1000)).after started).listening World.ipv4Context).Asks
    cutPlatform peersQuery (readQuery .getPeers [103, 112, 1, 2] 0 []) where
  heeded := by decide +kernel
  terminated := rfl
  message := by decide +kernel
  answers := ⟨rfl, by decide, by decide +kernel, by decide +kernel⟩
  socket := by decide +kernel
  sockaddr := by decide
  version := Nat.zero_le 9
  kind := rfl
  infoHash := by decide

/-- The announcement comes in. -/
theorem announces_started :
    (((start (Env.still 1000)).after started).listening World.ipv4Context).Announces cutPlatform
      announcement (readQuery .announcePeer [97, 112, 1, 2] 6881 (List.replicate 8 1)) where
  heeded := by decide +kernel
  terminated := rfl
  message := by decide +kernel
  answers := ⟨rfl, by decide, by decide +kernel, by decide +kernel⟩
  socket := by decide +kernel
  sockaddr := by decide
  version := Nat.zero_le 9
  kind := rfl
  infoHash := by decide
  port := by decide
  room := by decide +kernel

/-- Eight ones are the token of its sender. -/
theorem tokenMatch_announcement : tokenMatch cutPlatform.sha1
    (((start (Env.still 1000)).after started).listening World.ipv4Context).secrets
    (List.replicate 8 1) announcement.frm = true := by decide +kernel

/-- The query comes in after the announcement. -/
theorem asks_announced : ((((start (Env.still 1000)).after started).hear cutPlatform
    World.ipv4Context announcement).listening World.ipv4Context).Asks
    cutPlatform peersQuery (readQuery .getPeers [103, 112, 1, 2] 0 []) where
  heeded := by decide +kernel
  terminated := rfl
  message := by decide +kernel
  answers := ⟨rfl, by decide, by decide +kernel, by decide +kernel⟩
  socket := by decide +kernel
  sockaddr := by decide
  version := by unfold Net.VersionFits; decide +kernel
  kind := rfl
  infoHash := by decide

/-- The announcement comes in after the query. -/
theorem announces_asked : ((((start (Env.still 1000)).after started).hear cutPlatform
    World.ipv4Context peersQuery).listening World.ipv4Context).Announces cutPlatform announcement
    (readQuery .announcePeer [97, 112, 1, 2] 6881 (List.replicate 8 1)) where
  heeded := by decide +kernel
  terminated := rfl
  message := by decide +kernel
  answers := ⟨rfl, by decide, by decide +kernel, by decide +kernel⟩
  socket := by decide +kernel
  sockaddr := by decide
  version := by unfold Net.VersionFits; decide +kernel
  kind := rfl
  infoHash := by decide
  port := by decide
  room := by decide +kernel

/-- The query is answered with a token of eight ones, and the announcement that uses it is
acknowledged and stored. -/
theorem token_lasts_started :
    let w := ((start (Env.still 1000)).after started).listening World.ipv4Context
    let p := ((start (Env.still 1000)).after started).hear cutPlatform World.ipv4Context
      peersQuery
    let w' := p.listening World.ipv4Context
    (∃ nodes nodes6 peers, p.world.replies = w.replies ++
      [⟨nodesPeersText w.net [103, 112, 1, 2] nodes nodes6 peers (List.replicate 8 1), 0,
        peersQuery.frm, 16⟩]) ∧
      (p.hear cutPlatform World.ipv4Context announcement).world.replies = w'.replies ++
        [⟨pongText w'.net [97, 112, 1, 2], 0, announcement.frm, 16⟩] ∧
      HasPeer w'.now (Id.ofBytes (List.replicate 20 8)) [9, 9, 9, 9] 6881
        (p.hear cutPlatform World.ipv4Context announcement).world.storage := by
  have htoken : makeToken cutPlatform.sha1
      (((start (Env.still 1000)).after started).listening World.ipv4Context).secrets
      peersQuery.frm false = List.replicate 8 1 := by decide +kernel
  obtain ⟨hasked, hlasts⟩ := token_lasts (by decide) (fun _ _ _ => le_rfl) valid_started
    length_cutPlatform asks_started
  have htime : ((((start (Env.still 1000)).after started).hear cutPlatform World.ipv4Context
      peersQuery).listening World.ipv4Context).now <
      (((start (Env.still 1000)).after started).listening World.ipv4Context).now + 900 := by
    decide +kernel
  have hannounced := hlasts [] (List.forall_mem_nil _) World.ipv4Context announcement _
    announces_asked htoken.symm rfl rfl htime
  rw [htoken] at hasked
  exact ⟨hasked, hannounced⟩

/-- The announced peer is in the answer to the query. -/
theorem announced_peer_served_started :
    let q := ((start (Env.still 1000)).after started).hear cutPlatform World.ipv4Context
      announcement
    let w' := q.listening World.ipv4Context
    ∃ ps nodes nodes6 token,
      (q.hear cutPlatform World.ipv4Context peersQuery).world.replies = w'.replies ++
        [⟨nodesPeersText w'.net [103, 112, 1, 2] nodes nodes6 (some ps) token, 0, peersQuery.frm,
          16⟩] ∧
      ∃ peer ∈ ps, peer.ip = [9, 9, 9, 9] ∧ peer.port = 6881 := by
  have htime : (((((start (Env.still 1000)).after started).hear cutPlatform World.ipv4Context
      announcement).after []).listening World.ipv4Context).now ≤
      (((start (Env.still 1000)).after started).listening World.ipv4Context).now + 32 * 60 := by
    decide +kernel
  have hcount : ∀ st ∈ findStorage (Id.ofBytes (List.replicate 20 8))
      ((((start (Env.still 1000)).after started).hear cutPlatform World.ipv4Context
        announcement).listening World.ipv4Context).storage,
      (st.peers.countP fun peer => peer.ip.length = 4) ≤ 50 := by decide +kernel
  obtain ⟨st, ps, nodes, nodes6, token, -, hst, hreplies, -, -, hserved⟩ :=
    announced_peer_served (by decide) (fun _ _ _ => le_rfl) valid_started announces_started
      tokenMatch_announcement (List.forall_mem_nil _) asks_announced rfl rfl htime
  exact ⟨ps, nodes, nodes6, token, hreplies, hserved (hcount st hst)⟩

end Process

end DtnDht
