import DtnDht.Restart
import DtnDht.Silence
import DtnDht.TokenHome

/-!
# Steps that are silent towards an address

Every function of the node keeps an address bare in the table and the searches, and sends nothing
to it while the array `blacklist` holds it bare (`Silent`): also `search_step`, which passes the
size of a `struct sockaddr_storage`, and `callback`, if the memory it decodes peers into is zero
where the address is written. Of a call of `dht_periodic` that blacklists its sender this holds up
to the call of `blacklist_node` and from there on (`silent_blacklisting`).
-/

namespace DtnDht

open CString

/-- A call of `blacklist_node`, and the state before it. -/
structure Blacklisting where
  before : World
  id : Id
  sa : Sockaddr
  salen : ℕ

/-- The state after the call. -/
def Blacklisting.after (b : Blacklisting) : World := b.before.blacklistNode b.id b.sa b.salen

/-- The packet that is sent, if any. -/
def Output.packet : Output → Option Packet
  | .request p | .reply p => some p
  | _ => none

namespace World

/-- Does `dht_periodic` blacklist the sender of the message? -/
def isBroken (w : World) (m : Message) : Bool :=
  m.kind = .reply && m.id ≠ Id.zeroes && m.id ≠ w.myid &&
    (m.tidLen ≠ 4 || (tidMatch m.tid (str "fn") || tidMatch m.tid (str "gp")) &&
      (m.nodes.length % 26 ≠ 0 || m.nodes6.length % 38 ≠ 0))

/-- The call of `blacklist_node` that `dht_periodic` makes when it is given a datagram, if any. -/
def blacklisting (lib : Platform) (w : World) (dg : Datagram) : Option Blacklisting :=
  let w := w.gettimeofday
  if w.ignores dg || !dg.terminated then none
  else (w.messageOf lib dg).bind fun m =>
    if w.isBroken m then some ⟨w.stackTid.2, m.id, dg.frm, dg.fromlen⟩ else none

/-- The addresses that the table and the searches hold are kept bare. -/
structure Bare (a : Sockaddr) (w : World) : Prop where
  table : w.routing.Bare a
  searches : ∀ sr ∈ w.searches, sr.Bare a

/-- None of the outputs is a packet to the address. -/
def Avoids (a : Sockaddr) (outputs : List Output) : Prop :=
  ∀ p ∈ outputs.filterMap Output.packet, endpoint p.dest ≠ endpoint a

/-- `w` comes after `w₀` with the array `blacklist` unchanged; it keeps the address bare, and no
packet was sent to the address if that array holds it bare. -/
structure Silent (a : Sockaddr) (w₀ w : World) : Prop where
  bare : w.Bare a
  snubbed : w.snubbed = w₀.snubbed
  next : w.nextBlacklisted = w₀.nextBlacklisted
  outputs : ∃ new, w.outputs = w₀.outputs ++ new ∧ (padded a ∈ w₀.snubbed → Avoids a new)

variable {a : Sockaddr} {w₀ w w' : World}

theorem avoids_nil : Avoids a [] := fun _ hp => absurd hp List.not_mem_nil

theorem Avoids.append {os os' : List Output} (h : Avoids a os) (h' : Avoids a os') :
    Avoids a (os ++ os') := by
  intro p hp
  rw [List.filterMap_append] at hp
  rcases List.mem_append.mp hp with hp | hp
  · exact h p hp
  · exact h' p hp

theorem Silent.refl (h : w.Bare a) : Silent a w w :=
  ⟨h, rfl, rfl, [], (List.append_nil _).symm, fun _ => avoids_nil⟩

theorem Silent.trans {w'' : World} (h : Silent a w w') (h' : Silent a w' w'') : Silent a w w'' := by
  obtain ⟨new, hnew, havoid⟩ := h.outputs
  obtain ⟨new', hnew', havoid'⟩ := h'.outputs
  refine ⟨h'.bare, h'.snubbed.trans h.snubbed, h'.next.trans h.next, new ++ new', ?_, ?_⟩
  · rw [hnew', hnew, List.append_assoc]
  · intro hmem
    exact (havoid hmem).append (havoid' (h.snubbed ▸ hmem))

/-- What `Silent` is about. -/
def kept (w : World) : Routing × List Search × List Sockaddr × ℕ × List Output :=
  (w.routing, w.searches, w.snubbed, w.nextBlacklisted, w.outputs)

theorem Silent.congr (h : Silent a w₀ w) (heq : w'.kept = w.kept) : Silent a w₀ w' := by
  simp only [kept, Prod.mk.injEq] at heq
  obtain ⟨hrouting, hsearches, hsnubbed, hnext, houtputs⟩ := heq
  refine ⟨⟨?_, ?_⟩, hsnubbed.trans h.snubbed, hnext.trans h.next, houtputs ▸ h.outputs⟩
  · rw [hrouting]
    exact h.bare.table
  · rw [hsearches]
    exact h.bare.searches

theorem Silent.gettimeofday (h : Silent a w₀ w) : Silent a w₀ w.gettimeofday := h.congr rfl

/-- `node_blacklisted` refuses what the array holds. -/
theorem refuses_of_mem (h : padded a ∈ w.snubbed) : w.net.Refuses a := by
  intro sa salen _ htake
  unfold net nodeBlacklisted
  rw [Bool.or_eq_true, List.any_eq_true]
  exact Or.inr ⟨_, h, beq_iff_eq.mpr htake.symm⟩

/-! ## Sending -/

theorem Silent.emit (h : Silent a w₀ w) {outputs : List Output}
    (hout : padded a ∈ w.snubbed → Avoids a outputs) : Silent a w₀ (w.emit outputs) :=
  h.trans ⟨⟨h.bare.table, h.bare.searches⟩, rfl, rfl, outputs, rfl, hout⟩

/-- What is noted and is no packet. -/
theorem Silent.note (h : Silent a w₀ w) (o : Output) (ho : o.packet = none) :
    Silent a w₀ (w.emit [o]) := by
  refine h.emit fun _ p hp => ?_
  rw [List.filterMap_cons_none ho] at hp
  exact absurd hp List.not_mem_nil

theorem Silent.request (h : Silent a w₀ w) {pkts : List Packet} (hp : w.net.Skips a pkts) :
    Silent a w₀ (w.request pkts) := by
  refine h.emit fun hmem p hin => hp (refuses_of_mem hmem) p ?_
  rw [List.filterMap_map, show Output.packet ∘ Output.request = some from rfl,
    List.filterMap_some] at hin
  exact hin

theorem Silent.reply (h : Silent a w₀ w) {pkts : List Packet} (hp : w.net.Skips a pkts) :
    Silent a w₀ (w.reply pkts) := by
  refine h.emit fun hmem p hin => hp (refuses_of_mem hmem) p ?_
  rw [List.filterMap_map, show Output.packet ∘ Output.reply = some from rfl,
    List.filterMap_some] at hin
  exact hin

/-- A new table, and packets. -/
theorem Silent.withRouting (h : Silent a w₀ w) {out : Routing × List Packet}
    (hq : Routing.Quiet a w.net out) : Silent a w₀ (w.withRouting out) := by
  have hr : Silent a w₀ { w with routing := out.1 } :=
    ⟨⟨hq.bare, h.bare.searches⟩, h.snubbed, h.next, h.outputs⟩
  exact hr.request hq.skips

theorem Silent.withSearch (h : Silent a w₀ w) {i : ℕ} {out : Search × Routing × List Packet}
    (hq : Search.Quiet a w.net out) : Silent a w₀ (w.withSearch i out) := by
  have hr : Silent a w₀ { w with searches := w.searches.set i out.1, routing := out.2.1 } := by
    refine ⟨⟨hq.table, fun sr hsr => ?_⟩, h.snubbed, h.next, h.outputs⟩
    rcases List.mem_or_eq_of_mem_set hsr with hsr | rfl
    · exact h.bare.searches sr hsr
    · exact hq.search
  exact hr.request hq.skips

theorem Silent.modifySearch (h : Silent a w₀ w) {i : ℕ} {f : Search → Search}
    (hf : ∀ sr ∈ w.searches, sr.Bare a → (f sr).Bare a) : Silent a w₀ (w.modifySearch i f) :=
  ⟨⟨h.bare.table, List.forall_mem_modify h.bare.searches hf⟩, h.snubbed, h.next, h.outputs⟩

theorem Silent.foldl {ι : Type*} {f : World → ι → World} (h : Silent a w₀ w) (is : List ι)
    (hf : ∀ w, ∀ i ∈ is, Silent a w₀ w → Silent a w₀ (f w i)) : Silent a w₀ (is.foldl f w) :=
  List.foldlRecOn is f h fun w hw i hi => hf w i hi hw

section Steps

variable (ha : a.family ≠ 0)
include ha

theorem Silent.newNode (h : Silent a w₀ w) {sa : Sockaddr} {salen : ℕ} (hsa : IsSockaddr sa salen)
    (hbare : DtnDht.Bare a sa salen) (id : Id) (confirm : ℕ) :
    Silent a w₀ (w.newNode id sa salen confirm) :=
  h.withRouting (h.bare.table.newNode ha hsa hbare id confirm)

theorem Silent.searchSendGetPeers (h : Silent a w₀ w) (i : ℕ) :
    Silent a w₀ (w.searchSendGetPeers i) := by
  unfold World.searchSendGetPeers
  cases hi : w.searches[i]? with
  | none => exact h
  | some sr =>
    have hsr := h.bare.searches sr (List.mem_of_getElem? hi)
    exact h.withSearch (hsr.sendGetPeersNext ha h.bare.table)

theorem Silent.searchStep (h : Silent a w₀ w) (i : ℕ) : Silent a w₀ (w.searchStep i) := by
  unfold World.searchStep
  cases hi : w.searches[i]? with
  | none => exact h
  | some sr =>
    have hsr := h.bare.searches sr (List.mem_of_getElem? hi)
    have hquiet : Search.Quiet a w.net ((sr.step w.net w.now w.routing).1,
        (sr.step w.net w.now w.routing).2.1, (sr.step w.net w.now w.routing).2.2.1) :=
      hsr.step ha h.bare.table
    have hstep := h.withSearch (i := i) hquiet
    dsimp only
    split_ifs
    · have hdone : Silent a w₀ { w.withSearch i ((sr.step w.net w.now w.routing).1,
          (sr.step w.net w.now w.routing).2.1, (sr.step w.net w.now w.routing).2.2.1) with
          dtn := w.dtn.searchDone (sr.step w.net w.now w.routing).1.id } := hstep.congr rfl
      exact hdone.note _ rfl
    · exact hstep

end Steps

/-! ## Messages -/

section Messages

variable {m : Message} {frm : Sockaddr} {fromlen : ℕ} {sha1 : Bytes → Bytes}

/-- The records of a reply are decoded into `mem` so that the address is bare in `len` bytes. -/
def DecodedBare (a : Sockaddr) (mem : ℕ → SockaddrStorage) (event : DhtEvent) (data : Bytes)
    (len : ℕ) : Prop :=
  ∀ i < data.length / event.recordSize,
    DtnDht.Bare a (decodeRecord (fun i => (mem i).1) data event.recordSize event.family i) len

/-- The peers in a reply are decoded so that the address is bare, in the memory that is allocated
next. -/
def ValuesBare (a : Sockaddr) (memory : ℕ → ℕ → SockaddrStorage) (m : Message) (len : ℕ) : Prop :=
  DecodedBare a (memory 0) .values m.values len ∧
    DecodedBare a (memory (if m.values = [] then 0 else 1)) .values6 m.values6 len

instance (a : Sockaddr) (mem : ℕ → SockaddrStorage) (event : DhtEvent) (data : Bytes) (len : ℕ) :
    Decidable (DecodedBare a mem event data len) :=
  inferInstanceAs (Decidable (∀ i < data.length / event.recordSize,
    DtnDht.Bare a (decodeRecord (fun i => (mem i).1) data event.recordSize event.family i) len))

instance (a : Sockaddr) (memory : ℕ → ℕ → SockaddrStorage) (m : Message) (len : ℕ) :
    Decidable (ValuesBare a memory m len) := instDecidableAnd

/-- The peers that `callback` asks are records of the reply. -/
theorem mem_valuesFound {mem : ℕ → Sockaddr} {d : Dtn} {size type : ℕ} {infoHash : Id}
    {data : Bytes} {ping : PingDtnNode}
    (h : ping ∈ (d.valuesFound sha1 mem size type infoHash data frm fromlen).2) :
    ∃ i < data.length / size, ping.sa = decodeRecord mem data size type i ∧
      ping.salen = fromlen := by
  unfold Dtn.valuesFound at h
  split_ifs at h
  · exact absurd h List.not_mem_nil
  · exact absurd h List.not_mem_nil
  · obtain ⟨i, hi, rfl⟩ := List.mem_map.mp h
    exact ⟨i, List.mem_range.mp (List.mem_of_mem_filter hi), rfl, rfl⟩

theorem Silent.dhtPingDtnNodes (h : Silent a w₀ w) {pings : List PingDtnNode}
    (hp : ∀ ping ∈ pings, DtnDht.Bare a ping.sa ping.salen) :
    Silent a w₀ (pings.foldl (fun w ping => w.dhtPingDtnNode ping.sa ping.salen) w) :=
  h.foldl pings fun _ ping hin hw => hw.request (skips_dhtSendBuf (hp ping hin) _ _)

theorem Silent.valuesFound (h : Silent a w₀ w) {event : DhtEvent} {infoHash : Id} {data : Bytes}
    (hev : event = .values ∨ event = .values6)
    (hdec : DecodedBare a (w.env.memory 0) event data fromlen) :
    Silent a w₀ (w.valuesFound sha1 event infoHash data frm fromlen) := by
  have hpings : ∀ ping ∈ (w.dtn.callback sha1 (fun i => (w.env.memory 0 i).1) event infoHash data
      frm fromlen).2, DtnDht.Bare a ping.sa ping.salen := by
    intro ping hin
    have hfound : ping ∈ (w.dtn.valuesFound sha1 (fun i => (w.env.memory 0 i).1) event.recordSize
        event.family infoHash data frm fromlen).2 := by
      rcases hev with rfl | rfl
      · exact hin
      · exact hin
    obtain ⟨i, hi, hsa, hlen⟩ := mem_valuesFound hfound
    rw [hsa, hlen]
    exact hdec i hi
  unfold World.valuesFound
  dsimp only [World.memory]
  generalize w.dtn.callback sha1 (fun i => (w.env.memory 0 i).1) event infoHash data frm
    fromlen = out at hpings
  obtain ⟨d, pings⟩ := out
  refine Silent.dhtPingDtnNodes ?_ hpings
  exact h.congr rfl

theorem memory_valuesFound (event : DhtEvent) (infoHash : Id) (data : Bytes) :
    (w.valuesFound sha1 event infoHash data frm fromlen).env.memory =
      fun k => w.env.memory (k + 1) := by
  unfold World.valuesFound
  dsimp only [World.memory]
  generalize (w.dtn.callback sha1 (fun i => (w.env.memory 0 i).1) event infoHash data frm
    fromlen) = out
  obtain ⟨d, pings⟩ := out
  dsimp only
  exact List.foldlRecOn (motive := fun w' : World =>
    w'.env.memory = fun k => w.env.memory (k + 1)) pings _ rfl fun w' hw' ping _ => hw'

theorem memory_learnNodes (w : World) (sr : Option ℕ) :
    (w.learnNodes m sr).env.memory = w.env.memory := by
  have hone (w : World) (id : Id) (sa : Sockaddr) (salen : ℕ) :
      (w.learnNode sr id sa salen).env.memory = w.env.memory := by
    unfold World.learnNode
    split_ifs
    · rfl
    · cases sr <;> rfl
  unfold World.learnNodes
  dsimp only
  refine List.foldlRecOn (motive := fun w' : World => w'.env.memory = w.env.memory) _ _
    (List.foldlRecOn (motive := fun w' : World => w'.env.memory = w.env.memory) _ _ rfl ?_) ?_
  · exact fun w' hw' i _ => (hone w' _ _ _).trans hw'
  · exact fun w' hw' i _ => (hone w' _ _ _).trans hw'

theorem memory_searchSendGetPeers (w : World) (i : ℕ) :
    (w.searchSendGetPeers i).env.memory = w.env.memory := by
  unfold World.searchSendGetPeers
  split <;> rfl

variable (ha : a.family ≠ 0) (hsa : IsSockaddr frm fromlen) (hbare : DtnDht.Bare a frm fromlen)

include hsa hbare in
/-- The sender is inserted, and peers are asked. -/
theorem Silent.searchReply (h : Silent a w₀ w) (hval : ValuesBare a w.env.memory m fromlen)
    (i : ℕ) : Silent a w₀ (w.searchReply m frm fromlen sha1 i) := by
  have hins := h.modifySearch (i := i)
    (f := (·.insertSearchNode w.now m.id frm fromlen true (some m.token)))
    fun sr _ hsr => hsr.insertSearchNode hsa hbare _ _ _ _
  unfold World.searchReply
  dsimp only
  split
  · exact hins
  · rename_i sr _
    have hmem (k : ℕ) : (w.modifySearch i
        (·.insertSearchNode w.now m.id frm fromlen true (some m.token))).env.memory k =
        w.env.memory k := rfl
    generalize w.modifySearch i _ = w₁ at hins hmem
    by_cases hv : m.values = []
    · rw [if_neg (not_not_intro hv)]
      split_ifs
      · have h6 := hval.2
        rw [if_pos hv, ← hmem] at h6
        exact hins.valuesFound (Or.inr rfl) h6
      · exact hins
    · rw [if_pos hv]
      have h4 : Silent a w₀ (w₁.valuesFound sha1 .values sr.id m.values frm fromlen) :=
        hins.valuesFound (Or.inl rfl) (hmem 0 ▸ hval.1)
      split_ifs
      · have h6 := hval.2
        rw [if_neg hv, ← hmem] at h6
        refine h4.valuesFound (Or.inr rfl) ?_
        rw [memory_valuesFound]
        exact h6
      · exact h4

include ha in
theorem Silent.learnNode (h : Silent a w₀ w) {sa : Sockaddr} {salen : ℕ}
    (hsa : IsSockaddr sa salen) (hbare : DtnDht.Bare a sa salen) (sr : Option ℕ) (id : Id) :
    Silent a w₀ (w.learnNode sr id sa salen) := by
  unfold World.learnNode
  split_ifs
  · exact h
  · have hnew := h.newNode ha hsa hbare id 0
    cases sr with
    | none => exact hnew
    | some i => exact hnew.modifySearch fun sr _ hsr => hsr.insertSearchNode hsa hbare _ _ _ _

include ha in
theorem Silent.learnNodes (h : Silent a w₀ w) (sr : Option ℕ) :
    Silent a w₀ (w.learnNodes m sr) := by
  unfold World.learnNodes
  dsimp only
  refine Silent.foldl (Silent.foldl h _ fun w i hi hw => ?_) _ fun w i hi hw => ?_
  · have hni : (slice m.nodes (26 * i) 26).length = 26 := by
      have := List.mem_range.mp hi
      exact length_slice (by omega)
    have hip : (slice (slice m.nodes (26 * i) 26) 20 4).length = 4 := length_slice (by omega)
    have hport : (slice (slice m.nodes (26 * i) 26) 24 2).length = 2 := length_slice (by omega)
    exact hw.learnNode ha (isSockaddr_sockaddrIn hip hport) (bare_sockaddrIn hip hport) _ _
  · have hni : (slice m.nodes6 (38 * i) 38).length = 38 := by
      have := List.mem_range.mp hi
      exact length_slice (by omega)
    have hip : (slice (slice m.nodes6 (38 * i) 38) 20 16).length = 16 := length_slice (by omega)
    have hport : (slice (slice m.nodes6 (38 * i) 38) 36 2).length = 2 := length_slice (by omega)
    exact hw.learnNode ha (isSockaddr_sockaddrIn6 hip hport) (bare_sockaddrIn6 hip hport) _ _

include hbare in
theorem Silent.replyBuf (h : Silent a w₀ w) (buf : Option Bytes) :
    Silent a w₀ (w.reply (dhtSendBuf w.net buf 0 frm fromlen)) :=
  h.reply (skips_dhtSendBuf hbare buf 0)

include hbare in
theorem Silent.replyClosestNodes (h : Silent a w₀ w) (id : Id) (af : ℕ) (st : Option Storage)
    (token : Bytes) : Silent a w₀ (w.replyClosestNodes m frm fromlen id af st token) := by
  have hrandom (rs : Random) : Silent a w₀ { w with env := { w.env with random := rs } } :=
    h.congr rfl
  exact (hrandom _).replyBuf hbare _

include ha hsa hbare

theorem Silent.query (h : Silent a w₀ w) : Silent a w₀ (w.query m frm fromlen sha1) := by
  have hnew := h.newNode ha hsa hbare m.id 1
  unfold World.query
  cases m.kind with
  | ping => exact hnew.replyBuf hbare _
  | findNode =>
    dsimp only [World.findNode]
    exact hnew.replyClosestNodes hbare _ _ _ _
  | getPeers =>
    dsimp only [World.getPeers]
    split_ifs
    · exact hnew.replyBuf hbare _
    · split
      · split_ifs <;> exact hnew.replyClosestNodes hbare _ _ _ _
      · exact hnew.replyClosestNodes hbare _ _ _ _
  | announcePeer =>
    dsimp only [World.announcePeer]
    split_ifs
    · exact hnew.replyBuf hbare _
    · exact hnew.replyBuf hbare _
    · exact hnew.replyBuf hbare _
    · refine Silent.replyBuf hbare ?_ _
      exact hnew.congr rfl
  | error | reply | dtnQuery | dtnReply => exact h

theorem Silent.announceReply (h : Silent a w₀ w) :
    Silent a w₀ (w.announceReply m frm fromlen) := by
  unfold World.announceReply
  cases findSearch (tidSeqno m.tid) frm.family w.searches with
  | none => exact h.newNode ha hsa hbare m.id 1
  | some i =>
    have hnew := h.newNode ha hsa hbare m.id 2
    refine Silent.searchSendGetPeers ha (hnew.modifySearch fun sr _ hsr => ?_) i
    unfold Search.acknowledge
    cases sr.nodes.findIdx? fun n => idCmp n.id m.id = .eq with
    | none => exact hsr
    | some j =>
      exact List.forall_mem_modify hsr
        fun n _ hn => ⟨hn.family, hn.isSockaddr, hn.behind, hn.bare⟩

omit ha in
/-- What `dht_periodic` does with a reply to `find_node` or `get_peers` from `sr` on. -/
theorem Silent.finishReply (h : Silent a w₀ w) (hval : ValuesBare a w.env.memory m fromlen)
    (sr : Option ℕ) : Silent a w₀ (sr.elim w (w.searchReply m frm fromlen sha1)) := by
  cases sr with
  | none => exact h
  | some i => exact h.searchReply hsa hbare hval i

theorem Silent.nodesReply (h : Silent a w₀ w) (hval : ValuesBare a w.env.memory m fromlen)
    (hlen : ¬ (m.nodes.length % 26 ≠ 0 ∨ m.nodes6.length % 38 ≠ 0)) :
    Silent a w₀ (w.nodesReply m frm fromlen sha1) := by
  unfold World.nodesReply
  dsimp only
  rw [if_neg hlen]
  generalize (if tidMatch m.tid (str "gp") = true then
    findSearch (tidSeqno m.tid) frm.family w.searches else none) = sr
  split_ifs
  · exact (h.newNode ha hsa hbare m.id 1).finishReply hsa hbare hval sr
  · have hlearn := (h.newNode ha hsa hbare m.id 2).learnNodes (m := m) ha sr
    have hmem : ((w.newNode m.id frm fromlen 2).learnNodes m sr).env.memory = w.env.memory :=
      memory_learnNodes _ _
    refine Silent.finishReply hsa hbare ?_ ?_ sr
    · cases sr with
      | none => exact hlearn
      | some i => exact hlearn.searchSendGetPeers ha i
    · cases sr with
      | none => exact hmem.symm ▸ hval
      | some i => exact ((memory_searchSendGetPeers _ i).trans hmem).symm ▸ hval

theorem Silent.handle (h : Silent a w₀ w) (hval : ValuesBare a w.env.memory m fromlen)
    (hb : w.isBroken m = false) : Silent a w₀ (w.handle m frm fromlen sha1) := by
  unfold World.handle
  split_ifs with herr hself hreply
  · exact h
  · exact h
  · rw [not_or] at herr
    simp only [isBroken, hreply, herr.2, hself, decide_true, Bool.true_and, ne_eq,
      not_false_eq_true, Bool.or_eq_false_iff, decide_eq_false_iff_not, not_not] at hb
    unfold World.replyMessage
    rw [if_neg (not_not_intro hb.1)]
    split_ifs with hpn hnodes
    · exact h.newNode ha hsa hbare m.id 2
    · refine h.nodesReply ha hsa hbare hval fun hlen => ?_
      have hmatch : (tidMatch m.tid (str "fn") || tidMatch m.tid (str "gp")) = true := by
        rw [Bool.or_eq_true]
        exact hnodes
      rw [hmatch, Bool.true_and, Bool.or_eq_false_iff, decide_eq_false_iff_not,
        decide_eq_false_iff_not] at hb
      exact hlen.elim hb.2.1 hb.2.2
    · exact h.announceReply ha hsa hbare
    · exact h
  · have ht : Silent a w₀ w.takeToken.2 := h.congr rfl
    generalize w.takeToken = out at ht
    obtain ⟨ok, w₁⟩ := out
    cases ok with
    | false => exact ht
    | true => exact ht.query ha hsa hbare

omit ha in
/-- What `dht_periodic` does after a call of `blacklist_node`. -/
theorem Silent.handle_of_isBroken (hb : w.isBroken m = true)
    (h : Silent a w₀ (w.blacklistNode m.id frm fromlen))
    (hval : ValuesBare a w.env.memory m fromlen) :
    Silent a w₀ (w.handle m frm fromlen sha1) := by
  simp only [isBroken, Bool.and_eq_true, decide_eq_true_eq, Bool.or_eq_true, ne_eq] at hb
  obtain ⟨⟨⟨hreply, hzero⟩, hself⟩, hbroken⟩ := hb
  unfold World.handle
  rw [if_neg (by rw [hreply]; simp [hzero]), if_neg hself, if_pos hreply]
  unfold World.replyMessage
  by_cases hlen : m.tidLen = 4
  · obtain ⟨hmatch, hnodes⟩ := hbroken.resolve_left (not_not_intro hlen)
    have hpn : ¬ tidMatch m.tid (str "pn") = true := by
      unfold tidMatch at hmatch ⊢
      simp only [beq_iff_eq] at hmatch ⊢
      rcases hmatch with hmatch | hmatch
      · rw [hmatch]
        decide
      · rw [hmatch]
        decide
    rw [if_neg (not_not_intro hlen), if_neg hpn, if_pos hmatch]
    unfold World.nodesReply
    dsimp only
    rw [if_pos hnodes]
    exact h.finishReply hsa hbare hval _
  · rw [if_pos hlen]
    exact h

end Messages

/-! ## Receiving -/

variable {lib : Platform} {clayer : List ConvergenceLayer} {dg : Datagram} {m : Message}

/-- A datagram that is no message of the DHT proper. -/
theorem Silent.receive_of_none (h : Silent a w₀ w) (hbare : DtnDht.Bare a dg.frm dg.fromlen)
    (hm : w.messageOf lib dg = none) : Silent a w₀ (w.receive lib clayer dg) := by
  have hstack : Silent a w₀ w.stackTid.2 := h.congr rfl
  rcases World.receive_of_none clayer hm with heq | ⟨text, heq⟩ | ⟨result, heq⟩
  · exact heq ▸ hstack
  · exact heq ▸ hstack.replyBuf hbare text
  · exact heq ▸ hstack.note (.lookupResult result) rfl

/-! ## What is due -/

section Due

variable (ha : a.family ≠ 0)
include ha

theorem Silent.expireBuckets (h : Silent a w₀ w) : Silent a w₀ w.expireBuckets := by
  have hq : Silent a w₀ (w.withRouting (w.routing.expireBuckets w.net)) :=
    h.withRouting (h.bare.table.expireBuckets ha)
  exact hq.congr rfl

theorem Silent.expire (h : Silent a w₀ w) : Silent a w₀ w.expire := by
  have hbuckets := h.expireBuckets ha
  have hsub : (expireSearches w.expireBuckets.now w.expireBuckets.searches
      w.expireBuckets.numsearches).1.Sublist w.expireBuckets.searches := by
    rw [expireSearches_fst]
    exact List.filter_sublist
  unfold World.expire
  refine ⟨⟨hbuckets.bare.table, fun sr hsr => ?_⟩, hbuckets.snubbed, hbuckets.next,
    hbuckets.outputs⟩
  exact hbuckets.bare.searches sr (hsub.mem hsr)

theorem Silent.stepSearches (h : Silent a w₀ w) : Silent a w₀ w.stepSearches := by
  have hsteps : Silent a w₀ ((List.range w.searches.length).foldl stepIfDue w) := by
    refine h.foldl _ fun w i _ hw => ?_
    unfold stepIfDue
    split_ifs
    · exact hw.searchStep ha i
    · exact hw
  unfold World.stepSearches
  dsimp only
  generalize (List.range w.searches.length).foldl stepIfDue w = w₁ at hsteps
  refine hsteps.congr ?_
  unfold World.nextSearchTime
  refine List.foldlRecOn (motive := fun out : ℤ × World => out.2.kept = w₁.kept) _ _ rfl ?_
  rintro ⟨t, w₂⟩ hw₂ sr _
  dsimp only
  split_ifs
  · exact hw₂
  · exact hw₂
  · exact hw₂

omit ha in
theorem Silent.maintainBoth (h : Silent a w₀ w)
    {f : Net → ℤ → Routing → ℕ → Random → Routing × List Packet × Bool × Random}
    {due : World → ℕ → Bool} (hf : ∀ (net : Net) (now : ℤ) (r : Routing) (af : ℕ) (rs : Random),
      r.Bare a → Routing.Quiet a net ((f net now r af rs).1, (f net now r af rs).2.1)) :
    Silent a w₀ (w.maintainBoth f due).2 := by
  have hone {w : World} (h : Silent a w₀ w) (af : ℕ) :
      Silent a w₀ (w.maintain (f · w.now) af).2 := by
    unfold World.maintain
    have hw : Silent a w₀
        { w with
          env := { w.env with random := (f w.net w.now w.routing af w.env.random).2.2.2 } } :=
      h.congr rfl
    exact hw.withRouting (hf _ _ _ _ _ h.bare.table)
  have hif {w : World} (h : Silent a w₀ w) (af : ℕ) :
      Silent a w₀ (if due w af = true then w.maintain (f · w.now) af else (false, w)).2 := by
    split_ifs
    · exact hone h af
    · exact h
  exact hif (hif h afInet) afInet6

theorem Silent.confirmNodes (h : Silent a w₀ w) : Silent a w₀ w.confirmNodes := by
  have hbucket : Silent a w₀ (w.maintainBoth (fun net now r => r.bucketMaintenance net now)
      fun _ _ => true).2 :=
    h.maintainBoth fun net now r af rs hr => hr.bucketMaintenance ha af rs
  unfold World.confirmNodes
  dsimp only
  generalize w.maintainBoth (fun net now r => r.bucketMaintenance net now)
    (fun _ _ => true) = out at hbucket
  obtain ⟨soon, w₁⟩ := out
  have hneighbour : Silent a w₀ (w₁.maintainBoth
      (fun net now r => r.neighbourhoodMaintenance net now) hasGrown).2 :=
    Silent.maintainBoth hbucket fun net now r af rs hr => hr.neighbourhoodMaintenance ha af rs
  cases soon with
  | true => exact hbucket.congr rfl
  | false => exact hneighbour.congr rfl

theorem Silent.doDue (h : Silent a w₀ w) : Silent a w₀ w.doDue := by
  have h₁ : Silent a w₀ (if w.rotateSecretsTime ≤ w.now then w.rotateSecrets else w) := by
    split_ifs
    · exact h.congr rfl
    · exact h
  unfold World.doDue
  dsimp only
  generalize (if w.rotateSecretsTime ≤ w.now then w.rotateSecrets else w) = w₁ at h₁
  have h₂ : Silent a w₀ (if w₁.expireStuffTime ≤ w₁.now then w₁.expire else w₁) := by
    split_ifs
    · exact h₁.expire ha
    · exact h₁
  generalize (if w₁.expireStuffTime ≤ w₁.now then w₁.expire else w₁) = w₂ at h₂
  have h₃ : Silent a w₀ (if 0 < w₂.searchTime ∧ w₂.searchTime ≤ w₂.now then w₂.stepSearches
      else w₂) := by
    split_ifs
    · exact h₂.stepSearches ha
    · exact h₂
  generalize (if 0 < w₂.searchTime ∧ w₂.searchTime ≤ w₂.now then w₂.stepSearches else w₂) = w₃
    at h₃
  split_ifs
  · exact h₃.confirmNodes ha
  · exact h₃

theorem Silent.dhtPeriodic_none (h : Silent a w₀ w) :
    Silent a w₀ (w.dhtPeriodic lib clayer none).2 :=
  Silent.doDue ha (w := w.gettimeofday) (h.congr rfl)

/-- What `blacklist_node` does before it writes to the array. -/
theorem blacklistNode_spec (h : w.Bare a) (id : Id) (sa : Sockaddr) (salen : ℕ) :
    (w.blacklistNode id sa salen).Bare a ∧ ∃ new,
      (w.blacklistNode id sa salen).outputs = w.outputs ++ new ∧
      (padded a ∈ w.snubbed → Avoids a new) := by
  have hw : Silent a w (w.withRouting (w.routing.discardNode w.net w.now id sa.family)) :=
    (Silent.refl h).withRouting (h.table.discardNode ha id sa.family)
  refine ⟨⟨hw.bare.table, fun sr hsr => ?_⟩, hw.outputs⟩
  obtain ⟨old, hold, rfl⟩ := List.mem_map.mp hsr
  exact Search.bare_flushId (hw.bare.searches old hold)

end Due

/-! ## `dht_periodic` -/

section Periodic

variable (ha : a.family ≠ 0) (hsa : IsSockaddr dg.frm dg.fromlen)
  (hbare : DtnDht.Bare a dg.frm dg.fromlen)
  (hval : ∀ m ∈ w.gettimeofday.messageOf lib dg,
    ValuesBare a w.gettimeofday.env.memory m dg.fromlen)

include ha hsa hbare hval

/-- A datagram for which nobody is blacklisted. -/
theorem Silent.dhtPeriodic (h : Silent a w₀ w) (hb : w.blacklisting lib dg = none) :
    Silent a w₀ (w.dhtPeriodic lib clayer (some dg)).2 := by
  have hw := h.gettimeofday
  unfold blacklisting at hb
  unfold World.dhtPeriodic
  dsimp only at hb ⊢
  generalize w.gettimeofday = w₁ at hw hb hval
  cases hign : w₁.ignores dg with
  | true => exact hw.doDue ha
  | false =>
    cases hterm : dg.terminated with
    | false => exact hw
    | true =>
      rw [hign, hterm, if_neg (by decide)] at hb
      rw [if_neg Bool.false_ne_true, if_neg (by decide)]
      refine Silent.doDue ha ?_
      cases hm : w₁.messageOf lib dg with
      | none => exact hw.receive_of_none hbare hm
      | some m =>
        rw [hm, Option.bind_some] at hb
        rw [receive_of_message clayer hm]
        have hstack : Silent a w₀ w₁.stackTid.2 := hw.congr rfl
        refine hstack.handle ha hsa hbare (hval m hm) ?_
        have hnot : ¬ w₁.isBroken m = true := by
          intro hbroken
          rw [if_pos hbroken] at hb
          exact absurd hb nofun
        exact Bool.eq_false_iff.mpr hnot

/-- A datagram whose sender is blacklisted. -/
theorem silent_blacklisting (h : Silent a w₀ w) {b : Blacklisting}
    (hb : w.blacklisting lib dg = some b) :
    Silent a w₀ b.before ∧ Silent a b.after (w.dhtPeriodic lib clayer (some dg)).2 := by
  have hw := h.gettimeofday
  unfold blacklisting at hb
  unfold World.dhtPeriodic
  dsimp only at hb ⊢
  generalize w.gettimeofday = w₁ at hw hb hval
  split_ifs at hb with hign
  rw [Bool.or_eq_true, not_or, Bool.not_eq_true, Bool.not_eq_true, Bool.not_eq_false'] at hign
  obtain ⟨m, hm, hb⟩ := Option.bind_eq_some_iff.mp hb
  split_ifs at hb with hbroken
  obtain rfl := Option.some_inj.mp hb
  have hstack : Silent a w₀ w₁.stackTid.2 := hw.congr rfl
  rw [hign.1, hign.2, if_neg Bool.false_ne_true, if_neg (by decide), receive_of_message clayer hm]
  refine ⟨hstack, Silent.doDue ha ?_⟩
  have hafter := (blacklistNode_spec ha hstack.bare m.id dg.frm dg.fromlen).1
  exact (Silent.refl hafter).handle_of_isBroken hsa hbare hbroken (hval m hm)

end Periodic

/-! ## The API -/

section Api

variable (ctx : Context)

theorem Silent.readyForWork (h : Silent a w₀ w) : Silent a w₀ (w.readyForWork ctx).2 := by
  unfold World.readyForWork
  dsimp only
  split_ifs
  all_goals first
    | exact h
    | exact h.congr rfl

variable (ha : a.family ≠ 0)
include ha

omit ha in
theorem Silent.searchSlot (h : Silent a w₀ w) (id : Id) (af : ℕ) :
    Silent a w₀ (w.searchSlot id af).2 := by
  unfold World.searchSlot
  cases w.findIdx id af with
  | some i => exact h.modifySearch fun sr _ hsr => Search.bare_resetNodes w.now hsr
  | none =>
    dsimp only
    cases hnew : newSearch w.now (w.env.calloc 0) w.searches w.numsearches with
    | mk slot rest =>
      obtain ⟨searches, numsearches⟩ := rest
      cases slot with
      | none => exact h.congr rfl
      | some i =>
        have hall : ∀ sr ∈ searches, sr.Bare a := by
          rcases newSearch_cases hnew with ⟨rfl, -, -⟩ | ⟨-, rfl, -⟩
          · exact h.bare.searches
          · exact List.forall_mem_cons.mpr ⟨fun n hn => absurd hn List.not_mem_nil,
              h.bare.searches⟩
        have hstart : Silent a w₀ { w with searches := searches } :=
          ⟨⟨h.bare.table, hall⟩, h.snubbed, h.next, h.outputs⟩
        -- the slot has no nodes
        exact (hstart.modifySearch (i := i) (f := Search.start af w.searchId id)
          fun sr _ _ n hn => absurd hn List.not_mem_nil).congr rfl

theorem Silent.dhtSearch (h : Silent a w₀ w) (id : Id) (port : UInt16) (af : ℕ) :
    Silent a w₀ (w.dhtSearch id port af).2 := by
  unfold World.dhtSearch
  cases w.routing.findBucket id af with
  | none => exact h
  | some b =>
    have hslot := h.searchSlot id af
    dsimp only
    generalize w.searchSlot id af = out at hslot ⊢
    obtain ⟨slot, w₁⟩ := out
    cases slot with
    | none => exact hslot
    | some i =>
      have hclosest := hslot.modifySearch (i := i) (f := fun sr =>
        ({ sr with port := port } : Search).insertClosest w₁.now w₁.routing w₁.myid b)
        fun sr _ hsr => by
          have hport : ({ sr with port := port } : Search).Bare a := hsr
          exact hport.insertClosest hslot.bare.table _ _ _
      have hstart := hclosest.note (.searchStart {
        id := id
        af := af
        before := (w.findIdx id af).bind (w.searches[·]?)
        port := port
        announced := w.announced id }) rfl
      exact (hstart.searchStep ha i).congr rfl

theorem Silent.dtnDhtSearch (h : Silent a w₀ w) (id : Id) (port : UInt16) :
    Silent a w₀ (w.dtnDhtSearch ctx id port).2 := by
  have h4 := h.dhtSearch ha id port afInet
  unfold World.dtnDhtSearch
  cases ctx.type with
  | bindnone => exact h
  | ipv4only => exact h4
  | ipv6only => exact h.dhtSearch ha id port afInet6
  | bindboth =>
    dsimp only
    split_ifs
    · exact h4
    · exact h4.dhtSearch ha id port afInet6

theorem Silent.startLookup (h : Silent a w₀ w) (key : Id) :
    Silent a w₀ (w.startLookup ctx key).2 := by
  unfold World.startLookup
  split_ifs
  · exact h
  · exact (h.note (.lookupStart key) rfl).dtnDhtSearch ctx ha key 0

theorem Silent.dtnDhtLookup (h : Silent a w₀ w) (sha1 : Bytes → Bytes) (eid : Bytes) :
    Silent a w₀ (w.dtnDhtLookup sha1 ctx eid).2 := by
  have hready := h.readyForWork ctx
  unfold World.dtnDhtLookup
  generalize w.readyForWork ctx = out at hready
  obtain ⟨ready, w₁⟩ := out
  dsimp only
  split_ifs
  · exact hready
  · split
    · refine Silent.startLookup ctx ha ?_ _
      exact hready.congr rfl
    · split_ifs
      · exact hready.congr rfl
      · refine Silent.startLookup ctx ha ?_ _
        exact hready.congr rfl

theorem Silent.dtnDhtAnnounce (h : Silent a w₀ w) (sha1 : Bytes → Bytes) (eid : Bytes)
    (type : LookupType) : Silent a w₀ (w.dtnDhtAnnounce sha1 ctx eid type).2 := by
  unfold World.dtnDhtAnnounce
  dsimp only
  split
  · generalize hw₁ : modifyAnnouncement _ _ _ = w₁
    have h₁ : Silent a w₀ w₁ := by
      rw [← hw₁]
      exact h.congr rfl
    have hready := h₁.readyForWork ctx
    generalize w₁.readyForWork ctx = out at hready
    obtain ⟨ready, w₂⟩ := out
    dsimp only
    split_ifs
    · exact hready.congr rfl
    · exact hready.dtnDhtSearch ctx ha _ _
  · exact h.congr rfl

theorem Silent.reannounceList (h : Silent a w₀ w) : Silent a w₀ (w.reannounceList ctx) := by
  refine h.foldl _ fun w i _ hw => ?_
  have htime : Silent a w₀ w.time.2 := hw.congr rfl
  unfold reannounceEntry
  generalize w.time = out at htime
  obtain ⟨acttime, w₁⟩ := out
  dsimp only
  split
  · exact htime
  · rename_i pos _
    split_ifs
    · exact htime.dtnDhtSearch ctx ha pos.md ctx.port
    · exact (htime.dtnDhtSearch ctx ha pos.md ctx.port).congr rfl
    · exact htime

theorem Silent.relookupList (h : Silent a w₀ w) : Silent a w₀ (w.relookupList ctx) := by
  refine h.foldl _ fun w i _ hw => ?_
  unfold relookupEntry
  split
  · exact hw
  · rename_i pos _
    have hsearch := (hw.note (.lookupStart pos.md) rfl).dtnDhtSearch ctx ha pos.md 0
    by_cases hrepeat : pos.status = .doneAndReadyForRepeat
    · rw [if_pos hrepeat]
      dsimp only
      split_ifs
      · exact hsearch
      · exact hsearch.congr rfl
    · rw [if_neg hrepeat]
      exact hw

theorem Silent.maintainLists (h : Silent a w₀ w) : Silent a w₀ (w.maintainLists ctx) := by
  have hmin : Silent a w₀ (w.setMinimumRating ctx) := h.congr rfl
  have hready := hmin.readyForWork ctx
  unfold World.maintainLists
  generalize (w.setMinimumRating ctx).readyForWork ctx = out at hready
  obtain ⟨ready, w₁⟩ := out
  dsimp only
  have hlists : Silent a w₀ (if 2 ≤ ready then (w₁.reannounceList ctx).relookupList ctx
      else w₁) := by
    split_ifs
    · exact (hready.reannounceList ctx ha).relookupList ctx ha
    · exact hready
  exact hlists.congr rfl

theorem Silent.startRandomLookup (h : Silent a w₀ w) : Silent a w₀ (w.startRandomLookup ctx) := by
  have hone {w : World} (h : Silent a w₀ w) (s : ℤ) (id : Id) (af : ℕ) :
      Silent a w₀ (if 0 ≤ s then (w.dhtSearch id 0 af).2 else w) := by
    split_ifs
    · exact h.dhtSearch ha id 0 af
    · exact h
  unfold World.startRandomLookup
  refine hone (hone ?_ ctx.ipv4socket _ afInet) ctx.ipv6socket _ afInet6
  split_ifs
  · exact h.congr rfl
  · exact h.congr rfl

end Api

/-! ## Starting and stopping -/

section Init

variable {s s6 : ℤ} {id : Id} {v : Option Bytes} {oc : InitOutcomes}

/-- `w` comes after `w₀` as in `Silent`, but `next_blacklisted` may have been set to 0. -/
def Restarted (a : Sockaddr) (w₀ w : World) : Prop :=
  ∃ n, (n = 0 ∨ n = w₀.nextBlacklisted) ∧ Silent a { w₀ with nextBlacklisted := n } w

theorem Silent.restarted (h : Silent a w w') : Restarted a w w' :=
  ⟨w.nextBlacklisted, Or.inr rfl, h⟩

theorem Silent.trans_restarted {w'' : World} (h : Silent a w w') (h' : Restarted a w' w'') :
    Restarted a w w'' := by
  obtain ⟨n, hor, hn⟩ := h'
  rw [h.next] at hor
  have hset : Silent a { w with nextBlacklisted := n } { w' with nextBlacklisted := n } :=
    ⟨⟨h.bare.table, h.bare.searches⟩, h.snubbed, rfl, h.outputs⟩
  exact ⟨n, hor, hset.trans hn⟩

/-- The list of a family is replaced. -/
theorem Silent.setTable (h : Silent a w₀ w) {af : ℕ} {bs : List Bucket}
    (hbs : ∀ b ∈ bs, BareBucket a af b) :
    Silent a w₀ { w with routing := w.routing.setTable af bs } :=
  ⟨⟨h.bare.table.setTable hbs, h.bare.searches⟩, h.snubbed, h.next, h.outputs⟩

theorem Silent.emptyLists (h : Silent a w₀ w) : Silent a w₀ w.emptyLists := by
  unfold World.emptyLists withAnnouncements withLookups
  exact h.congr rfl

theorem Silent.emptyTable (h : Silent a w₀ w) (af : ℕ) :
    Silent a w₀ { w with routing := w.routing.setTable af [] } :=
  h.setTable fun _ hb => absurd hb List.not_mem_nil

theorem silent_initFail (h : w.Bare a) : Silent a w w.initFail.2 :=
  (Silent.refl h).emptyTable afInet

theorem silent_dhtUninit (h : w.Bare a) : Silent a w w.dhtUninit.2 := by
  unfold dhtUninit
  split_ifs
  · exact Silent.refl h
  · have htable := ((Silent.refl h).emptyTable afInet).emptyTable afInet6
    exact ⟨⟨htable.bare.table, fun sr hsr => absurd hsr List.not_mem_nil⟩, rfl, rfl,
      htable.outputs⟩

variable (ha : a.family ≠ 0)
include ha

theorem bareBucket_callocBucket (af : ℕ) :
    ∀ b ∈ [callocBucket af Id.zeroes], BareBucket a af b := by
  intro b hb
  rw [List.mem_singleton.mp hb]
  exact ⟨fun n hn => absurd hn List.not_mem_nil, Routing.bare_zeroStorage ha _⟩

theorem restarted_initRest (h : w.Bare a) : Restarted a w (w.initRest s s6 id v oc).2 := by
  have hstatics : Silent a { w with nextBlacklisted := 0 } (w.initStatics id v) :=
    ⟨⟨h.table, h.searches⟩, rfl, rfl, [], (List.append_nil _).symm, fun _ => avoids_nil⟩
  unfold initRest
  dsimp only
  split_ifs
  · have hsockets : Silent a { w with nextBlacklisted := 0 }
        { w.initStatics id v with dhtSocket := s, dhtSocket6 := s6 } := hstatics.congr rfl
    exact ⟨0, Or.inl rfl, hsockets.expireBuckets ha⟩
  · exact ⟨0, Or.inl rfl, hstatics.trans (silent_initFail hstatics.bare)⟩

theorem restarted_initFamily6 (h : w.Bare a) : Restarted a w (w.initFamily6 s s6 id v oc).2 := by
  have htable := (Silent.refl h).setTable (bareBucket_callocBucket ha afInet6)
  unfold initFamily6
  split_ifs
  · exact htable.trans_restarted (restarted_initRest ha htable.bare)
  · exact (htable.trans (silent_initFail htable.bare)).restarted
  · exact (Silent.refl h).restarted
  · exact restarted_initRest ha h

theorem restarted_initFamily (h : w.Bare a) : Restarted a w (w.initFamily s s6 id v oc).2 := by
  have htable := (Silent.refl h).setTable (bareBucket_callocBucket ha afInet)
  unfold initFamily
  split_ifs
  · exact htable.trans_restarted (restarted_initFamily6 ha htable.bare)
  · exact (htable.trans (silent_initFail htable.bare)).restarted
  · exact (Silent.refl h).restarted
  · exact restarted_initFamily6 ha h

theorem restarted_dhtInitWith (h : w.Bare a) :
    Restarted a w (w.dhtInitWith s s6 id v oc).2 := by
  unfold dhtInitWith
  split_ifs
  · exact (Silent.refl h).restarted
  · have hempty : Silent a w { w with
        searches := []
        numsearches := 0
        storage := []
        eids := { w.eids with groups := [], neighbours := [] } } :=
      ⟨⟨h.table, fun sr hsr => absurd hsr List.not_mem_nil⟩, rfl, rfl, [],
        (List.append_nil _).symm, fun _ => avoids_nil⟩
    exact hempty.trans_restarted (restarted_initFamily ha hempty.bare)

end Init

end World

end DtnDht
