import DtnDht.Advertised
import DtnDht.Clock
import DtnDht.Requests
import DtnDht.TokenHome

/-!
# What a node answers, reports and asks

Of all that `dtn_dht_periodic` and the other calls do, only the datagram that is received leads to an
answer or to the report of a lookup, and to one of the two at most. A report is what
`parse_dtn_message` reads in the datagram. An answer that starts like the result of a DTN query is
what `send_dtninfo` makes of the EIDs of the node and the layers of its context (`answers_call`).
Nobody is asked for an EID but for the values of an answer to `get_peers` (`asked_call`).
-/

namespace DtnDht

open CString

/-! ## Packets -/

/-- How the result of a DTN query starts. -/
def resultMarker : Bytes := str "d1:rd2:cll"

/-- How a DTN query starts. -/
def eidQueryStart : Bytes := str "d1:ad3:eid"

section

variable {net : Net} {tid out : Bytes}

/-- A packet that starts otherwise is no result. -/
theorem not_result_of_start {start head : Bytes} {size : ℕ} {rest : Bytes → Option Bytes}
    (hstart : start <+: head) (hsize : start.length < size)
    (h : ¬ resultMarker <+: start ∧ ¬ start <+: resultMarker) (hrest : Extends rest)
    (hout : out ∈ inc size head [] >>= rest) : ¬ resultMarker <+: out := by
  intro hresult
  rcases List.prefix_or_prefix_of_prefix hresult (prefix_of_inc hstart hsize hrest hout) with
    h' | h'
  · exact h.1 h'
  · exact h.2 h'

theorem extends_addNodes (key nodes : Bytes) : Extends (addNodes key nodes) :=
  .ite extends_some ((extends_inc _ _).bind (extends_copy _ _))

theorem extends_sendPeer (p : Peer) : Extends fun buf => sendPeer buf p :=
  (extends_inc _ _).bind ((extends_copy _ _).bind (extends_copy _ _))

theorem not_result_sendPong (hout : out ∈ sendPong net tid) : ¬ resultMarker <+: out :=
  not_result_of_start List.prefix_rfl (by decide) (by decide) ((extends_copy _ _).bind
    ((extends_inc _ _).bind ((extends_copy _ _).bind ((extends_addV _ _).bind
    (extends_inc _ _))))) hout

theorem not_result_sendNodesPeers {nodes nodes6 token : Bytes} {peers : Option (List Peer)}
    (hout : out ∈ sendNodesPeers net tid nodes nodes6 peers token) : ¬ resultMarker <+: out := by
  have hend : Extends fun buf => inc 2048 (str "e1:t" ++ decimal tid.length ++ str ":") buf >>=
      fun buf => copy 2048 tid buf >>= fun buf => addV 2048 net.myV buf >>=
        inc 2048 (str "1:y1:re") :=
    (extends_inc _ _).bind ((extends_copy _ _).bind ((extends_addV _ _).bind (extends_inc _ _)))
  refine not_result_of_start List.prefix_rfl ?_ ?_ ?_ hout
  · decide
  · decide
  · refine (extends_copy _ _).bind ((extends_addNodes _ _).bind ((extends_addNodes _ _).bind
      ((extends_addNodes _ _).bind ?_)))
    cases peers with
    | none => exact extends_some.bind hend
    | some ps =>
      exact (extends_inc _ _).bind ((Extends.foldlM extends_sendPeer ps).bind
        ((extends_inc _ _).bind hend))

theorem not_result_sendError {code : ℕ} {message : Bytes}
    (hout : out ∈ sendError net tid code message) : ¬ resultMarker <+: out := by
  have hstart : str "d1:eli" <+:
      str "d1:eli" ++ decimal code ++ str "e" ++ decimal message.length ++ str ":" := by
    simp only [List.append_assoc]
    exact List.prefix_append _ _
  exact not_result_of_start hstart (by decide) (by decide) ((extends_copy _ _).bind
    ((extends_inc _ _).bind ((extends_copy _ _).bind ((extends_addV _ _).bind
    (extends_inc _ _))))) hout

theorem prefix_sendGetDtninfo {v : Option Bytes} {eid : Bytes}
    (hout : out ∈ sendGetDtninfo v tid eid) : eidQueryStart <+: out := by
  have hstart : eidQueryStart <+: str "d1:ad3:eid" ++ decimal eid.length ++ str ":" := by
    rw [List.append_assoc]
    exact List.prefix_append _ _
  exact prefix_of_inc hstart (by decide) ((extends_copy _ _).bind ((extends_inc _ _).bind
    ((extends_copy _ _).bind ((extends_addV _ _).bind (extends_inc _ _))))) hout

end

/-! ## Answers -/

/-- Is it an answer to a query or a report of a lookup? -/
def Output.isAnswer : Output → Bool
  | .reply _ | .lookupResult _ => true
  | _ => false

namespace World

/-- What was answered to queries and reported of lookups, in order. -/
def answers (w : World) : List Output := w.outputs.filter Output.isAnswer

/-- The results that the application was told. -/
def results (w : World) : List LookupResult :=
  w.outputs.filterMap fun
    | .lookupResult result => some result
    | _ => none

/-- The DTN queries that were sent, in order. -/
def asked (w : World) : List Packet :=
  w.outputs.filterMap fun
    | .request p => if eidQueryStart.isPrefixOf p.payload then some p else none
    | _ => none

theorem mem_replies_iff {w : World} {p : Packet} : p ∈ w.replies ↔ .reply p ∈ w.answers := by
  unfold replies answers
  rw [List.mem_filterMap, List.mem_filter]
  constructor
  · rintro ⟨o, ho, heq⟩
    cases o with
    | reply p' => exact ⟨Option.some_inj.mp heq ▸ ho, rfl⟩
    | request | lookupResult | operationDone | searchStart | lookupStart =>
      exact absurd heq (by simp)
  · exact fun h => ⟨_, h.1, rfl⟩

theorem mem_results_iff {w : World} {result : LookupResult} :
    result ∈ w.results ↔ .lookupResult result ∈ w.answers := by
  unfold results answers
  rw [List.mem_filterMap, List.mem_filter]
  constructor
  · rintro ⟨o, ho, heq⟩
    cases o with
    | lookupResult result' => exact ⟨Option.some_inj.mp heq ▸ ho, rfl⟩
    | request | reply | operationDone | searchStart | lookupStart => exact absurd heq (by simp)
  · exact fun h => ⟨_, h.1, rfl⟩

theorem answers_emit (w : World) (outputs : List Output) :
    (w.emit outputs).answers = w.answers ++ outputs.filter Output.isAnswer :=
  List.filter_append _ _

theorem answers_request (w : World) (pkts : List Packet) :
    (w.request pkts).answers = w.answers := by
  have hnone : (pkts.map Output.request).filter Output.isAnswer = [] :=
    List.filter_eq_nil_iff.mpr fun o ho => by
      obtain ⟨p, -, rfl⟩ := List.mem_map.mp ho
      exact Bool.false_ne_true
  unfold request
  rw [answers_emit, hnone, List.append_nil]

theorem answers_reply (w : World) (pkts : List Packet) :
    (w.reply pkts).answers = w.answers ++ pkts.map .reply := by
  unfold reply
  rw [answers_emit, List.filter_eq_self.mpr]
  intro o ho
  obtain ⟨p, -, rfl⟩ := List.mem_map.mp ho
  rfl

theorem answers_gettimeofday (w : World) : w.gettimeofday.answers = w.answers := rfl

theorem answers_stackTid (w : World) : w.stackTid.2.answers = w.answers := rfl

theorem asked_reply (w : World) (pkts : List Packet) : (w.reply pkts).asked = w.asked := by
  unfold reply emit asked
  rw [List.filterMap_append, List.filterMap_map]
  simp

/-- Packets that are all DTN queries. -/
theorem asked_request (w : World) {pkts : List Packet} (h : ∀ p ∈ pkts, eidQueryStart <+: p.payload) :
    (w.request pkts).asked = w.asked ++ pkts := by
  unfold request emit asked
  rw [List.filterMap_append, List.filterMap_map]
  refine congrArg (_ ++ ·) ((List.filterMap_congr fun p hp => ?_).trans List.filterMap_some)
  exact if_pos (List.isPrefixOf_iff_prefix.mpr (h p hp))

section

variable {w w' : World}

/-- What is routine answers and reports nothing. -/
theorem Routine.answers (h : Routine w w') : w'.answers = w.answers := by
  obtain ⟨new, hnew, hroutine⟩ := h
  have hnone : new.filter Output.isAnswer = [] :=
    List.filter_eq_nil_iff.mpr fun o ho => by
      have := hroutine o ho
      cases o with
      | reply | lookupResult => exact this.elim
      | request | operationDone | searchStart | lookupStart => exact Bool.false_ne_true
  unfold World.answers
  rw [hnew, List.filter_append, hnone, List.append_nil]

/-- What is routine asks nobody for an EID. -/
theorem Routine.asked (h : Routine w w') : w'.asked = w.asked := by
  obtain ⟨new, hnew, hroutine⟩ := h
  have hquery {p : Packet} (hp : queryStart <+: p.payload) : ¬ eidQueryStart <+: p.payload := by
    intro hp'
    have := List.prefix_of_prefix_length_le hp' hp (by decide)
    exact absurd this (by decide)
  have hnone : (new.filterMap fun
      | .request p => if eidQueryStart.isPrefixOf p.payload then some p else none
      | _ => none) = ([] : List Packet) := by
    refine List.filterMap_eq_nil_iff.mpr fun o ho => ?_
    have := hroutine o ho
    cases o with
    | request p => exact if_neg fun hp => hquery this (List.isPrefixOf_iff_prefix.mp hp)
    | reply | lookupResult => exact this.elim
    | operationDone | searchStart | lookupStart => rfl
  unfold World.asked
  rw [hnew, List.filterMap_append, hnone, List.append_nil]

end

/-! ### Replies -/

/-- What `dht_ping_dtn_node` sends. -/
def dtnPing (w : World) (sa : Sockaddr) (salen : ℕ) : List Packet :=
  dhtSendBuf w.net (sendGetDtninfo w.myV (makeTid (str "pn") 0) w.eids.myEid) 0 sa salen

theorem dhtPingDtnNode_eq (w : World) (sa : Sockaddr) (salen : ℕ) :
    w.dhtPingDtnNode sa salen = w.request (w.dtnPing sa salen) := rfl

section

variable (sha1 : Bytes → Bytes) (m : Message) (frm : Sockaddr) (fromlen : ℕ)

/-- The DTN queries that are sent when values are found. -/
def askedFor (w : World) (event : DhtEvent) (infoHash : Id) (data : Bytes) : List Packet :=
  if data = [] then []
  else (w.dtn.callback sha1 (fun i => (w.env.memory 0 i).1) event infoHash data frm fromlen).2.flatMap
    fun ping => w.dtnPing ping.sa ping.salen

theorem answers_valuesFound (w : World) (event : DhtEvent) (infoHash : Id) (data : Bytes) :
    (w.valuesFound sha1 event infoHash data frm fromlen).answers = w.answers := by
  have hpings (pings : List PingDtnNode) (w₁ : World) :
      (pings.foldl (fun w ping => w.dhtPingDtnNode ping.sa ping.salen) w₁).answers = w₁.answers :=
    List.foldlRecOn (motive := fun w' => w'.answers = w₁.answers) _ _ rfl fun w' h ping _ =>
      (answers_request w' _).trans h
  exact hpings _ _

/-- Nobody is asked, or the blacklist stays as it is. -/
theorem blacklist_callback (mem : ℕ → Sockaddr) (d : Dtn) {event : DhtEvent}
    (hev : event = .values ∨ event = .values6) (infoHash : Id) (data : Bytes) :
    (d.callback sha1 mem event infoHash data frm fromlen).2 = [] ∨
      (d.callback sha1 mem event infoHash data frm fromlen).1.blacklist = d.blacklist := by
  have hvalues (size type : ℕ) :
      (d.valuesFound sha1 mem size type infoHash data frm fromlen).2 = [] ∨
        (d.valuesFound sha1 mem size type infoHash data frm fromlen).1.blacklist = d.blacklist := by
    unfold Dtn.valuesFound
    split_ifs
    · exact Or.inl rfl
    · exact Or.inl rfl
    · exact Or.inr rfl
  rcases hev with rfl | rfl
  · exact hvalues 6 afInet
  · exact hvalues 18 afInet6

theorem asked_dhtPingDtnNodes (pings : List PingDtnNode) {w w₁ : World} (hnet : w₁.net = w.net)
    (heids : w₁.eids = w.eids) :
    (pings.foldl (fun w ping => w.dhtPingDtnNode ping.sa ping.salen) w₁).asked =
      w₁.asked ++ pings.flatMap fun ping => w.dtnPing ping.sa ping.salen := by
  induction pings generalizing w₁ with
  | nil => exact (List.append_nil _).symm
  | cons ping pings ih =>
    have hping : w₁.dtnPing ping.sa ping.salen = w.dtnPing ping.sa ping.salen := by
      have hv : w₁.myV = w.myV := congrArg Net.myV hnet
      unfold dtnPing
      rw [hnet, heids, hv]
    have hqueries : ∀ p ∈ w.dtnPing ping.sa ping.salen, eidQueryStart <+: p.payload :=
      fun p hp => prefix_sendGetDtninfo (mem_dhtSendBuf hp).1
    have hnext : (w₁.dhtPingDtnNode ping.sa ping.salen).asked =
        w₁.asked ++ w.dtnPing ping.sa ping.salen := by
      rw [dhtPingDtnNode_eq, hping, asked_request w₁ hqueries]
    rw [List.foldl_cons, List.flatMap_cons, ← List.append_assoc, ← hnext]
    exact ih hnet heids

theorem asked_valuesFound (w : World) {event : DhtEvent} (hev : event = .values ∨ event = .values6)
    (infoHash : Id) (data : Bytes) :
    (if data ≠ [] then w.valuesFound sha1 event infoHash data frm fromlen else w).asked =
      w.asked ++ w.askedFor sha1 frm fromlen event infoHash data := by
  unfold askedFor
  by_cases hdata : data = []
  · rw [if_neg (not_not.mpr hdata), if_pos hdata, List.append_nil]
  · have hblacklist := blacklist_callback sha1 frm fromlen (fun i => (w.env.memory 0 i).1) w.dtn hev
      infoHash data
    rw [if_pos hdata, if_neg hdata]
    unfold valuesFound
    dsimp only
    rcases hblacklist with hnone | hsame
    · have hnone' : (Dtn.callback sha1 (fun i => (w.memory.1 i).1) w.memory.2.dtn event infoHash
          data frm fromlen).2 = [] := hnone
      rw [hnone, hnone']
      exact (List.append_nil _).symm
    · refine asked_dhtPingDtnNodes _ (w := w) ?_ rfl
      unfold net
      exact congrArg (fun b => Net.mk w.dhtSocket w.dhtSocket6 w.myid w.myV
        (nodeBlacklisted b w.snubbed)) hsame

theorem answers_searchReply (w : World) (i : ℕ) :
    (w.searchReply m frm fromlen sha1 i).answers = w.answers := by
  have hmodify : (w.modifySearch i
      (·.insertSearchNode w.now m.id frm fromlen true (some m.token))).answers = w.answers := rfl
  unfold searchReply
  dsimp only
  generalize w.modifySearch i _ = w₁ at hmodify
  split
  · exact hmodify
  · rename_i sr _
    have hvalues (w : World) (event : DhtEvent) (data : Bytes) : (if data ≠ [] then
        w.valuesFound sha1 event sr.id data frm fromlen else w).answers = w.answers := by
      split_ifs
      · exact answers_valuesFound sha1 frm fromlen w event sr.id data
      · rfl
    exact (hvalues _ .values6 m.values6).trans ((hvalues w₁ .values m.values).trans hmodify)

theorem asked_searchReply {w : World} {i : ℕ} {sr : Search} (h : w.searches[i]? = some sr) :
    ∃ w₂, (w.searchReply m frm fromlen sha1 i).asked =
      w.asked ++ w.askedFor sha1 frm fromlen .values sr.id m.values ++
        World.askedFor sha1 frm fromlen w₂ .values6 sr.id m.values6 := by
  have hmodify : (w.modifySearch i
      (·.insertSearchNode w.now m.id frm fromlen true (some m.token))).searches[i]? =
        some (sr.insertSearchNode w.now m.id frm fromlen true (some m.token)) := by
    unfold modifySearch
    rw [List.getElem?_modify_eq, h]
    rfl
  have hid : (sr.insertSearchNode w.now m.id frm fromlen true (some m.token)).id = sr.id :=
    congrArg SearchHead.id (head_insertSearchNode w.now m.id frm fromlen true (some m.token) sr)
  unfold searchReply
  dsimp only
  rw [hmodify]
  dsimp only
  rw [hid]
  have h4 := asked_valuesFound sha1 frm fromlen (w.modifySearch i fun sr =>
    sr.insertSearchNode w.now m.id frm fromlen true (some m.token)) (Or.inl rfl) sr.id m.values
  generalize (if m.values ≠ [] then _ else _ : World) = w₂ at h4 ⊢
  exact ⟨w₂, (asked_valuesFound sha1 frm fromlen w₂ (Or.inr rfl) sr.id m.values6).trans
    (congrArg (· ++ _) h4)⟩

theorem nodesReply_eq (w : World) : w.nodesReply m frm fromlen sha1 =
    (w.repliedSearch m frm).elim (w.beforeSearchReply m frm fromlen)
      ((w.beforeSearchReply m frm fromlen).searchReply m frm fromlen sha1) := rfl

theorem routine_beforeSearchReply (w : World) : Routine w (w.beforeSearchReply m frm fromlen) := by
  unfold beforeSearchReply
  dsimp only
  split_ifs
  · exact routine_blacklistNode w m.id frm fromlen
  · exact routine_newNode w m.id frm fromlen 1
  · generalize w.repliedSearch m frm = sr
    have hlearn := (routine_newNode w m.id frm fromlen 2).trans
      (routine_learnNodes (w.newNode m.id frm fromlen 2) m sr)
    cases sr with
    | none => exact hlearn
    | some i => exact hlearn.trans (routine_searchSendGetPeers _ i)

/-- What a reply to a query leads to answers and reports nothing. -/
theorem answers_nodesReply (w : World) :
    (w.nodesReply m frm fromlen sha1).answers = w.answers := by
  have hbefore := (routine_beforeSearchReply m frm fromlen w).answers
  rw [nodesReply_eq]
  cases w.repliedSearch m frm with
  | none => exact hbefore
  | some i => exact (answers_searchReply sha1 m frm fromlen _ i).trans hbefore

theorem answers_replyMessage (w : World) :
    (w.replyMessage m frm fromlen sha1).answers = w.answers := by
  unfold replyMessage
  split_ifs
  · exact (routine_blacklistNode w m.id frm fromlen).answers
  · exact (routine_newNode w m.id frm fromlen 2).answers
  · exact answers_nodesReply sha1 m frm fromlen w
  · exact (routine_announceReply w m frm fromlen).answers
  · rfl

/-- The DTN queries for the values that a reply holds for a search; `w₁` decides on those for the
IPv4 addresses. -/
def AsksFor (key : Id) (w₁ w w' : World) : Prop :=
  ∃ w₂ : World, w'.asked = w.asked ++ w₁.askedFor sha1 frm fromlen .values key m.values ++
    w₂.askedFor sha1 frm fromlen .values6 key m.values6

theorem calm_beforeSearchReply (w : World) : Calm w (w.beforeSearchReply m frm fromlen) := by
  unfold beforeSearchReply
  dsimp only
  split_ifs
  · exact calm_blacklistNode w m.id frm fromlen
  · exact calm_newNode w m.id frm fromlen 1
  · generalize w.repliedSearch m frm = sr
    have hlearn := (calm_newNode w m.id frm fromlen 2).trans
      (calm_learnNodes m (w.newNode m.id frm fromlen 2) sr)
    cases sr with
    | none => exact hlearn
    | some i => exact hlearn.trans (calm_searchSendGetPeers _ i)

/-- A reply for a search. -/
theorem asked_nodesReply {w : World} {i : ℕ} {sr : Search} (hi : w.repliedSearch m frm = some i)
    (hsr : w.searches[i]? = some sr) : AsksFor sha1 m frm fromlen sr.id
      (w.beforeSearchReply m frm fromlen) w (w.nodesReply m frm fromlen sha1) := by
  have hbefore := (routine_beforeSearchReply m frm fromlen w).asked
  have hheads := (calm_beforeSearchReply m frm fromlen w).heads
  rw [nodesReply_eq, hi, Option.elim_some]
  generalize w.beforeSearchReply m frm fromlen = w₁ at hbefore hheads
  have hhead : (w₁.searches.map Search.head)[i]? = some sr.head := by
    have : w₁.heads[i]? = w.heads[i]? := by rw [hheads]
    refine this.trans ?_
    unfold heads
    rw [List.getElem?_map, hsr]
    rfl
  rw [List.getElem?_map] at hhead
  obtain ⟨sr', hsr', hid⟩ := Option.map_eq_some_iff.mp hhead
  obtain ⟨w₂, hw₂⟩ := asked_searchReply sha1 m frm fromlen hsr'
  have hid : sr'.id = sr.id := congrArg SearchHead.id hid
  exact ⟨w₂, by rw [hw₂, hbefore, hid]⟩

/-- A reply leads to DTN queries for its values only, if there are any. -/
theorem asked_replyMessage (w : World) : (w.replyMessage m frm fromlen sha1).asked = w.asked ∨
    ∃ key w₁, AsksFor sha1 m frm fromlen key w₁ w (w.replyMessage m frm fromlen sha1) := by
  unfold replyMessage
  split_ifs
  · exact Or.inl (routine_blacklistNode w m.id frm fromlen).asked
  · exact Or.inl (routine_newNode w m.id frm fromlen 2).asked
  · cases hi : w.repliedSearch m frm with
    | none =>
      rw [nodesReply_eq, hi]
      exact Or.inl (routine_beforeSearchReply m frm fromlen w).asked
    | some i =>
      cases hsr : w.searches[i]? with
      | none =>
        have hlt : i < w.searches.length := by
          unfold repliedSearch at hi
          split_ifs at hi
          exact (List.findIdx?_eq_some_iff_getElem.mp hi).1
        exact absurd hsr (by rw [List.getElem?_eq_getElem hlt]; exact Option.some_ne_none _)
      | some sr => exact Or.inr ⟨_, _, asked_nodesReply sha1 m frm fromlen hi hsr⟩
  · exact Or.inl (routine_announceReply w m frm fromlen).asked
  · exact Or.inl rfl

end

/-! ### Queries -/

section

variable (sha1 : Bytes → Bytes) (m : Message) (frm : Sockaddr) (fromlen : ℕ)

/-- What is answered in between, if anything, answers a query of the DHT proper. -/
def AnswersPlainly (w w' : World) : Prop :=
  ∃ w₁ pkts, Routine w w₁ ∧ w' = w₁.reply pkts ∧ ∀ p ∈ pkts, ¬ resultMarker <+: p.payload

theorem answersPlainly_of_routine {w w' : World} (h : Routine w w') : AnswersPlainly w w' := by
  refine ⟨w', [], h, ?_, fun _ hp => absurd hp List.not_mem_nil⟩
  unfold reply emit
  rw [List.map_nil, List.append_nil]

/-- An answer to a query of the DHT proper. -/
theorem Routine.reply {w w' : World} (h : Routine w w') {buf : Option Bytes}
    (hbuf : ∀ out ∈ buf, ¬ resultMarker <+: out) (net : Net) (sa : Sockaddr) (salen : ℕ) :
    AnswersPlainly w (w'.reply (dhtSendBuf net buf 0 sa salen)) :=
  ⟨w', _, h, rfl, fun _ hp => hbuf _ (mem_dhtSendBuf hp).1⟩

theorem Routine.replyError {w w' : World} (h : Routine w w') (message : String) :
    AnswersPlainly w (w'.replyError m frm fromlen message) :=
  h.reply (fun _ hout => not_result_sendError hout) _ _ _

theorem Routine.replyClosestNodes {w w' : World} (h : Routine w w') (id : Id) (af : ℕ)
    (st : Option Storage) (token : Bytes) :
    AnswersPlainly w (w'.replyClosestNodes m frm fromlen id af st token) := by
  have hrandom (rs : Random) : Routine w { w' with env := { w'.env with random := rs } } := h
  unfold World.replyClosestNodes sendClosestNodes
  dsimp only
  exact (hrandom _).reply (fun _ hout => not_result_sendNodesPeers hout) _ _ _

theorem answersPlainly_query (w : World) : AnswersPlainly w (w.query m frm fromlen sha1) := by
  have hnew := routine_newNode w m.id frm fromlen 1
  unfold query
  cases m.kind with
  | ping => exact hnew.reply (fun _ hout => not_result_sendPong hout) _ _ _
  | findNode => exact hnew.replyClosestNodes m frm fromlen m.target 0 none []
  | getPeers =>
    dsimp only
    unfold getPeers
    dsimp only
    split_ifs
    · exact hnew.replyError m frm fromlen _
    · split
      · split_ifs
        · exact hnew.replyClosestNodes m frm fromlen _ _ _ _
        · exact hnew.replyClosestNodes m frm fromlen _ _ _ _
      · exact hnew.replyClosestNodes m frm fromlen _ _ _ _
  | announcePeer =>
    dsimp only
    unfold announcePeer
    dsimp only
    split_ifs
    · exact hnew.replyError m frm fromlen _
    · exact hnew.replyError m frm fromlen _
    · exact hnew.replyError m frm fromlen _
    · have hstored (storage : List Storage) : Routine w
          { w.newNode m.id frm fromlen 1 with storage := storage } := hnew
      exact (hstored _).reply (fun _ hout => not_result_sendPong hout) _ _ _
  | error | reply | dtnQuery | dtnReply => exact answersPlainly_of_routine (Routine.refl w)

/-- A message is a query and answered, or it is a reply. -/
theorem handle_cases (w : World) : AnswersPlainly w (w.handle m frm fromlen sha1) ∨
    (m.kind = .reply ∧ w.handle m frm fromlen sha1 = w.replyMessage m frm fromlen sha1) := by
  have htake : Routine w w.takeToken.2 := routine_of_eq rfl
  unfold handle
  generalize w.takeToken = out at htake
  obtain ⟨ok, w₁⟩ := out
  split_ifs with _ _ hkind
  · exact Or.inl (answersPlainly_of_routine (Routine.refl w))
  · exact Or.inl (answersPlainly_of_routine (Routine.refl w))
  · exact Or.inr ⟨hkind, rfl⟩
  · cases ok with
    | false => exact Or.inl (answersPlainly_of_routine htake)
    | true =>
      obtain ⟨w₂, pkts, h, heq, hplain⟩ := answersPlainly_query sha1 m frm fromlen w₁
      exact Or.inl ⟨w₂, pkts, htake.trans h, heq, hplain⟩

end

/-! ### Datagrams -/

/-- What is answered in between, if anything, answers a query. An answer that starts like a result is
what `send_dtninfo` makes of the EIDs and layers, and the query was one for an EID. -/
def AnswersQuery (lib : Platform) (clayer : List ConvergenceLayer) (dg : Datagram) (w w' : World) :
    Prop :=
  ∃ pkts : List Packet, w'.answers = w.answers ++ pkts.map .reply ∧
    ∀ p ∈ pkts, resultMarker <+: p.payload →
      (∃ tid0, (parseDtnMessage lib.inetNtop dg.frm dg.buf tid0 16).message = some .dtnQuery) ∧
        ∃ tid, sendDtninfo tid w.eids.myEid clayer w.eids.neighbours w.eids.groups =
          some p.payload

/-- A lookup is reported in between, as `parse_dtn_message` reads it in the datagram. -/
def Reports (lib : Platform) (dg : Datagram) (w w' : World) : Prop :=
  ∃ result, w'.answers = w.answers ++ [.lookupResult result] ∧ ∃ tid0,
    (parseDtnMessage lib.inetNtop dg.frm dg.buf tid0 16).message = some .dtnReply ∧
      (parseDtnMessage lib.inetNtop dg.frm dg.buf tid0 16).result = result

theorem answersQuery_of_eq {w w' : World} (h : w'.answers = w.answers) (lib : Platform)
    (clayer : List ConvergenceLayer) (dg : Datagram) : AnswersQuery lib clayer dg w w' :=
  ⟨[], h.trans (List.append_nil _).symm, fun _ hp => absurd hp List.not_mem_nil⟩

theorem AnswersPlainly.answersQuery {w w' : World} (h : AnswersPlainly w w') (lib : Platform)
    (clayer : List ConvergenceLayer) (dg : Datagram) : AnswersQuery lib clayer dg w w' := by
  obtain ⟨w₁, pkts, hroutine, rfl, hplain⟩ := h
  exact ⟨pkts, (answers_reply w₁ pkts).trans (congrArg (· ++ _) hroutine.answers),
    fun p hp hresult => absurd hresult (hplain p hp)⟩

theorem answers_receive (lib : Platform) (clayer : List ConvergenceLayer) (w : World)
    (dg : Datagram) : AnswersQuery lib clayer dg w (w.receive lib clayer dg) ∨
      Reports lib dg w (w.receive lib clayer dg) := by
  have hstack := answers_stackTid w
  have hunchanged : AnswersQuery lib clayer dg w w.stackTid.2 :=
    answersQuery_of_eq hstack lib clayer dg
  unfold receive
  dsimp only
  split
  · rename_i hm
    split_ifs
    · refine Or.inl ⟨_, (answers_reply _ _).trans (congrArg (· ++ _) hstack), fun p hp _ => ?_⟩
      exact ⟨⟨_, hm⟩, _, (mem_dhtSendBuf hp).1⟩
    · exact Or.inl hunchanged
  · rename_i hm
    split_ifs
    · exact Or.inr ⟨_, (answers_emit _ _).trans (congrArg (· ++ _) hstack), _, hm, rfl⟩
    · exact Or.inl hunchanged
  · split
    · exact Or.inl hunchanged
    · rename_i m _
      rcases handle_cases lib.sha1 m dg.frm dg.fromlen w.stackTid.2 with h | ⟨-, h⟩
      · exact Or.inl (AnswersPlainly.answersQuery h lib clayer dg)
      · rw [h]
        exact Or.inl (answersQuery_of_eq ((answers_replyMessage _ _ _ _ _).trans hstack) _ _ _)

theorem answers_dhtPeriodic (lib : Platform) (clayer : List ConvergenceLayer) (w : World)
    (dg : Datagram) : AnswersQuery lib clayer dg w (w.dhtPeriodic lib clayer (some dg)).2 ∨
      Reports lib dg w (w.dhtPeriodic lib clayer (some dg)).2 := by
  have hnow : w.gettimeofday.answers = w.answers := answers_gettimeofday w
  have heids : w.gettimeofday.eids = w.eids := rfl
  unfold dhtPeriodic
  dsimp only
  generalize w.gettimeofday = w₁ at hnow heids
  split_ifs
  · exact Or.inl (answersQuery_of_eq ((routine_doDue w₁).answers.trans hnow) lib clayer dg)
  · exact Or.inl (answersQuery_of_eq hnow lib clayer dg)
  · rcases answers_receive lib clayer w₁ dg with ⟨pkts, h, hresult⟩ | ⟨result, h, hread⟩
    · rw [hnow] at h
      rw [heids] at hresult
      exact Or.inl ⟨pkts, (routine_doDue _).answers.trans h, hresult⟩
    · rw [hnow] at h
      exact Or.inr ⟨result, (routine_doDue _).answers.trans h, hread⟩

/-- A reply in the datagram leads to DTN queries for its values. -/
def AsksForValues (lib : Platform) (dg : Datagram) (w w' : World) : Prop :=
  ∃ m key w₁, w.messageOf lib dg = some m ∧ m.kind = .reply ∧
    AsksFor lib.sha1 m dg.frm dg.fromlen key w₁ w w'

theorem asked_receive (lib : Platform) (clayer : List ConvergenceLayer) (w : World)
    (dg : Datagram) : (w.receive lib clayer dg).asked = w.asked ∨
      AsksForValues lib dg w (w.receive lib clayer dg) := by
  have hstack : w.stackTid.2.asked = w.asked := rfl
  have hresult (result : LookupResult) :
      (w.stackTid.2.emit [.lookupResult result]).asked = w.asked := by
    unfold asked emit
    rw [List.filterMap_append]
    exact List.append_nil _
  cases hm : w.messageOf lib dg with
  | none =>
    refine Or.inl ?_
    rcases receive_of_none clayer hm with h | ⟨text, h⟩ | ⟨result, h⟩
    · rw [h, hstack]
    · rw [h, asked_reply, hstack]
    · rw [h, hresult]
  | some m =>
    rw [receive_of_message clayer hm]
    rcases handle_cases lib.sha1 m dg.frm dg.fromlen w.stackTid.2 with
      ⟨w₁, pkts, h, heq, -⟩ | ⟨hkind, heq⟩
    · rw [heq, asked_reply]
      exact Or.inl (h.asked.trans hstack)
    · rw [heq]
      rcases asked_replyMessage lib.sha1 m dg.frm dg.fromlen w.stackTid.2 with h | ⟨key, w₁, w₂, h⟩
      · exact Or.inl (h.trans hstack)
      · exact Or.inr ⟨m, key, w₁, hm, hkind, w₂, h⟩

theorem asked_dhtPeriodic (lib : Platform) (clayer : List ConvergenceLayer) (w : World)
    (dg : Datagram) : (w.dhtPeriodic lib clayer (some dg)).2.asked = w.asked ∨
      AsksForValues lib dg w.gettimeofday (w.dhtPeriodic lib clayer (some dg)).2 := by
  have hnow : w.gettimeofday.asked = w.asked := rfl
  unfold dhtPeriodic
  dsimp only
  generalize w.gettimeofday = w₁ at hnow
  split_ifs
  · exact Or.inl ((routine_doDue w₁).asked.trans hnow)
  · exact Or.inl hnow
  · have hdue := (routine_doDue (w₁.receive lib clayer dg)).asked
    rcases asked_receive lib clayer w₁ dg with h | ⟨m, key, w₂, hm, hkind, w₃, h⟩
    · exact Or.inl ((hdue.trans h).trans hnow)
    · exact Or.inr ⟨m, key, w₂, hm, hkind, w₃, hdue.trans h⟩

end World

/-! ## Calls -/

namespace Process

/-- Apart from datagrams, all that a process sends is routine. -/
theorem routine_call (p : Process) (c : ProcessCall) : World.Routine p.world (p.call c).world ∨
    ∃ lib ctx dg, c = .api lib ctx (.periodic (some dg)) := by
  cases c with
  | init ctx id oc => exact Or.inl (World.routine_dhtInitWith (p.world.readyToInit ctx) _ _ id none oc)
  | uninit =>
    refine Or.inl ?_
    dsimp only [call]
    unfold uninit
    exact (World.routine_emptyLists p.freeRatings.world).trans (World.routine_dhtUninit _)
  | blacklist enable => exact Or.inl (World.Routine.refl _)
  | startRandomLookup ctx => exact Or.inl (World.routine_startRandomLookup p.world ctx)
  | insertNode id sa salen =>
    refine Or.inl ?_
    dsimp only [call, World.dhtInsertNode]
    split_ifs
    · exact World.Routine.refl _
    · exact World.routine_newNode p.world id sa salen 0
  | pingNode sa salen =>
    exact Or.inl (World.routine_request p.world (queries_dhtSendBuf (fun _ => query_sendPing) _ _ _ _))
  | api lib ctx c =>
    cases c with
    | lookup eid => exact Or.inl (World.routine_dtnDhtLookup p.world ctx lib.sha1 eid)
    | announce eid type =>
      exact Or.inl (World.routine_dtnDhtAnnounce p.world ctx lib.sha1 eid type)
    | deannounce eid => exact Or.inl (World.Routine.refl p.world)
    | periodic dg =>
      cases dg with
      | none =>
        have hclock (w : World) : World.Routine w w.gettimeofday := World.routine_of_eq rfl
        exact Or.inl ((World.routine_maintainLists p.world ctx).trans
          ((hclock _).trans (World.routine_doDue _)))
      | some dg => exact Or.inr ⟨lib, ctx, dg, rfl⟩

/-- Apart from datagrams, nothing makes a process answer or report. -/
theorem answers_call (p : Process) (c : ProcessCall) :
    (p.call c).world.answers = p.world.answers ∨
      ∃ lib ctx dg, c = .api lib ctx (.periodic (some dg)) ∧
        (World.AnswersQuery lib ctx.clayer dg p.world (p.call c).world ∨
          World.Reports lib dg p.world (p.call c).world) := by
  rcases p.routine_call c with h | ⟨lib, ctx, dg, rfl⟩
  · exact Or.inl h.answers
  · have hlists := (World.routine_maintainLists p.world ctx).answers
    have heids : (p.world.maintainLists ctx).eids = p.world.eids := World.eids_maintainLists
    refine Or.inr ⟨lib, ctx, dg, rfl, ?_⟩
    dsimp only [call, World.call, World.dtnDhtPeriodic]
    generalize p.world.maintainLists ctx = w at hlists heids
    rcases World.answers_dhtPeriodic lib ctx.clayer w dg with
      ⟨pkts, h, hresult⟩ | ⟨result, h, hread⟩
    · rw [hlists] at h
      rw [heids] at hresult
      exact Or.inl ⟨pkts, h, hresult⟩
    · rw [hlists] at h
      exact Or.inr ⟨result, h, hread⟩

/-- A process asks nobody for an EID but for the values of a reply. -/
theorem asked_call (p : Process) (c : ProcessCall) : (p.call c).world.asked = p.world.asked ∨
    ∃ lib ctx dg m key w₁, c = .api lib ctx (.periodic (some dg)) ∧
      (p.listening ctx).messageOf lib dg = some m ∧ m.kind = .reply ∧
      World.AsksFor lib.sha1 m dg.frm dg.fromlen key w₁ p.world (p.call c).world := by
  rcases p.routine_call c with h | ⟨lib, ctx, dg, rfl⟩
  · exact Or.inl h.asked
  · have hlists := (World.routine_maintainLists p.world ctx).asked
    have hclock (w : World) : w.gettimeofday.asked = w.asked := rfl
    have hlistening : (p.listening ctx).asked = p.world.asked := (hclock _).trans hlists
    rcases World.asked_dhtPeriodic lib ctx.clayer (p.world.maintainLists ctx) dg with
      h | ⟨m, key, w₁, hm, hkind, w₂, h⟩
    · exact Or.inl (h.trans hlists)
    · refine Or.inr ⟨lib, ctx, dg, m, key, w₁, rfl, hm, hkind, w₂, h.trans ?_⟩
      exact congrArg (· ++ _ ++ _) hlistening

end Process

end DtnDht
