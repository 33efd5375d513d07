import DtnDht.BytewiseMessage
import DtnDht.Encoded
import DtnDht.Frame

/-!
# What stands in the arrays of `dht_periodic`

`dht_periodic` does not initialise its arrays before it has the parsers fill them. All that is read
of them afterwards has been written, but for the transaction id: when a query carries none,
`tid_len` stays 16 and the answer echoes 16 bytes of the stack. So two calls that differ only in
these arrays do the same if and only if the datagram is no such query (`independent_iff`).
-/

namespace DtnDht

open CString CheckedBuffer Occurrence

/-! ## Answers -/

/-- The end of an answer, from its transaction id on, as it is written into `size` bytes. -/
def writeEnding (size : ℕ) (key : String) (v : Option Bytes) (kind : String) (tid buf : Bytes) :
    Option Bytes := do
  let buf ← inc size (str key ++ decimal tid.length ++ str ":") buf
  let buf ← copy size tid buf
  let buf ← addV size v buf
  inc size (str kind) buf

/-- What writes an answer, given its transaction id. -/
inductive WritesAnswer (net : Net) : (Bytes → Option Bytes) → Prop where
  | pong : WritesAnswer net (sendPong net)
  | error (code : ℕ) (message : Bytes) : WritesAnswer net fun tid => sendError net tid code message
  | nodesPeers (nodes nodes6 : Bytes) (peers : Option (List Peer)) (token : Bytes) :
      WritesAnswer net fun tid => sendNodesPeers net tid nodes nodes6 peers token
  | dtninfo (eid : Bytes) (cls : List ConvergenceLayer) (nbs grs : List Bytes) :
      WritesAnswer net fun tid => sendDtninfo tid eid cls nbs grs

variable {net : Net} {enc : Bytes → Option Bytes} {tid tid' : Bytes}

/-- All that depends on the transaction id is the end. -/
theorem WritesAnswer.ending (h : WritesAnswer net enc) : ∃ start size key v kind,
    ∀ tid, enc tid = Option.bind start (writeEnding size key v kind tid) := by
  cases h with
  | pong =>
    refine ⟨inc 512 (str "d1:rd2:id20:") [] >>= copy 512 net.myid.bytes, 512, "e1:t", net.myV,
      "1:y1:re", fun tid => ?_⟩
    simp only [sendPong, Option.bind_eq_bind, Option.bind_assoc]
    rfl
  | error code message =>
    refine ⟨inc 512 (str "d1:eli" ++ decimal code ++ str "e" ++ decimal message.length ++
      str ":") [] >>= copy 512 message, 512, "e1:t", net.myV, "1:y1:ee", fun tid => ?_⟩
    simp only [sendError, Option.bind_eq_bind, Option.bind_assoc]
    rfl
  | nodesPeers nodes nodes6 peers token =>
    refine ⟨do
      let buf ← inc 2048 (str "d1:rd2:id20:") []
      let buf ← copy 2048 net.myid.bytes buf
      let buf ← addNodes (str "5:nodes") nodes buf
      let buf ← addNodes (str "6:nodes6") nodes6 buf
      let buf ← addNodes (str "5:token") token buf
      addValues peers buf, 2048, "e1:t", net.myV, "1:y1:re", fun tid => ?_⟩
    simp only [sendNodesPeers_addValues, Option.bind_eq_bind, Option.bind_assoc]
    rfl
  | dtninfo eid cls nbs grs =>
    refine ⟨do
      let buf ← inc 4096 (str "d1:rd2:cll") []
      let buf ← cls.foldlM sendLayer buf
      let buf ← inc 4096 (str "e3:eid" ++ decimal eid.length ++ str ":") buf
      let buf ← copy 4096 eid buf
      let buf ← inc 4096 (str "2:grl") buf
      let buf ← grs.foldlM sendEid buf
      let buf ← inc 4096 (str "e2:nbl") buf
      nbs.foldlM sendEid buf, 4096, "ee1:t", none, "1:y1:re", fun tid => ?_⟩
    simp only [sendDtninfo, Option.bind_eq_bind, Option.bind_assoc]
    rfl

/-- `inc` and `copy` write behind what is there. -/
theorem prefix_inc {size : ℕ} {s buf out : Bytes} (h : inc size s buf = some out) :
    buf <+: out := by
  unfold inc at h
  split_ifs at h
  exact (Option.some.inj h) ▸ List.prefix_append _ _

theorem copy_eq_some {size : ℕ} {s buf out : Bytes} (h : copy size s buf = some out) :
    out = buf ++ s := by
  unfold copy at h
  split_ifs at h
  exact (Option.some.inj h).symm

theorem prefix_addV {size : ℕ} {v : Option Bytes} {buf out : Bytes}
    (h : addV size v buf = some out) : buf <+: out := by
  cases v with
  | none => exact (Option.some.inj h) ▸ List.prefix_rfl
  | some v => exact (copy_eq_some h) ▸ List.prefix_append _ _

/-- The transaction id stands in the answer behind its length. -/
theorem writeEnding_eq_some {size : ℕ} {key : String} {v : Option Bytes} {kind : String}
    {buf out : Bytes} (h : writeEnding size key v kind tid buf = some out) :
    ∃ head, inc size (str key ++ decimal tid.length ++ str ":") buf = some head ∧
      head ++ tid <+: out := by
  simp only [writeEnding, Option.bind_eq_bind, Option.bind_eq_some_iff] at h
  obtain ⟨head, hhead, buf', hcopy, buf'', hv, hout⟩ := h
  refine ⟨head, hhead, ?_⟩
  rw [← copy_eq_some hcopy]
  exact (prefix_addV hv).trans (prefix_inc hout)

/-- The same answer carries the same transaction id. -/
theorem WritesAnswer.tid_eq (h : WritesAnswer net enc) (hlen : tid.length = tid'.length)
    {out : Bytes} (htid : enc tid = some out) (htid' : enc tid' = some out) : tid = tid' := by
  obtain ⟨start, size, key, v, kind, hend⟩ := h.ending
  rw [hend, Option.bind_eq_some_iff] at htid htid'
  obtain ⟨buf, hbuf, hout⟩ := htid
  obtain ⟨buf', hbuf', hout'⟩ := htid'
  obtain rfl : buf = buf' := Option.some.inj (hbuf.symm.trans hbuf')
  obtain ⟨head, hhead, hpre⟩ := writeEnding_eq_some hout
  obtain ⟨head', hhead', hpre'⟩ := writeEnding_eq_some hout'
  rw [← hlen, hhead] at hhead'
  obtain rfl := Option.some.inj hhead'
  have hle : (head ++ tid).length ≤ (head ++ tid').length := by
    rw [List.length_append, List.length_append, hlen]
  have heq := (List.prefix_of_prefix_length_le hpre hpre' hle).eq_of_length
    (by rw [List.length_append, List.length_append, hlen])
  exact List.append_cancel_left heq

/-- Whether something fits depends on the lengths alone. -/
theorem isSome_inc {size : ℕ} {s buf : Bytes} :
    (inc size s buf).isSome = decide (buf.length + s.length ≤ size) := by
  unfold inc
  split_ifs with h
  · simpa using h
  · simpa using h

theorem isSome_writeEnding {size : ℕ} {key : String} {v : Option Bytes} {kind : String}
    (hlen : tid.length = tid'.length) (buf : Bytes) :
    (writeEnding size key v kind tid buf).isSome =
      (writeEnding size key v kind tid' buf).isSome := by
  unfold writeEnding
  rw [hlen]
  cases inc size (str key ++ decimal tid'.length ++ str ":") buf with
  | none => rfl
  | some head =>
    simp only [Option.bind_eq_bind, Option.bind_some, copy, hlen]
    by_cases hover : size < head.length + tid'.length
    · rw [if_pos hover, if_pos hover]
    · rw [if_neg hover, if_neg hover, Option.bind_some, Option.bind_some]
      cases v with
      | none => simp only [addV, Option.bind_some, isSome_inc, List.length_append, hlen]
      | some v =>
        simp only [addV, copy, List.length_append, hlen]
        split_ifs
        · rfl
        · simp only [Option.bind_some, isSome_inc, List.length_append, hlen]

/-- Whether an answer fits depends on the length of its transaction id alone. -/
theorem WritesAnswer.isSome_eq (h : WritesAnswer net enc) (hlen : tid.length = tid'.length) :
    (enc tid).isSome = (enc tid').isSome := by
  obtain ⟨start, size, key, v, kind, hend⟩ := h.ending
  rw [hend, hend]
  cases start with
  | none => rfl
  | some buf => exact isSome_writeEnding hlen buf

/-! ## Answers to queries fit -/

/-- An answer that always fits. -/
def AlwaysFits (enc : Bytes → Option Bytes) : Prop :=
  ∀ tid : Bytes, tid.length ≤ 16 → (enc tid).isSome = true

/-- `send_closest_nodes` sends one answer, which fits. -/
theorem sendClosestNodes_answer (hv : net.VersionFits) (now : ℤ) (r : Routing) (sa : Sockaddr)
    (salen : ℕ) (id : Id) (want : ℤ) (af : ℕ) (st : Option Storage) {token : Bytes}
    (htoken : token.length ≤ 40) (rs : Random) :
    ∃ enc rs', WritesAnswer net enc ∧ AlwaysFits enc ∧ ∀ tid,
      sendClosestNodes net now r sa salen tid id want af st token rs =
        (dhtSendBuf net (enc tid) 0 sa salen, rs') := by
  have hfits (p p6 : Prop) [Decidable p] [Decidable p6] {peers : Option (List Peer)}
      (hpeers : PeersFit peers) :
      AlwaysFits fun tid => sendNodesPeers net tid
        (if p then (r.closestNodes now id afInet).flatMap nodeRecord else [])
        (if p6 then (r.closestNodes now id afInet6).flatMap nodeRecord else []) peers token := by
    intro tid htid
    dsimp only
    rw [sendNodesPeers_eq hv htid (length_gathered_le p now r id afInet)
      (length_gathered_le p6 now r id afInet6) hpeers htoken]
    rfl
  have hnone : PeersFit none := fun ps hps => absurd hps (by simp)
  unfold sendClosestNodes
  cases st with
  | none => exact ⟨_, _, .nodesPeers _ _ none token, hfits _ _ hnone, fun _ => rfl⟩
  | some st =>
    dsimp only
    by_cases hempty : st.peers = []
    · rw [if_pos hempty]
      exact ⟨_, _, .nodesPeers _ _ none token, hfits _ _ hnone, fun _ => rfl⟩
    · rw [if_neg hempty]
      exact ⟨_, _, .nodesPeers _ _ _ token, hfits _ _ (peersFit_servedPeers _ _ _), fun _ => rfl⟩

/-! ## The transaction id of a message -/

/-- The message with another transaction id. -/
def Message.withTid (m : Message) (tid : Bytes) (tidLen : ℕ) : Message :=
  { m with tid := tid, tidLen := tidLen }

/-- A kind of query. -/
def MessageKind.isQuery : MessageKind → Bool
  | .ping | .findNode | .getPeers | .announcePeer => true
  | _ => false

namespace World

variable {w : World} {m : Message} {frm : Sockaddr} {fromlen : ℕ} {sha1 : Bytes → Bytes}

/-- A query is answered by one packet, and all that depends on its transaction id is what this
packet carries. -/
def AnsweredBy (w : World) (frm : Sockaddr) (fromlen : ℕ) (f : Bytes → ℕ → World) : Prop :=
  ∃ (w1 : World) (enc : Bytes → Option Bytes), WritesAnswer w.net enc ∧ AlwaysFits enc ∧
    w1.replies = w.replies ∧ ∀ tid tidLen,
      f tid tidLen = w1.reply (dhtSendBuf w.net (enc (tid.take tidLen)) 0 frm fromlen)

/-- The fields of a message but for its transaction id. -/
theorem Message.withTid_eqs (m : Message) (tid : Bytes) (tidLen : ℕ) :
    (m.withTid tid tidLen).kind = m.kind ∧ (m.withTid tid tidLen).id = m.id ∧
      (m.withTid tid tidLen).infoHash = m.infoHash ∧ (m.withTid tid tidLen).port = m.port ∧
      (m.withTid tid tidLen).token = m.token := ⟨rfl, rfl, rfl, rfl, rfl⟩

theorem answeredBy_pong (hv : w.net.VersionFits) {w1 : World} (hnet : w1.net = w.net)
    (hreplies : w1.replies = w.replies) :
    AnsweredBy w frm fromlen fun tid tidLen =>
      w1.reply (dhtSendBuf w1.net (sendPong w1.net (m.withTid tid tidLen).tidBytes) 0 frm
        fromlen) := by
  refine ⟨w1, sendPong w.net, .pong, fun tid htid => ?_, hreplies, fun tid tidLen => ?_⟩
  · rw [sendPong_eq hv htid]
    rfl
  · rw [hnet]
    rfl

theorem answeredBy_replyError (hv : w.net.VersionFits) {w1 : World} (hnet : w1.net = w.net)
    (hreplies : w1.replies = w.replies) {message : String} (hmessage : (str message).length < 100) :
    AnsweredBy w frm fromlen fun tid tidLen =>
      w1.replyError (m.withTid tid tidLen) frm fromlen message := by
  refine ⟨w1, fun tid => sendError w.net tid 203 (str message), .error _ _, fun tid htid => ?_,
    hreplies, fun tid tidLen => ?_⟩
  · dsimp only
    rw [sendError_eq hv htid (by decide) hmessage]
    rfl
  · rw [← hnet]
    rfl

theorem answeredBy_replyClosestNodes (hv : w.net.VersionFits) {w1 : World} (hnet : w1.net = w.net)
    (hreplies : w1.replies = w.replies) (id : Id) (af : ℕ) (st : Option Storage) {token : Bytes}
    (htoken : token.length ≤ 40) :
    AnsweredBy w frm fromlen fun tid tidLen =>
      w1.replyClosestNodes (m.withTid tid tidLen) frm fromlen id af st token := by
  obtain ⟨enc, rs, hanswer, hfits, hsend⟩ := sendClosestNodes_answer hv w1.now w1.routing frm
    fromlen id m.want af st htoken w1.env.random
  refine ⟨{ w1 with env := { w1.env with random := rs } }, enc, hanswer, hfits, hreplies,
    fun tid tidLen => ?_⟩
  rw [← hnet] at hsend ⊢
  unfold replyClosestNodes
  simp only [show (m.withTid tid tidLen).want = m.want from rfl, hsend]
  rfl

theorem length_makeToken_le (sha1 : Bytes → Bytes) (s : Secrets) (sa : Sockaddr) (old : Bool) :
    (makeToken sha1 s sa old).length ≤ 40 :=
  (List.length_take_le tokenSize _).trans (by decide)

theorem answeredBy_getPeers (hv : w.net.VersionFits) :
    AnsweredBy w frm fromlen fun tid tidLen =>
      w.getPeers (m.withTid tid tidLen) frm fromlen sha1 := by
  have hnew := (calm_newNode w m.id frm fromlen 1).replies
  have hnet : (w.newNode m.id frm fromlen 1).net = w.net := rfl
  unfold getPeers
  simp only [Message.withTid_eqs]
  generalize w.newNode m.id frm fromlen 1 = w1 at hnew hnet
  have htoken := length_makeToken_le sha1 w1.secrets frm false
  by_cases hzero : m.infoHash = Id.zeroes
  · simp only [if_pos hzero]
    exact answeredBy_replyError hv hnet hnew (by decide)
  · simp only [if_neg hzero]
    cases findStorage m.infoHash w1.storage with
    | none => exact answeredBy_replyClosestNodes hv hnet hnew _ _ _ htoken
    | some st =>
      dsimp only
      by_cases hpeers : st.peers ≠ []
      · simp only [if_pos hpeers]
        exact answeredBy_replyClosestNodes hv hnet hnew _ _ _ htoken
      · simp only [if_neg hpeers]
        exact answeredBy_replyClosestNodes hv hnet hnew _ _ _ htoken

theorem answeredBy_announcePeer (hv : w.net.VersionFits) :
    AnsweredBy w frm fromlen fun tid tidLen =>
      w.announcePeer (m.withTid tid tidLen) frm fromlen sha1 := by
  have hnew := (calm_newNode w m.id frm fromlen 1).replies
  have hnet : (w.newNode m.id frm fromlen 1).net = w.net := rfl
  unfold announcePeer
  simp only [Message.withTid_eqs]
  generalize w.newNode m.id frm fromlen 1 = w1 at hnew hnet
  split_ifs
  · exact answeredBy_replyError hv hnet hnew (by decide)
  · exact answeredBy_replyError hv hnet hnew (by decide)
  · exact answeredBy_replyError hv hnet hnew (by decide)
  · have hstore (st : List Storage) : ({ w1 with storage := st } : World).net = w.net := hnet
    exact answeredBy_pong hv (hstore _) hnew

theorem answeredBy_query (frm : Sockaddr) (fromlen : ℕ) (sha1 : Bytes → Bytes)
    (hv : w.net.VersionFits) (hkind : m.kind.isQuery = true) :
    AnsweredBy w frm fromlen fun tid tidLen =>
      w.query (m.withTid tid tidLen) frm fromlen sha1 := by
  have hnew := (calm_newNode w m.id frm fromlen 1).replies
  have hnet : (w.newNode m.id frm fromlen 1).net = w.net := rfl
  have hnil : ([] : Bytes).length ≤ 40 := Nat.zero_le 40
  unfold query
  simp only [Message.withTid_eqs]
  cases hk : m.kind with
  | ping => exact answeredBy_pong hv hnet hnew
  | findNode =>
    have h : AnsweredBy w frm fromlen fun tid tidLen =>
        (w.newNode m.id frm fromlen 1).replyClosestNodes (m.withTid tid tidLen) frm fromlen
          m.target 0 none [] := answeredBy_replyClosestNodes hv hnet hnew _ _ _ hnil
    exact h
  | getPeers => exact answeredBy_getPeers hv
  | announcePeer => exact answeredBy_announcePeer hv
  | error | reply | dtnQuery | dtnReply =>
    rw [hk] at hkind
    exact absurd hkind (by decide)

/-! ## The message that is handled -/

/-- Is the message a query that is answered, given a socket? -/
def answersQuery (w : World) (m : Message) : Prop :=
  m.kind.isQuery = true ∧ m.id ≠ Id.zeroes ∧ m.id ≠ w.myid ∧ w.takeToken.1 = true

theorem handle_of_answersQuery (h : w.answersQuery m) :
    w.handle m frm fromlen sha1 = w.takeToken.2.query m frm fromlen sha1 := by
  obtain ⟨hkind, hzero, hself, htoken⟩ := h
  have hnot {k : MessageKind} (hk : k.isQuery = false) : m.kind ≠ k := by
    rintro rfl
    exact absurd hkind (by rw [hk]; exact Bool.false_ne_true)
  unfold handle
  rw [if_neg (not_or.mpr ⟨hnot rfl, hzero⟩), if_neg hself, if_neg (hnot rfl)]
  cases htake : w.takeToken with
  | mk ok w1 =>
    rw [htake] at htoken
    obtain rfl : ok = true := htoken
    rfl

/-- A reply is taken only if its transaction id has 4 bytes, and then only they count. -/
theorem replyMessage_congr {tid tid' : Bytes} {tidLen : ℕ}
    (h : tidLen = 4 → tid.take 4 = tid'.take 4) :
    w.replyMessage (m.withTid tid tidLen) frm fromlen sha1 =
      w.replyMessage (m.withTid tid' tidLen) frm fromlen sha1 := by
  unfold replyMessage
  by_cases hlen : tidLen = 4
  · replace h := h hlen
    have hmatch (kind : Bytes) : tidMatch tid kind = tidMatch tid' kind := by
      have h2 : (tid.take 4).take 2 = (tid'.take 4).take 2 := congrArg (List.take 2) h
      rw [List.take_take, List.take_take] at h2
      change tid.take 2 = tid'.take 2 at h2
      unfold tidMatch
      rw [h2]
    have hget {i : ℕ} (hi : i < 4) : tid.getD i 0 = tid'.getD i 0 := by
      have hi' := congrArg (fun s : Bytes => s.getD i 0) h
      simpa [List.getD_eq_getElem?_getD, List.getElem?_take, hi] using hi'
    have hseqno : tidSeqno tid = tidSeqno tid' := by
      unfold tidSeqno
      rw [hget (by decide), hget (by decide)]
    simp only [nodesReply, announceReply, Message.withTid, hmatch, hseqno]
    rfl
  · have hne : (m.withTid tid tidLen).tidLen ≠ 4 := hlen
    have hne' : (m.withTid tid' tidLen).tidLen ≠ 4 := hlen
    rw [if_pos hne, if_pos hne']
    rfl

/-- A message that is not answered: it is a reply, or its transaction id plays no part. -/
theorem handle_of_not_answersQuery (frm : Sockaddr) (fromlen : ℕ) (sha1 : Bytes → Bytes)
    (h : ¬ w.answersQuery m) :
    (∀ tid tidLen, w.handle (m.withTid tid tidLen) frm fromlen sha1 =
      w.replyMessage (m.withTid tid tidLen) frm fromlen sha1) ∨
    ∃ w1 : World, w1.replies = w.replies ∧ ∀ tid tidLen,
      w.handle (m.withTid tid tidLen) frm fromlen sha1 = w1 := by
  unfold handle
  simp only [Message.withTid_eqs]
  by_cases herror : m.kind = .error ∨ m.id = Id.zeroes
  · exact Or.inr ⟨w, rfl, fun _ _ => if_pos herror⟩
  simp only [if_neg herror]
  by_cases hself : m.id = w.myid
  · exact Or.inr ⟨w, rfl, fun _ _ => if_pos hself⟩
  simp only [if_neg hself]
  by_cases hreply : m.kind = .reply
  · exact Or.inl fun _ _ => if_pos hreply
  simp only [if_neg hreply]
  refine Or.inr ⟨w.takeToken.2, rfl, fun tid tidLen => ?_⟩
  cases htake : w.takeToken with
  | mk ok w1 =>
    cases ok with
    | false => rfl
    | true =>
      have hkind : m.kind.isQuery ≠ true := fun hkind =>
        h ⟨hkind, (not_or.mp herror).2, hself, congrArg Prod.fst htake⟩
      dsimp only [query, Message.withTid]
      cases hk : m.kind with
      | error | reply | dtnQuery | dtnReply => rfl
      | ping | findNode | getPeers | announcePeer =>
        rw [hk] at hkind
        exact absurd rfl hkind

/-! ## Calls with given arrays -/

section

variable (lib : Platform) (clayer : List ConvergenceLayer)

/-- What `dht_periodic` does with a datagram, up to `dontread`, byte by byte. -/
def receiveWith (v : Bytewise.Locals) (w : World) (dg : Datagram) : Checked World := do
  let parsed ← Bytewise.parseDtnMessage dg.buf lib.inetNtop dg.frm v.tid 16
  match parsed.message with
  | some .dtnQuery =>
    return if w.answersDtnQuery parsed.result.eid then
      w.reply (dhtSendBuf w.net (sendDtninfo (parsed.tid.1.take parsed.tidLen) w.eids.myEid clayer
        w.eids.neighbours w.eids.groups) 0 dg.frm dg.fromlen)
    else w
  | some .dtnReply =>
    return if w.isForeign parsed.result.eid then w.emit [.lookupResult parsed.result] else w
  | _ =>
    let m ← Bytewise.parseMessage dg.buf { v with tid := parsed.tid } parsed.tidLen
    match m with
    | none => return w
    | some m => return w.handle m.message dg.frm dg.fromlen lib.sha1

/-- `dht_periodic` with a datagram, with what stands in its arrays. -/
def dhtPeriodicWith (v : Bytewise.Locals) (w : World) (dg : Datagram) : Checked (ℤ × World) :=
  let w := w.gettimeofday
  if w.ignores dg then .ok (1, w.doDue)
  else if !dg.terminated then .ok (-1, w)
  else do
    let w ← w.receiveWith lib clayer v dg
    return (1, w.doDue)

/-- The same on lists, with what stands in the array for the transaction id. -/
def receiveFrom (tid : Bytes) (w : World) (dg : Datagram) : World :=
  let parsed := parseDtnMessage lib.inetNtop dg.frm dg.buf tid 16
  match parsed.message with
  | some .dtnQuery =>
    if w.answersDtnQuery parsed.result.eid then
      w.reply (dhtSendBuf w.net (sendDtninfo (parsed.tid.take parsed.tidLen) w.eids.myEid clayer
        w.eids.neighbours w.eids.groups) 0 dg.frm dg.fromlen)
    else w
  | some .dtnReply =>
    if w.isForeign parsed.result.eid then w.emit [.lookupResult parsed.result] else w
  | _ =>
    match parseMessage dg.buf parsed.tid parsed.tidLen with
    | none => w
    | some m => w.handle m dg.frm dg.fromlen lib.sha1

end

variable {lib : Platform} {clayer : List ConvergenceLayer} {dg : Datagram}

/-- The run on lists takes the array from the stack. -/
theorem receive_eq : w.receive lib clayer dg =
    w.stackTid.2.receiveFrom lib clayer w.stackTid.1 dg := rfl

/-- The call meets no fault. -/
theorem receiveWith_eq (v : Bytewise.Locals) :
    w.receiveWith lib clayer v dg = .ok (w.receiveFrom lib clayer v.tid.1 dg) := by
  obtain ⟨r, hr, hview⟩ := Bytewise.parseDtnMessage_computes lib.inetNtop dg.frm dg.buf v.tid
    (le_refl 16)
  obtain ⟨message, result, written, hfrom, hparse⟩ :=
    writesTid_parseDtnMessage lib.inetNtop dg.frm dg.buf 16
  have htidLen : r.tidLen ≤ 16 := by
    have hlen := congrArg DtnParse.tidLen (hview.trans (hparse v.tid.1))
    change r.tidLen = setTidLen 16 written at hlen
    rw [hlen]
    cases written with
    | none => exact le_rfl
    | some t => exact (hfrom t rfl).2.1.trans (by decide)
  unfold receiveWith receiveFrom
  rw [hr, ok_bind, ← hview]
  dsimp only [Bytewise.DtnParse.view]
  split
  · rfl
  · rfl
  · obtain ⟨o, ho, -, hmap⟩ :=
      Bytewise.parseMessage_refines dg.buf { v with tid := r.tid } htidLen
    rw [ho, ok_bind, ← hmap]
    cases o with
    | none => rfl
    | some m => rfl

theorem dhtPeriodicWith_eq (v : Bytewise.Locals) :
    w.dhtPeriodicWith lib clayer v dg =
      .ok (if w.gettimeofday.ignores dg then (1, w.gettimeofday.doDue)
        else if !dg.terminated then (-1, w.gettimeofday)
        else (1, (w.gettimeofday.receiveFrom lib clayer v.tid.1 dg).doDue)) := by
  unfold dhtPeriodicWith
  dsimp only
  rw [receiveWith_eq]
  split_ifs <;> rfl

/-! ## What the parsers write -/

theorem parseDtnReply_message {inetNtop : ℕ → Bytes → Bytes} {frm : Sockaddr} {buf tid : Bytes}
    {tidLen : ℕ} : (parseDtnReply inetNtop frm buf tid tidLen).message ≠ some .dtnQuery := by
  unfold parseDtnReply parseReplyEid parseReplyGroups parseReplyNeighbours parseReplyTid
  repeat' split
  all_goals simp

/-- A query for our DTN EID leaves the array alone if and only if it has no marker. -/
theorem tidLen_dtnQuery {inetNtop : ℕ → Bytes → Bytes} {frm : Sockaddr} {buf tid : Bytes}
    {tidLen : ℕ} (hpos : 0 < tidLen)
    (h : (parseDtnMessage inetNtop frm buf tid tidLen).message = some .dtnQuery) :
    (parseDtnMessage inetNtop frm buf tid tidLen).tidLen = tidLen ↔
      ¬ str "e1:q3:dtn1:t" <:+: buf := by
  unfold parseDtnMessage at h ⊢
  split_ifs at h ⊢ with hquery hreply
  · unfold parseDtnQuery at h ⊢
    cases heid : readField buf 10 (0 < ·) with
    | malformed => simp [heid] at h
    | overflow => simp [heid] at h
    | value eid =>
      simp only [heid] at h ⊢
      cases hp : findInfix (str "e1:q3:dtn1:t") buf with
      | none => exact iff_of_true rfl (findInfix_eq_none_iff.mp hp)
      | some p =>
        have hmarker : ¬ ¬ str "e1:q3:dtn1:t" <:+: buf := fun hnot => by
          rw [findInfix_eq_none_iff.mpr hnot] at hp
          exact absurd hp (by simp)
        refine iff_of_false ?_ hmarker
        simp only [hp] at h ⊢
        cases ht : readField buf (p + 12) fun l => decide (0 < l) && decide (l < tidLen) with
        | malformed => exact hpos.ne
        | overflow => simp [ht] at h
        | value t =>
          have hok := ((readField_eq_value_iff (Bytewise.tidOk_nonneg tidLen)).mp ht).1
          rw [Bool.and_eq_true, decide_eq_true_eq, decide_eq_true_eq] at hok
          dsimp only
          omega
  · exact absurd h parseDtnReply_message

/-- A marker: either the datagram is cut in the transaction id, or it says which it is. -/
theorem parseTid_of_marker {buf : Bytes} (tidLen : ℕ) (h : str "1:t" <:+: buf) :
    (∀ tid, parseTid buf tid tidLen = none) ∨ ∃ t, t <:+: buf ∧ ∀ tid,
      parseTid buf tid tidLen = some (memcpy tid t t.length, t.length) := by
  unfold parseTid
  cases hp : findInfix (str "1:t") buf with
  | none => exact absurd h (findInfix_eq_none_iff.mp hp)
  | some p =>
    dsimp only
    cases ht : readField buf (p + 3) fun l => decide (0 < l) && decide (l < (tidLen : ℤ)) with
    | malformed => exact Or.inr ⟨[], List.nil_infix, fun tid => rfl⟩
    | overflow => exact Or.inl fun _ => rfl
    | value t =>
      exact Or.inr ⟨t, isInfix_of_readField (Bytewise.tidOk_nonneg tidLen) ht, fun _ => rfl⟩

theorem parseTid_of_not_marker {buf : Bytes} (h : ¬ str "1:t" <:+: buf) (tid : Bytes)
    (tidLen : ℕ) : parseTid buf tid tidLen = some (tid, tidLen) := by
  unfold parseTid
  rw [findInfix_eq_none_iff.mpr h]

/-- An array without room takes no transaction id, so that none passes the end. -/
theorem parseTid_zero (buf : Bytes) : parseTid buf [] 0 = some ([], 0) := by
  unfold parseTid
  cases findInfix (str "1:t") buf with
  | none => rfl
  | some p =>
    have hmalformed : readField buf (p + 3) (fun l => decide (0 < l) && decide (l < ((0 : ℕ) : ℤ))) =
        .malformed := by
      unfold readField
      rcases CString.strtol (buf.drop (p + 3)) with ⟨l, q⟩
      refine if_neg fun h => ?_
      have hl := h.2
      rw [Bool.and_eq_true, decide_eq_true_eq, decide_eq_true_eq] at hl
      omega
    dsimp only
    rw [hmalformed]

/-- The transaction id is read apart from the rest. -/
theorem parseMessage_eq_bind (buf tid : Bytes) (tidLen : ℕ) :
    parseMessage buf tid tidLen = (parseTid buf tid tidLen).bind fun p =>
      (parseMessage buf [] 0).map fun m => m.withTid p.1 p.2 := by
  unfold parseMessage
  rw [parseTid_zero]
  cases parseTid buf tid tidLen with
  | none => rfl
  | some p =>
    simp only [Option.bind_eq_bind, Option.bind_some, Option.map_bind, Function.comp_def]
    rfl

/-! ## What the answers carry -/

/-- A packet that answers the datagram with a transaction id from the datagram. -/
def CarriesTid (net : Net) (dg : Datagram) (p : Packet) : Prop :=
  ∃ enc tid, WritesAnswer net enc ∧ tid <:+: dg.buf ∧ enc tid = some p.payload

/-- The array for the transaction id filled with zeros. -/
def zeroTid : Bytes := List.replicate 16 0

section

variable (lib : Platform) (clayer : List ConvergenceLayer)

/-- Is the datagram a query for our DTN EID that is answered though it has no transaction id? -/
def DtnQueryWithoutTid (w : World) (dg : Datagram) : Prop :=
  let parsed := parseDtnMessage lib.inetNtop dg.frm dg.buf zeroTid 16
  parsed.message = some .dtnQuery ∧ w.answersDtnQuery parsed.result.eid = true ∧
    ¬ str "e1:q3:dtn1:t" <:+: dg.buf ∧
    (sendDtninfo zeroTid w.eids.myEid clayer w.eids.neighbours w.eids.groups).isSome = true

/-- Is the datagram another query that is answered though it has no transaction id? -/
def QueryWithoutTid (w : World) (dg : Datagram) : Prop :=
  let parsed := parseDtnMessage lib.inetNtop dg.frm dg.buf zeroTid 16
  parsed.message ≠ some .dtnQuery ∧ parsed.message ≠ some .dtnReply ∧
    ¬ str "1:t" <:+: dg.buf ∧ ∃ m, parseMessage dg.buf zeroTid 16 = some m ∧ w.answersQuery m

/-- Is the datagram, at this time, answered with the contents of the array on the stack? -/
def EchoesStack (w : World) (dg : Datagram) : Prop :=
  w.ignores dg = false ∧ dg.terminated = true ∧ 0 ≤ w.net.socket dg.frm ∧
    (DtnQueryWithoutTid lib clayer w dg ∨ QueryWithoutTid lib w dg)

/-- Two calls that differ in what stands in the arrays send the same and end in the same state,
and all that is sent in answer to the datagram carries a transaction id from it. -/
def Independent (w : World) (dg : Datagram) : Prop :=
  (∀ v v', w.dhtPeriodicWith lib clayer v dg = w.dhtPeriodicWith lib clayer v' dg) ∧
    ∀ v, ∃ r w', w.dhtPeriodicWith lib clayer v dg = .ok (r, w') ∧
      ∃ pkts, w'.replies = w.replies ++ pkts ∧ ∀ p ∈ pkts, CarriesTid w.net dg p

end

/-- What a datagram does whatever stands in the array, its answers carrying a transaction id from
it. -/
def Settled (w : World) (dg : Datagram) (f : Bytes → World) : Prop :=
  ∃ (w1 : World) (pkts : List Packet), w1.replies = w.replies ++ pkts ∧
    (∀ p ∈ pkts, CarriesTid w.net dg p) ∧ ∀ tid : Bytes, tid.length = 16 → f tid = w1

/-- What a datagram does that is answered with the contents of the array. -/
def Echoing (w : World) (dg : Datagram) (f : Bytes → World) : Prop :=
  ∃ (w1 : World) (enc : Bytes → Option Bytes), WritesAnswer w.net enc ∧ w1.replies = w.replies ∧
    ∀ tid : Bytes, tid.length = 16 → (enc tid).isSome = true ∧
      f tid = w1.reply (dhtSendBuf w.net (enc tid) 0 dg.frm dg.fromlen)

theorem settled_const {f : Bytes → World} (w1 : World) (hreplies : w1.replies = w.replies)
    (h : ∀ tid : Bytes, tid.length = 16 → f tid = w1) : Settled w dg f :=
  ⟨w1, [], by rw [hreplies, List.append_nil], fun p hp => absurd hp List.not_mem_nil, h⟩

/-- An answer with a transaction id from the datagram. -/
theorem settled_reply {f : Bytes → World} {w1 : World} (hreplies : w1.replies = w.replies)
    {enc : Bytes → Option Bytes} (henc : WritesAnswer w.net enc) {t : Bytes} (ht : t <:+: dg.buf)
    (h : ∀ tid : Bytes, tid.length = 16 →
      f tid = w1.reply (dhtSendBuf w.net (enc t) 0 dg.frm dg.fromlen)) : Settled w dg f := by
  refine ⟨_, dhtSendBuf w.net (enc t) 0 dg.frm dg.fromlen, ?_, fun p hp => ?_, h⟩
  · rw [replies_reply, hreplies]
  · exact ⟨enc, t, henc, ht, (mem_dhtSendBuf hp).1⟩

/-- A message that is not answered. -/
theorem settled_handle (h : ¬ w.answersQuery m) {t : Bytes → Bytes} {tidLen : ℕ}
    (ht : tidLen = 4 → ∀ tid tid', (t tid).take 4 = (t tid').take 4) :
    Settled w dg fun tid => w.handle (m.withTid (t tid) tidLen) frm fromlen sha1 := by
  rcases handle_of_not_answersQuery frm fromlen sha1 h with
    hreply | ⟨w1, hreplies, hw1⟩
  · refine settled_const (w.replyMessage (m.withTid (t []) tidLen) frm fromlen sha1) ?_
      fun tid _ => ?_
    · exact (calm_replyMessage _ frm fromlen sha1 w).replies
    · exact (hreply _ _).trans (replyMessage_congr fun hlen => ht hlen tid [])
  · exact settled_const w1 hreplies fun tid _ => hw1 _ _

/-- A query that is answered. -/
theorem handle_answeredBy (frm : Sockaddr) (fromlen : ℕ) (sha1 : Bytes → Bytes)
    (hv : w.net.VersionFits) (h : w.answersQuery m) :
    AnsweredBy w frm fromlen fun tid tidLen =>
      w.handle (m.withTid tid tidLen) frm fromlen sha1 := by
  obtain ⟨w1, enc, henc, hfits, hreplies, hw1⟩ := answeredBy_query (w := w.takeToken.2)
    frm fromlen sha1 hv h.1
  refine ⟨w1, enc, henc, hfits, hreplies, fun tid tidLen => ?_⟩
  have hanswers : w.answersQuery (m.withTid tid tidLen) := h
  exact (handle_of_answersQuery hanswers).trans (hw1 tid tidLen)

/-! ## The two cases -/

/-- A datagram whose answer echoes the array. -/
theorem echoing_receiveFrom (hv : w.net.VersionFits)
    (h : DtnQueryWithoutTid lib clayer w dg ∨ QueryWithoutTid lib w dg) :
    Echoing w dg fun tid => w.receiveFrom lib clayer tid dg := by
  obtain ⟨message, result, written, hfrom, hwrites⟩ :=
    writesTid_parseDtnMessage lib.inetNtop dg.frm dg.buf 16
  have hparse (tid : Bytes) : parseDtnMessage lib.inetNtop dg.frm dg.buf tid 16 =
      ⟨message, setTid tid written, setTidLen 16 written, result⟩ := hwrites tid
  unfold DtnQueryWithoutTid QueryWithoutTid at h
  rw [hparse] at h
  dsimp only at h
  unfold receiveFrom
  simp only [hparse]
  rcases h with ⟨hquery, hanswers, hmarker, hfits⟩ | ⟨hquery, hreply, hmarker, m, hm, hanswers⟩
  · have hmessage : (parseDtnMessage lib.inetNtop dg.frm dg.buf zeroTid 16).message =
        some .dtnQuery := by rw [hparse]; exact hquery
    have hlen := (tidLen_dtnQuery (by decide) hmessage).mpr hmarker
    rw [hparse] at hlen
    obtain rfl : written = none := by
      cases written with
      | none => rfl
      | some t =>
        have hle := (hfrom t rfl).2.1
        change t.length = 16 at hlen
        omega
    subst hquery
    simp only [if_pos hanswers]
    refine ⟨w, fun tid => sendDtninfo tid w.eids.myEid clayer w.eids.neighbours w.eids.groups,
      .dtninfo _ _ _ _, rfl, fun tid htid => ⟨?_, ?_⟩⟩
    · rw [← hfits]
      exact (WritesAnswer.dtninfo _ _ _ _ : WritesAnswer w.net _).isSome_eq htid
    · have htake : (setTid tid none).take (setTidLen 16 none) = tid :=
        List.take_of_length_le htid.le
      dsimp only
      rw [htake]
  · obtain rfl : written = none := by
      cases written with
      | none => rfl
      | some t => exact absurd (hfrom t rfl).2.2 hmarker
    rw [parseMessage_eq_bind, parseTid_of_not_marker hmarker, Option.bind_some] at hm
    obtain ⟨m0, hm0, rfl⟩ := Option.map_eq_some_iff.mp hm
    have hanswers0 : w.answersQuery m0 := hanswers
    obtain ⟨w1, enc, henc, hfits, hreplies, hw1⟩ := handle_answeredBy dg.frm dg.fromlen
      lib.sha1 hv hanswers0
    refine ⟨w1, enc, henc, hreplies, fun tid htid => ⟨hfits tid htid.le, ?_⟩⟩
    split
    · exact absurd rfl hquery
    · exact absurd rfl hreply
    · have hm : parseMessage dg.buf (setTid tid none) (setTidLen 16 none) =
          some (m0.withTid tid 16) := by
        rw [parseMessage_eq_bind, parseTid_of_not_marker hmarker, Option.bind_some, hm0]
        rfl
      have htake : tid.take 16 = tid := List.take_of_length_le htid.le
      have hw := hw1 tid 16
      rw [htake] at hw
      dsimp only
      rw [hm]
      exact hw

theorem reply_nil (w : World) : w.reply [] = w := by
  unfold reply emit
  rw [List.map_nil, List.append_nil]

/-- A message of the DHT whose transaction id is read from the datagram. -/
theorem settled_parseMessage (hv : w.net.VersionFits) (hmarker : str "1:t" <:+: dg.buf)
    (tidOf : Bytes → Bytes) (tidLen : ℕ) :
    Settled w dg fun tid => match parseMessage dg.buf (tidOf tid) tidLen with
      | none => w
      | some m => w.handle m dg.frm dg.fromlen lib.sha1 := by
  rcases parseTid_of_marker tidLen hmarker with hnone | ⟨t, ht, hsome⟩
  · refine settled_const w rfl fun tid _ => ?_
    rw [parseMessage_eq_bind, hnone]
    rfl
  · have hm (tid : Bytes) : parseMessage dg.buf (tidOf tid) tidLen =
        (parseMessage dg.buf [] 0).map fun m =>
          m.withTid (memcpy (tidOf tid) t t.length) t.length := by
      rw [parseMessage_eq_bind, hsome]
      rfl
    simp only [hm]
    cases parseMessage dg.buf [] 0 with
    | none => exact settled_const _ rfl fun _ _ => rfl
    | some m =>
      dsimp only [Option.map_some]
      by_cases hanswers : w.answersQuery m
      · obtain ⟨w1, enc, henc, -, hreplies, hw1⟩ := handle_answeredBy dg.frm
          dg.fromlen lib.sha1 hv hanswers
        refine settled_reply hreplies henc ht fun tid _ => (hw1 _ _).trans ?_
        rw [memcpy_take]
      · refine settled_handle hanswers fun hlen tid tid' => ?_
        rw [← hlen, memcpy_take, memcpy_take]

/-- A message of the DHT without a transaction id, if it is not answered. -/
theorem settled_parseMessage_of_not_marker (hmarker : ¬ str "1:t" <:+: dg.buf)
    (hanswers : ∀ m, parseMessage dg.buf zeroTid 16 = some m → ¬ w.answersQuery m) :
    Settled w dg fun tid => match parseMessage dg.buf tid 16 with
      | none => w
      | some m => w.handle m dg.frm dg.fromlen lib.sha1 := by
  have hm (tid : Bytes) : parseMessage dg.buf tid 16 =
      (parseMessage dg.buf [] 0).map fun m => m.withTid tid 16 := by
    rw [parseMessage_eq_bind, parseTid_of_not_marker hmarker, Option.bind_some]
  simp only [hm]
  cases hm0 : parseMessage dg.buf [] 0 with
  | none => exact settled_const _ rfl fun _ _ => rfl
  | some m =>
    have hnot : ¬ w.answersQuery (m.withTid zeroTid 16) := hanswers _ (by rw [hm, hm0]; rfl)
    have hnot0 : ¬ w.answersQuery m := hnot
    exact settled_handle hnot0 fun hlen => absurd hlen (by decide)

/-- Any other datagram. -/
theorem settled_receiveFrom (hv : w.net.VersionFits)
    (h : ¬ (DtnQueryWithoutTid lib clayer w dg ∨ QueryWithoutTid lib w dg)) :
    Settled w dg fun tid => w.receiveFrom lib clayer tid dg := by
  obtain ⟨message, result, written, hfrom, hwrites⟩ :=
    writesTid_parseDtnMessage lib.inetNtop dg.frm dg.buf 16
  have hparse (tid : Bytes) : parseDtnMessage lib.inetNtop dg.frm dg.buf tid 16 =
      ⟨message, setTid tid written, setTidLen 16 written, result⟩ := hwrites tid
  obtain ⟨hdtn, hother⟩ := not_or.mp h
  unfold DtnQueryWithoutTid at hdtn
  unfold QueryWithoutTid at hother
  rw [hparse] at hdtn hother
  dsimp only at hdtn hother
  unfold receiveFrom
  simp only [hparse]
  split
  · -- a query for our DTN EID
    by_cases hanswers : w.answersDtnQuery result.eid = true
    · simp only [if_pos hanswers]
      have henc : WritesAnswer w.net fun tid =>
          sendDtninfo tid w.eids.myEid clayer w.eids.neighbours w.eids.groups := .dtninfo _ _ _ _
      cases written with
      | some t =>
        have htake (tid : Bytes) : (setTid tid (some t)).take (setTidLen 16 (some t)) = t :=
          memcpy_take tid t
        exact settled_reply rfl henc (hfrom t rfl).1 fun tid _ => by rw [htake]
      | none =>
        have hmessage : (parseDtnMessage lib.inetNtop dg.frm dg.buf zeroTid 16).message =
            some .dtnQuery := by rw [hparse]
        have hmarker := (tidLen_dtnQuery (by decide) hmessage).mp (by rw [hparse]; rfl)
        -- there is no transaction id, and so the answer does not fit
        refine settled_const _ rfl fun tid htid => ?_
        have htake : (setTid tid none).take (setTidLen 16 none) = tid :=
          List.take_of_length_le htid.le
        have hnone :
            sendDtninfo tid w.eids.myEid clayer w.eids.neighbours w.eids.groups = none := by
          rw [← Option.not_isSome_iff_eq_none]
          intro hsome
          refine hdtn ⟨rfl, hanswers, hmarker, ?_⟩
          rw [← hsome]
          exact henc.isSome_eq htid.symm
        rw [htake, hnone]
        exact reply_nil w
    · simp only [if_neg hanswers]
      exact settled_const _ rfl fun _ _ => rfl
  · -- a reply to our query for a DTN EID
    refine settled_const _ ?_ fun _ _ => rfl
    split_ifs
    · exact (calm_lookupResult w result).replies
    · rfl
  · rename_i hquery hreply
    by_cases hmarker : str "1:t" <:+: dg.buf
    · exact settled_parseMessage hv hmarker (fun tid => setTid tid written) _
    · obtain rfl : written = none := by
        cases written with
        | none => rfl
        | some t => exact absurd (hfrom t rfl).2.2 hmarker
      refine settled_parseMessage_of_not_marker hmarker fun m hm hanswers => ?_
      exact hother ⟨fun heq => hquery heq, fun heq => hreply heq, hmarker, m, hm, hanswers⟩

/-- A datagram that is read, but not answered with the contents of the array. -/
theorem settled_of_not_echoesStack (hv : w.net.VersionFits) (hi : w.ignores dg = false)
    (ht : dg.terminated = true) (h : ¬ EchoesStack lib clayer w dg) :
    Settled w dg fun tid => w.receiveFrom lib clayer tid dg := by
  by_cases hq : DtnQueryWithoutTid lib clayer w dg ∨ QueryWithoutTid lib w dg
  · obtain ⟨w1, enc, -, hreplies, hw1⟩ := echoing_receiveFrom hv hq
    have hneg : w.net.socket dg.frm < 0 := by
      by_contra hsocket
      exact h ⟨hi, ht, not_lt.mp hsocket, hq⟩
    refine settled_const w1 hreplies fun tid htid => (hw1 tid htid).2.trans ?_
    rw [dhtSendBuf_of_socket_neg hneg, reply_nil]
  · exact settled_receiveFrom hv hq

/-- An answer with the contents of the array depends on them. -/
theorem replies_ne_of_echoing {f : Bytes → World} (h : Echoing w dg f)
    (hi : w.ignores dg = false) (hs : 0 ≤ w.net.socket dg.frm) (tid tid' : Bytes)
    (htid : tid.length = 16) (htid' : tid'.length = 16) (hne : tid ≠ tid') :
    (f tid).replies ≠ (f tid').replies := by
  obtain ⟨w1, enc, henc, -, hw1⟩ := h
  have hb : w.net.nodeBlacklisted dg.frm dg.fromlen = false := (Bool.or_eq_false_iff.mp hi).2
  obtain ⟨hfits, hf⟩ := hw1 tid htid
  obtain ⟨hfits', hf'⟩ := hw1 tid' htid'
  obtain ⟨out, hout⟩ := Option.isSome_iff_exists.mp hfits
  obtain ⟨out', hout'⟩ := Option.isSome_iff_exists.mp hfits'
  rw [hf, hf', hout, hout', dhtSendBuf_of_socket hb hs, dhtSendBuf_of_socket hb hs, replies_reply,
    replies_reply]
  intro heq
  have hpackets := List.append_cancel_left heq
  have hpayload : out = out' := congrArg Packet.payload (List.cons.inj hpackets).1
  exact hne (henc.tid_eq (htid.trans htid'.symm) hout (hpayload ▸ hout'))

/-- An array of sixteen bytes that are not zero. -/
def oneTid : CharArray 16 := ⟨List.replicate 16 1, List.length_replicate⟩

/-- **What `dht_periodic` does with a datagram does not depend on what stands in its arrays, and what
it answers carries a transaction id from the datagram, if and only if it does not answer a query
without a transaction id.** -/
theorem independent_iff (lib : Platform) (clayer : List ConvergenceLayer) (w : World)
    (dg : Datagram) (hv : w.net.VersionFits) :
    Independent lib clayer w dg ↔ ¬ EchoesStack lib clayer w.gettimeofday dg := by
  have hnow : w.gettimeofday.net.VersionFits := hv
  have hdue (w : World) : w.doDue.replies = w.replies := (quiet_doDue w).replies
  constructor
  · rintro ⟨hsame, -⟩ ⟨hi, ht, hs, hq⟩
    have hecho := echoing_receiveFrom hnow hq
    have hne := replies_ne_of_echoing hecho hi hs Bytewise.zeroLocals.tid.1 oneTid.1
      List.length_replicate List.length_replicate (by decide)
    have heq := hsame Bytewise.zeroLocals { Bytewise.zeroLocals with tid := oneTid }
    rw [dhtPeriodicWith_eq, dhtPeriodicWith_eq] at heq
    simp only [hi, ht, Bool.not_true, Bool.false_eq_true, if_false] at heq
    have hruns := congrArg (fun out : ℤ × World => out.2.replies) (Except.ok.inj heq)
    dsimp only at hruns
    rw [hdue, hdue] at hruns
    exact hne hruns
  · intro h
    by_cases hi : w.gettimeofday.ignores dg = true
    · refine ⟨fun v v' => ?_, fun v => ⟨1, w.gettimeofday.doDue, ?_, [], ?_, ?_⟩⟩
      · rw [dhtPeriodicWith_eq, dhtPeriodicWith_eq, if_pos hi, if_pos hi]
      · rw [dhtPeriodicWith_eq, if_pos hi]
      · rw [hdue, List.append_nil]
        rfl
      · exact fun p hp => absurd hp List.not_mem_nil
    by_cases ht : dg.terminated = true
    · obtain ⟨w1, pkts, hreplies, hcarries, hw1⟩ :=
        settled_of_not_echoesStack hnow (Bool.eq_false_iff.mpr hi) ht h
      have hrun (v : Bytewise.Locals) : w.dhtPeriodicWith lib clayer v dg = .ok (1, w1.doDue) := by
        have hterminated : ¬ (!dg.terminated) = true := by rw [ht]; decide
        have hreceive := hw1 v.tid.1 v.tid.2
        dsimp only at hreceive
        rw [dhtPeriodicWith_eq, if_neg hi, if_neg hterminated, hreceive]
      exact ⟨fun v v' => (hrun v).trans (hrun v').symm, fun v =>
        ⟨1, w1.doDue, hrun v, pkts, (hdue w1).trans hreplies, hcarries⟩⟩
    · have hrun (v : Bytewise.Locals) :
          w.dhtPeriodicWith lib clayer v dg = .ok (-1, w.gettimeofday) := by
        have hterminated : (!dg.terminated) = true := by rw [Bool.eq_false_iff.mpr ht]; rfl
        rw [dhtPeriodicWith_eq, if_neg hi, if_pos hterminated]
      exact ⟨fun v v' => (hrun v).trans (hrun v').symm, fun v =>
        ⟨-1, w.gettimeofday, hrun v, [], (List.append_nil _).symm,
          fun p hp => absurd hp List.not_mem_nil⟩⟩

/-- A node that has been started with an IPv4 socket. -/
def listeningNode : World := (World.initial (Env.still 1000)).dhtInit 5 (-1) (Id.ofBytes [1]) none

/-- SHA-1 and `inet_ntop` play no part in the answer to a ping. -/
def pingPlatform : Platform := ⟨fun b => b, fun _ _ => []⟩

/-- A ping from 9.9.9.9; `tid` is its transaction id with the marker. -/
def pingDatagram (tid : String) : Datagram where
  buf := str "d1:ad2:id20:aaaaaaaaaaaaaaaaaaaae1:q4:ping" ++ str tid ++ str "1:y1:qe"
  terminated := true
  frm := sockaddrIn [9, 9, 9, 9] [26, 225]
  fromlen := 16

/-- A ping with a transaction id. -/
theorem independent_iff_ping :
    Independent pingPlatform [] listeningNode (pingDatagram "1:t2:xy") := by
  refine (independent_iff pingPlatform [] listeningNode (pingDatagram "1:t2:xy") ?_).mpr ?_
  · exact Nat.zero_le 9
  · rintro ⟨-, -, -, ⟨hquery, -⟩ | ⟨-, -, hmarker, -⟩⟩
    · exact absurd hquery (by decide +kernel)
    · exact hmarker (by decide +kernel)

/-- A ping without a transaction id is answered with what stands on the stack. -/
theorem not_independent_ping : ¬ Independent pingPlatform [] listeningNode (pingDatagram "") := by
  rintro ⟨hsame, -⟩
  have heq := hsame Bytewise.zeroLocals { Bytewise.zeroLocals with tid := oneTid }
  rw [dhtPeriodicWith_eq, dhtPeriodicWith_eq] at heq
  have hruns := congrArg (fun out : ℤ × World => out.2.replies) (Except.ok.inj heq)
  exact absurd hruns (by decide +kernel)

end World

end DtnDht
