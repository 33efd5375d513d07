import DtnDht.Periodic

/-!
# What `dht_periodic` leaves unchanged

Almost all that `dht_periodic` does is to send packets and to update the routing table, the nodes
of the searches and the tables of ratings and blacklisted nodes. Such a step is `Stable`: the
clock, the rate limit, the secrets, the tables of lookups and announcements and the searches but
for their nodes stay as they are. It is `Calm` if moreover it answers no query.
-/

namespace DtnDht

/-- A search without its nodes. -/
structure SearchHead where
  tid : UInt16
  af : ℕ
  stepTime : ℤ
  id : Id
  port : UInt16
  done : Bool
  deriving DecidableEq

/-- Is this a search for the key? -/
def SearchHead.isFor (key : Id) (hd : SearchHead) : Bool := hd.id = key

/-- Is this a search for the key that is not done? -/
def SearchHead.isRunning (key : Id) (hd : SearchHead) : Bool := hd.isFor key && !hd.done

namespace Search

/-- What a search is about and how far it has come. -/
def head (sr : Search) : SearchHead := ⟨sr.tid, sr.af, sr.stepTime, sr.id, sr.port, sr.done⟩

end Search

namespace World

/-- The packets sent in answer to queries. -/
def replies (w : World) : List Packet :=
  w.outputs.filterMap fun
    | .reply p => some p
    | _ => none

/-- The searches without their nodes. -/
def heads (w : World) : List SearchHead := w.searches.map Search.head

/-- When searches are started and done, and lookups started. -/
def marks (w : World) : List Output :=
  w.outputs.filter fun
    | .operationDone _ | .searchStart _ | .lookupStart _ => true
    | _ => false

/-- The searches started. -/
def starts (w : World) : List SearchStart :=
  w.marks.filterMap fun
    | .searchStart start => some start
    | _ => none

/-- A step that leaves unchanged what a packet or a timer does not decide. -/
structure Stable (w w' : World) : Prop where
  now : w'.now = w.now
  clock : w'.env.clock = w.env.clock
  secrets : w'.secrets = w.secrets
  eids : w'.eids = w.eids
  announcetable : w'.dtn.announcetable = w.dtn.announcetable
  lookuptable : w'.dtn.lookuptable = w.dtn.lookuptable
  heads : w'.heads = w.heads
  marks : w'.marks = w.marks
  numsearches : w'.numsearches = w.numsearches
  searchId : w'.searchId = w.searchId
  expireStuffTime : w'.expireStuffTime = w.expireStuffTime

/-- A stable step that answers no query. -/
structure Calm (w w' : World) : Prop extends Stable w w' where
  bucket : w'.bucket = w.bucket
  replies : w'.replies = w.replies

variable {w w' w'' : World}

theorem Stable.refl (w : World) : Stable w w :=
  ⟨rfl, rfl, rfl, rfl, rfl, rfl, rfl, rfl, rfl, rfl, rfl⟩

theorem Stable.trans (h : Stable w w') (h' : Stable w' w'') : Stable w w'' where
  now := h'.now.trans h.now
  clock := h'.clock.trans h.clock
  secrets := h'.secrets.trans h.secrets
  eids := h'.eids.trans h.eids
  announcetable := h'.announcetable.trans h.announcetable
  lookuptable := h'.lookuptable.trans h.lookuptable
  heads := h'.heads.trans h.heads
  marks := h'.marks.trans h.marks
  numsearches := h'.numsearches.trans h.numsearches
  searchId := h'.searchId.trans h.searchId
  expireStuffTime := h'.expireStuffTime.trans h.expireStuffTime

theorem Calm.refl (w : World) : Calm w w := ⟨Stable.refl w, rfl, rfl⟩

theorem Calm.trans (h : Calm w w') (h' : Calm w' w'') : Calm w w'' :=
  ⟨h.toStable.trans h'.toStable, h'.bucket.trans h.bucket, h'.replies.trans h.replies⟩

/-- A loop of calm steps is calm. -/
theorem calm_foldl {ι : Type*} {f : World → ι → World} (hf : ∀ w i, Calm w (f w i)) (w : World)
    (is : List ι) : Calm w (is.foldl f w) := by
  induction is generalizing w with
  | nil => exact Calm.refl w
  | cons i is ih => exact (hf w i).trans (ih (f w i))

theorem replies_request (w : World) (pkts : List Packet) :
    (w.request pkts).replies = w.replies := by
  unfold request emit replies
  rw [List.filterMap_append, List.filterMap_map]
  simp

theorem replies_reply (w : World) (pkts : List Packet) :
    (w.reply pkts).replies = w.replies ++ pkts := by
  unfold reply emit replies
  rw [List.filterMap_append, List.filterMap_map]
  exact congrArg (w.replies ++ ·) (List.filterMap_some)

theorem marks_request (w : World) (pkts : List Packet) : (w.request pkts).marks = w.marks := by
  unfold request emit marks
  rw [List.filter_append, List.filter_map]
  simp

theorem marks_reply (w : World) (pkts : List Packet) : (w.reply pkts).marks = w.marks := by
  unfold reply emit marks
  rw [List.filter_append, List.filter_map]
  simp

theorem calm_request (w : World) (pkts : List Packet) : Calm w (w.request pkts) :=
  ⟨⟨rfl, rfl, rfl, rfl, rfl, rfl, rfl, marks_request w pkts, rfl, rfl, rfl⟩, rfl,
    replies_request w pkts⟩

theorem stable_reply (w : World) (pkts : List Packet) : Stable w (w.reply pkts) :=
  ⟨rfl, rfl, rfl, rfl, rfl, rfl, rfl, marks_reply w pkts, rfl, rfl, rfl⟩

/-! ## The routing table -/

theorem calm_withRouting (w : World) (out : Routing × List Packet) :
    Calm w (w.withRouting out) :=
  have h : Calm w { w with routing := out.1 } :=
    ⟨⟨rfl, rfl, rfl, rfl, rfl, rfl, rfl, rfl, rfl, rfl, rfl⟩, rfl, rfl⟩
  h.trans (calm_request _ _)

theorem calm_newNode (w : World) (id : Id) (sa : Sockaddr) (salen confirm : ℕ) :
    Calm w (w.newNode id sa salen confirm) :=
  calm_withRouting w _

/-- Searches whose nodes alone are changed. -/
theorem calm_searches {w : World} {searches : List Search}
    (h : searches.map Search.head = w.searches.map Search.head) :
    Calm w { w with searches := searches } :=
  ⟨⟨rfl, rfl, rfl, rfl, rfl, rfl, h, rfl, rfl, rfl, rfl⟩, rfl, rfl⟩

theorem calm_blacklistNode (w : World) (id : Id) (sa : Sockaddr) (salen : ℕ) :
    Calm w (w.blacklistNode id sa salen) := by
  have h := calm_withRouting w (w.routing.discardNode w.net w.now id sa.family)
  refine h.trans ⟨⟨rfl, rfl, rfl, rfl, rfl, rfl, ?_, rfl, rfl, rfl, rfl⟩, rfl, rfl⟩
  exact (List.map_map).trans (List.map_congr_left fun _ _ => rfl)

/-! ## Searches -/

theorem calm_modifySearch (w : World) (i : ℕ) {f : Search → Search}
    (hf : ∀ sr, (f sr).head = sr.head) : Calm w (w.modifySearch i f) :=
  calm_searches (List.map_modify_of_eq fun sr _ => hf sr)

theorem head_insertSearchNode (now : ℤ) (id : Id) (sa : Sockaddr) (salen : ℕ) (replied : Bool)
    (token : Option Bytes) (sr : Search) :
    (sr.insertSearchNode now id sa salen replied token).head = sr.head := by
  unfold Search.insertSearchNode
  split_ifs <;> rfl

theorem head_sendGetPeers (net : Net) (now : ℤ) (r : Routing) (sr : Search) (j : ℕ) :
    (sr.sendGetPeers net now r j).1.head = sr.head := by
  unfold Search.sendGetPeers
  cases sr.nodes[j]? with
  | none => rfl
  | some n =>
    dsimp only
    split_ifs <;> rfl

theorem head_sendGetPeersNext (net : Net) (now : ℤ) (r : Routing) (sr : Search) :
    (sr.sendGetPeersNext net now r).1.head = sr.head := by
  unfold Search.sendGetPeersNext
  cases sr.pickNode now with
  | none => rfl
  | some j => exact head_sendGetPeers net now r sr j

theorem calm_searchSendGetPeers (w : World) (i : ℕ) : Calm w (w.searchSendGetPeers i) := by
  unfold searchSendGetPeers
  cases hi : w.searches[i]? with
  | none => exact Calm.refl w
  | some sr =>
    have hh := List.map_set_of_eq hi (head_sendGetPeersNext w.net w.now w.routing sr)
    have h : Calm w { w with
        searches := w.searches.set i (sr.sendGetPeersNext w.net w.now w.routing).1
        routing := (sr.sendGetPeersNext w.net w.now w.routing).2.1 } :=
      ⟨⟨rfl, rfl, rfl, rfl, rfl, rfl, hh, rfl, rfl, rfl, rfl⟩, rfl, rfl⟩
    exact h.trans (calm_request _ _)

/-! ## Values -/

theorem calm_dhtPingDtnNode (w : World) (sa : Sockaddr) (salen : ℕ) :
    Calm w (w.dhtPingDtnNode sa salen) :=
  calm_request w _

/-- Values change neither table. -/
theorem tables_callback (sha1 : Bytes → Bytes) (mem : ℕ → Sockaddr) (d : Dtn) {event : DhtEvent}
    (hev : event = .values ∨ event = .values6) (infoHash : Id) (data : Bytes) (frm : Sockaddr)
    (fromlen : ℕ) :
    (d.callback sha1 mem event infoHash data frm fromlen).1.announcetable = d.announcetable ∧
      (d.callback sha1 mem event infoHash data frm fromlen).1.lookuptable = d.lookuptable := by
  have h (size type : ℕ) :
      (d.valuesFound sha1 mem size type infoHash data frm fromlen).1.announcetable =
          d.announcetable ∧
        (d.valuesFound sha1 mem size type infoHash data frm fromlen).1.lookuptable =
          d.lookuptable := by
    unfold Dtn.valuesFound
    split_ifs <;> exact ⟨rfl, rfl⟩
  rcases hev with rfl | rfl
  · exact h 6 afInet
  · exact h 18 afInet6

theorem calm_valuesFound (sha1 : Bytes → Bytes) (w : World) {event : DhtEvent}
    (hev : event = .values ∨ event = .values6) (infoHash : Id) (data : Bytes) (frm : Sockaddr)
    (fromlen : ℕ) : Calm w (w.valuesFound sha1 event infoHash data frm fromlen) := by
  obtain ⟨ha, hl⟩ := tables_callback sha1 (fun i => (w.env.memory 0 i).1) w.dtn
    hev infoHash data frm fromlen
  unfold valuesFound
  dsimp only [memory]
  refine Calm.trans ?_ (calm_foldl (fun w ping => ?_) _ _)
  · exact ⟨⟨rfl, rfl, rfl, rfl, ha, hl, rfl, rfl, rfl, rfl, rfl⟩, rfl, rfl⟩
  · apply calm_dhtPingDtnNode

/-! ## Messages -/

section

variable (m : Message) (frm : Sockaddr) (fromlen : ℕ) (sha1 : Bytes → Bytes)

theorem calm_learnNode (w : World) (sr : Option ℕ) (id : Id) (sa : Sockaddr) (salen : ℕ) :
    Calm w (w.learnNode sr id sa salen) := by
  unfold learnNode
  split_ifs
  · exact Calm.refl w
  · refine (calm_newNode w id sa salen 0).trans ?_
    cases sr with
    | none => exact Calm.refl _
    | some i => exact calm_modifySearch _ i fun sr => head_insertSearchNode _ _ _ _ _ _ sr

theorem calm_learnNodes (w : World) (sr : Option ℕ) : Calm w (w.learnNodes m sr) := by
  unfold learnNodes
  dsimp only
  refine (calm_foldl (fun w i => ?_) w _).trans (calm_foldl (fun w i => ?_) _ _)
  · apply calm_learnNode
  · apply calm_learnNode

theorem calm_searchReply (w : World) (i : ℕ) : Calm w (w.searchReply m frm fromlen sha1 i) := by
  unfold searchReply
  refine (calm_modifySearch w i fun sr =>
    head_insertSearchNode w.now m.id frm fromlen true (some m.token) sr).trans ?_
  dsimp only
  split
  · exact Calm.refl _
  · rename_i sr _
    have h (w : World) : Calm w (if m.values ≠ [] then
        w.valuesFound sha1 .values sr.id m.values frm fromlen else w) := by
      split_ifs
      · exact calm_valuesFound sha1 w (Or.inl rfl) _ _ _ _
      · exact Calm.refl w
    have h6 (w : World) : Calm w (if m.values6 ≠ [] then
        w.valuesFound sha1 .values6 sr.id m.values6 frm fromlen else w) := by
      split_ifs
      · exact calm_valuesFound sha1 w (Or.inr rfl) _ _ _ _
      · exact Calm.refl w
    exact (h _).trans (h6 _)

theorem calm_option_elim {w : World} {sr : Option ℕ} {f : ℕ → World} (hf : ∀ i, Calm w (f i)) :
    Calm w (sr.elim w f) := by
  cases sr with
  | none => exact Calm.refl w
  | some i => exact hf i

theorem calm_nodesReply (w : World) : Calm w (w.nodesReply m frm fromlen sha1) := by
  unfold nodesReply
  dsimp only
  refine Calm.trans ?_ (calm_option_elim fun i => calm_searchReply m frm fromlen sha1 _ i)
  generalize (if tidMatch m.tid (CString.str "gp") = true then
    findSearch (tidSeqno m.tid) frm.family w.searches else none) = sr
  split_ifs
  · exact calm_blacklistNode w m.id frm fromlen
  · exact calm_newNode w m.id frm fromlen 1
  · have h := (calm_newNode w m.id frm fromlen 2).trans (calm_learnNodes m _ sr)
    exact h.trans (calm_option_elim fun i => calm_searchSendGetPeers _ i)

theorem calm_announceReply (w : World) : Calm w (w.announceReply m frm fromlen) := by
  unfold announceReply
  cases findSearch (tidSeqno m.tid) frm.family w.searches with
  | none => exact calm_newNode w m.id frm fromlen 1
  | some i =>
    have h := calm_newNode w m.id frm fromlen 2
    have hack := calm_modifySearch (w.newNode m.id frm fromlen 2) i
      (f := Search.acknowledge (w.newNode m.id frm fromlen 2).now m.id) fun sr => rfl
    exact (h.trans hack).trans (calm_searchSendGetPeers _ i)

theorem calm_replyMessage (w : World) : Calm w (w.replyMessage m frm fromlen sha1) := by
  unfold replyMessage
  split_ifs
  · exact calm_blacklistNode w m.id frm fromlen
  · exact calm_newNode w m.id frm fromlen 2
  · exact calm_nodesReply m frm fromlen sha1 w
  · exact calm_announceReply m frm fromlen w
  · exact Calm.refl w

/-! ## Queries -/

/-- A step that sends at most one packet in answer to a query. -/
structure Answers (w w' : World) : Prop extends Stable w w' where
  bucket : w'.bucket = w.bucket
  replies : w'.replies.length ≤ w.replies.length + 1

theorem Calm.answers {w w' : World} (h : Calm w w') : Answers w w' :=
  ⟨h.toStable, h.bucket, by rw [h.replies]; exact Nat.le_succ _⟩

theorem Calm.reply {w w' : World} (h : Calm w w') {pkts : List Packet} (hp : pkts.length ≤ 1) :
    Answers w (w'.reply pkts) := by
  refine ⟨h.toStable.trans (stable_reply w' pkts), h.bucket, ?_⟩
  rw [replies_reply, h.replies, List.length_append]
  omega

theorem length_dhtSendBuf_le (net : Net) (buf : Option Bytes) (flags : ℕ) (sa : Sockaddr)
    (salen : ℕ) : (dhtSendBuf net buf flags sa salen).length ≤ 1 := by
  cases buf with
  | none => exact Nat.zero_le 1
  | some buf =>
    unfold dhtSendBuf dhtSend
    dsimp only
    split_ifs <;> simp

theorem answers_replyClosestNodes {w w' : World} (h : Calm w w') (id : Id) (af : ℕ)
    (st : Option Storage) (token : Bytes) :
    Answers w (w'.replyClosestNodes m frm fromlen id af st token) := by
  unfold replyClosestNodes
  have hr (rs : Random) : Calm w { w' with env := { w'.env with random := rs } } :=
    h.trans ⟨⟨rfl, rfl, rfl, rfl, rfl, rfl, rfl, rfl, rfl, rfl, rfl⟩, rfl, rfl⟩
  exact (hr _).reply (length_dhtSendBuf_le _ _ _ _ _)

theorem answers_replyError {w w' : World} (h : Calm w w') (message : String) :
    Answers w (w'.replyError m frm fromlen message) :=
  h.reply (length_dhtSendBuf_le _ _ _ _ _)

theorem answers_getPeers (w : World) : Answers w (w.getPeers m frm fromlen sha1) := by
  have h := calm_newNode w m.id frm fromlen 1
  unfold getPeers
  dsimp only
  split_ifs
  · exact answers_replyError m frm fromlen h _
  · split
    · split_ifs
      · exact answers_replyClosestNodes m frm fromlen h _ _ _ _
      · exact answers_replyClosestNodes m frm fromlen h _ _ _ _
    · exact answers_replyClosestNodes m frm fromlen h _ _ _ _

theorem answers_announcePeer (w : World) : Answers w (w.announcePeer m frm fromlen sha1) := by
  have h := calm_newNode w m.id frm fromlen 1
  unfold announcePeer
  dsimp only
  split_ifs
  · exact answers_replyError m frm fromlen h _
  · exact answers_replyError m frm fromlen h _
  · exact answers_replyError m frm fromlen h _
  · have hst (st : List Storage) : Calm w { w.newNode m.id frm fromlen 1 with storage := st } :=
      h.trans ⟨⟨rfl, rfl, rfl, rfl, rfl, rfl, rfl, rfl, rfl, rfl, rfl⟩, rfl, rfl⟩
    exact (hst _).reply (length_dhtSendBuf_le _ _ _ _ _)

/-- A query is answered by at most one packet. -/
theorem answers_query (w : World) : Answers w (w.query m frm fromlen sha1) := by
  have h := calm_newNode w m.id frm fromlen 1
  unfold query
  cases m.kind with
  | ping => exact h.reply (length_dhtSendBuf_le _ _ _ _ _)
  | findNode =>
    dsimp only [findNode]
    exact answers_replyClosestNodes m frm fromlen h _ _ _ _
  | getPeers => exact answers_getPeers m frm fromlen sha1 w
  | announcePeer => exact answers_announcePeer m frm fromlen sha1 w
  | error | reply | dtnQuery | dtnReply => exact (Calm.refl w).answers

/-- A token that is taken is all that changes. -/
theorem stable_takeToken (w : World) : Stable w w.takeToken.2 :=
  ⟨rfl, rfl, rfl, rfl, rfl, rfl, rfl, rfl, rfl, rfl, rfl⟩

theorem stable_handle (w : World) : Stable w (w.handle m frm fromlen sha1) := by
  unfold handle
  split_ifs
  · exact Stable.refl w
  · exact Stable.refl w
  · exact (calm_replyMessage m frm fromlen sha1 w).toStable
  · have ht := stable_takeToken w
    cases htake : w.takeToken with
    | mk ok w1 =>
      rw [htake] at ht
      cases ok with
      | false => exact ht
      | true => exact ht.trans (answers_query m frm fromlen sha1 w1).toStable

end

theorem calm_stackTid (w : World) : Calm w w.stackTid.2 :=
  ⟨⟨rfl, rfl, rfl, rfl, rfl, rfl, rfl, rfl, rfl, rfl, rfl⟩, rfl, rfl⟩

theorem calm_lookupResult (w : World) (result : LookupResult) :
    Calm w (w.emit [.lookupResult result]) := by
  refine ⟨⟨rfl, rfl, rfl, rfl, rfl, rfl, rfl, ?_, rfl, rfl, rfl⟩, rfl, ?_⟩
  · unfold emit marks
    rw [List.filter_append]
    exact List.append_nil _
  · unfold emit replies
    rw [List.filterMap_append]
    exact List.append_nil _

/-- A datagram changes neither the tables nor the searches but for their nodes. -/
theorem stable_receive (lib : Platform) (clayer : List ConvergenceLayer) (w : World)
    (dg : Datagram) : Stable w (w.receive lib clayer dg) := by
  have hs := (calm_stackTid w).toStable
  unfold receive
  dsimp only
  split
  · split_ifs
    · exact hs.trans (stable_reply _ _)
    · exact hs
  · split_ifs
    · exact hs.trans (calm_lookupResult _ _).toStable
    · exact hs
  · split
    · exact hs
    · exact hs.trans (stable_handle _ _ _ _ _)

/-! ## What is due -/

/-- A step that leaves the clock, the rate limit, the EIDs and the announcements alone and answers
no query. -/
structure Kept (w w' : World) : Prop where
  now : w'.now = w.now
  bucket : w'.bucket = w.bucket
  clock : w'.env.clock = w.env.clock
  eids : w'.eids = w.eids
  announcetable : w'.dtn.announcetable = w.dtn.announcetable
  replies : w'.replies = w.replies

/-- A step of the rest of `dht_periodic`: moreover, it starts no search. -/
structure Quiet (w w' : World) : Prop extends Kept w w' where
  starts : w'.starts = w.starts

theorem Kept.refl (w : World) : Kept w w := ⟨rfl, rfl, rfl, rfl, rfl, rfl⟩

theorem Kept.trans {w w' w'' : World} (h : Kept w w') (h' : Kept w' w'') : Kept w w'' where
  now := h'.now.trans h.now
  bucket := h'.bucket.trans h.bucket
  clock := h'.clock.trans h.clock
  eids := h'.eids.trans h.eids
  announcetable := h'.announcetable.trans h.announcetable
  replies := h'.replies.trans h.replies

theorem Stable.starts {w w' : World} (h : Stable w w') : w'.starts = w.starts := by
  unfold World.starts
  rw [h.marks]

theorem Calm.quiet {w w' : World} (h : Calm w w') : Quiet w w' :=
  ⟨⟨h.now, h.bucket, h.clock, h.eids, h.announcetable, h.replies⟩, h.starts⟩

theorem Quiet.trans {w w' w'' : World} (h : Quiet w w') (h' : Quiet w' w'') : Quiet w w'' :=
  ⟨h.toKept.trans h'.toKept, h'.starts.trans h.starts⟩

theorem Quiet.refl (w : World) : Quiet w w := (Calm.refl w).quiet

theorem quiet_foldl {ι : Type*} {f : World → ι → World} (hf : ∀ w i, Quiet w (f w i)) (w : World)
    (is : List ι) : Quiet w (is.foldl f w) := by
  induction is generalizing w with
  | nil => exact Quiet.refl w
  | cons i is ih => exact (hf w i).trans (ih (f w i))

theorem quiet_rotateSecrets (w : World) : Quiet w w.rotateSecrets :=
  ⟨⟨rfl, rfl, rfl, rfl, rfl, rfl⟩, rfl⟩

theorem quiet_expireBuckets (w : World) : Quiet w w.expireBuckets :=
  (calm_withRouting w (w.routing.expireBuckets w.net)).quiet.trans
    ⟨⟨rfl, rfl, rfl, rfl, rfl, rfl⟩, rfl⟩

theorem quiet_expire (w : World) : Quiet w w.expire :=
  (quiet_expireBuckets w).trans ⟨⟨rfl, rfl, rfl, rfl, rfl, rfl⟩, rfl⟩

theorem quiet_withSearch (w : World) (i : ℕ) (out : Search × Routing × List Packet) :
    Quiet w (w.withSearch i out) :=
  have h : Quiet w { w with searches := w.searches.set i out.1, routing := out.2.1 } :=
    ⟨⟨rfl, rfl, rfl, rfl, rfl, rfl⟩, rfl⟩
  h.trans (calm_request _ _).quiet

theorem quiet_searchDone (w : World) (infoHash : Id) : Quiet w (w.searchDone infoHash) := by
  refine ⟨⟨rfl, rfl, rfl, rfl, rfl, ?_⟩, ?_⟩
  · unfold searchDone emit replies
    rw [List.filterMap_append]
    exact List.append_nil _
  · unfold searchDone emit starts marks
    rw [List.filter_append, List.filterMap_append]
    exact List.append_nil _

theorem quiet_searchStep (w : World) (i : ℕ) : Quiet w (w.searchStep i) := by
  unfold searchStep
  cases w.searches[i]? with
  | none => exact Quiet.refl w
  | some sr =>
    dsimp only
    split_ifs
    · exact (quiet_withSearch w i _).trans (quiet_searchDone _ _)
    · exact quiet_withSearch w i _

theorem calm_foldl_snd {ι α : Type*} {f : α × World → ι → α × World}
    (hf : ∀ p i, Calm p.2 (f p i).2) (p : α × World) (is : List ι) :
    Calm p.2 (is.foldl f p).2 := by
  induction is generalizing p with
  | nil => exact Calm.refl p.2
  | cons i is ih => exact (hf p i).trans (ih (f p i))

/-- Choosing the time of the next steps only draws random numbers. -/
theorem calm_nextSearchTime (w : World) : Calm w w.nextSearchTime.2 := by
  unfold nextSearchTime
  refine calm_foldl_snd (fun p sr => ?_) (0, w) w.searches
  dsimp only
  split_ifs
  · exact Calm.refl p.2
  · exact ⟨⟨rfl, rfl, rfl, rfl, rfl, rfl, rfl, rfl, rfl, rfl, rfl⟩, rfl, rfl⟩
  · exact ⟨⟨rfl, rfl, rfl, rfl, rfl, rfl, rfl, rfl, rfl, rfl, rfl⟩, rfl, rfl⟩

theorem quiet_stepSearches (w : World) : Quiet w w.stepSearches := by
  have hstep (w : World) (i : ℕ) : Quiet w (w.stepIfDue i) := by
    unfold stepIfDue
    split_ifs
    · exact quiet_searchStep w i
    · exact Quiet.refl w
  have h := (quiet_foldl hstep w (List.range w.searches.length)).trans
    (calm_nextSearchTime _).quiet
  exact h.trans ⟨⟨rfl, rfl, rfl, rfl, rfl, rfl⟩, rfl⟩

theorem calm_maintain (w : World)
    (f : Net → Routing → ℕ → Random → Routing × List Packet × Bool × Random) (af : ℕ) :
    Calm w (w.maintain f af).2 := by
  unfold maintain
  have h (rs : Random) : Calm w { w with env := { w.env with random := rs } } :=
    ⟨⟨rfl, rfl, rfl, rfl, rfl, rfl, rfl, rfl, rfl, rfl, rfl⟩, rfl, rfl⟩
  exact (h _).trans (calm_withRouting _ _)

theorem calm_maintainBoth (w : World)
    (f : Net → ℤ → Routing → ℕ → Random → Routing × List Packet × Bool × Random)
    (due : World → ℕ → Bool) : Calm w (w.maintainBoth f due).2 := by
  have h (w : World) (af : ℕ) : Calm w
      (if due w af then w.maintain (f · w.now) af else (false, w)).2 := by
    split_ifs
    · exact calm_maintain w _ af
    · exact Calm.refl w
  exact (h w afInet).trans (h _ afInet6)

theorem calm_confirmNodes (w : World) : Calm w w.confirmNodes := by
  have hb := calm_maintainBoth w (fun net now r => r.bucketMaintenance net now) fun _ _ => true
  unfold confirmNodes
  dsimp only
  generalize w.maintainBoth (fun net now r => r.bucketMaintenance net now) (fun _ _ => true) =
    out at hb
  have hn : Calm w (if out.1 then (true, out.2) else
      out.2.maintainBoth (fun net now r => r.neighbourhoodMaintenance net now) hasGrown).2 := by
    split_ifs
    · exact hb
    · exact hb.trans (calm_maintainBoth out.2 _ hasGrown)
  exact hn.trans ⟨⟨rfl, rfl, rfl, rfl, rfl, rfl, rfl, rfl, rfl, rfl, rfl⟩, rfl, rfl⟩

theorem Quiet.ite {w w' : World} {p : Prop} [Decidable p] {f : World → World}
    (hf : ∀ w, Quiet w (f w)) (h : Quiet w w') : Quiet w (if p then f w' else w') := by
  split_ifs
  · exact h.trans (hf w')
  · exact h

/-- What is due leaves the clock and the rate limit alone and answers no query. -/
theorem quiet_doDue (w : World) : Quiet w w.doDue := by
  unfold doDue
  dsimp only
  refine Quiet.ite (fun w => (calm_confirmNodes w).quiet) ?_
  refine Quiet.ite quiet_stepSearches ?_
  refine Quiet.ite quiet_expire ?_
  exact Quiet.ite quiet_rotateSecrets (Quiet.refl w)

end World

end DtnDht
