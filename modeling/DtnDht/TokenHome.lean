import DtnDht.Api
import DtnDht.SearchIds
import DtnDht.Lib.Runs

/-!
# Where tokens go

A node that answers `get_peers` hands out a token, and `search_step` sends the token back to the
address that the search has for the node. That is the address the token came from as long as
`insert_search_node` writes no other address to a node that holds a token (`tokensHome`). It does
so when another node lists the node's id with an address of its own choice, when a node answers
from a new address with a token that is too long to be taken, and when a search is started again
and the node that moves up was passed over. `new_node` changes the address of a known node only on
first-hand information or after 15 minutes.
-/

namespace DtnDht

/-! ## One search -/

/-- A token is kept with the address it came from. -/
def SearchNode.Home (n : SearchNode) : Prop := n.token ≠ [] → n.issuer <+: n.ss

namespace Search

/-- The tokens of a search are kept with the addresses they came from. -/
def Home (sr : Search) : Prop := ∀ n ∈ sr.nodes, n.Home

/-- `insert_search_node` writes no other address to a node that holds a token. -/
def KeepsAddress (id : Id) (sa : Sockaddr) (salen : ℕ) (sr : Search) : Prop :=
  sa.family = sr.af → ∀ n ∈ sr.nodes, n.id = id → n.token ≠ [] → CString.memcpy n.ss sa salen = n.ss

/-- It writes no other address to a node of the bucket behind the pointer. -/
def BucketKeepsAddress (now : ℤ) (r : Routing) (i : ℕ) (sr : Search) : Prop :=
  ∀ b ∈ (r.table sr.af)[i]?,
    Runs.EachTurn (fun sr (n : Node) => sr.insertSearchNode now n.id n.ss n.sslen false none)
      (fun sr n => sr.KeepsAddress n.id n.ss n.sslen) sr b.nodes

/-- It writes no other address when `dht_search` inserts nodes from the routing table. -/
def ClosestKeepsAddress (now : ℤ) (r : Routing) (myid : Id) (i : ℕ) (sr : Search) : Prop :=
  let sr1 := sr.insertBucketAt now r i
  let sr2 := sr1.insertBucketAt now r (i + 1)
  let sr3 := (previousBucket i).elim sr2 fun p => sr2.insertBucketAt now r p
  let sr4 := if sr1.nodes.length < searchNodes then sr3 else sr1
  sr.BucketKeepsAddress now r i ∧
    (sr1.nodes.length < searchNodes → sr1.BucketKeepsAddress now r (i + 1) ∧
      ∀ p ∈ previousBucket i, sr2.BucketKeepsAddress now r p) ∧
    (sr4.nodes.length < searchNodes →
      ∀ j ∈ r.findBucket myid sr4.af, sr4.BucketKeepsAddress now r j)

end Search

section

variable {n n' : SearchNode} {sr sr' : Search} {id : Id} {sa : Sockaddr} {salen : ℕ} {now : ℤ}

/-- What a token and its address are. -/
def SearchNode.holding (n : SearchNode) : Bytes × Sockaddr × Sockaddr := (n.token, n.issuer, n.ss)

theorem SearchNode.Home.of_holding (h : n.Home) (heq : n'.holding = n.holding) : n'.Home := by
  obtain ⟨ht, hi, hs⟩ : n'.token = n.token ∧ n'.issuer = n.issuer ∧ n'.ss = n.ss := by
    simpa [SearchNode.holding] using heq
  unfold SearchNode.Home
  rw [ht, hi, hs]
  exact h

theorem Search.Home.of_holding (h : sr.Home)
    (heq : sr'.nodes.map SearchNode.holding = sr.nodes.map SearchNode.holding) : sr'.Home := by
  intro n' hn'
  have hin : n'.holding ∈ sr.nodes.map SearchNode.holding := heq ▸ List.mem_map_of_mem hn'
  obtain ⟨n, hn, hold⟩ := List.mem_map.mp hin
  exact (h n hn).of_holding hold.symm

/-- A node that gets a token that is not too long, or keeps its address if it has a token. -/
theorem SearchNode.Home.update (h : n.Home) {replied : Bool} {token : Option Bytes}
    (hkeep : (∀ t ∈ token, 40 ≤ t.length) → n.token ≠ [] → CString.memcpy n.ss sa salen = n.ss) :
    (n.update now sa salen replied token).Home := by
  have hss : (n.update now sa salen replied token).ss = CString.memcpy n.ss sa salen := by
    unfold SearchNode.update
    cases token with
    | none => cases replied <;> rfl
    | some t => dsimp only; split_ifs <;> rfl
  by_cases hlong : ∀ t ∈ token, 40 ≤ t.length
  · have hold : (n.update now sa salen replied token).token = n.token ∧
        (n.update now sa salen replied token).issuer = n.issuer := by
      unfold SearchNode.update
      cases token with
      | none => cases replied <;> exact ⟨rfl, rfl⟩
      | some t =>
        dsimp only
        rw [if_pos (hlong t rfl)]
        cases replied <;> exact ⟨rfl, rfl⟩
    intro ht
    rw [hold.1] at ht
    rw [hold.2, hss, hkeep hlong ht]
    exact h ht
  · -- the token is new, and so is the address
    push Not at hlong
    obtain ⟨t, ht, hlt⟩ := hlong
    obtain rfl : token = some t := ht
    have hissuer : (n.update now sa salen replied (some t)).issuer = sa.take salen := by
      unfold SearchNode.update
      dsimp only
      rw [if_neg (by omega)]
    intro _
    rw [hissuer, hss]
    exact List.prefix_append _ _

/-- `insert_search_node` with a token that is not too long, or without another address for a node
that holds one. -/
theorem Search.Home.insertSearchNode (h : sr.Home) {replied : Bool} {token : Option Bytes}
    (hkeep : (∀ t ∈ token, 40 ≤ t.length) → sr.KeepsAddress id sa salen) :
    (sr.insertSearchNode now id sa salen replied token).Home := by
  unfold Search.insertSearchNode
  split_ifs with hfam
  · exact h
  · intro n hn
    rcases mem_insertNodeAt (List.mem_of_mem_take hn) with hn | rfl | ⟨old, hold, hid, rfl⟩
    · exact h n hn
    · exact SearchNode.Home.update (fun ht => absurd rfl ht) fun _ ht => absurd rfl ht
    · exact (h old hold).update fun hlong => hkeep hlong (not_not.mp hfam) old hold hid

/-! ### Starting a search -/

theorem Search.Home.insertBucketAt (h : sr.Home) {r : Routing} {i : ℕ}
    (hkeep : sr.BucketKeepsAddress now r i) : (sr.insertBucketAt now r i).Home := by
  unfold Search.insertBucketAt
  cases hb : (r.table sr.af)[i]? with
  | none => exact h
  | some b =>
    exact (hkeep b hb).foldl (fun _ _ hk h => Search.Home.insertSearchNode h fun _ => hk) h

/-- An insertion behind a pointer that may be NULL. -/
theorem Search.Home.elim_insertBucketAt (h : sr.Home) {r : Routing} {p : Option ℕ}
    (hkeep : ∀ i ∈ p, sr.BucketKeepsAddress now r i) :
    (p.elim sr fun i => sr.insertBucketAt now r i).Home := by
  cases p with
  | none => exact h
  | some i => exact h.insertBucketAt (hkeep i rfl)

theorem Search.Home.insertClosest (h : sr.Home) {r : Routing} {myid : Id} {i : ℕ}
    (hkeep : sr.ClosestKeepsAddress now r myid i) : (sr.insertClosest now r myid i).Home := by
  obtain ⟨h1, h2, h4⟩ := hkeep
  unfold Search.insertClosest
  dsimp only at h1 h2 h4 ⊢
  have hsr1 := h.insertBucketAt h1
  generalize sr.insertBucketAt now r i = sr1 at hsr1 h2 h4 ⊢
  have hsr4 : (if sr1.nodes.length < searchNodes then
      (previousBucket i).elim (sr1.insertBucketAt now r (i + 1)) fun p =>
        (sr1.insertBucketAt now r (i + 1)).insertBucketAt now r p
      else sr1).Home := by
    split_ifs with hlen
    · exact (hsr1.insertBucketAt (h2 hlen).1).elim_insertBucketAt (h2 hlen).2
    · exact hsr1
  generalize (if sr1.nodes.length < searchNodes then
      (previousBucket i).elim (sr1.insertBucketAt now r (i + 1)) fun p =>
        (sr1.insertBucketAt now r (i + 1)).insertBucketAt now r p
      else sr1) = sr4 at hsr4 h4
  split_ifs with hlen
  · exact hsr4.elim_insertBucketAt (h4 hlen)
  · exact hsr4

/-- The nodes of an old search lose their tokens but for those that are passed over. -/
theorem home_resetNodes {nodes : List SearchNode} (h : ∀ n ∈ nodes, n.Home) :
    ∀ n ∈ resetNodes now nodes, n.Home := by
  fun_induction resetNodes now nodes with
  | case1 => exact h
  | case2 first hold => exact fun n hn => absurd hn List.not_mem_nil
  | case3 first hold second nodes ih =>
    rw [List.forall_mem_cons, List.forall_mem_cons] at h
    exact List.forall_mem_cons.mpr ⟨h.2.1, ih h.2.2⟩
  | case4 first nodes hold ih =>
    rw [List.forall_mem_cons] at h
    exact List.forall_mem_cons.mpr ⟨fun ht => absurd rfl ht, ih h.2⟩

/-! ### Steps -/

/-- Asking a node for peers. -/
theorem holding_sendGetPeers (net : Net) (now : ℤ) (r : Routing) (sr : Search) (j : ℕ) :
    (sr.sendGetPeers net now r j).1.nodes.map SearchNode.holding =
      sr.nodes.map SearchNode.holding := by
  unfold Search.sendGetPeers
  cases hj : sr.nodes[j]? with
  | none => rfl
  | some n =>
    dsimp only
    by_cases hask : Search.toAsk now n = true
    · rw [if_pos hask]
      exact List.map_set_of_eq hj rfl
    · rw [if_neg hask]

theorem holding_sendGetPeersNext (net : Net) (now : ℤ) (r : Routing) (sr : Search) :
    (sr.sendGetPeersNext net now r).1.nodes.map SearchNode.holding =
      sr.nodes.map SearchNode.holding := by
  unfold Search.sendGetPeersNext
  cases sr.pickNode now with
  | none => rfl
  | some j => exact holding_sendGetPeers net now r sr j

theorem holding_askNodes (net : Net) (now : ℤ) (r : Routing) (sr : Search) (asked : ℕ)
    (js : List ℕ) :
    (Search.askNodes net now r sr asked js).1.nodes.map SearchNode.holding =
      sr.nodes.map SearchNode.holding := by
  induction js generalizing r sr asked with
  | nil => rfl
  | cons j js ih =>
    have hj : (sr.sendGetPeers net now r j).1.nodes.map SearchNode.holding =
        sr.nodes.map SearchNode.holding := holding_sendGetPeers net now r sr j
    unfold Search.askNodes
    dsimp only
    split_ifs
    · exact hj
    · exact (ih _ _ _).trans hj

theorem holding_announceNodes (net : Net) (now : ℤ) (sr : Search) (j : ℕ) (nodes : List SearchNode)
    (r : Routing) : (Search.announceNodes net now sr j nodes r).1.map SearchNode.holding =
      nodes.map SearchNode.holding := by
  induction nodes generalizing j r with
  | nil => cases j <;> rfl
  | cons n nodes ih =>
    cases j with
    | zero => rfl
    | succ j =>
      have hacked : (if n.token = [] then { n with acked := true } else n).holding = n.holding := by
        split_ifs <;> rfl
      unfold Search.announceNodes
      dsimp only
      generalize (if n.token = [] then { n with acked := true } else n) = n' at hacked
      by_cases hpinged : 3 ≤ n.pinged
      · rw [if_pos hpinged, List.map_cons, List.map_cons, ih]
      · rw [if_neg hpinged]
        by_cases ha : n'.acked = true
        · rw [if_pos ha, List.map_cons, List.map_cons, ih, hacked]
        · rw [if_neg ha, List.map_cons, List.map_cons, ih, ← hacked]
          rfl

theorem holding_step (net : Net) (now : ℤ) (r : Routing) (sr : Search) :
    (sr.step net now r).1.nodes.map SearchNode.holding = sr.nodes.map SearchNode.holding := by
  unfold Search.step
  split_ifs
  · rfl
  · dsimp only
    split_ifs <;> exact holding_announceNodes net now sr 8 sr.nodes r
  · rfl
  · exact holding_askNodes net now r sr 0 _

/-! ### Packets -/

/-- What `search_step` may send: pings of cached nodes, questions for peers, and announcements, each
with the token of a node to the address that the token came from. -/
inductive Search.SendsHome (net : Net) (sr : Search) (p : Packet) : Prop where
  | ping (h : sendPing net (makeTid (CString.str "pn") 0) = some p.payload)
  | getPeers (h : DtnDht.sendGetPeers net (makeTid (CString.str "gp") sr.tid) sr.id (-1) =
      some p.payload)
  | announcePeer (n : SearchNode) (hn : n ∈ sr.nodes) (htoken : n.token ≠ [])
      (h : sendAnnouncePeer net (makeTid (CString.str "ap") sr.tid) sr.id sr.port n.token =
        some p.payload)
      (hdest : n.issuer <+: p.dest)

theorem mem_markPinged {net : Net} {r : Routing} {af : ℕ} {p : Packet}
    (h : p ∈ (r.markPinged net now id af).2) :
    sendPing net (makeTid (CString.str "pn") 0) = some p.payload := by
  have hcached {r : Routing} {af i : ℕ} (h : p ∈ (r.sendCachedPing net af i).2) :
      sendPing net (makeTid (CString.str "pn") 0) = some p.payload := by
    unfold Routing.sendCachedPing at h
    cases hb : (r.table af)[i]? with
    | none =>
      rw [hb] at h
      exact absurd h List.not_mem_nil
    | some b =>
      rw [hb] at h
      dsimp only at h
      split_ifs at h
      · exact absurd h List.not_mem_nil
      · exact (mem_dhtSendBuf h).1
  unfold Routing.markPinged at h
  split at h
  · exact absurd h List.not_mem_nil
  · unfold Routing.pinged at h
    dsimp only at h
    split at h
    · exact absurd h List.not_mem_nil
    · split_ifs at h
      · split at h
        · exact absurd h List.not_mem_nil
        · exact hcached h
      · exact absurd h List.not_mem_nil

theorem mem_sendGetPeers {net : Net} {r : Routing} {j : ℕ} {p : Packet}
    (h : p ∈ (sr.sendGetPeers net now r j).2.2.1) : sr.SendsHome net p := by
  unfold Search.sendGetPeers at h
  cases hj : sr.nodes[j]? with
  | none =>
    rw [hj] at h
    exact absurd h List.not_mem_nil
  | some n =>
    rw [hj] at h
    dsimp only at h
    by_cases hask : Search.toAsk now n = true
    · rw [if_pos hask] at h
      obtain h | h := List.mem_append.mp h
      · exact .getPeers (mem_dhtSendBuf h).1
      · exact .ping (mem_markPinged h)
    · rw [if_neg hask] at h
      exact absurd h List.not_mem_nil

theorem Search.SendsHome.of_head {net : Net} {p : Packet} (h : sr'.SendsHome net p)
    (hhead : sr'.head = sr.head)
    (hnodes : sr'.nodes.map SearchNode.holding = sr.nodes.map SearchNode.holding) :
    sr.SendsHome net p := by
  have htid : sr'.tid = sr.tid := congrArg SearchHead.tid hhead
  have hid : sr'.id = sr.id := congrArg SearchHead.id hhead
  have hport : sr'.port = sr.port := congrArg SearchHead.port hhead
  cases h with
  | ping h => exact .ping h
  | getPeers h => exact .getPeers (htid ▸ hid ▸ h)
  | announcePeer n' hn' htoken h hdest =>
    have hin : n'.holding ∈ sr.nodes.map SearchNode.holding := hnodes ▸ List.mem_map_of_mem hn'
    obtain ⟨n, hn, hold⟩ := List.mem_map.mp hin
    obtain ⟨ht, hi, -⟩ : n.token = n'.token ∧ n.issuer = n'.issuer ∧ n.ss = n'.ss := by
      simpa [SearchNode.holding] using hold
    rw [htid, hid, hport, ← ht] at h
    exact .announcePeer n hn (ht ▸ htoken) h (hi ▸ hdest)

theorem mem_askNodes {net : Net} {r : Routing} {asked : ℕ} {js : List ℕ} {p : Packet}
    (h : p ∈ (Search.askNodes net now r sr asked js).2.2) : sr.SendsHome net p := by
  induction js generalizing r sr asked with
  | nil => exact absurd h List.not_mem_nil
  | cons j js ih =>
    unfold Search.askNodes at h
    dsimp only at h
    split_ifs at h
    · exact mem_sendGetPeers h
    · obtain h | h := List.mem_append.mp h
      · exact mem_sendGetPeers h
      · exact (ih h).of_head (World.head_sendGetPeers net now r sr j)
          (holding_sendGetPeers net now r sr j)

theorem mem_announceNodes {net : Net} {j : ℕ} {nodes : List SearchNode} {r : Routing} {p : Packet}
    (hsub : ∀ n ∈ nodes, n ∈ sr.nodes) (hhome : sr.Home)
    (h : p ∈ (Search.announceNodes net now sr j nodes r).2.2.1) : sr.SendsHome net p := by
  induction nodes generalizing j r with
  | nil => cases j <;> exact absurd h List.not_mem_nil
  | cons n nodes ih =>
    obtain ⟨hn, hsub⟩ := List.forall_mem_cons.mp hsub
    cases j with
    | zero => exact absurd h List.not_mem_nil
    | succ j =>
      unfold Search.announceNodes at h
      dsimp only at h
      by_cases hpinged : 3 ≤ n.pinged
      · rw [if_pos hpinged] at h
        exact ih hsub h
      · rw [if_neg hpinged] at h
        by_cases ht : n.token = []
        · rw [if_pos ht, if_pos rfl] at h
          exact ih hsub h
        · rw [if_neg ht] at h
          by_cases ha : n.acked = true
          · rw [if_pos ha] at h
            exact ih hsub h
          · rw [if_neg ha] at h
            obtain h | h := List.mem_append.mp h
            · obtain h | h := List.mem_append.mp h
              · obtain ⟨hbuf, hdest⟩ := mem_dhtSendBuf h
                exact .announcePeer n hn ht hbuf (hdest ▸ hhome n hn ht)
              · exact .ping (mem_markPinged h)
            · exact ih hsub h

/-- All tokens that `search_step` sends go to the addresses they came from. -/
theorem Search.Home.mem_step {net : Net} {r : Routing} {p : Packet} (hhome : sr.Home)
    (h : p ∈ (sr.step net now r).2.2.1) : sr.SendsHome net p := by
  unfold Search.step at h
  split_ifs at h
  · exact absurd h List.not_mem_nil
  · dsimp only at h
    split_ifs at h
    · exact mem_announceNodes (fun _ hn => hn) hhome h
    · exact mem_announceNodes (fun _ hn => hn) hhome h
  · exact absurd h List.not_mem_nil
  · exact mem_askNodes h

end

namespace World

/-! ## All searches -/

/-- All tokens are kept with the addresses they came from. -/
def TokensHome (w : World) : Prop := ∀ sr ∈ w.searches, sr.Home

section

variable (m : Message) (frm : Sockaddr) (fromlen : ℕ)

/-- A node that a reply lists. -/
structure ListedNode where
  id : Id
  ss : Sockaddr
  sslen : ℕ

/-- The nodes that a reply lists. -/
def listed : List ListedNode :=
  ((List.range (m.nodes.length / 26)).map fun i =>
    let ni := slice m.nodes (26 * i) 26
    ⟨Id.ofBytes (ni.take 20), sockaddrIn (slice ni 20 4) (slice ni 24 2), sizeofSockaddrIn⟩) ++
  (List.range (m.nodes6.length / 38)).map fun i =>
    let ni := slice m.nodes6 (38 * i) 38
    ⟨Id.ofBytes (ni.take 20), sockaddrIn6 (slice ni 20 16) (slice ni 36 2), sizeofSockaddrIn6⟩

/-- Our own id is skipped. -/
def learnListed (i : ℕ) (w : World) (n : ListedNode) : World :=
  w.learnNode (some i) n.id n.ss n.sslen

/-- Search `i` learns no other address of a node that holds a token. -/
def KeepsAddress (i : ℕ) (w : World) (n : ListedNode) : Prop :=
  n.id ≠ w.myid → ∀ sr ∈ w.searches[i]?, sr.KeepsAddress n.id n.ss n.sslen

/-- The search a reply is for. -/
def repliedSearch (w : World) : Option ℕ :=
  if tidMatch m.tid (CString.str "gp") then findSearch (tidSeqno m.tid) frm.family w.searches
  else none

/-- What `dht_periodic` does with a reply to `find_node` or `get_peers` before the sender is
inserted into the search. -/
def beforeSearchReply (w : World) : World :=
  let sr := w.repliedSearch m frm
  if m.nodes.length % 26 ≠ 0 ∨ m.nodes6.length % 38 ≠ 0 then w.blacklistNode m.id frm fromlen
  else if tidMatch m.tid (CString.str "gp") ∧ sr = none then w.newNode m.id frm fromlen 1
  else
    let w := (w.newNode m.id frm fromlen 2).learnNodes m sr
    sr.elim w w.searchSendGetPeers

/-- A reply gives no other address to a node that holds a token: neither do the nodes it lists, nor
does the sender unless its token is taken. -/
def ReplyKeepsAddress (w : World) : Prop :=
  ∀ i ∈ w.repliedSearch m frm,
    (m.nodes.length % 26 = 0 → m.nodes6.length % 38 = 0 →
      Runs.EachTurn (learnListed i) (KeepsAddress i) (w.newNode m.id frm fromlen 2) (listed m)) ∧
    (40 ≤ m.token.length → ∀ sr ∈ (w.beforeSearchReply m frm fromlen).searches[i]?,
      sr.KeepsAddress m.id frm fromlen)

/-- A search that is started gets no other address for a node that holds a token. -/
def SearchKeepsAddress (w : World) (id : Id) (port : UInt16) (af : ℕ) : Prop :=
  ∀ b ∈ w.routing.findBucket id af, ∀ i ∈ (w.searchSlot id af).1,
    ∀ sr ∈ (w.searchSlot id af).2.searches[i]?,
      { sr with port := port }.ClosestKeepsAddress (w.searchSlot id af).2.now
        (w.searchSlot id af).2.routing (w.searchSlot id af).2.myid b

end

/-- The message that a datagram is handled as, unless it is a DTN message. -/
def messageOf (lib : Platform) (w : World) (dg : Datagram) : Option Message :=
  let parsed := w.parseDtn lib dg
  match parsed.message with
  | some .dtnQuery => none
  | some .dtnReply => none
  | _ => parseMessage dg.buf parsed.tid parsed.tidLen

/-- Is the message handled as a reply? -/
def isReply (w : World) (m : Message) : Bool :=
  m.kind = .reply && m.id ≠ Id.zeroes && m.id ≠ w.myid && m.tidLen = 4

/-- An event gives no other address to a node that holds a token. -/
def EventKeepsAddress (lib : Platform) (w : World) : SearchEvent → Prop
  | .search id port af => w.SearchKeepsAddress id port af
  | .receive _ dg =>
    ∀ m ∈ w.messageOf lib dg, w.isReply m = true →
      w.stackTid.2.ReplyKeepsAddress m dg.frm dg.fromlen
  | .gettimeofday => True
  | .step _ => True
  | .expire => True

instance (n : SearchNode) : Decidable n.Home :=
  inferInstanceAs (Decidable (n.token ≠ [] → n.issuer <+: n.ss))

instance (sr : Search) : Decidable sr.Home :=
  inferInstanceAs (Decidable (∀ n ∈ sr.nodes, n.Home))

instance (w : World) : Decidable w.TokensHome :=
  inferInstanceAs (Decidable (∀ sr ∈ w.searches, sr.Home))

instance (id : Id) (sa : Sockaddr) (salen : ℕ) (sr : Search) :
    Decidable (sr.KeepsAddress id sa salen) :=
  inferInstanceAs (Decidable (sa.family = sr.af → ∀ n ∈ sr.nodes, n.id = id → n.token ≠ [] →
    CString.memcpy n.ss sa salen = n.ss))

instance (now : ℤ) (r : Routing) (i : ℕ) (sr : Search) :
    Decidable (sr.BucketKeepsAddress now r i) :=
  inferInstanceAs (Decidable (∀ b ∈ (r.table sr.af)[i]?,
    Runs.EachTurn (fun sr (n : Node) => sr.insertSearchNode now n.id n.ss n.sslen false none)
      (fun sr n => sr.KeepsAddress n.id n.ss n.sslen) sr b.nodes))

instance (now : ℤ) (r : Routing) (myid : Id) (i : ℕ) (sr : Search) :
    Decidable (sr.ClosestKeepsAddress now r myid i) := instDecidableAnd

instance (i : ℕ) (w : World) (n : ListedNode) : Decidable (w.KeepsAddress i n) :=
  inferInstanceAs (Decidable (n.id ≠ w.myid → ∀ sr ∈ w.searches[i]?,
    sr.KeepsAddress n.id n.ss n.sslen))

instance (m : Message) (frm : Sockaddr) (fromlen : ℕ) (w : World) :
    Decidable (w.ReplyKeepsAddress m frm fromlen) := by
  unfold ReplyKeepsAddress
  infer_instance

instance (w : World) (id : Id) (port : UInt16) (af : ℕ) :
    Decidable (w.SearchKeepsAddress id port af) := by
  unfold SearchKeepsAddress
  infer_instance

instance (lib : Platform) (w : World) : ∀ e, Decidable (w.EventKeepsAddress lib e)
  | .search id port af => inferInstanceAs (Decidable (w.SearchKeepsAddress id port af))
  | .receive _ dg => inferInstanceAs (Decidable (∀ m ∈ w.messageOf lib dg, w.isReply m = true →
      w.stackTid.2.ReplyKeepsAddress m dg.frm dg.fromlen))
  | .gettimeofday | .step _ | .expire => inferInstanceAs (Decidable True)

variable {lib : Platform} {w w' : World} {m : Message} {frm : Sockaddr} {fromlen : ℕ}
  {sha1 : Bytes → Bytes}

/-! ## What leaves the nodes alone -/

theorem TokensHome.of_eq (h : w.TokensHome) (heq : w'.searches = w.searches) : w'.TokensHome := by
  unfold TokensHome
  rw [heq]
  exact h

/-- A loop whose turns leave the searches alone. -/
theorem searches_foldl {ι : Type*} {f : World → ι → World}
    (hf : ∀ w i, (f w i).searches = w.searches) (w : World) (is : List ι) :
    (is.foldl f w).searches = w.searches := by
  induction is generalizing w with
  | nil => rfl
  | cons i is ih => exact (ih (f w i)).trans (hf w i)

theorem searches_valuesFound (sha1 : Bytes → Bytes) (w : World) (event : DhtEvent) (infoHash : Id)
    (data : Bytes) (frm : Sockaddr) (fromlen : ℕ) :
    (w.valuesFound sha1 event infoHash data frm fromlen).searches = w.searches := by
  unfold valuesFound
  dsimp only
  apply searches_foldl
  exact fun _ _ => rfl

theorem searches_query (w : World) : (w.query m frm fromlen sha1).searches = w.searches := by
  unfold query
  cases m.kind with
  | ping => rfl
  | findNode => rfl
  | getPeers =>
    dsimp only
    unfold getPeers
    dsimp only
    split_ifs
    · rfl
    · split
      · split_ifs <;> rfl
      · rfl
  | announcePeer =>
    dsimp only
    unfold announcePeer
    dsimp only
    split_ifs <;> rfl
  | error | reply | dtnQuery | dtnReply => rfl

/-! ## Searches one by one -/

theorem TokensHome.set (h : w.TokensHome) {i : ℕ} {sr : Search} (hsr : sr.Home) :
    ∀ sr' ∈ w.searches.set i sr, sr'.Home := by
  intro sr' hin
  rcases List.mem_or_eq_of_mem_set hin with hin | rfl
  · exact h sr' hin
  · exact hsr

theorem TokensHome.modifySearch (h : w.TokensHome) {i : ℕ} {f : Search → Search}
    (hf : ∀ sr ∈ w.searches[i]?, sr.Home → (f sr).Home) : (w.modifySearch i f).TokensHome := by
  intro sr hin
  have hin' : sr ∈ w.searches.modify i f := hin
  obtain ⟨j, hj⟩ := List.getElem?_of_mem hin'
  rw [List.getElem?_modify] at hj
  obtain ⟨old, hold, rfl⟩ := Option.map_eq_some_iff.mp hj
  have hhome : old.Home := h old (List.mem_of_getElem? hold)
  by_cases hij : i = j
  · subst hij
    rw [if_pos rfl]
    exact hf old hold hhome
  · rw [if_neg hij]
    exact hhome

theorem TokensHome.searchSendGetPeers (h : w.TokensHome) (i : ℕ) :
    (w.searchSendGetPeers i).TokensHome := by
  unfold World.searchSendGetPeers
  cases hi : w.searches[i]? with
  | none => exact h
  | some sr =>
    have hsr : sr.Home := h sr (List.mem_of_getElem? hi)
    exact h.set (hsr.of_holding (holding_sendGetPeersNext w.net w.now w.routing sr))

theorem TokensHome.searchStep (h : w.TokensHome) (i : ℕ) : (w.searchStep i).TokensHome := by
  unfold World.searchStep
  cases hi : w.searches[i]? with
  | none => exact h
  | some sr =>
    have hsr : sr.Home := h sr (List.mem_of_getElem? hi)
    have hset := h.set (i := i) (hsr.of_holding (holding_step w.net w.now w.routing sr))
    dsimp only
    split_ifs
    · exact hset
    · exact hset

theorem TokensHome.blacklistNode (h : w.TokensHome) (id : Id) (sa : Sockaddr) (salen : ℕ) :
    (w.blacklistNode id sa salen).TokensHome := by
  have hflush (nodes : List SearchNode) : ∀ n ∈ flushId id nodes, n ∈ nodes := by
    fun_induction flushId id nodes with
    | case1 => exact fun n hn => hn
    | case2 first hid => exact fun n hn => absurd hn List.not_mem_nil
    | case3 first hid second nodes ih =>
      intro n hn
      rcases List.mem_cons.mp hn with rfl | hn
      · simp
      · exact List.mem_cons_of_mem _ (List.mem_cons_of_mem _ (ih n hn))
    | case4 first nodes hid ih =>
      intro n hn
      rcases List.mem_cons.mp hn with rfl | hn
      · exact List.mem_cons_self
      · exact List.mem_cons_of_mem _ (ih n hn)
  intro sr hin
  obtain ⟨old, hold, rfl⟩ := List.mem_map.mp hin
  exact fun n hn => h old hold n (hflush _ n hn)

/-! ## Replies -/

theorem TokensHome.learnListed (h : w.TokensHome) {i : ℕ} {n : ListedNode}
    (hkeep : w.KeepsAddress i n) : (w.learnListed i n).TokensHome := by
  unfold World.learnListed World.learnNode
  split_ifs with hid
  · exact h
  · have hnew : (w.newNode n.id n.ss n.sslen 0).TokensHome := h.of_eq rfl
    exact hnew.modifySearch fun sr hsr hhome => hhome.insertSearchNode fun _ => hkeep hid sr hsr

theorem learnNodes_eq (w : World) (i : ℕ) :
    w.learnNodes m (some i) = (listed m).foldl (learnListed i) w := by
  unfold World.learnNodes listed
  rw [List.foldl_append, List.foldl_map, List.foldl_map]
  rfl

theorem searches_learnNodes_none (w : World) : (w.learnNodes m none).searches = w.searches := by
  have hone (w : World) (id : Id) (sa : Sockaddr) (salen : ℕ) :
      (w.learnNode none id sa salen).searches = w.searches := by
    unfold learnNode
    split_ifs <;> rfl
  unfold learnNodes
  dsimp only
  rw [searches_foldl fun w i => hone w _ _ _, searches_foldl fun w i => hone w _ _ _]

/-- What happens to the searches before the sender is inserted. -/
theorem TokensHome.beforeSearchReply (h : w.TokensHome)
    (hkeep : w.ReplyKeepsAddress m frm fromlen) :
    (w.beforeSearchReply m frm fromlen).TokensHome := by
  unfold ReplyKeepsAddress at hkeep
  unfold World.beforeSearchReply
  dsimp only
  have hnew (confirm : ℕ) : (w.newNode m.id frm fromlen confirm).TokensHome := h.of_eq rfl
  split_ifs with hlen hnone
  · exact h.blacklistNode _ _ _
  · exact hnew 1
  · rw [not_or, not_not, not_not] at hlen
    cases hsr : w.repliedSearch m frm with
    | none => exact (hnew 2).of_eq (searches_learnNodes_none _)
    | some i =>
      obtain ⟨hlist, -⟩ := hkeep i hsr
      rw [Option.elim_some, learnNodes_eq]
      refine TokensHome.searchSendGetPeers ?_ i
      exact (hlist hlen.1 hlen.2).foldl (fun _ _ hk h => TokensHome.learnListed h hk) (hnew 2)

/-- A reply that keeps the addresses. -/
theorem TokensHome.nodesReply (h : w.TokensHome) (hkeep : w.ReplyKeepsAddress m frm fromlen) :
    (w.nodesReply m frm fromlen sha1).TokensHome := by
  have hbefore := h.beforeSearchReply hkeep
  have heq : w.nodesReply m frm fromlen sha1 =
      (w.repliedSearch m frm).elim (w.beforeSearchReply m frm fromlen)
        ((w.beforeSearchReply m frm fromlen).searchReply m frm fromlen sha1) := rfl
  rw [heq]
  cases hsr : w.repliedSearch m frm with
  | none => exact hbefore
  | some i =>
    obtain ⟨-, hlong⟩ := hkeep i hsr
    have hinsert := hbefore.modifySearch (i := i)
      (f := (·.insertSearchNode (w.beforeSearchReply m frm fromlen).now m.id frm fromlen true
        (some m.token))) fun sr hin hhome =>
        hhome.insertSearchNode fun hall => hlong (hall _ rfl) sr hin
    rw [Option.elim_some]
    unfold searchReply
    dsimp only
    generalize (w.beforeSearchReply m frm fromlen).modifySearch i _ = w1 at hinsert
    split
    · exact hinsert
    · rename_i sr _
      have h4 : (if m.values ≠ [] then
          w1.valuesFound sha1 .values sr.id m.values frm fromlen else w1).TokensHome := by
        split_ifs
        · exact hinsert.of_eq (searches_valuesFound _ _ _ _ _ _ _)
        · exact hinsert
      generalize (if m.values ≠ [] then
          w1.valuesFound sha1 .values sr.id m.values frm fromlen else w1) = w2 at h4
      split_ifs
      · exact h4.of_eq (searches_valuesFound _ _ _ _ _ _ _)
      · exact h4

theorem TokensHome.announceReply (h : w.TokensHome) :
    (w.announceReply m frm fromlen).TokensHome := by
  unfold World.announceReply
  cases findSearch (tidSeqno m.tid) frm.family w.searches with
  | none => exact h.of_eq rfl
  | some i =>
    have hnew : (w.newNode m.id frm fromlen 2).TokensHome := h.of_eq rfl
    refine TokensHome.searchSendGetPeers (hnew.modifySearch fun sr _ hhome => ?_) i
    refine hhome.of_holding ?_
    unfold Search.acknowledge
    dsimp only
    cases sr.nodes.findIdx? fun n => idCmp n.id m.id = .eq with
    | none => rfl
    | some j => exact List.map_modify_of_eq fun _ _ => rfl

theorem TokensHome.replyMessage (h : w.TokensHome)
    (hkeep : m.tidLen = 4 → w.ReplyKeepsAddress m frm fromlen) :
    (w.replyMessage m frm fromlen sha1).TokensHome := by
  unfold World.replyMessage
  split_ifs with hlen
  · exact h.blacklistNode _ _ _
  · exact h.of_eq rfl
  · exact h.nodesReply (hkeep (not_not.mp hlen))
  · exact h.announceReply
  · exact h

theorem TokensHome.handle (h : w.TokensHome)
    (hkeep : w.isReply m = true → w.ReplyKeepsAddress m frm fromlen) :
    (w.handle m frm fromlen sha1).TokensHome := by
  unfold World.handle
  split_ifs with herr hself hreply
  · exact h
  · exact h
  · refine h.replyMessage fun hlen => hkeep ?_
    rw [not_or] at herr
    simp [isReply, hreply, herr.2, hself, hlen]
  · have ht : w.takeToken.2.TokensHome := h.of_eq rfl
    generalize w.takeToken = out at ht
    obtain ⟨ok, w1⟩ := out
    cases ok with
    | false => exact ht
    | true => exact ht.of_eq (searches_query w1)

theorem receive_of_message (clayer : List ConvergenceLayer) {dg : Datagram}
    (hm : w.messageOf lib dg = some m) :
    w.receive lib clayer dg = w.stackTid.2.handle m dg.frm dg.fromlen lib.sha1 := by
  unfold messageOf at hm
  unfold World.receive
  dsimp only at hm ⊢
  generalize (w.parseDtn lib dg).message = kind at hm
  cases kind with
  | none =>
    dsimp only at hm ⊢
    rw [hm]
  | some kind =>
    cases kind with
    | dtnQuery | dtnReply => cases hm
    | ping | findNode | getPeers | announcePeer | error | reply =>
      dsimp only at hm ⊢
      rw [hm]

/-- A datagram that is no message of the DHT proper is dropped, answered or reported. -/
theorem receive_of_none (clayer : List ConvergenceLayer) {dg : Datagram}
    (hm : w.messageOf lib dg = none) :
    w.receive lib clayer dg = w.stackTid.2 ∨
      (∃ text, w.receive lib clayer dg =
        w.stackTid.2.reply (dhtSendBuf w.net text 0 dg.frm dg.fromlen)) ∨
      ∃ result, w.receive lib clayer dg = w.stackTid.2.emit [.lookupResult result] := by
  unfold messageOf at hm
  unfold World.receive
  dsimp only at hm ⊢
  generalize (w.parseDtn lib dg).message = kind at hm
  cases kind with
  | none =>
    dsimp only at hm ⊢
    rw [hm]
    exact Or.inl rfl
  | some kind =>
    cases kind with
    | dtnQuery =>
      dsimp only
      split_ifs
      · exact Or.inr (Or.inl ⟨_, rfl⟩)
      · exact Or.inl rfl
    | dtnReply =>
      dsimp only
      split_ifs
      · exact Or.inr (Or.inr ⟨_, rfl⟩)
      · exact Or.inl rfl
    | ping | findNode | getPeers | announcePeer | error | reply =>
      dsimp only at hm ⊢
      rw [hm]
      exact Or.inl rfl

theorem TokensHome.receive (h : w.TokensHome) (clayer : List ConvergenceLayer) {dg : Datagram}
    (hkeep : w.EventKeepsAddress lib (.receive clayer dg)) :
    (w.receive lib clayer dg).TokensHome := by
  have hstack : w.stackTid.2.TokensHome := h.of_eq rfl
  cases hm : w.messageOf lib dg with
  | some m =>
    rw [receive_of_message clayer hm]
    exact hstack.handle (hkeep m hm)
  | none =>
    rcases receive_of_none clayer hm with heq | ⟨text, heq⟩ | ⟨result, heq⟩
    · exact heq ▸ hstack
    · exact heq ▸ hstack.of_eq rfl
    · exact heq ▸ hstack.of_eq rfl

theorem TokensHome.searchSlot (h : w.TokensHome) (id : Id) (af : ℕ) :
    (w.searchSlot id af).2.TokensHome := by
  unfold World.searchSlot
  cases w.findIdx id af with
  | some i =>
    have hrestart := h.modifySearch (i := i) (f := Search.restart w.now) fun sr _ hhome =>
      home_resetNodes hhome
    exact hrestart
  | none =>
    dsimp only
    cases hnew : newSearch w.now (w.env.calloc 0) w.searches w.numsearches with
    | mk slot rest =>
      obtain ⟨searches, numsearches⟩ := rest
      cases slot with
      | none => exact h
      | some i =>
        -- the slot has no nodes
        have hall : ∀ sr ∈ searches, sr.Home := by
          rcases newSearch_cases hnew with ⟨rfl, -, -⟩ | ⟨-, rfl, -⟩
          · exact h
          · exact List.forall_mem_cons.mpr ⟨fun n hn => absurd hn List.not_mem_nil, h⟩
        have hstart : ({ w with searches := searches } : World).TokensHome := hall
        exact hstart.modifySearch (i := i) (f := Search.start af w.searchId id) fun sr _ _ n hn =>
          absurd hn List.not_mem_nil

/-- A search that is started without another address for a node that holds a token. -/
theorem TokensHome.dhtSearch (h : w.TokensHome) {id : Id} {port : UInt16} {af : ℕ}
    (hkeep : w.SearchKeepsAddress id port af) : (w.dhtSearch id port af).2.TokensHome := by
  unfold SearchKeepsAddress at hkeep
  unfold World.dhtSearch
  cases hb : w.routing.findBucket id af with
  | none => exact h
  | some b =>
    have hslot := h.searchSlot id af
    replace hkeep := hkeep b hb
    dsimp only
    generalize w.searchSlot id af = out at hkeep hslot ⊢
    obtain ⟨slot, w1⟩ := out
    cases slot with
    | none => exact hslot
    | some i =>
      generalize hf : (fun sr : Search =>
        ({ sr with port := port } : Search).insertClosest w1.now w1.routing w1.myid b) = f
      have hclosest : (w1.modifySearch i f).TokensHome := by
        refine hslot.modifySearch fun sr hin hhome => ?_
        have hport : ({ sr with port := port } : Search).Home := hhome
        rw [← hf]
        exact hport.insertClosest (hkeep i rfl sr hin)
      dsimp only
      rw [hf]
      have hemit (outputs : List Output) : ((w1.modifySearch i f).emit outputs).TokensHome :=
        hclosest.of_eq rfl
      exact ((hemit _).searchStep i).of_eq rfl

theorem TokensHome.expire (h : w.TokensHome) : w.expire.TokensHome := by
  have hsub : (expireSearches w.now w.searches w.numsearches).1.Sublist w.searches := by
    rw [expireSearches_fst]
    exact List.filter_sublist
  exact fun sr hin => h sr (hsub.mem hin)

/-! ## Runs -/

/-- An event that gives no other address to a node that holds a token. -/
theorem TokensHome.searchEvent (h : w.TokensHome) {e : SearchEvent}
    (hkeep : w.EventKeepsAddress lib e) : (w.searchEvent lib e).TokensHome := by
  cases e with
  | gettimeofday => exact h.of_eq rfl
  | search id port af => exact h.dhtSearch hkeep
  | step i => exact h.searchStep i
  | expire => exact h.expire
  | receive clayer dg => exact h.receive clayer hkeep

/-- **Tokens stay with the addresses they came from, and go back there, if no event gives another
address to a node that holds a token.** -/
theorem tokensHome (lib : Platform) (w : World) (s s6 : ℤ) (id : Id) (v : Option Bytes)
    (past : List SearchEvent)
    (h : Runs.EachStep (searchEvent lib) (EventKeepsAddress lib) (w.dhtInit s s6 id v) past) :
    ((w.dhtInit s s6 id v).afterSearches lib past).TokensHome ∧
      ∀ sr ∈ ((w.dhtInit s s6 id v).afterSearches lib past).searches, ∀ net now r,
        ∀ p ∈ (sr.step net now r).2.2.1, sr.SendsHome net p := by
  have hinit : (w.dhtInit s s6 id v).TokensHome := fun sr hin => absurd hin List.not_mem_nil
  have hrun : ((w.dhtInit s s6 id v).afterSearches lib past).TokensHome :=
    h.foldr (fun _ _ hkeep h => TokensHome.searchEvent h hkeep) hinit
  exact ⟨hrun, fun sr hin _ _ _ p hp => (hrun sr hin).mem_step hp⟩

/-! ## A token sent elsewhere -/

/-- The reply of 9.9.9.n to `get_peers` of the first search, with a list of nodes. -/
def peersReply (n : UInt8) (nodes : Bytes) : Datagram where
  buf := CString.str "d1:rd2:id20:" ++ List.replicate 20 n ++
    (if nodes = [] then [] else CString.str "5:nodes26:" ++ nodes) ++
    CString.str "5:token4:aoeue1:t4:gp" ++ [1, 0] ++ CString.str "1:y1:re"
  terminated := true
  frm := sockaddrIn [9, 9, 9, n] [26, 225]
  fromlen := 16

/-- Node 200 is known when the search is started, and replies. -/
def firstReply : List SearchEvent :=
  [.receive [] (peersReply 200 []), .search (Id.ofBytes [2]) 6881 afInet,
    .receive [] (pingReply 200)]

/-- Then node 201 lists it with the address 6.6.6.6. -/
def thirdParty : List SearchEvent :=
  .receive [] (peersReply 201 (List.replicate 20 200 ++ [6, 6, 6, 6, 26, 225])) :: firstReply

/-- Or it lists it with its own address. -/
def honestParty : List SearchEvent :=
  .receive [] (peersReply 201 (List.replicate 20 200 ++ [9, 9, 9, 200, 26, 225])) :: firstReply

/-- A node that has just been started. -/
def announcer : World := World.initial (Env.still 1000000)

/-- It after the reply of node 201. -/
def misled : World :=
  (announcer.dhtInit 5 (-1) (Id.ofBytes [1]) none).afterSearches lapPlatform thirdParty

/-- Now the token of node 200 goes to 6.6.6.6. -/
theorem tokensHome_thirdParty : ¬ misled.TokensHome ∧ ∃ sr ∈ misled.searches,
    ∃ p ∈ (sr.step misled.net misled.now misled.routing).2.2.1,
      p.dest.take 16 = sockaddrIn [6, 6, 6, 6] [26, 225] ∧
      sendAnnouncePeer misled.net (makeTid (CString.str "ap") sr.tid) sr.id sr.port
        (CString.str "aoeu") = some p.payload := by
  decide +kernel

/-- The token of node 200 goes back to node 200. -/
theorem tokensHome_honestParty :
    ((announcer.dhtInit 5 (-1) (Id.ofBytes [1]) none).afterSearches lapPlatform
      honestParty).TokensHome :=
  (tokensHome lapPlatform announcer 5 (-1) (Id.ofBytes [1]) none honestParty (by decide +kernel)).1

end World

end DtnDht
