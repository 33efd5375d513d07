import DtnDht.Answers
import DtnDht.DtnQuery
import DtnDht.DtnReply
import DtnDht.LocalArrays
import DtnDht.RateLimit

/-!
# Two nodes exchange what they know

A node that has found the address of another asks it with a DTN query, and reports the answer to its
application. `info_exchange` follows both datagrams through the two processes: the application is
told the EID, the groups, the neighbours and the convergence layers of the other node, and each
node sends and reports nothing else in turn.
-/

namespace DtnDht

open CString Occurrence

/-- A packet as it comes in from an address. -/
def Packet.arriving (p : Packet) (frm : Sockaddr) (fromlen : ℕ) : Datagram where
  buf := p.payload
  terminated := true
  frm := frm
  fromlen := fromlen

namespace World

/-! ## Asking and answering -/

/-- What a node tells about itself when it is asked by `dht_ping_dtn_node`. -/
def info (w : World) (clayer : List ConvergenceLayer) : DtnInfo where
  tid := makeTid (str "pn") 0
  eid := w.eids.myEid
  cls := clayer
  nbs := w.eids.neighbours
  grs := w.eids.groups

/-- A query without the marker of the transaction id in its EID reads back. -/
theorem queryRoundTrip_of_plain {eid tid : Bytes} (h0 : 0 < eid.length) (hle : eid.length ≤ 256)
    (ht0 : 0 < tid.length) (ht : tid.length ≤ 15) (hplain : ¬ queryMarker <:+: eid)
    (inetNtop : ℕ → Bytes → Bytes) (frm : Sockaddr) (tid0 : Bytes) :
    QueryRoundTrip inetNtop frm tid0 tid eid := by
  have hi := findInfix_append_of_unbordered unbordered_queryMarker hplain
    (b := decimal tid.length ++ 58 :: (tid ++ str "1:y1:qe"))
  exact (queryRoundTrip_iff_spells h0 hle ht0 ht hi).mpr (spells_after_marker ht)

/-- What a node that has no version reads of the query of another. -/
theorem parse_dtnPing {w : World} {sa : Sockaddr} {salen : ℕ} {query : Packet}
    (hquery : query ∈ w.dtnPing sa salen) (hv : w.myV = none) (h0 : 0 < w.eids.myEid.length)
    (hle : w.eids.myEid.length ≤ 256) (hplain : ¬ queryMarker <:+: w.eids.myEid)
    (inetNtop : ℕ → Bytes → Bytes) (frm : Sockaddr) (tid0 : Bytes) :
    let r := parseDtnMessage inetNtop frm query.payload tid0 16
    r.message = some .dtnQuery ∧ r.result.eid = some w.eids.myEid ∧
      r.tid.take r.tidLen = makeTid (str "pn") 0 := by
  have hrt : QueryRoundTrip inetNtop frm tid0 (makeTid (str "pn") 0) w.eids.myEid :=
    queryRoundTrip_of_plain h0 hle (by decide) (by decide) hplain inetNtop frm tid0
  obtain ⟨pkt, hpkt, hm, he, -, ht⟩ := hrt
  obtain ⟨hpayload, -⟩ := mem_dhtSendBuf hquery
  rw [hv, hpkt, Option.some_inj] at hpayload
  exact hpayload ▸ ⟨hm, he, ht⟩

variable {lib : Platform} {clayer : List ConvergenceLayer} {w : World} {dg : Datagram}

theorem receive_query {eid tid : Bytes} (hm : (w.parseDtn lib dg).message = some .dtnQuery)
    (he : (w.parseDtn lib dg).result.eid = some eid)
    (ht : (w.parseDtn lib dg).tid.take (w.parseDtn lib dg).tidLen = tid)
    (hchanged : w.eids.myEidChanged = true) (hne : eid ≠ w.eids.myEid) :
    w.receive lib clayer dg = w.stackTid.2.reply (dhtSendBuf w.net
      (sendDtninfo tid w.eids.myEid clayer w.eids.neighbours w.eids.groups) 0 dg.frm
      dg.fromlen) := by
  have hanswers : w.stackTid.2.answersDtnQuery (w.parseDtn lib dg).result.eid = true := by
    rw [he]
    unfold answersDtnQuery isForeign
    rw [Option.any_some, Bool.and_eq_true, bne_iff_ne]
    exact ⟨hchanged, hne⟩
  unfold receive
  dsimp only
  rw [hm]
  dsimp only
  rw [if_pos hanswers, ht]
  rfl

theorem receive_result {result : LookupResult} {eid : Bytes}
    (hm : (w.parseDtn lib dg).message = some .dtnReply)
    (hr : (w.parseDtn lib dg).result = result) (he : result.eid = some eid)
    (hne : eid ≠ w.eids.myEid) :
    w.receive lib clayer dg = w.stackTid.2.emit [.lookupResult result] := by
  have hforeign : w.stackTid.2.isForeign result.eid = true := by
    rw [he]
    unfold isForeign
    rw [Option.any_some, bne_iff_ne]
    exact hne
  unfold receive
  dsimp only
  rw [hm]
  dsimp only
  rw [hr, if_pos hforeign]

end World

/-! ## Processes -/

namespace Process

variable {p : Process} {lib : Platform} {ctx : Context} {dg : Datagram}

/-- What a process that heeds a datagram answers and reports in a call is what the datagram makes
it answer and report. -/
theorem answers_hear {o : List Output} (hi : (p.listening ctx).ignores dg = false)
    (ht : dg.terminated = true)
    (ho : ((p.listening ctx).receive lib ctx.clayer dg).answers = (p.listening ctx).answers ++ o) :
    (p.hear lib ctx dg).world.answers = p.world.answers ++ o := by
  have hhear : (p.hear lib ctx dg).world =
      ((p.listening ctx).receive lib ctx.clayer dg).doDue :=
    World.dhtPeriodic_of_not_ignores hi ht
  have hlists : (p.listening ctx).answers = p.world.answers :=
    (World.answers_gettimeofday _).trans (World.routine_maintainLists p.world ctx).answers
  rw [hhear, (World.routine_doDue _).answers, ho, hlists]

end Process

/-- **What a node tells reaches the application that asked.** A query that `dht_ping_dtn_node` sends
is answered by the node it comes in at, and when the answer comes back, the application is told the
EID, the groups, the neighbours and the layers of that node, each with the address it was received
from if it is a TCP or UDP layer. Nothing else is answered or reported in these calls. The node that
is asked has announced an EID of its own, unlike those of the two others, and what it tells can be
written and read. -/
theorem info_exchange {w : World} {sa : Sockaddr} {salen : ℕ} {query : Packet}
    (hquery : query ∈ w.dtnPing sa salen) (hv : w.myV = none) (h0 : 0 < w.eids.myEid.length)
    (hle : w.eids.myEid.length ≤ 256) (hplain : ¬ queryMarker <:+: w.eids.myEid)
    {q : Process} (lib : Platform) {ctx : Context} {frm : Sockaddr} {fromlen : ℕ}
    (hq : (q.listening ctx).ignores (query.arriving frm fromlen) = false)
    (hsocket : 0 ≤ (q.listening ctx).net.socket frm)
    (hchanged : q.world.eids.myEidChanged = true) (hne : w.eids.myEid ≠ q.world.eids.myEid)
    (hinfo : (q.world.info ctx.clayer).WellFormed) (hread : (q.world.info ctx.clayer).Readable)
    (hmark : ¬ str "e3:eid" <:+: (q.world.info ctx.clayer).rescanned) :
    let answer : Packet := ⟨(q.world.info ctx.clayer).packet, 0, frm, fromlen⟩
    (q.hear lib ctx (query.arriving frm fromlen)).world.answers =
        q.world.answers ++ [.reply answer] ∧
      ∀ (p : Process) (lib' : Platform) (ctx' : Context) (frm' : Sockaddr) (fromlen' : ℕ),
        (p.listening ctx').ignores (answer.arriving frm' fromlen') = false →
        p.world.eids.myEid ≠ q.world.eids.myEid →
        (p.hear lib' ctx' (answer.arriving frm' fromlen')).world.answers =
          p.world.answers ++ [.lookupResult ⟨some q.world.eids.myEid, q.world.eids.groups,
            q.world.eids.neighbours, ctx.clayer.map (expectedLayer lib'.inetNtop frm')⟩] := by
  have hclock (w : World) : w.gettimeofday.eids = w.eids := rfl
  have heids (p : Process) (ctx : Context) : (p.listening ctx).eids = p.world.eids :=
    (hclock _).trans World.eids_maintainLists
  obtain ⟨hm, he, ht⟩ := World.parse_dtnPing hquery hv h0 hle hplain lib.inetNtop frm
    (q.listening ctx).stackTid.1
  have hb : (q.listening ctx).net.nodeBlacklisted frm fromlen = false :=
    (Bool.or_eq_false_iff.mp hq).2
  -- the answer
  have hsend : dhtSendBuf (q.listening ctx).net (sendDtninfo (makeTid (str "pn") 0)
      (q.listening ctx).eids.myEid ctx.clayer (q.listening ctx).eids.neighbours
      (q.listening ctx).eids.groups) 0 frm fromlen =
        [⟨(q.world.info ctx.clayer).packet, 0, frm, fromlen⟩] := by
    rw [heids, ← dhtSendBuf_of_socket hb hsocket, ← sendDtninfo_eq hinfo.fits]
    rfl
  have hreceive : (q.listening ctx).receive lib ctx.clayer (query.arriving frm fromlen) = _ :=
    World.receive_query hm he ht (by rw [heids]; exact hchanged) (by rw [heids]; exact hne)
  refine ⟨Process.answers_hear hq rfl ?_, fun p lib' ctx' frm' fromlen' hp hne' => ?_⟩
  · rw [hreceive, World.answers_reply, World.answers_stackTid]
    exact congrArg (fun pkts => _ ++ pkts.map Output.reply) hsend
  · -- and what it makes of it
    obtain ⟨pkt, hpkt, hm', hr', -⟩ := replyRoundTrip_of_readable lib'.inetNtop frm'
      (p.listening ctx').stackTid.1 hinfo hread hmark
    rw [sendDtninfo_eq hinfo.fits, Option.some_inj] at hpkt
    subst hpkt
    have hresult : (p.listening ctx').receive lib' ctx'.clayer
        (Packet.arriving ⟨(q.world.info ctx.clayer).packet, 0, frm, fromlen⟩ frm' fromlen') = _ :=
      World.receive_result hm' hr' rfl (by rw [heids]; exact hne'.symm)
    refine Process.answers_hear hp rfl ?_
    rw [hresult, World.answers_emit, World.answers_stackTid]
    rfl

/-! ## An exchange -/

/-- A node with a TCP layer. -/
def layerContext : Context :=
  { World.ipv4Context with clayer := [⟨str "tcp", [⟨str "port", str "4556"⟩]⟩] }

/-- A node that has announced an EID. -/
def announcer (eid : Bytes) : Process :=
  ((Process.start (Env.still 1000)).call (.init layerContext (Id.ofBytes [1]) .succeed)).call
    (.api World.samplePlatform layerContext (.announce eid .singleton))

/-- The address of the node that asks. -/
def askerAddress : Sockaddr := sockaddrIn [8, 8, 8, 8] [26, 225]

/-- The address of the node that is asked. -/
def askedAddress : Sockaddr := sockaddrIn [9, 9, 9, 9] [26, 225]

/-- The query of one announcer to another. -/
def sampleQuery : Packet :=
  ((announcer (str "dtn://b")).world.dtnPing askedAddress 16).headD ⟨[], 0, [], 0⟩

theorem info_exchange_sample :
    let p := announcer (str "dtn://b")
    let q := announcer (str "dtn://node")
    let answer : Packet := ⟨(q.world.info layerContext.clayer).packet, 0, askerAddress, 16⟩
    (q.hear World.samplePlatform layerContext (sampleQuery.arriving askerAddress 16)).world.answers =
        q.world.answers ++ [.reply answer] ∧
      (p.hear World.samplePlatform layerContext (answer.arriving askedAddress 16)).world.answers =
        p.world.answers ++ [.lookupResult ⟨some (str "dtn://node"), [], [],
          [⟨str "tcp", [⟨str "ip", []⟩, ⟨str "port", str "4556"⟩]⟩]⟩] := by
  intro p q answer
  have hquery : sampleQuery ∈ p.world.dtnPing askedAddress 16 := by decide +kernel
  have hsocket : 0 ≤ (q.listening layerContext).net.socket askerAddress := by decide +kernel
  have hinfo : (q.world.info layerContext.clayer).WellFormed := by
    constructor <;> decide +kernel
  have hread : (q.world.info layerContext.clayer).Readable := by
    constructor <;> decide +kernel
  have hheard : (p.listening layerContext).ignores (answer.arriving askedAddress 16) = false := by
    decide +kernel
  have hasked : (q.listening layerContext).ignores (sampleQuery.arriving askerAddress 16) =
      false := by decide +kernel
  obtain ⟨hanswer, hresult⟩ := info_exchange hquery (by decide +kernel) (by decide +kernel)
    (by decide +kernel) (by decide +kernel) World.samplePlatform hasked hsocket (by decide +kernel)
    (by decide +kernel) hinfo hread (by decide +kernel)
  exact ⟨hanswer, hresult p World.samplePlatform layerContext askedAddress 16 hheard
    (by decide +kernel)⟩

end DtnDht
