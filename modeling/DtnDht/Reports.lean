import DtnDht.InfoExchange
import DtnDht.Lib.Network

/-!
# What applications are told

Many nodes query each other for their EIDs, groups, neighbours and convergence layers, over a network
that loses, doubles, delays and reorders the datagrams and brings in others. As long as nobody forges
the result of a DTN query, an application is told nothing that no node knew of itself when it was
asked (`told_is_published`): no result is cut off, mixed from two answers or put together from other
bytes, whatever transaction ids, queries and replies are in the datagrams.

The results are read without their transaction ids, which come last, so it does not matter which one
an answer carries. What matters is that the bytes the reader skips over hold none of its markers
(`DtnInfo.Clear`).
-/

namespace DtnDht

open CString Occurrence

/-! ## Reading a result -/

namespace DtnInfo

variable (i : DtnInfo)

/-- The reply from the neighbours up to the transaction id. -/
def neighboursText : Bytes := str "e2:nbl" ++ (i.nbs.flatMap encodeString ++ str "ee1:t")

/-- The reply from the groups up to the transaction id. -/
def groupsText : Bytes := str "2:grl" ++ (i.grs.flatMap encodeString ++ i.neighboursText)

/-- The reply from the EID up to the transaction id. -/
def eidText : Bytes := str "e3:eid" ++ (encodeString i.eid ++ i.groupsText)

/-- The reply up to the transaction id. -/
def opening : Bytes := resultMarker ++ (i.encodedLayers ++ i.eidText)

/-- Separators stay out of the fields they end, lists hold no empty EID, and the reader does not
mistake the end of the layers for the EID, nor the end of the EID for the groups. -/
structure Clear : Prop where
  name_plain : ∀ cl ∈ i.cls, (59 : UInt8) ∉ cl.clname
  arg_plain : ∀ cl ∈ i.cls, ∀ arg ∈ cl.args, (61 : UInt8) ∉ arg.key ∧ (59 : UInt8) ∉ arg.value
  nbs_ne : ∀ e ∈ i.nbs, e ≠ []
  grs_ne : ∀ e ∈ i.grs, e ≠ []
  eid_le : i.eid.length ≤ dtnEidMaxLength
  no_marker : ¬ str "e3:eid" <:+: i.rescanned

variable {i}

theorem packet_eq_opening : i.packet = i.opening ++ (encodeString i.tid ++ str "1:y1:re") := by
  simp only [packet, eidPart, groupsPart, neighboursPart, tidPart, opening, eidText, groupsText,
    neighboursText, resultMarker, List.append_assoc]

/-- What is sent starts like the packet, even where the packet just does not fit. -/
theorem opening_of_sendDtninfo {out : Bytes}
    (h : sendDtninfo i.tid i.eid i.cls i.nbs i.grs = some out) :
    out.length ≤ 4096 ∧ i.opening <+: out := by
  rcases lt_trichotomy i.packet.length 4096 with hlt | heq | hgt
  · obtain rfl : i.packet = out := Option.some_inj.mp ((sendDtninfo_eq hlt).symm.trans h)
    exact ⟨hlt.le, packet_eq_opening ▸ List.prefix_append _ _⟩
  · have hfront : i.front = i.opening ++ encodeString i.tid := by
      have hpacket := packet_eq_front i
      rw [packet_eq_opening, ← List.append_assoc] at hpacket
      exact (List.append_cancel_right hpacket).symm
    obtain rfl : i.front ++ (str "1:y1:r" ++ [0]) = out :=
      Option.some_inj.mp ((sendDtninfo_of_eq heq).symm.trans h)
    have hlen : (i.front ++ (str "1:y1:r" ++ [0])).length = i.packet.length := by
      simp only [packet_eq_front, List.length_append]
      rfl
    refine ⟨(hlen.trans heq).le, ?_⟩
    rw [hfront, List.append_assoc]
    exact List.prefix_append _ _
  · exact absurd ((sendDtninfo_of_gt hgt).symm.trans h) (by simp)

end DtnInfo

section

variable {i : DtnInfo} (h : i.Clear) {buf tid0 rest : Bytes} {pos : ℕ} {result : LookupResult}

include h

theorem parseReplyNeighbours_told (hlen : buf.length ≤ 4096)
    (hbuf : buf.drop pos = i.neighboursText ++ rest) :
    (parseReplyNeighbours buf pos tid0 16 result).result = { result with neighbours := i.nbs } := by
  have hpart : i.neighboursText ++ rest = [] ++ str "e2:nbl" ++ (i.nbs.flatMap encodeString ++
      101 :: (str "e1:t" ++ rest)) := by
    simp only [DtnInfo.neighboursText, List.append_assoc]
    rfl
  obtain ⟨hf, hd⟩ := findFrom_eq_some (str "e2:nbl") [] (by decide) (hbuf.trans hpart) (by decide)
  have hle := DtnInfo.drop_le (hbuf.trans hpart)
  have hlist := parseDtnEidList_encode h.nbs_ne (r := str "e1:t" ++ rest)
    (n := (i.nbs.flatMap encodeString ++ 101 :: (str "e1:t" ++ rest)).length) (by simp) (by
      rw [List.length_append] at hle
      unfold longMax
      omega)
  unfold parseReplyNeighbours
  rw [hf]
  simp only
  rw [← List.length_drop, hd, hlist]
  simp only
  exact parseReplyTid_result _ _ _ _ _

theorem parseReplyGroups_told {a : Bytes} (hlen : buf.length ≤ 4096)
    (hbuf : buf.drop pos = a ++ (i.groupsText ++ rest)) (ha : a.length < 5) :
    (parseReplyGroups buf pos tid0 16 result).result =
      { result with groups := i.grs, neighbours := i.nbs } := by
  have hpart : a ++ (i.groupsText ++ rest) = a ++ str "2:grl" ++ (i.grs.flatMap encodeString ++
      (i.neighboursText ++ rest)) := by
    simp only [DtnInfo.groupsText, List.append_assoc]
  obtain ⟨hf, hd⟩ := findFrom_eq_some (str "2:grl") a (by decide) (hbuf.trans hpart)
    (not_infix_of_length_lt ha)
  have hle := DtnInfo.drop_le (hbuf.trans hpart)
  have hcons : i.neighboursText ++ rest = 101 :: (i.neighboursText ++ rest).tail := rfl
  have hlist := parseDtnEidList_encode h.grs_ne (r := (i.neighboursText ++ rest).tail)
    (n := (i.grs.flatMap encodeString ++ (i.neighboursText ++ rest)).length) (by simp) (by
      rw [List.length_append] at hle
      unfold longMax
      omega)
  rw [← hcons] at hlist
  unfold parseReplyGroups
  rw [hf]
  simp only
  rw [← List.length_drop, hd, hlist]
  simp only
  exact parseReplyNeighbours_told h hlen (by rw [← List.drop_drop, hd, List.drop_left])

/-- The EID has more than five bytes, or the reply is refused. -/
theorem parseReplyEid_told {a : Bytes} (hlen : buf.length ≤ 4096)
    (hbuf : buf.drop pos = a ++ (i.eidText ++ rest)) (ha : ¬ str "e3:eid" <:+: a)
    (hm : (parseReplyEid buf pos tid0 16 result).message ≠ none) :
    (parseReplyEid buf pos tid0 16 result).result =
      { result with eid := some i.eid, groups := i.grs, neighbours := i.nbs } := by
  have hpart : a ++ (i.eidText ++ rest) = a ++ str "e3:eid" ++ (encodeString i.eid ++
      (i.groupsText ++ rest)) := by
    simp only [DtnInfo.eidText, List.append_assoc]
  obtain ⟨hf, hd⟩ := findFrom_eq_some (str "e3:eid") a (by decide) (hbuf.trans hpart) ha
  have hle : i.eid.length ≤ 256 := h.eid_le
  have hdigits := length_decimal_le (n := i.eid.length) (k := 3) (by decide) (by omega)
  have hspells : Spells buf i.eid (pos + a.length + (str "e3:eid").length) := by
    refine spells_decimal (r := i.groupsText ++ rest) ?_ (by unfold longMax; omega)
    rw [hd, encodeString, List.append_assoc, List.cons_append]
  have hfield (l : ℤ) (hl : decide (5 < l) = true) : 0 ≤ l :=
    (lt_trans (by decide) (of_decide_eq_true hl)).le
  unfold parseReplyEid at hm ⊢
  rw [hf] at hm ⊢
  by_cases h5 : 5 < i.eid.length
  · have heid : readField buf (pos + a.length + (str "e3:eid").length) (5 < ·) = .value i.eid :=
      (readField_eq_value_iff hfield).mpr ⟨by simpa using h5, hspells⟩
    simp only [heid]
    -- the position is short of the end of the EID by its length prefix, at most four bytes
    have hdrop : buf.drop (pos + a.length + (str "e3:eid").length + i.eid.length) =
        (encodeString i.eid).drop i.eid.length ++ (i.groupsText ++ rest) := by
      rw [← List.drop_drop, hd, List.drop_append_of_le_length (by rw [length_encodeString]; omega)]
    refine parseReplyGroups_told h hlen hdrop ?_
    rw [List.length_drop, length_encodeString]
    omega
  · have hrefused : readField buf (pos + a.length + (str "e3:eid").length) (5 < ·) =
        .malformed := by
      obtain ⟨r, hr, -⟩ := hspells
      unfold readField
      rw [hr]
      exact if_neg fun hc => h5 (by simpa using hc.2)
    simp only [hrefused] at hm
    exact absurd rfl hm

/-- What is read of a result is what was written, whatever transaction id it carries and whatever
comes after. -/
theorem parseDtnMessage_told (inetNtop : ℕ → Bytes → Bytes) (frm : Sockaddr)
    (hlen : buf.length ≤ 4096) (hbuf : i.opening <+: buf)
    (hm : (parseDtnMessage inetNtop frm buf tid0 16).message ≠ none) :
    (parseDtnMessage inetNtop frm buf tid0 16).result =
      ⟨some i.eid, i.grs, i.nbs, i.cls.map (decodedLayer inetNtop frm)⟩ := by
  obtain ⟨rest, rfl⟩ := hbuf
  have hopening : i.opening ++ rest =
      resultMarker ++ (i.encodedLayers ++ (i.eidText ++ rest)) := by
    simp only [DtnInfo.opening, List.append_assoc]
  have hquery : ¬ (str "d1:ad3:eid").isPrefixOf (i.opening ++ rest) = true := by
    rw [List.isPrefixOf_iff_prefix, hopening]
    intro hp
    have := List.prefix_of_prefix_length_le hp (List.prefix_append _ _) (by decide)
    exact absurd this (by decide)
  have hreply : (str "d1:rd2:cll").isPrefixOf (i.opening ++ rest) = true := by
    rw [List.isPrefixOf_iff_prefix, hopening]
    exact List.prefix_append _ _
  have hdrop : (i.opening ++ rest).drop 10 = i.encodedLayers ++ (i.eidText ++ rest) := by
    rw [hopening, List.drop_left' (by rfl : resultMarker.length = 10)]
  have hcons : i.eidText ++ rest = 101 :: (i.eidText ++ rest).tail := rfl
  have hlayers := parseDtnConvergenceLayer_encode inetNtop frm h.name_plain h.arg_plain
    (r := (i.eidText ++ rest).tail) (n := (i.opening ++ rest).length - 10) (by
      rw [← List.length_drop, hdrop, List.length_append]
      exact Nat.le_add_right i.encodedLayers.length _) (by unfold longMax; omega)
  rw [← hcons] at hlayers
  unfold parseDtnMessage parseDtnReply at hm ⊢
  rw [if_neg hquery, if_pos hreply, hdrop, DtnInfo.encodedLayers, hlayers] at hm ⊢
  by_cases hargs : ∀ cl ∈ i.cls, cl.args ≠ []
  · rw [if_pos hargs] at hm ⊢
    cases htext : textLen i.cls with
    | zero =>
      rw [htext] at hm
      exact absurd rfl hm
    | succ n =>
      have hrescanned : (i.opening ++ rest).drop (10 + (n + 1)) =
          i.rescanned ++ (i.eidText ++ rest) := by
        rw [← htext, ← List.drop_drop, hdrop, List.drop_append_of_le_length textLen_le,
          DtnInfo.rescanned]
      rw [htext] at hm
      exact parseReplyEid_told h hlen hrescanned h.no_marker hm
  · rw [if_neg hargs] at hm
    exact absurd rfl hm

end

/-- Only a datagram that starts like a result is read as one. -/
theorem result_of_message {inetNtop : ℕ → Bytes → Bytes} {frm : Sockaddr} {buf tid0 : Bytes}
    (hm : (parseDtnMessage inetNtop frm buf tid0 16).message = some .dtnReply) :
    resultMarker <+: buf := by
  have hquery : (parseDtnQuery buf tid0 16).message ≠ some .dtnReply := by
    unfold parseDtnQuery
    split
    · simp
    · simp
    · dsimp only
      split
      · simp
      · split <;> simp
  unfold parseDtnMessage at hm
  split_ifs at hm with hq hr
  · exact absurd hm hquery
  · exact List.isPrefixOf_iff_prefix.mp hr

/-! ## What nodes know of themselves -/

/-- Layers that read back, as far as they are read. -/
structure ClearLayers (cls : List ConvergenceLayer) : Prop where
  name_plain : ∀ cl ∈ cls, (59 : UInt8) ∉ cl.clname
  arg_plain : ∀ cl ∈ cls, ∀ arg ∈ cl.args, (61 : UInt8) ∉ arg.key ∧ (59 : UInt8) ∉ arg.value
  no_marker : ¬ str "e3:eid" <:+:
    (cls.flatMap fun cl => encodeString (layerText cl)).drop (textLen cls)

/-- An application announces no empty EID, and its layers read back. -/
def ProcessCall.Clear : ProcessCall → Prop
  | .api _ _ (.announce eid _) => eid ≠ []
  | .api _ ctx (.periodic _) => ClearLayers ctx.clayer
  | _ => True

/-- Our EID fits, and those of our groups and neighbours are not empty. -/
structure DtnEids.Clear (e : DtnEids) : Prop where
  own : e.myEid.length ≤ dtnEidMaxLength
  groups : ∀ eid ∈ e.groups, eid ≠ []
  neighbours : ∀ eid ∈ e.neighbours, eid ≠ []

theorem DtnEids.Clear.add {e : DtnEids} (h : e.Clear) {eid : Bytes} (heid : eid ≠ [])
    (type : LookupType) : (e.add eid type).Clear := by
  have hcons {eids : List Bytes} (heids : ∀ e ∈ eids, e ≠ []) :
      ∀ e ∈ if eid ∈ eids then eids else eid :: eids, e ≠ [] := by
    split_ifs
    · exact heids
    · exact List.forall_mem_cons.mpr ⟨heid, heids⟩
  cases type with
  | singleton => exact ⟨List.length_take_le _ _, h.groups, h.neighbours⟩
  | group => exact ⟨h.own, hcons h.groups, h.neighbours⟩
  | neighbour => exact ⟨h.own, h.groups, hcons h.neighbours⟩

theorem DtnEids.Clear.remove {e : DtnEids} (h : e.Clear) (eid : Bytes) : (e.remove eid).Clear :=
  ⟨h.own, fun x hx => h.groups x (List.mem_of_mem_erase hx),
    fun x hx => h.neighbours x (List.mem_of_mem_erase hx)⟩

theorem clear_dhtInitWith {w : World} (h : w.eids.Clear) {s s6 : ℤ} {id : Id} {v : Option Bytes}
    {oc : InitOutcomes} : (w.dhtInitWith s s6 id v oc).2.eids.Clear := by
  have hempty : DtnEids.Clear { w.eids with groups := [], neighbours := [] } :=
    ⟨h.own, fun _ hx => absurd hx List.not_mem_nil, fun _ hx => absurd hx List.not_mem_nil⟩
  have hrest (w : World) : (w.initRest s s6 id v oc).2.eids = w.eids := by
    unfold World.initRest
    split_ifs <;> rfl
  have hfamily6 (w : World) : (w.initFamily6 s s6 id v oc).2.eids = w.eids := by
    unfold World.initFamily6
    split_ifs
    · exact hrest _
    · rfl
    · rfl
    · exact hrest w
  unfold World.dhtInitWith World.initFamily
  dsimp only
  split_ifs
  · exact h
  · exact (hfamily6 _).symm ▸ hempty
  · exact hempty
  · exact hempty
  · exact (hfamily6 _).symm ▸ hempty

/-- The EIDs of a process stay clear. -/
theorem Process.clear_call {p : Process} (h : p.world.eids.Clear) {c : ProcessCall}
    (hc : c.Clear) : (p.call c).world.eids.Clear := by
  have hsearch (w : World) (s : ℤ) (id : Id) (af : ℕ) :
      (if 0 ≤ s then (w.dhtSearch id 0 af).2 else w).eids = w.eids := by
    split_ifs
    · exact (World.kept_dhtSearch w id 0 af).eids
    · rfl
  cases c with
  | init ctx id oc =>
    have hready : (p.world.readyToInit ctx).eids.Clear := h
    exact clear_dhtInitWith hready
  | uninit => exact (eids_uninit p).symm ▸ h
  | api lib ctx c =>
    have hcall : (p.call (.api lib ctx c)).world.eids = p.world.eids.step c := World.eids_call c
    rw [hcall]
    cases c with
    | lookup eid => exact h
    | announce eid type => exact h.add hc type
    | deannounce eid => exact h.remove eid
    | periodic dg => exact h
  | startRandomLookup ctx =>
    dsimp only [call, World.startRandomLookup]
    rw [hsearch, hsearch]
    split_ifs
    · exact h
    · exact h
  | insertNode id sa salen =>
    dsimp only [call, World.dhtInsertNode]
    split_ifs
    · exact h
    · exact h
  | blacklist | pingNode => exact h

/-- The EIDs of a process are clear, whatever it was called with. -/
theorem Process.clear_after (env : Env) {past : List ProcessCall} (hc : ∀ c ∈ past, c.Clear) :
    ((start env).after past).world.eids.Clear := by
  induction past with
  | nil =>
    have hnone : (str "none").length ≤ dtnEidMaxLength := by decide
    exact ⟨hnone, fun _ hx => absurd hx List.not_mem_nil, fun _ hx => absurd hx List.not_mem_nil⟩
  | cons c past ih =>
    exact clear_call (ih fun c' hc' => hc c' (List.mem_cons_of_mem _ hc'))
      (hc c List.mem_cons_self)

/-! ## The network -/

section

variable {ι : Type*} [DecidableEq ι]

/-- The processes of a network after a run. -/
def nodes (env : ι → Env) (calls : List (ι × ProcessCall)) : ι → Process :=
  Network.after Process.call (fun i => Process.start (env i)) calls

/-- The datagram that comes in with the call, if it starts like a result. -/
def ProcessCall.resultHeard : ProcessCall → Option Datagram
  | .api _ _ (.periodic (some dg)) => if resultMarker.isPrefixOf dg.buf then some dg else none
  | _ => none

/-- The process has answered with the datagram, which comes from its address. -/
def Process.HasSent (addr : Sockaddr) (p : Process) (dg : Datagram) : Prop :=
  dg.frm = addr ∧ ∃ answer ∈ p.world.replies, answer.payload = dg.buf

/-- Nobody forges results. -/
def HonestResults (env : ι → Env) (addr : ι → Sockaddr) (calls : List (ι × ProcessCall)) : Prop :=
  Network.Honest Process.call (fun i => Process.start (env i)) (fun j p dg => p.HasSent (addr j) dg)
    (fun c dg => c.resultHeard = some dg) calls

variable {env : ι → Env} {calls : List (ι × ProcessCall)}

/-- A node is the process that has been called with its own calls. -/
theorem nodes_eq_after (j : ι) :
    nodes env calls j = (Process.start (env j)).after (Network.own j calls) :=
  Network.after_eq_foldr

theorem clear_nodes (hc : ∀ c ∈ calls, c.2.Clear) (j : ι) :
    (nodes env calls j).world.eids.Clear := by
  rw [nodes_eq_after]
  refine Process.clear_after (env j) fun c hmem => ?_
  obtain ⟨c', hc', rfl⟩ := List.mem_map.mp hmem
  exact hc c' (List.mem_of_mem_filter hc')

/-- A new report is read in a datagram that starts like a result. -/
theorem resultHeard_of_results {p : Process} {c : ProcessCall} {result : LookupResult}
    (hnot : result ∉ p.world.results) (hnow : result ∈ (p.call c).world.results) :
    ∃ dg, c.resultHeard = some dg ∧ ∃ lib ctx, c = .api lib ctx (.periodic (some dg)) ∧
      ∃ tid0, (parseDtnMessage lib.inetNtop dg.frm dg.buf tid0 16).message = some .dtnReply ∧
        (parseDtnMessage lib.inetNtop dg.frm dg.buf tid0 16).result = result := by
  rw [World.mem_results_iff] at hnot hnow
  rcases p.answers_call c with h | ⟨lib, ctx, dg, hc, ⟨pkts, h, -⟩ | ⟨r, h, tid0, hm, hr⟩⟩
  · exact absurd (h ▸ hnow) hnot
  · rw [h, List.mem_append] at hnow
    obtain ⟨pkt, -, heq⟩ := List.mem_map.mp (hnow.resolve_left hnot)
    exact Output.noConfusion heq
  · rw [h, List.mem_append, List.mem_singleton] at hnow
    obtain rfl : result = r := Output.lookupResult.inj (hnow.resolve_left hnot)
    refine ⟨dg, ?_, lib, ctx, hc, tid0, hm, hr⟩
    rw [hc]
    exact if_pos (List.isPrefixOf_iff_prefix.mpr (result_of_message hm))

/-- A new answer that starts like a result is made of the EIDs of the node and the layers of its
context, for who asked. -/
theorem asked_of_hasSent {p : Process} {c : ProcessCall} {addr : Sockaddr} {dg : Datagram}
    (hdg : resultMarker <+: dg.buf) (hnot : ¬ p.HasSent addr dg) (hnow : (p.call c).HasSent addr dg) :
    dg.frm = addr ∧ ∃ lib ctx query, c = .api lib ctx (.periodic (some query)) ∧
      (∃ tid0, (parseDtnMessage lib.inetNtop query.frm query.buf tid0 16).message =
        some .dtnQuery) ∧
      ∃ tid, sendDtninfo tid p.world.eids.myEid ctx.clayer p.world.eids.neighbours
        p.world.eids.groups = some dg.buf := by
  obtain ⟨hfrm, answer, hanswer, hpayload⟩ := hnow
  have hnew : .reply answer ∉ p.world.answers := fun h =>
    hnot ⟨hfrm, answer, World.mem_replies_iff.mpr h, hpayload⟩
  rw [World.mem_replies_iff] at hanswer
  rcases p.answers_call c with h | ⟨lib, ctx, query, hc, ⟨pkts, h, hresult⟩ | ⟨r, h, -⟩⟩
  · exact absurd (h ▸ hanswer) hnew
  · rw [h, List.mem_append] at hanswer
    obtain ⟨pkt, hpkt, heq⟩ := List.mem_map.mp (hanswer.resolve_left hnew)
    obtain rfl : pkt = answer := Output.reply.inj heq
    obtain ⟨hquery, tid, hsend⟩ := hresult pkt hpkt (hpayload ▸ hdg)
    exact ⟨hfrm, lib, ctx, query, hc, hquery, tid, hpayload ▸ hsend⟩
  · rw [h, List.mem_append, List.mem_singleton] at hanswer
    exact Output.noConfusion (hanswer.resolve_left hnew)

/-- The result is what some node knew of itself when it was asked; the layers that are read as TCP
or UDP ones have the address of the node. -/
def Published (env : ι → Env) (addr : ι → Sockaddr) (calls : List (ι × ProcessCall)) (i : ι)
    (result : LookupResult) : Prop :=
  ∃ lib ctx dg j, (i, .api lib ctx (.periodic (some dg))) ∈ calls ∧ dg.frm = addr j ∧
    ∃ lib' ctx' query past, (j, .api lib' ctx' (.periodic (some query))) :: past <:+ calls ∧
      (∃ tid0, (parseDtnMessage lib'.inetNtop query.frm query.buf tid0 16).message =
        some .dtnQuery) ∧
      result = ⟨some (nodes env past j).world.eids.myEid, (nodes env past j).world.eids.groups,
        (nodes env past j).world.eids.neighbours,
        ctx'.clayer.map (decodedLayer lib.inetNtop (addr j))⟩

/-- **An application is told only what some node knew of itself when it was asked**, whatever the
nodes are called with and whatever the network brings them, as long as nobody forges results. -/
theorem told_is_published {addr : ι → Sockaddr} (hhonest : HonestResults env addr calls)
    (hclear : ∀ c ∈ calls, c.2.Clear) {i : ι} {result : LookupResult}
    (h : result ∈ (nodes env calls i).world.results) : Published env addr calls i result := by
  have hstart (j : ι) (dg : Datagram) : ¬ (Process.start (env j)).HasSent (addr j) dg := by
    rintro ⟨-, answer, hanswer, -⟩
    exact absurd hanswer List.not_mem_nil
  obtain ⟨c, dg, hc, -, ⟨lib, ctx, rfl, tid0, hm, hread⟩, j, c', past, hrun, hnot, hnow⟩ :=
    hhonest.exists_origin (P := fun p => result ∈ p.world.results) hstart List.not_mem_nil
      (fun p c hnot hnow => resultHeard_of_results hnot hnow) h
  obtain ⟨hfrm, lib', ctx', query, rfl, hquery, tid, hsend⟩ :=
    asked_of_hasSent (result_of_message hm) hnot hnow
  refine ⟨lib, ctx, dg, j, hc, hfrm, lib', ctx', query, past, hrun, hquery, ?_⟩
  -- what the node knew is written and read without loss
  have hlayers : ClearLayers ctx'.clayer := hclear _ (hrun.subset List.mem_cons_self)
  have heids : (nodes env past j).world.eids.Clear :=
    clear_nodes (fun c hc => hclear c (hrun.subset (List.mem_cons_of_mem _ hc))) j
  let info : DtnInfo := ⟨tid, (nodes env past j).world.eids.myEid, ctx'.clayer,
    (nodes env past j).world.eids.neighbours, (nodes env past j).world.eids.groups⟩
  have hinfo : info.Clear := ⟨hlayers.name_plain, hlayers.arg_plain, heids.neighbours,
    heids.groups, heids.own, hlayers.no_marker⟩
  obtain ⟨hlen, hopening⟩ := DtnInfo.opening_of_sendDtninfo (i := info) hsend
  have hsome : (parseDtnMessage lib.inetNtop dg.frm dg.buf tid0 16).message ≠ none := by
    rw [hm]
    exact Option.some_ne_none _
  rw [← hread, parseDtnMessage_told hinfo lib.inetNtop dg.frm hlen hopening hsome, hfrm]

end

/-! ## An exchange in a network -/

/-- The addresses of two nodes; the second one is asked. -/
def pairAddress (asked : Bool) : Sockaddr := cond asked askedAddress askerAddress

/-- A query as it comes in at the second node. -/
def pairQuery : Datagram :=
  ⟨queryPacket (makeTid (str "pn") 0) (str "dtn://b"), true, askerAddress, 16⟩

/-- The answer as it comes in at the first node. -/
def pairAnswer : Datagram :=
  ⟨DtnInfo.packet ⟨makeTid (str "pn") 0, str "dtn://node", layerContext.clayer, [], []⟩, true,
    askedAddress, 16⟩

/-- Two nodes start and announce EIDs, the first asks the second, which then changes its EID, and the
answer comes twice. -/
def pairRun : List (Bool × ProcessCall) :=
  let api (c : ApiCall) : ProcessCall := .api World.samplePlatform layerContext c
  [(false, api (.periodic (some pairAnswer))), (false, api (.periodic (some pairAnswer))),
    (true, api (.announce (str "dtn://else") .singleton)),
    (true, api (.periodic (some pairQuery))),
    (false, api (.announce (str "dtn://b") .singleton)),
    (true, api (.announce (str "dtn://node") .singleton)),
    (false, .init layerContext (Id.ofBytes [1]) .succeed),
    (true, .init layerContext (Id.ofBytes [2]) .succeed)]

theorem told_is_published_pairRun :
    Published (fun _ => Env.still 1000) pairAddress pairRun false ⟨some (str "dtn://node"), [], [],
      [⟨str "tcp", [⟨str "ip", []⟩, ⟨str "port", str "4556"⟩]⟩]⟩ := by
  have hsent : ∀ n ∈ [1, 2], ∃ answer ∈
      (nodes (fun _ => Env.still 1000) (pairRun.drop n) true).world.replies,
        answer.payload = pairAnswer.buf := by decide +kernel
  refine told_is_published ?_ ?_ ?_
  · have hother {c : ProcessCall} (h : c.resultHeard = none) {P : Datagram → Prop} :
        ∀ dg, c.resultHeard = some dg → P dg := fun dg hdg =>
      absurd (h.symm.trans hdg) (Option.some_ne_none dg).symm
    have hanswer {n : ℕ} (hn : n ∈ [1, 2]) : ∀ dg, some pairAnswer = some dg →
        ∃ j, (nodes (fun _ => Env.still 1000) (pairRun.drop n) j).HasSent (pairAddress j) dg :=
      fun dg h => ⟨true, Option.some_inj.mp h ▸ ⟨rfl, hsent n hn⟩⟩
    refine Network.honest_cons_iff.mpr ⟨hanswer (by decide : 1 ∈ [1, 2]), ?_⟩
    refine Network.honest_cons_iff.mpr ⟨hanswer (by decide : 2 ∈ [1, 2]), ?_⟩
    refine Network.honest_cons_iff.mpr ⟨hother (by decide), ?_⟩
    refine Network.honest_cons_iff.mpr ⟨hother (by decide +kernel), ?_⟩
    refine Network.honest_cons_iff.mpr ⟨hother (by decide), ?_⟩
    refine Network.honest_cons_iff.mpr ⟨hother (by decide), ?_⟩
    refine Network.honest_cons_iff.mpr ⟨hother (by decide), ?_⟩
    exact Network.honest_cons_iff.mpr ⟨hother (by decide), Network.honest_nil⟩
  · have hlayers : ClearLayers layerContext.clayer := by constructor <;> decide +kernel
    intro c hc
    simp only [pairRun, List.mem_cons, List.not_mem_nil, or_false] at hc
    rcases hc with rfl | rfl | rfl | rfl | rfl | rfl | rfl | rfl
    · exact hlayers
    · exact hlayers
    · exact (by decide : str "dtn://else" ≠ [])
    · exact hlayers
    · exact (by decide : str "dtn://b" ≠ [])
    · exact (by decide : str "dtn://node" ≠ [])
    · trivial
    · trivial
  · decide +kernel

end DtnDht
