import DtnDht.LayerGrammar
import DtnDht.Lib.Ledger

/-!
# Who releases the convergence layers

`parse_dtn_convergence_layer` fills in the record it is passed, creates the next one and passes that
to itself. When the inner call fails, it releases the record it was passed, which its caller still
holds: the call one level up knows nothing of that, and `parse_dtn_message` releases the first
record, and with it all that hang on it. So the records are released once when the list of layers is
accepted or its first item is refused, and else all but the last are released twice
(`releasedOnce_iff`).
-/

namespace DtnDht

open CString Ledger Occurrence

/-- All the records `create_convergence_layer` has returned. -/
abbrev LayerHeap := Heap ConvergenceLayer

/-- What of an item is looked at behind its length: `name=`, and the arguments behind the name. -/
def itemTaken (q : Bytes) (l : ℕ) : Bool :=
  (str "name=").isPrefixOf q.tail &&
    let namelen := scanUntil 59 (q.drop 6) (l - 6)
    (parseDtnConvergenceLayerArgs (q.drop (6 + namelen + 1)) (l - namelen - 6)).isSome

/-- The buffer starts with an item: a number above 5, a colon, as many bytes, and these start with a
name and arguments. -/
def firstItemTaken (buf : Bytes) (buflen : ℕ) : Bool :=
  let (l, q) := strtol buf
  q.head? = some 58 && 5 < l && buf.length - q.length + l.toNat + 1 ≤ buflen && itemTaken q l.toNat

section

variable (inetNtop : ℕ → Bytes → Bytes) (frm : Sockaddr)

/-- `parse_dtn_convergence_layer` with fuel on the records; `layers` is the record it fills in. -/
def parseLayersAux : ℕ → Bytes → ℕ → ℕ → LayerHeap → Option ℕ × LayerHeap
  | 0, _, _, _, h => (none, h)
  | fuel + 1, buf, buflen, layers, h =>
    if buf.head? = some 101 then (some 0, h.setNext layers none)
    else
      let (l, q) := strtol buf
      if q.head? = some 58 ∧ 5 < l then
        let consumed := buf.length - q.length + l.toNat + 1
        if buflen < consumed then (none, h)
        else
          match parseLayerText inetNtop frm q l.toNat with
          | none => (none, h)
          | some layer =>
            let (next, h) := (h.setContent layers layer).create
            let h := h.setNext layers (some next)
            match parseLayersAux fuel (buf.drop consumed) (buflen - consumed) next h with
            | (some pos, h) =>
              (some (l.toNat + pos),
                if pos = 0 then (h.freeList (h.next layers)).setNext layers none else h)
            | (none, h) => (none, h.free layers)
      else (none, h)

/-- `parse_dtn_message`, the layers of a reply: `result->clayer`, none for `NULL`. -/
def parseReplyLayers (buf : Bytes) : Option ℕ × LayerHeap :=
  let (cl, h) := (Heap.empty : LayerHeap).create
  match parseLayersAux inetNtop frm (buf.length - 10 + 1) (buf.drop 10) (buf.length - 10) cl h with
  | (none, h) => (none, h.freeList (some cl))
  | (some 0, h) => (none, h.freeList (some cl))
  | (some (_ + 1), h) => (some cl, h)

/-- `parse_dtn_message`, as far as it creates layers: `result->clayer`, none for `NULL`. -/
def parseMessageLayers (buf : Bytes) : Option ℕ × LayerHeap :=
  if (str "d1:ad3:eid").isPrefixOf buf then (none, Heap.empty)
  else if (str "d1:rd2:cll").isPrefixOf buf then parseReplyLayers inetNtop frm buf
  else (none, Heap.empty)

/-- The records after `parse_dtn_message` and `free_dtn_dht_lookup_result`. -/
def releaseLayers (buf : Bytes) : LayerHeap :=
  let (clayer, h) := parseMessageLayers inetNtop frm buf
  h.freeList clayer

/-! ## What the parser does to the records -/

/-- Items were read into record `d`, the last one then, and the `k - 1` behind it, and the item for
record `d + k` was refused; the others are released from the last to the first. -/
structure Refused (h h' : LayerHeap) (d k : ℕ) : Prop where
  frame : ∀ j < d, h'.cells[j]? = h.cells[j]?
  cells : h'.cells.length = d + 1 + k
  linked : Heap.Linked h' d k
  released : h'.released = h.released ++ (List.range' d k).reverse

/-- Arguments that are read take at least their separators. -/
theorem parseDtnConvergenceLayerArgs_pos {buf : Bytes} {n rc : ℕ} {args : List ConvergenceLayerArg}
    (h : parseDtnConvergenceLayerArgs buf n = some (rc, args)) : 0 < rc := by
  rw [parseDtnConvergenceLayerArgs_eq] at h
  dsimp only at h
  split_ifs at h with h61 h59 hres
  · cases hrec : parseDtnConvergenceLayerArgs (buf.drop (scanUntil 61 buf n +
      scanUntil 59 (buf.drop (scanUntil 61 buf n + 1)) (n - (scanUntil 61 buf n + 1)) + 2))
        (n - (scanUntil 61 buf n +
          scanUntil 59 (buf.drop (scanUntil 61 buf n + 1)) (n - (scanUntil 61 buf n + 1)) + 2)) with
    | none => simp only [hrec] at h; exact absurd h nofun
    | some out =>
      simp only [hrec, Option.some_inj, Prod.mk.injEq] at h
      omega
  · simp only [Option.some_inj, Prod.mk.injEq] at h
    omega

theorem parseLayerText_isSome (q : Bytes) (l : ℕ) :
    (parseLayerText inetNtop frm q l).isSome = itemTaken q l := by
  unfold parseLayerText itemTaken
  by_cases hpre : (str "name=").isPrefixOf q.tail = true
  · rw [if_pos hpre, hpre, Bool.true_and]
    dsimp only
    cases hargs : parseDtnConvergenceLayerArgs
        (q.drop (6 + scanUntil 59 (q.drop 6) (l - 6) + 1))
        (l - scanUntil 59 (q.drop 6) (l - 6) - 6) with
    | none => rfl
    | some out =>
      obtain ⟨rc, args⟩ := out
      obtain ⟨rc, rfl⟩ := Nat.exists_eq_succ_of_ne_zero (parseDtnConvergenceLayerArgs_pos hargs).ne'
      rfl
  · rw [if_neg hpre, Bool.eq_false_of_not_eq_true hpre]
    rfl

section

variable {h h' : LayerHeap} {d : ℕ} {layer : ConvergenceLayer} (hlen : h.cells.length = d + 1)
include hlen

/-- Some item behind this one is refused: the record of this one is released. -/
theorem Refused.succ {k : ℕ} (hrec : Refused (withNext h d layer) h' (d + 1) k) :
    Refused h (h'.free d) d (k + 1) := by
  obtain ⟨hnext, hcontent, hbelow⟩ := cell_of_frame hlen hrec.frame
  refine ⟨hbelow, ?_, ⟨hnext, ?_⟩, ?_⟩
  · rw [Heap.cells_free, hrec.cells]
    omega
  · exact Heap.linked_free.mpr hrec.linked
  · rw [Heap.released_free, hrec.released, (withNext_spec hlen layer).2.2.2.2.2,
      List.range'_succ (n := k), List.reverse_cons, List.append_assoc]

end

/-- What the parser returns, and what it leaves of the records. -/
theorem parseLayersAux_spec (fuel : ℕ) : ∀ (buf : Bytes) (buflen : ℕ) {d : ℕ} {h : LayerHeap},
    h.cells.length = d + 1 → h.next d = none →
    match parseDtnConvergenceLayerAux inetNtop frm fuel buf buflen with
    | some (n, layers) => ∃ h', parseLayersAux inetNtop frm fuel buf buflen d h = (some n, h') ∧
        Filled h h' d layers ∧ (n = 0 ↔ layers = [])
    | none => ∃ h' k, parseLayersAux inetNtop frm fuel buf buflen d h = (none, h') ∧
        Refused h h' d k ∧ (0 < fuel → (0 < k ↔ firstItemTaken buf buflen = true)) := by
  induction fuel with
  | zero =>
    intro buf buflen d h hlen hnext
    exact ⟨h, 0, rfl, ⟨fun _ _ => rfl, hlen, hnext, (List.append_nil _).symm⟩,
      fun h0 => absurd h0 (lt_irrefl 0)⟩
  | succ fuel ih =>
    intro buf buflen d h hlen hnext
    have hrefused : Refused h h d 0 := ⟨fun _ _ => rfl, hlen, hnext, (List.append_nil _).symm⟩
    rw [parseDtnConvergenceLayerAux, parseLayersAux]
    by_cases hend : buf.head? = some 101
    · rw [if_pos hend, if_pos hend]
      refine ⟨_, rfl, ⟨?_, ?_, ?_, rfl, (List.append_nil _).symm⟩, iff_of_true rfl rfl⟩
      · intro j hj
        exact Heap.getElem?_cells_setNext _ hj.ne
      · rw [Heap.length_cells_setNext]
        exact hlen
      · exact Heap.next_setNext none (by omega)
    rw [if_neg hend, if_neg hend]
    unfold firstItemTaken
    generalize strtol buf = out
    obtain ⟨l, q⟩ := out
    dsimp only
    by_cases hcolon : q.head? = some 58 ∧ 5 < l
    swap
    · rw [if_neg hcolon, if_neg hcolon]
      refine ⟨h, 0, rfl, hrefused, fun _ => iff_of_false (lt_irrefl 0) ?_⟩
      simp only [Bool.and_eq_true, decide_eq_true_eq]
      exact fun hc => hcolon hc.1.1
    rw [if_pos hcolon, if_pos hcolon]
    by_cases hfits : buflen < buf.length - q.length + l.toNat + 1
    · rw [if_pos hfits, if_pos hfits]
      refine ⟨h, 0, rfl, hrefused, fun _ => iff_of_false (lt_irrefl 0) ?_⟩
      simp only [Bool.and_eq_true, decide_eq_true_eq]
      exact fun hc => absurd hc.1.2 (not_le.mpr hfits)
    rw [if_neg hfits, if_neg hfits]
    have hitem := parseLayerText_isSome inetNtop frm q l.toNat
    cases hlayer : parseLayerText inetNtop frm q l.toNat with
    | none =>
      rw [hlayer] at hitem
      refine ⟨h, 0, rfl, hrefused, fun _ => iff_of_false (lt_irrefl 0) ?_⟩
      simp only [Bool.and_eq_true]
      exact fun hc => absurd (hitem.trans hc.2) Bool.false_ne_true
    | some layer =>
      rw [hlayer] at hitem
      obtain ⟨hlen', -, hnext', -⟩ := withNext_spec hlen layer
      have hrec := ih (buf.drop (buf.length - q.length + l.toNat + 1))
        (buflen - (buf.length - q.length + l.toNat + 1)) hlen' hnext'
      have hcreated : ((h.setContent d layer).create.1) = d + 1 := by
        rw [Heap.create_fst, Heap.length_cells_setContent, hlen]
      dsimp only
      rw [hcreated]
      cases hlist : parseDtnConvergenceLayerAux inetNtop frm fuel
          (buf.drop (buf.length - q.length + l.toNat + 1))
          (buflen - (buf.length - q.length + l.toNat + 1)) with
      | none =>
        simp only [hlist] at hrec
        obtain ⟨h', k, hparse, href, -⟩ := hrec
        rw [withNext] at hparse
        dsimp only
        rw [hparse]
        refine ⟨h'.free d, k + 1, rfl, href.succ hlen, fun _ => iff_of_true (Nat.succ_pos k) ?_⟩
        simp only [Bool.and_eq_true, decide_eq_true_eq]
        exact ⟨⟨hcolon, not_lt.mp hfits⟩, hitem.symm⟩
      | some out =>
        obtain ⟨pos, layers⟩ := out
        simp only [hlist] at hrec
        obtain ⟨h', hparse, hacc, hpos⟩ := hrec
        rw [withNext] at hparse
        dsimp only
        rw [hparse]
        have hsum : l.toNat + pos = 0 ↔ layer :: layers = [] :=
          iff_of_false (by omega) (List.cons_ne_nil _ _)
        by_cases hpos0 : pos = 0
        · obtain rfl := hpos.mp hpos0
          exact ⟨_, by simp only [if_pos hpos0], hacc.singleton hlen, hsum⟩
        · have hne := fun hnil => hpos0 (hpos.mpr hnil)
          exact ⟨h', by simp only [if_neg hpos0], hacc.cons hlen hne, hsum⟩

/-! ## The whole of `parse_dtn_message` -/

/-- Where the list of layers of a reply starts. -/
def isDtnReply (buf : Bytes) : Bool :=
  !(str "d1:ad3:eid").isPrefixOf buf && (str "d1:rd2:cll").isPrefixOf buf

/-- Every record created is released once. -/
def ReleasedOnce (h : LayerHeap) : Prop := ∀ k < h.cells.length, h.released.count k = 1

theorem parseMessageLayers_of_not_reply {buf : Bytes} (hbuf : isDtnReply buf = false) :
    parseMessageLayers inetNtop frm buf = (none, Heap.empty) := by
  unfold parseMessageLayers
  unfold isDtnReply at hbuf
  cases hq : (str "d1:ad3:eid").isPrefixOf buf with
  | true => rfl
  | false =>
    rw [hq, Bool.not_false, Bool.true_and] at hbuf
    rw [hbuf]
    rfl

theorem parseMessageLayers_of_reply {buf : Bytes} (hbuf : isDtnReply buf = true) :
    parseMessageLayers inetNtop frm buf = parseReplyLayers inetNtop frm buf := by
  unfold isDtnReply at hbuf
  rw [Bool.and_eq_true, Bool.not_eq_true'] at hbuf
  unfold parseMessageLayers
  rw [hbuf.1, hbuf.2]
  rfl

/-- Records released from the last to the first are released once. -/
theorem count_reverse_range' (k n j : ℕ) :
    ((List.range' k n).reverse).count j = if k ≤ j ∧ j < k + n then 1 else 0 := by
  rw [List.count_reverse, List.count_range_1']

/-- An accepted list is released once: the record of the `e` by the parser, the others by
`free_dtn_dht_lookup_result` or, if there are none, by `parse_dtn_message`. -/
theorem releasedOnce_of_accepted {h h' : LayerHeap} {layers : List ConvergenceLayer}
    (h0 : h.released = []) (hacc : Filled h h' 0 layers) :
    ReleasedOnce (h'.freeList (some 0)) := by
  have hcells := hacc.cells
  rw [Heap.freeList_of_linked hacc.linked (by omega)]
  intro j hj
  change j < h'.cells.length at hj
  show List.count j (h'.released ++ _) = 1
  rw [hacc.released, h0, List.nil_append, List.count_append, count_reverse_range']
  by_cases hnil : layers = []
  · rw [hnil, List.length_nil] at hcells
    rw [if_pos hnil, List.count_nil, hnil, List.length_nil, if_pos (by omega)]
  · have hpos : 0 < layers.length := List.length_pos_iff.mpr hnil
    rw [if_neg hnil, List.count_singleton]
    by_cases hlast : j = layers.length
    · rw [if_pos (by rw [hlast, Nat.zero_add]; exact beq_self_eq_true _), if_neg (by omega)]
    · rw [if_neg (by rw [beq_iff_eq]; omega), if_pos (by omega)]

/-- After a refused item all records but the last are released twice. -/
theorem releasedOnce_of_refused {h h' : LayerHeap} {k : ℕ} (h0 : h.released = [])
    (href : Refused h h' 0 k) : ReleasedOnce (h'.freeList (some 0)) ↔ k = 0 := by
  have hcells := href.cells
  have hcount : ∀ j, (h'.freeList (some 0)).released.count j =
      (if 0 ≤ j ∧ j < 0 + k then 1 else 0) + if 0 ≤ j ∧ j < 0 + (k + 1) then 1 else 0 := by
    intro j
    rw [Heap.freeList_of_linked href.linked (by omega)]
    show List.count j (h'.released ++ _) = _
    rw [href.released, h0, List.nil_append, List.count_append, count_reverse_range',
      count_reverse_range']
  have hlen : (h'.freeList (some 0)).cells.length = k + 1 := by
    rw [Heap.freeList_of_linked href.linked (by omega)]
    show h'.cells.length = k + 1
    omega
  unfold ReleasedOnce
  rw [hlen]
  constructor
  · intro hall
    have hfirst := hall 0 (Nat.succ_pos k)
    rw [hcount, if_pos (c := 0 ≤ 0 ∧ 0 < 0 + (k + 1)) (by omega)] at hfirst
    by_contra hk
    rw [if_pos (by omega)] at hfirst
    exact absurd hfirst (by decide)
  · rintro rfl j hj
    rw [hcount, if_neg (by omega), if_pos (by omega)]

/-- What is left of the records of a reply, and which of them the result gets. -/
theorem parseReplyLayers_spec (buf : Bytes) :
    match parseDtnConvergenceLayer inetNtop frm (buf.drop 10) (buf.drop 10).length with
    | some (n, layers) => ∃ h', Filled (Heap.empty : LayerHeap).create.2 h' 0 layers ∧
        parseReplyLayers inetNtop frm buf =
          if n = 0 then (none, h'.freeList (some 0)) else (some 0, h')
    | none => ∃ h' k, Refused (Heap.empty : LayerHeap).create.2 h' 0 k ∧
        (0 < k ↔ firstItemTaken (buf.drop 10) (buf.drop 10).length = true) ∧
        parseReplyLayers inetNtop frm buf = (none, h'.freeList (some 0)) := by
  have hspec := parseLayersAux_spec inetNtop frm ((buf.drop 10).length + 1) (buf.drop 10)
    (buf.drop 10).length (d := 0) (h := (Heap.empty : LayerHeap).create.2) rfl rfl
  unfold parseReplyLayers parseDtnConvergenceLayer
  rw [← List.length_drop]
  dsimp only
  rw [show (Heap.empty : LayerHeap).create.1 = 0 from rfl]
  cases hlist : parseDtnConvergenceLayerAux inetNtop frm ((buf.drop 10).length + 1) (buf.drop 10)
      (buf.drop 10).length with
  | none =>
    simp only [hlist] at hspec
    obtain ⟨h', k, hparse, href, hk⟩ := hspec
    rw [hparse]
    exact ⟨h', k, href, hk (Nat.succ_pos _), rfl⟩
  | some out =>
    obtain ⟨n, layers⟩ := out
    simp only [hlist] at hspec
    obtain ⟨h', hparse, hacc, -⟩ := hspec
    rw [hparse]
    refine ⟨h', hacc, ?_⟩
    cases n with
    | zero => rfl
    | succ n => rfl

/-- The layers of a reply are read into the first record, and that is released in any case. -/
theorem releaseLayers_of_reply {buf : Bytes} (hbuf : isDtnReply buf = true) :
    ∃ h' : LayerHeap, releaseLayers inetNtop frm buf = h'.freeList (some 0) ∧
      match parseDtnConvergenceLayer inetNtop frm (buf.drop 10) (buf.drop 10).length with
      | some (_, layers) => Filled (Heap.empty : LayerHeap).create.2 h' 0 layers
      | none => ∃ k, Refused (Heap.empty : LayerHeap).create.2 h' 0 k ∧
          (0 < k ↔ firstItemTaken (buf.drop 10) (buf.drop 10).length = true) := by
  have hnil : ∀ h : LayerHeap, h.freeList none = h := by
    intro h
    unfold Heap.freeList
    cases h.cells.length <;> rfl
  have hspec := parseReplyLayers_spec inetNtop frm buf
  unfold releaseLayers
  rw [parseMessageLayers_of_reply inetNtop frm hbuf]
  cases hlist : parseDtnConvergenceLayer inetNtop frm (buf.drop 10) (buf.drop 10).length with
  | none =>
    simp only [hlist] at hspec
    obtain ⟨h', k, href, hk, hparse⟩ := hspec
    rw [hparse]
    exact ⟨h', hnil _, k, href, hk⟩
  | some out =>
    obtain ⟨n, layers⟩ := out
    simp only [hlist] at hspec
    obtain ⟨h', hacc, hparse⟩ := hspec
    rw [hparse]
    refine ⟨h', ?_, hacc⟩
    by_cases hn : n = 0
    · rw [if_pos hn]
      exact hnil _
    · rw [if_neg hn]

/-- The rest of a reply leaves the layers in the result. -/
theorem parseReplyEid_clayer (buf tid : Bytes) (pos tidLen : ℕ) (result : LookupResult) :
    (parseReplyEid buf pos tid tidLen result).result.clayer = result.clayer := by
  unfold parseReplyEid
  cases findFrom buf pos (str "e3:eid") with
  | none => rfl
  | some p =>
    cases hr : readField buf p (5 < ·) with
    | malformed => simp only [hr]
    | overflow => simp only [hr]
    | value eid =>
      obtain ⟨grs, nbs, hg⟩ := parseReplyGroups_result buf tid (p + eid.length) tidLen
        { result with eid := some eid }
      simp only [hr, hg]

theorem parseDtnQuery_clayer (buf tid : Bytes) (tidLen : ℕ) :
    (parseDtnQuery buf tid tidLen).result.clayer = [] := by
  unfold parseDtnQuery
  cases readField buf 10 (0 < ·) with
  | malformed => rfl
  | overflow => rfl
  | value eid =>
    cases findInfix (str "e1:q3:dtn1:t") buf with
    | none => rfl
    | some p => cases hf : readField buf (p + 12) (fun l => 0 < l && l < tidLen) <;> simp only [hf]

/-- `result->clayer` leads through the layers that the parser on lists puts into the result. -/
theorem parseMessageLayers_clayer (buf tid : Bytes) (tidLen : ℕ) :
    match (parseMessageLayers inetNtop frm buf).1 with
    | none => (parseDtnMessage inetNtop frm buf tid tidLen).result.clayer = []
    | some cl => ∃ layers, (parseDtnMessage inetNtop frm buf tid tidLen).result.clayer = layers ∧
        Heap.Linked (parseMessageLayers inetNtop frm buf).2 cl (layers.length - 1) ∧
        (List.range' cl layers.length).map (parseMessageLayers inetNtop frm buf).2.content =
          layers.map some := by
  cases hbuf : isDtnReply buf with
  | false =>
    rw [parseMessageLayers_of_not_reply inetNtop frm hbuf]
    unfold parseDtnMessage
    unfold isDtnReply at hbuf
    cases hq : (str "d1:ad3:eid").isPrefixOf buf with
    | true => exact parseDtnQuery_clayer buf tid tidLen
    | false =>
      rw [hq, Bool.not_false, Bool.true_and] at hbuf
      rw [hbuf]
      rfl
  | true =>
    have hspec := parseReplyLayers_spec inetNtop frm buf
    rw [parseMessageLayers_of_reply inetNtop frm hbuf]
    unfold isDtnReply at hbuf
    rw [Bool.and_eq_true, Bool.not_eq_true'] at hbuf
    unfold parseDtnMessage parseDtnReply
    rw [hbuf.1, hbuf.2, if_neg Bool.false_ne_true, if_pos rfl, ← List.length_drop]
    cases hlist : parseDtnConvergenceLayer inetNtop frm (buf.drop 10) (buf.drop 10).length with
    | none =>
      simp only [hlist] at hspec
      obtain ⟨h', k, href, hk, hparse⟩ := hspec
      rw [hparse]
    | some out =>
      obtain ⟨n, layers⟩ := out
      simp only [hlist] at hspec
      obtain ⟨h', hacc, hparse⟩ := hspec
      rw [hparse]
      cases n with
      | zero => rfl
      | succ n =>
        exact ⟨layers, parseReplyEid_clayer _ _ _ _ _, hacc.linked, hacc.contents⟩

/-- **Every record is released exactly once**, unless the message is a reply whose list of layers
starts with an item that is taken and is no list of layers. -/
theorem releasedOnce_iff (buf : Bytes) :
    (∀ k < (releaseLayers inetNtop frm buf).cells.length,
      (releaseLayers inetNtop frm buf).released.count k = 1) ↔
    (isDtnReply buf = true → firstItemTaken (buf.drop 10) (buf.drop 10).length = true →
      ∃ cls, LayerList (buf.drop 10) cls) := by
  cases hbuf : isDtnReply buf with
  | false =>
    have hnone : releaseLayers inetNtop frm buf = Heap.empty := by
      unfold releaseLayers
      rw [parseMessageLayers_of_not_reply inetNtop frm hbuf]
      rfl
    rw [hnone]
    exact iff_of_true (fun k hk => absurd hk (Nat.not_lt_zero k)) (fun h => absurd h (by decide))
  | true =>
    obtain ⟨h', hrelease, hspec⟩ := releaseLayers_of_reply inetNtop frm hbuf
    rw [hrelease]
    change ReleasedOnce (h'.freeList (some 0)) ↔ _
    cases hlist : parseDtnConvergenceLayer inetNtop frm (buf.drop 10) (buf.drop 10).length with
    | some out =>
      obtain ⟨n, layers⟩ := out
      obtain ⟨cls, hcls, -⟩ := layerList_of_parsed hlist
      simp only [hlist] at hspec
      exact iff_of_true (releasedOnce_of_accepted rfl hspec) (fun _ _ => ⟨cls, hcls⟩)
    | none =>
      have hno : ¬ ∃ cls, LayerList (buf.drop 10) cls := by
        rintro ⟨cls, hcls⟩
        exact absurd (hlist.symm.trans hcls.parsed) nofun
      simp only [hlist] at hspec
      obtain ⟨k, href, hk⟩ := hspec
      rw [releasedOnce_of_refused rfl href]
      constructor
      · intro hk0 _ htaken
        exact absurd (hk.mpr htaken) (by omega)
      · intro hcond
        by_contra hk0
        exact hno (hcond rfl (hk.mp (Nat.pos_of_ne_zero hk0)))

/-- A reply whose second item is refused, its number being 5. -/
def shortItem : Bytes := str "d1:rd2:cll19:name=tcp;port=4556;5:name=e"

/-- The first record is released twice for it. -/
theorem not_releasedOnce_shortItem :
    (releaseLayers (fun _ _ => str "1.2.3.4") (sockaddrIn [1, 2, 3, 4] [0, 80]) shortItem).released =
      [0, 1, 0] ∧
    ¬ ∀ k < (releaseLayers (fun _ _ => str "1.2.3.4")
        (sockaddrIn [1, 2, 3, 4] [0, 80]) shortItem).cells.length,
      (releaseLayers (fun _ _ => str "1.2.3.4") (sockaddrIn [1, 2, 3, 4] [0, 80])
        shortItem).released.count k = 1 := by
  decide +kernel

end

end DtnDht
