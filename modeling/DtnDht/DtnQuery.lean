import DtnDht.DtnMessage

/-!
# The DTN query round trip

`parse_dtn_message` reads the EID of a query by its position, but finds the transaction id by the
first `e1:q3:dtn1:t` of the whole packet, and the EID comes before the one the encoder wrote. So
the query reads back exactly when the EID holds no such marker, or happens to spell the same
transaction id after it (`queryRoundTrip_iff`).
-/

namespace DtnDht

open CString Occurrence

/-- The bytes `parse_dtn_message` looks for before the transaction id of a query. -/
def queryMarker : Bytes := str "e1:q3:dtn1:t"

theorem unbordered_queryMarker : Unbordered queryMarker := by decide

/-- The part of the query after the length prefix of the EID. -/
def queryBody (tid eid : Bytes) : Bytes :=
  eid ++ queryMarker ++ (decimal tid.length ++ 58 :: (tid ++ str "1:y1:qe"))

/-- The packet of `send_get_dtninfo` without a version string. -/
def queryPacket (tid eid : Bytes) : Bytes :=
  (str "d1:ad3:" ++ 101 :: (str "id" ++ decimal eid.length ++ str ":")) ++ queryBody tid eid

/-! ## The packet -/

theorem sendGetDtninfo_eq {tid eid : Bytes} (heid : eid.length ≤ 256) (htid : tid.length ≤ 15) :
    sendGetDtninfo none tid eid = some (queryPacket tid eid) := by
  have h : Appends 1076 ((str "d1:ad3:eid" ++ decimal eid.length ++ str ":") ++ (eid ++
        ((str "e1:q3:dtn1:t" ++ decimal tid.length ++ str ":") ++ (tid ++ str "1:y1:qe"))))
      (fun buf => do
        let buf ← inc 1076 (str "d1:ad3:eid" ++ decimal eid.length ++ str ":") buf
        let buf ← copy 1076 eid buf
        let buf ← inc 1076 (str "e1:q3:dtn1:t" ++ decimal tid.length ++ str ":") buf
        let buf ← copy 1076 tid buf
        inc 1076 (str "1:y1:qe") buf) :=
    (appends_inc _ _).bind ((appends_copy _ _).bind ((appends_inc _ _).bind
      ((appends_copy _ _).bind (appends_inc _ _))))
  have he := length_decimal_le (n := eid.length) (k := 3) (by decide) (by omega)
  have ht := length_decimal_le (n := tid.length) (k := 2) (by decide) (by omega)
  refine (h [] ?_).trans ?_
  · simp only [List.length_append, show (str "d1:ad3:eid").length = 10 from rfl,
      show (str "e1:q3:dtn1:t").length = 12 from rfl, show (str ":").length = 1 from rfl,
      show (str "1:y1:qe").length = 7 from rfl, List.length_nil]
    omega
  · have hhead : str "d1:ad3:eid" = str "d1:ad3:" ++ 101 :: str "id" := rfl
    simp only [queryPacket, queryBody, queryMarker, hhead, show str ":" = [58] from rfl,
      List.nil_append, List.append_assoc, List.cons_append]

theorem isPrefixOf_queryPacket (tid eid : Bytes) :
    (str "d1:ad3:eid").isPrefixOf (queryPacket tid eid) = true := by
  rw [List.isPrefixOf_iff_prefix]
  exact ⟨decimal eid.length ++ str ":" ++ queryBody tid eid, by
    simp only [queryPacket, show str "d1:ad3:eid" = str "d1:ad3:" ++ 101 :: str "id" from rfl,
      List.append_assoc, List.cons_append]⟩

theorem queryPacket_drop_ten (tid eid : Bytes) :
    (queryPacket tid eid).drop 10 = decimal eid.length ++ 58 :: (eid ++ (queryMarker ++
      (decimal tid.length ++ 58 :: (tid ++ str "1:y1:qe")))) := by
  simp only [queryPacket, queryBody, show str "d1:ad3:" = [100, 49, 58, 97, 100, 51, 58] from rfl,
    show str "id" = [105, 100] from rfl, show str ":" = [58] from rfl, List.append_assoc,
    List.cons_append, List.nil_append, List.drop_succ_cons, List.drop_zero]

/-! ## The marker -/

theorem not_mem_decimal {n : ℕ} {c : UInt8} (hc : isDigit c = false) : c ∉ decimal n := by
  intro h
  rw [isDigit_of_mem_decimal c h] at hc
  exact Bool.noConfusion hc

/-- The length of what `send_get_dtninfo` writes before the EID. -/
def queryHeadLen (eid : Bytes) : ℕ := 7 + (2 + (decimal eid.length).length + 1 + 1)

/-- No marker starts before the EID. -/
theorem findInfix_queryPacket (tid eid : Bytes) :
    findInfix queryMarker (queryPacket tid eid) =
      (findInfix queryMarker (queryBody tid eid)).map (queryHeadLen eid + ·) := by
  have h1 : (101 : UInt8) ∉ str "d1:ad3:" := by decide
  have h2 : (101 : UInt8) ∉ str "id" ++ decimal eid.length ++ str ":" := by
    rw [List.mem_append, List.mem_append, not_or, not_or]
    exact ⟨⟨by decide, not_mem_decimal (by decide)⟩, by decide⟩
  have h3 : ¬ queryMarker <+:
      101 :: ((str "id" ++ decimal eid.length ++ str ":") ++ queryBody tid eid) := by
    intro h
    have := List.cons_prefix_cons.mp (List.cons_prefix_cons.mp h).2
    exact absurd this.1 (by decide)
  have e : queryMarker = 101 :: str "1:q3:dtn1:t" := rfl
  rw [e] at h3
  rw [queryPacket, List.append_assoc, e, findInfix_append_of_head_not_mem _ h1, List.cons_append,
    findInfix_cons_eq_map h3, findInfix_append_of_head_not_mem _ h2, Option.map_map, Option.map_map]
  congr 1
  funext i
  simp only [Function.comp, queryHeadLen, List.length_append,
    show (str "d1:ad3:").length = 7 from rfl, show (str "id").length = 2 from rfl,
    show (str ":").length = 1 from rfl]
  omega

theorem queryPacket_drop_head (tid eid : Bytes) (i : ℕ) :
    (queryPacket tid eid).drop (queryHeadLen eid + i) = (queryBody tid eid).drop i := by
  rw [← List.drop_drop, queryPacket, List.drop_left']
  simp only [queryHeadLen, List.length_append, List.length_cons,
    show (str "d1:ad3:").length = 7 from rfl, show (str "id").length = 2 from rfl,
    show (str ":").length = 1 from rfl]

/-! ## The round trip -/

/-- The packet `send_get_dtninfo` builds reads back as a query with the same EID and the same
transaction id; `tid0` is what the reader's array held. -/
def QueryRoundTrip (inetNtop : ℕ → Bytes → Bytes) (frm : Sockaddr) (tid0 tid eid : Bytes) : Prop :=
  ∃ pkt, sendGetDtninfo none tid eid = some pkt ∧
    let r := parseDtnMessage inetNtop frm pkt tid0 16
    r.message = some .dtnQuery ∧ r.result.eid = some eid ∧ r.tidLen = tid.length ∧
      r.tid.take r.tidLen = tid

/-- The reader's query branch, with the marker at position `i` of the body. -/
theorem parseDtnMessage_queryPacket {inetNtop : ℕ → Bytes → Bytes} {frm : Sockaddr}
    {tid0 tid eid : Bytes} (he0 : 0 < eid.length) (he : eid.length ≤ 256) {i : ℕ}
    (hi : findInfix queryMarker (queryBody tid eid) = some i) :
    parseDtnMessage inetNtop frm (queryPacket tid eid) tid0 16 =
      match readField (queryBody tid eid) (i + 12) (fun l => 0 < l && l < 16) with
      | .value t => ⟨some .dtnQuery, memcpy tid0 t t.length, t.length, { eid := some eid }⟩
      | .malformed => ⟨some .dtnQuery, tid0, 0, { eid := some eid }⟩
      | .overflow => ⟨none, tid0, 16, { eid := some eid }⟩ := by
  have heid : readField (queryPacket tid eid) 10 (0 < ·) = .value eid := by
    refine (readField_eq_value_iff fun l hl => (of_decide_eq_true hl).le).mpr
      ⟨by simpa using he0, spells_decimal (queryPacket_drop_ten tid eid) ?_⟩
    unfold longMax; omega
  have hread : readField (queryPacket tid eid) (queryHeadLen eid + i + 12)
      (fun l => 0 < l && l < 16) =
        readField (queryBody tid eid) (i + 12) (fun l => 0 < l && l < 16) := by
    unfold readField
    rw [Nat.add_assoc, queryPacket_drop_head]
  have hmarker : findInfix (str "e1:q3:dtn1:t") (queryPacket tid eid) =
      (some i).map (queryHeadLen eid + ·) := hi ▸ findInfix_queryPacket tid eid
  unfold parseDtnMessage parseDtnQuery
  rw [if_pos (isPrefixOf_queryPacket tid eid), heid]
  dsimp only
  rw [hmarker]
  cases h : readField (queryBody tid eid) (i + 12) (fun l => 0 < l && l < 16) <;>
    simp only [Option.map_some, Nat.cast_ofNat, hread, h]

/-- The round trip holds exactly when the bytes after the first marker spell the id. -/
theorem queryRoundTrip_iff_spells {inetNtop : ℕ → Bytes → Bytes} {frm : Sockaddr}
    {tid0 tid eid : Bytes} (he0 : 0 < eid.length) (he : eid.length ≤ 256) (ht0 : 0 < tid.length)
    (ht : tid.length ≤ 15) {i : ℕ} (hi : findInfix queryMarker (queryBody tid eid) = some i) :
    QueryRoundTrip inetNtop frm tid0 tid eid ↔ Spells (queryBody tid eid) tid (i + 12) := by
  have hok : ∀ l : ℤ, (0 < l && l < 16) = true → 0 ≤ l := by
    intro l hl
    simp only [Bool.and_eq_true, decide_eq_true_eq] at hl
    exact hl.1.le
  unfold QueryRoundTrip
  simp only [sendGetDtninfo_eq he ht, Option.some_inj, exists_eq_left',
    parseDtnMessage_queryPacket he0 he hi]
  constructor
  · rintro ⟨hm, -, hlen, htid⟩
    cases hf : readField (queryBody tid eid) (i + 12) (fun l => 0 < l && l < 16) with
    | malformed =>
      rw [hf] at hlen
      exact absurd hlen ht0.ne
    | overflow =>
      rw [hf] at hm
      simp at hm
    | value t =>
      rw [hf] at htid
      have e : t = tid := (memcpy_take tid0 t).symm.trans htid
      exact ((readField_eq_value_iff hok).mp (e ▸ hf)).2
  · intro hs
    have hl : ((0 : ℤ) < (tid.length : ℤ) && (tid.length : ℤ) < 16) = true := by
      simp only [Bool.and_eq_true, decide_eq_true_eq]
      omega
    rw [(readField_eq_value_iff (s := tid) hok).mpr ⟨hl, hs⟩]
    exact ⟨rfl, rfl, rfl, memcpy_take tid0 tid⟩

/-- The marker the encoder writes is followed by the transaction id. -/
theorem spells_after_marker {tid eid : Bytes} (ht : tid.length ≤ 15) :
    Spells (queryBody tid eid) tid (eid.length + 12) := by
  have hlen : (eid ++ queryMarker).length = eid.length + 12 := by
    rw [List.length_append]; rfl
  exact spells_decimal (List.drop_left' hlen) (by unfold longMax; omega)

/-- **The DTN query round trip.** A query reads back as the same EID and transaction id exactly
when the EID holds no marker, or the transaction id happens to be spelt after its first one. -/
theorem queryRoundTrip_iff (inetNtop : ℕ → Bytes → Bytes) (frm : Sockaddr) (tid0 tid eid : Bytes)
    (he0 : 0 < eid.length) (he : eid.length ≤ 256) (ht0 : 0 < tid.length) (ht : tid.length ≤ 15) :
    QueryRoundTrip inetNtop frm tid0 tid eid ↔
      ¬ queryMarker <:+: eid ∨
        ∃ i, findInfix queryMarker eid = some i ∧
          Spells (queryBody tid eid) tid (i + 12) := by
  by_cases hm : queryMarker <:+: eid
  · obtain ⟨i, hi⟩ := Option.ne_none_iff_exists'.mp
      (fun h => findInfix_eq_none_iff.mp h hm)
    have hi' : findInfix queryMarker (queryBody tid eid) = some i := by
      rw [queryBody, List.append_assoc]
      exact findInfix_append_left hi
    rw [queryRoundTrip_iff_spells he0 he ht0 ht hi']
    constructor
    · exact fun h => Or.inr ⟨i, hi, h⟩
    · rintro (h | ⟨j, hj, h⟩)
      · exact absurd hm h
      · rwa [Option.some_inj.mp (hi.symm.trans hj)]
  · have hi := findInfix_append_of_unbordered unbordered_queryMarker hm
      (b := decimal tid.length ++ 58 :: (tid ++ str "1:y1:qe"))
    rw [queryRoundTrip_iff_spells he0 he ht0 ht hi]
    exact ⟨fun _ => Or.inl hm, fun _ => spells_after_marker ht⟩

/-- An EID without the marker: the query reads back. -/
theorem queryRoundTrip_plain : QueryRoundTrip (fun _ _ => []) [] (List.replicate 16 7)
    (str "pn" ++ [0, 0]) (str "dtn://node") :=
  (queryRoundTrip_iff _ _ _ _ _ (by decide) (by decide) (by decide) (by decide)).mpr
    (Or.inl (by decide))

/-- An EID that ends in the marker: the reader looks for the id inside the EID, finds no number
there and reports an empty one. -/
theorem queryRoundTrip_marker :
    (str "dtn://e1:q3:dtn1:t").length ≤ 256 ∧ ¬ QueryRoundTrip (fun _ _ => []) []
      (List.replicate 16 7) (str "pn" ++ [0, 0]) (str "dtn://e1:q3:dtn1:t") := by
  refine ⟨by decide, ?_⟩
  rintro ⟨pkt, hpkt, -, -, hlen, -⟩
  rw [sendGetDtninfo_eq (by decide) (by decide), Option.some_inj] at hpkt
  subst hpkt
  revert hlen
  decide

end DtnDht
