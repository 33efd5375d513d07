import DtnDht.DtnMessage

/-!
# The DTN reply and its round trip

`send_dtninfo` sends the whole reply or nothing, unless it takes exactly the 4096 bytes of the
buffer (`sendDtninfo_all_or_nothing_iff`).

A reply carries the convergence layers, the EID, the groups, the neighbours and the transaction
id. The reader takes one after the other, each from the first marker at or after a position it
keeps. That position counts the texts of the layers but not their length prefixes, so the search
for the EID starts inside the last layers (`rescanned`). The reply reads back when those bytes hold
no `e3:eid` and the reader's stricter limits are met (`Readable`), and only then, up to a copy of
the EID itself among those bytes (`replyRoundTrip_iff`).
-/

namespace DtnDht

open CString Occurrence

/-! ## The packet -/

/-- The text of an argument. -/
def encodeArg (arg : ConvergenceLayerArg) : Bytes := arg.key ++ 61 :: (arg.value ++ [59])

/-- The text of a layer. -/
def layerText (cl : ConvergenceLayer) : Bytes :=
  str "name=" ++ (cl.clname ++ 59 :: cl.args.flatMap encodeArg)

/-- A byte string behind its length. -/
def encodeString (s : Bytes) : Bytes := decimal s.length ++ 58 :: s

/-- The input of `send_dtninfo`. -/
structure DtnInfo where
  tid : Bytes
  eid : Bytes
  cls : List ConvergenceLayer
  nbs : List Bytes
  grs : List Bytes

namespace DtnInfo

variable (i : DtnInfo)

/-- The layers of the reply. -/
def encodedLayers : Bytes := i.cls.flatMap fun cl => encodeString (layerText cl)

/-- The reply from the transaction id on. -/
def tidPart : Bytes := str "ee1:t" ++ (encodeString i.tid ++ str "1:y1:re")

/-- The reply from the neighbours on. -/
def neighboursPart : Bytes := str "e2:nbl" ++ (i.nbs.flatMap encodeString ++ i.tidPart)

/-- The reply from the groups on. -/
def groupsPart : Bytes := str "2:grl" ++ (i.grs.flatMap encodeString ++ i.neighboursPart)

/-- The reply from the EID on. -/
def eidPart : Bytes := str "e3:eid" ++ (encodeString i.eid ++ i.groupsPart)

/-- The packet of `send_dtninfo`. -/
def packet : Bytes := str "d1:rd2:cll" ++ (i.encodedLayers ++ i.eidPart)

/-- The inputs of the round trip: separators stay out of the fields they end, lists hold no empty
EID, and the packet fits. -/
structure WellFormed : Prop where
  tid_pos : 0 < i.tid.length
  tid_le : i.tid.length ≤ 15
  eid_pos : 0 < i.eid.length
  eid_le : i.eid.length ≤ 256
  name_plain : ∀ cl ∈ i.cls, (59 : UInt8) ∉ cl.clname
  arg_plain : ∀ cl ∈ i.cls, ∀ arg ∈ cl.args, (61 : UInt8) ∉ arg.key ∧ (59 : UInt8) ∉ arg.value
  nbs_ne : ∀ e ∈ i.nbs, e ≠ []
  grs_ne : ∀ e ∈ i.grs, e ≠ []
  fits : i.packet.length < 4096

end DtnInfo

theorem argsLen_eq (args : List ConvergenceLayerArg) :
    argsLen args = (args.flatMap encodeArg).length := by
  have h : ∀ n, args.foldl (fun n arg => n + (arg.key.length + 1 + arg.value.length + 1)) n =
      n + (args.flatMap encodeArg).length := by
    induction args with
    | nil => simp
    | cons a as ih =>
      intro n
      rw [List.foldl_cons, ih, List.flatMap_cons, List.length_append, encodeArg]
      simp only [List.length_append, List.length_cons, List.length_nil]
      omega
  simpa [argsLen] using h 0

theorem length_encodedArgs_pos {args : List ConvergenceLayerArg} (h : args ≠ []) :
    0 < (args.flatMap encodeArg).length := by
  obtain ⟨a, as, rfl⟩ := List.exists_cons_of_ne_nil h
  simp [encodeArg]

theorem length_layerText (cl : ConvergenceLayer) :
    (layerText cl).length = 6 + cl.clname.length + argsLen cl.args := by
  rw [argsLen_eq, layerText]
  simp only [List.length_append, List.length_cons, show (str "name=").length = 5 from rfl]
  omega

theorem writes_sendArg (arg : ConvergenceLayerArg) :
    Writes 4096 (encodeArg arg) (fun buf => sendArg buf arg) := by
  have h : Writes 4096 (arg.key ++ (str "=" ++ (arg.value ++ str ";")))
      (fun buf => sendArg buf arg) :=
    (writes_copy _ _).bind ((writes_copy _ _).bind ((writes_copy _ _).bind (writes_copy _ _)))
  exact h

theorem writes_sendLayer (cl : ConvergenceLayer) :
    Writes 4096 (encodeString (layerText cl)) (fun buf => sendLayer buf cl) := by
  have h : Writes 4096 ((decimal (6 + cl.clname.length + argsLen cl.args) ++ str ":name=") ++
      (cl.clname ++ (str ";" ++ cl.args.flatMap encodeArg))) (fun buf => sendLayer buf cl) :=
    (writes_inc _ _).bind ((writes_copy _ _).bind ((writes_copy _ _).bind
      (Writes.foldlM writes_sendArg _)))
  rw [← length_layerText, List.append_assoc] at h
  exact h

theorem writes_sendEid (eid : Bytes) :
    Writes 4096 (encodeString eid) (fun buf => sendEid buf eid) := by
  have h : Writes 4096 ((decimal eid.length ++ str ":") ++ eid) (fun buf => sendEid buf eid) :=
    (writes_inc _ _).bind (writes_copy _ _)
  rw [List.append_assoc] at h
  exact h

/-- The packet but for its end, which every reply has. -/
def DtnInfo.front (i : DtnInfo) : Bytes :=
  str "d1:rd2:cll" ++ (i.encodedLayers ++
    ((str "e3:eid" ++ decimal i.eid.length ++ str ":") ++ (i.eid ++ (str "2:grl" ++
      (i.grs.flatMap encodeString ++ (str "e2:nbl" ++ (i.nbs.flatMap encodeString ++
        ((str "ee1:t" ++ decimal i.tid.length ++ str ":") ++ i.tid))))))))

theorem packet_eq_front (i : DtnInfo) : i.packet = i.front ++ str "1:y1:re" := by
  simp only [DtnInfo.packet, DtnInfo.eidPart, DtnInfo.groupsPart, DtnInfo.neighboursPart,
    DtnInfo.tidPart, DtnInfo.front, encodeString, show str ":" = [58] from rfl, List.append_assoc,
    List.cons_append, List.nil_append]

/-- `send_dtninfo` writes the front of the packet into the buffer, then its end. -/
theorem exists_writes_front (i : DtnInfo) : ∃ f, Writes 4096 i.front f ∧
    sendDtninfo i.tid i.eid i.cls i.nbs i.grs = f [] >>= inc 4096 (str "1:y1:re") := by
  refine ⟨_, (writes_inc _ _).bind ((Writes.foldlM writes_sendLayer _).bind ((writes_inc _ _).bind
    ((writes_copy _ _).bind ((writes_inc _ _).bind ((Writes.foldlM writes_sendEid _).bind
      ((writes_inc _ _).bind ((Writes.foldlM writes_sendEid _).bind ((writes_inc _ _).bind
        (writes_copy _ _))))))))), ?_⟩
  simp only [sendDtninfo, bind_assoc]

theorem sendDtninfo_eq {i : DtnInfo} (h : i.packet.length < 4096) :
    sendDtninfo i.tid i.eid i.cls i.nbs i.grs = some i.packet := by
  obtain ⟨f, hf, hsend⟩ := exists_writes_front i
  rw [packet_eq_front] at h ⊢
  rw [hsend]
  exact (hf.bind (writes_inc _ _)).appends [] (by simpa using h)

/-! ## The packet at the limit -/

theorem sendDtninfo_of_gt {i : DtnInfo} (h : 4096 < i.packet.length) :
    sendDtninfo i.tid i.eid i.cls i.nbs i.grs = none := by
  obtain ⟨f, hf, hsend⟩ := exists_writes_front i
  rw [packet_eq_front] at h
  rw [hsend]
  exact (hf.bind (writes_inc _ _)).fails [] (Nat.zero_le _) (by simpa using h)

/-- A reply that just fits loses its last byte to the NUL of the last `snprintf`. -/
theorem sendDtninfo_of_eq {i : DtnInfo} (h : i.packet.length = 4096) :
    sendDtninfo i.tid i.eid i.cls i.nbs i.grs = some (i.front ++ (str "1:y1:r" ++ [0])) := by
  obtain ⟨f, hf, hsend⟩ := exists_writes_front i
  rw [packet_eq_front, List.length_append, show (str "1:y1:re").length = 7 from rfl] at h
  have hfront : f [] = some i.front := by
    rw [hf.appends [] (by rw [List.length_nil]; omega), List.nil_append]
  have hend : snprintf (4096 - i.front.length) (str "1:y1:re") = str "1:y1:r" ++ [0] := by
    rw [show 4096 - i.front.length = 7 by omega]
    decide
  rw [hsend, hfront]
  show inc 4096 (str "1:y1:re") i.front = _
  rw [inc, if_neg (by rw [show (str "1:y1:re").length = 7 from rfl]; omega), hend]

/-- **`send_dtninfo` is all or nothing** at every length of the reply but one: when it fills the
buffer to the last byte. -/
theorem sendDtninfo_all_or_nothing_iff (i : DtnInfo) :
    (sendDtninfo i.tid i.eid i.cls i.nbs i.grs =
      if i.packet.length ≤ 4096 then some i.packet else none) ↔ i.packet.length ≠ 4096 := by
  rcases lt_trichotomy i.packet.length 4096 with h | h | h
  · rw [if_pos h.le]
    exact iff_of_true (sendDtninfo_eq h) h.ne
  · rw [if_pos h.le, sendDtninfo_of_eq h, packet_eq_front, Option.some_inj,
      List.append_cancel_left_eq]
    exact iff_of_false (by decide) (not_not.mpr (packet_eq_front i ▸ h))
  · rw [if_neg (not_le.mpr h)]
    exact iff_of_true (sendDtninfo_of_gt h) h.ne'

/-- The reply of a node with an EID of 147 bytes and fifteen groups of 256 bytes. -/
def fullInfo : DtnInfo :=
  ⟨str "pn" ++ [0, 0], List.replicate 147 97, [], [], List.replicate 15 (List.replicate 256 97)⟩

theorem length_packet_fullInfo : fullInfo.packet.length = 4096 := by
  have hgroups : (fullInfo.grs.flatMap encodeString).length = 15 * 260 := by
    rw [List.length_flatMap]
    decide +kernel
  have heid : (encodeString fullInfo.eid).length = 151 := by decide +kernel
  unfold DtnInfo.packet DtnInfo.eidPart DtnInfo.groupsPart
  simp only [List.length_append, hgroups, heid]
  decide

/-- What is sent for it ends in a NUL. -/
theorem sendDtninfo_not_all_or_nothing :
    sendDtninfo fullInfo.tid fullInfo.eid fullInfo.cls fullInfo.nbs fullInfo.grs =
      some (fullInfo.front ++ (str "1:y1:r" ++ [0])) ∧
    sendDtninfo fullInfo.tid fullInfo.eid fullInfo.cls fullInfo.nbs fullInfo.grs ≠
      if fullInfo.packet.length ≤ 4096 then some fullInfo.packet else none := by
  have hsend := sendDtninfo_of_eq length_packet_fullInfo
  refine ⟨hsend, ?_⟩
  rw [hsend, if_pos length_packet_fullInfo.le, packet_eq_front]
  intro h
  exact absurd (List.append_cancel_left (Option.some_inj.mp h)) (by decide)

/-! ## Reading the lists back -/

theorem head_decimal_ne (n : ℕ) (s : Bytes) : (decimal n ++ s).head? ≠ some 101 := by
  obtain ⟨d, ds, hd⟩ := List.exists_cons_of_ne_nil (decimal_ne_nil n)
  rw [hd, List.cons_append, List.head?_cons]
  intro h
  have := isDigit_of_mem_decimal (n := n) 101 (by rw [hd, Option.some_inj.mp h]; simp)
  exact absurd this (by decide)

theorem length_encodeString (s : Bytes) :
    (encodeString s).length = (decimal s.length).length + s.length + 1 := by
  simp only [encodeString, List.length_append, List.length_cons]
  omega

/-- A list of length-prefixed EIDs up to its closing `e` reads back. -/
theorem parseDtnEidList_encode {eids : List Bytes} (hne : ∀ e ∈ eids, e ≠ []) {r : Bytes} {n : ℕ}
    (hn : (eids.flatMap encodeString).length ≤ n)
    (hlong : ((eids.flatMap encodeString).length : ℤ) ≤ longMax) :
    parseDtnEidList (eids.flatMap encodeString ++ 101 :: r) n =
      some ((eids.flatMap encodeString).length, eids) := by
  induction eids generalizing n with
  | nil => rw [parseDtnEidList_eq]; rfl
  | cons e es ih =>
    have he : 0 < e.length := List.length_pos_iff.mpr (hne e List.mem_cons_self)
    have hlen : (e :: es).flatMap encodeString = encodeString e ++ es.flatMap encodeString := rfl
    rw [hlen, List.length_append, length_encodeString] at hn hlong
    have hbuf : (e :: es).flatMap encodeString ++ 101 :: r =
        decimal e.length ++ 58 :: (e ++ (es.flatMap encodeString ++ 101 :: r)) := by
      rw [hlen, encodeString, List.append_assoc, List.append_assoc, List.cons_append]
    have hcons : (decimal e.length ++ 58 :: (e ++ (es.flatMap encodeString ++ 101 :: r))).length -
        (58 :: (e ++ (es.flatMap encodeString ++ 101 :: r))).length + 1 + e.length =
          (encodeString e).length := by
      rw [List.length_append, Nat.add_sub_cancel, length_encodeString]
      omega
    have hdrop : (decimal e.length ++ 58 :: (e ++ (es.flatMap encodeString ++ 101 :: r))).drop
        (encodeString e).length = es.flatMap encodeString ++ 101 :: r := by
      rw [← hbuf, hlen, List.append_assoc, List.drop_left]
    rw [hbuf, parseDtnEidList_eq, if_neg (head_decimal_ne _ _),
      strtol_decimal (by decide) (by omega)]
    simp only [List.head?_cons, true_and, Int.toNat_natCast, Int.natCast_pos, he, if_true, hcons,
      hdrop, List.tail_cons, List.take_left]
    rw [if_neg (by rw [length_encodeString]; omega),
      ih (fun x hx => hne x (List.mem_cons_of_mem _ hx))
        (by rw [length_encodeString]; omega) (by omega)]
    simp only [hlen, List.length_append, Nat.add_comm]

theorem scanUntil_eq {c : UInt8} {a r : Bytes} {n : ℕ} (ha : c ∉ a) (hn : a.length ≤ n) :
    scanUntil c (a ++ c :: r) n = a.length := by
  induction a generalizing n with
  | nil => cases n <;> simp [scanUntil]
  | cons b a ih =>
    obtain ⟨hb, ha⟩ := not_or.mp (List.mem_cons.not.mp ha)
    rw [List.length_cons] at hn
    obtain ⟨n, rfl⟩ : ∃ m, n = m + 1 := ⟨n - 1, by omega⟩
    rw [List.cons_append, scanUntil, if_neg (Ne.symm hb), ih ha (by omega), List.length_cons]

/-- The arguments of a layer read back. -/
theorem parseDtnConvergenceLayerArgs_encode {args : List ConvergenceLayerArg} (hne : args ≠ [])
    (hargs : ∀ arg ∈ args, (61 : UInt8) ∉ arg.key ∧ (59 : UInt8) ∉ arg.value) (r : Bytes) :
    parseDtnConvergenceLayerArgs (args.flatMap encodeArg ++ r) (args.flatMap encodeArg).length =
      some ((args.flatMap encodeArg).length, args) := by
  induction args with
  | nil => exact absurd rfl hne
  | cons a as ih =>
    obtain ⟨hk, hv⟩ := hargs a List.mem_cons_self
    have hsplit : (a :: as).flatMap encodeArg = encodeArg a ++ as.flatMap encodeArg := rfl
    have hbuf : (a :: as).flatMap encodeArg ++ r =
        a.key ++ 61 :: (a.value ++ 59 :: (as.flatMap encodeArg ++ r)) := by
      simp only [hsplit, encodeArg, List.append_assoc, List.cons_append, List.nil_append]
    have hlen : ((a :: as).flatMap encodeArg).length =
        a.key.length + a.value.length + 2 + (as.flatMap encodeArg).length := by
      simp only [hsplit, encodeArg, List.length_append, List.length_cons, List.length_nil]
      omega
    have hkey : a.key ++ 61 :: (a.value ++ 59 :: (as.flatMap encodeArg ++ r)) =
        (a.key ++ [61]) ++ (a.value ++ 59 :: (as.flatMap encodeArg ++ r)) := by
      rw [List.append_assoc]; rfl
    have hkey' : (a.key ++ [61]).length = a.key.length + 1 := by simp
    have hdrop1 : (a.key ++ 61 :: (a.value ++ 59 :: (as.flatMap encodeArg ++ r))).drop
        (a.key.length + 1) = a.value ++ 59 :: (as.flatMap encodeArg ++ r) := by
      rw [hkey, List.drop_left' hkey']
    have hget : (a.key ++ 61 :: (a.value ++ 59 :: (as.flatMap encodeArg ++ r)))[
        a.key.length + 1 + a.value.length]? = some 59 := by
      rw [hkey, List.getElem?_append_right (by rw [hkey']; omega), hkey', Nat.add_sub_cancel_left]
      simp
    have hdrop2 : (a.key ++ 61 :: (a.value ++ 59 :: (as.flatMap encodeArg ++ r))).drop
        (a.key.length + a.value.length + 2) = as.flatMap encodeArg ++ r := by
      rw [show a.key.length + a.value.length + 2 = (a.key.length + 1) + (a.value.length + 1) by omega,
        ← List.drop_drop, hdrop1, ← List.singleton_append, ← List.append_assoc,
        List.drop_left' (by simp)]
    rw [hlen, hbuf, parseDtnConvergenceLayerArgs_eq, scanUntil_eq hk (by omega)]
    simp only [List.getElem?_append_right (le_refl a.key.length), Nat.sub_self,
      List.getElem?_cons_zero, if_true, hdrop1, scanUntil_eq hv
        (show a.value.length ≤ a.key.length + a.value.length + 2 + (as.flatMap encodeArg).length -
          (a.key.length + 1) by omega), hget, hdrop2, List.take_left, Nat.add_sub_cancel_left]
    by_cases has : as = []
    · subst has
      rw [if_neg (by simp)]
      simp
    · have hpos := length_encodedArgs_pos has
      rw [if_pos (by omega), ih has fun x hx => hargs x (List.mem_cons_of_mem _ hx)]
      simp only [if_pos hpos]

/-- Without a byte to read, the arguments are refused unless a `=` follows the text. -/
theorem parseDtnConvergenceLayerArgs_zero {s : Bytes} (hs : s.head? ≠ some 61) :
    parseDtnConvergenceLayerArgs s 0 = none := by
  rw [parseDtnConvergenceLayerArgs_eq]
  have h0 : scanUntil 61 s 0 = 0 := by cases s <;> rfl
  simp only [h0, ← List.head?_eq_getElem?, if_neg hs]

section Layers

variable (inetNtop : ℕ → Bytes → Bytes) (frm : Sockaddr)

/-- The layer the reader makes. -/
def decodedLayer (cl : ConvergenceLayer) : ConvergenceLayer :=
  ⟨cl.clname, if takesIp cl.clname then ipArg inetNtop frm :: cl.args else cl.args⟩

theorem parseLayerText_encode {cl : ConvergenceLayer} (hname : (59 : UInt8) ∉ cl.clname)
    (hargs : ∀ arg ∈ cl.args, (61 : UInt8) ∉ arg.key ∧ (59 : UInt8) ∉ arg.value) {r : Bytes}
    (hr : r.head? ≠ some 61) :
    parseLayerText inetNtop frm (58 :: (layerText cl ++ r)) (layerText cl).length =
      if cl.args = [] then none else some (decodedLayer inetNtop frm cl) := by
  have hq : 58 :: (layerText cl ++ r) =
      [58, 110, 97, 109, 101, 61] ++ (cl.clname ++ 59 :: (cl.args.flatMap encodeArg ++ r)) := by
    simp only [layerText, show str "name=" = [110, 97, 109, 101, 61] from rfl, List.append_assoc,
      List.cons_append, List.nil_append]
  have hlen :
      (layerText cl).length - 6 = cl.clname.length + (cl.args.flatMap encodeArg).length := by
    rw [length_layerText, argsLen_eq]; omega
  have hlen' : (layerText cl).length - cl.clname.length - 6 =
      (cl.args.flatMap encodeArg).length := by omega
  have hdrop : (58 :: (layerText cl ++ r)).drop 6 =
      cl.clname ++ 59 :: (cl.args.flatMap encodeArg ++ r) := by rw [hq]; rfl
  have hget : (58 :: (layerText cl ++ r))[6 + cl.clname.length]? = some 59 := by
    rw [← List.getElem?_drop, hdrop]; simp
  have hdrop2 : (58 :: (layerText cl ++ r)).drop (6 + cl.clname.length + 1) =
      cl.args.flatMap encodeArg ++ r := by
    rw [Nat.add_assoc, ← List.drop_drop, hdrop, ← List.singleton_append, ← List.append_assoc,
      List.drop_left' (by simp)]
  have hpre : (str "name=").isPrefixOf (58 :: (layerText cl ++ r)).tail = true := by
    rw [List.isPrefixOf_iff_prefix, List.tail_cons, layerText, List.append_assoc]
    exact List.prefix_append _ _
  unfold parseLayerText
  rw [if_pos hpre]
  simp only [hdrop, hlen, scanUntil_eq hname (Nat.le_add_right _ _), hget, if_true, List.take_left,
    hdrop2, hlen']
  by_cases hne : cl.args = []
  · rw [if_pos hne]
    simp only [hne, List.flatMap_nil, List.nil_append, List.length_nil,
      parseDtnConvergenceLayerArgs_zero hr]
  · rw [if_neg hne, parseDtnConvergenceLayerArgs_encode hne hargs]
    obtain ⟨m, hm⟩ := Nat.exists_eq_succ_of_ne_zero (length_encodedArgs_pos hne).ne'
    rw [hm]
    rfl

/-- What the reader counts of the layers: their texts without the length prefixes. -/
def textLen (cls : List ConvergenceLayer) : ℕ := (cls.map fun cl => (layerText cl).length).sum

/-- The list of layers up to its closing `e` reads back, unless a layer has no argument. -/
theorem parseDtnConvergenceLayer_encode {cls : List ConvergenceLayer}
    (hname : ∀ cl ∈ cls, (59 : UInt8) ∉ cl.clname)
    (hargs : ∀ cl ∈ cls, ∀ arg ∈ cl.args, (61 : UInt8) ∉ arg.key ∧ (59 : UInt8) ∉ arg.value)
    {r : Bytes} {n : ℕ} (hn : (cls.flatMap fun cl => encodeString (layerText cl)).length ≤ n)
    (hlong : (n : ℤ) ≤ longMax) :
    parseDtnConvergenceLayer inetNtop frm
        (cls.flatMap (fun cl => encodeString (layerText cl)) ++ 101 :: r) n =
      if ∀ cl ∈ cls, cl.args ≠ [] then some (textLen cls, cls.map (decodedLayer inetNtop frm))
      else none := by
  induction cls generalizing n with
  | nil => rw [parseDtnConvergenceLayer_eq]; simp [textLen]
  | cons cl cls ih =>
    set rest := cls.flatMap (fun cl => encodeString (layerText cl)) ++ 101 :: r with hrest
    have hsplit : (cl :: cls).flatMap (fun cl => encodeString (layerText cl)) =
      encodeString (layerText cl) ++ cls.flatMap fun cl => encodeString (layerText cl) := rfl
    rw [hsplit, List.length_append, length_encodeString] at hn
    have hbuf : (cl :: cls).flatMap (fun cl => encodeString (layerText cl)) ++ 101 :: r =
        decimal (layerText cl).length ++ 58 :: (layerText cl ++ rest) := by
      rw [hsplit, encodeString, List.append_assoc, List.append_assoc, List.cons_append]
    have hcons : (decimal (layerText cl).length ++ 58 :: (layerText cl ++ rest)).length -
        (58 :: (layerText cl ++ rest)).length + (layerText cl).length + 1 =
          (encodeString (layerText cl)).length := by
      rw [List.length_append, Nat.add_sub_cancel, length_encodeString]
    have hdrop : (decimal (layerText cl).length ++ 58 :: (layerText cl ++ rest)).drop
        (encodeString (layerText cl)).length = rest := by
      rw [← hbuf, hsplit, List.append_assoc, ← hrest, List.drop_left]
    have hhead : rest.head? ≠ some 61 := by
      cases cls with
      | nil => exact fun h => absurd (Option.some_inj.mp h) (by decide)
      | cons c cs =>
        obtain ⟨d, ds, hd⟩ := List.exists_cons_of_ne_nil (decimal_ne_nil (layerText c).length)
        have hdig := isDigit_of_mem_decimal (n := (layerText c).length) d (by rw [hd]; simp)
        rw [hrest, List.flatMap_cons, encodeString, hd]
        rintro h
        rw [show d = 61 from Option.some_inj.mp h] at hdig
        exact absurd hdig (by decide)
    have hfive : (5 : ℤ) < (layerText cl).length := by rw [length_layerText]; omega
    rw [hbuf, parseDtnConvergenceLayer_eq, if_neg (head_decimal_ne _ _),
      strtol_decimal (by decide) (by omega)]
    simp only [List.head?_cons, true_and, hfive, if_true, Int.toNat_natCast, hcons, hdrop]
    rw [if_neg (by rw [length_encodeString]; omega), parseLayerText_encode inetNtop frm
      (hname cl List.mem_cons_self) (hargs cl List.mem_cons_self) hhead]
    by_cases hcl : cl.args = []
    · rw [if_pos hcl, if_neg (fun h => h cl List.mem_cons_self hcl)]
    · rw [if_neg hcl]
      simp only
      rw [ih (fun x hx => hname x (List.mem_cons_of_mem _ hx))
        (fun x hx => hargs x (List.mem_cons_of_mem _ hx))
        (by rw [length_encodeString]; omega) (by omega)]
      simp only [List.forall_mem_cons, ne_eq, hcl, not_false_eq_true, true_and, textLen,
        List.map_cons, List.sum_cons]
      split_ifs <;> rfl

end Layers

/-! ## Reading the message back -/

/-- A marker without borders is found behind bytes that hold none. -/
theorem findFrom_eq_some {buf b : Bytes} {pos : ℕ} (pat a : Bytes) (hp : Unbordered pat)
    (hbuf : buf.drop pos = a ++ pat ++ b) (ha : ¬ pat <:+: a) :
    findFrom buf pos pat = some (pos + a.length + pat.length) ∧
      buf.drop (pos + a.length + pat.length) = b := by
  constructor
  · rw [findFrom, hbuf, findInfix_append_of_unbordered hp ha]
    rfl
  · rw [Nat.add_assoc, ← List.drop_drop, hbuf, List.drop_left' (by rw [List.length_append])]

theorem hok_tid : ∀ l : ℤ, (0 < l && l < ((16 : ℕ) : ℤ)) = true → 0 ≤ l := by
  intro l hl
  simp only [Bool.and_eq_true, decide_eq_true_eq] at hl
  exact hl.1.le

section Message

variable {i : DtnInfo} (h : i.WellFormed) {buf tid0 : Bytes} {pos : ℕ} {result : LookupResult}

theorem DtnInfo.drop_le {p q s : Bytes} {n : ℕ} (hs : s.drop n = p ++ q) : q.length ≤ s.length := by
  have := congrArg List.length hs
  rw [List.length_drop, List.length_append] at this
  omega

include h

theorem parseReplyTid_eq (hbuf : buf.drop pos = i.tidPart) :
    parseReplyTid buf pos tid0 16 result =
      ⟨some .dtnReply, memcpy tid0 i.tid i.tid.length, i.tid.length, result⟩ := by
  obtain ⟨hf, hd⟩ := findFrom_eq_some (str "e1:t") [101] (by decide)
    (hbuf.trans rfl) (by decide)
  have htid : readField buf (pos + [(101 : UInt8)].length + (str "e1:t").length)
      (fun l => 0 < l && l < ((16 : ℕ) : ℤ)) = .value i.tid := by
    refine (readField_eq_value_iff hok_tid).mpr ⟨?_, spells_decimal (r := str "1:y1:re") ?_ ?_⟩
    · have := h.tid_pos
      have := h.tid_le
      simp only [Bool.and_eq_true, decide_eq_true_eq]
      omega
    · rw [hd, encodeString, List.append_assoc, List.cons_append]
    · have := h.tid_le
      unfold longMax; omega
  unfold parseReplyTid
  rw [hf]
  simp only [htid]

theorem parseReplyNeighbours_eq (hlen : buf.length < 4096)
    (hbuf : buf.drop pos = i.neighboursPart) :
    parseReplyNeighbours buf pos tid0 16 result =
      ⟨some .dtnReply, memcpy tid0 i.tid i.tid.length, i.tid.length,
        { result with neighbours := i.nbs }⟩ := by
  obtain ⟨hf, hd⟩ := findFrom_eq_some (str "e2:nbl") [] (by decide)
    (hbuf.trans rfl) (by decide)
  have hlist : parseDtnEidList (i.nbs.flatMap encodeString ++ i.tidPart)
      (i.nbs.flatMap encodeString ++ i.tidPart).length =
        some ((i.nbs.flatMap encodeString).length, i.nbs) := by
    have hle := DtnInfo.drop_le hbuf
    rw [List.length_append] at hle
    exact parseDtnEidList_encode h.nbs_ne (by simp) (by unfold longMax; omega)
  unfold parseReplyNeighbours
  rw [hf]
  simp only
  rw [← List.length_drop, hd, hlist]
  simp only
  exact parseReplyTid_eq h (by rw [← List.drop_drop, hd, List.drop_left])

theorem parseReplyGroups_eq {a : Bytes} (hlen : buf.length < 4096)
    (hbuf : buf.drop pos = a ++ i.groupsPart) (ha : a.length < 5) :
    parseReplyGroups buf pos tid0 16 result =
      ⟨some .dtnReply, memcpy tid0 i.tid i.tid.length, i.tid.length,
        { result with groups := i.grs, neighbours := i.nbs }⟩ := by
  obtain ⟨hf, hd⟩ := findFrom_eq_some (str "2:grl") a (by decide)
    (hbuf.trans (by rw [List.append_assoc]; rfl)) (not_infix_of_length_lt ha)
  have hlist : parseDtnEidList (i.grs.flatMap encodeString ++ i.neighboursPart)
      (i.grs.flatMap encodeString ++ i.neighboursPart).length =
        some ((i.grs.flatMap encodeString).length, i.grs) := by
    have hle := DtnInfo.drop_le (q := i.grs.flatMap encodeString ++ i.neighboursPart)
      (p := a ++ str "2:grl") (hbuf.trans (by rw [List.append_assoc]; rfl))
    rw [List.length_append] at hle
    exact parseDtnEidList_encode h.grs_ne (by simp) (by unfold longMax; omega)
  unfold parseReplyGroups
  rw [hf]
  simp only
  rw [← List.length_drop, hd, hlist]
  simp only
  exact parseReplyNeighbours_eq h hlen (by rw [← List.drop_drop, hd, List.drop_left])

/-- From the EID on, the reply reads back when the bytes before the marker hold no other one. -/
theorem parseReplyEid_eq {a : Bytes} (hlen : buf.length < 4096)
    (hbuf : buf.drop pos = a ++ i.eidPart) (ha : ¬ str "e3:eid" <:+: a) (h6 : 5 < i.eid.length) :
    parseReplyEid buf pos tid0 16 result =
      ⟨some .dtnReply, memcpy tid0 i.tid i.tid.length, i.tid.length,
        { result with eid := some i.eid, groups := i.grs, neighbours := i.nbs }⟩ := by
  obtain ⟨hf, hd⟩ := findFrom_eq_some (str "e3:eid") a (by decide)
    (hbuf.trans (by rw [List.append_assoc]; rfl)) ha
  have hdigits := length_decimal_le (n := i.eid.length) (k := 3) (by decide)
    (by have := h.eid_le; omega)
  have heid : readField buf (pos + a.length + (str "e3:eid").length) (5 < ·) = .value i.eid := by
    refine (readField_eq_value_iff fun l hl => (lt_trans (by decide)
      (of_decide_eq_true hl)).le).mpr ⟨by simpa using h6, spells_decimal (r := i.groupsPart) ?_ ?_⟩
    · rw [hd, encodeString, List.append_assoc, List.cons_append]
    · have := h.eid_le
      unfold longMax; omega
  unfold parseReplyEid
  rw [hf]
  simp only [heid]
  -- The position is short of the end of the EID by its length prefix, at most four bytes.
  refine parseReplyGroups_eq h hlen (a := (encodeString i.eid).drop i.eid.length) ?_ ?_
  · rw [← List.drop_drop, hd, List.drop_append_of_le_length (by rw [length_encodeString]; omega)]
  · rw [List.length_drop, length_encodeString]
    omega

end Message

/-! ## What the reader fills in -/

section Filled

variable (buf tid : Bytes) (pos tidLen : ℕ) (result : LookupResult)

theorem parseReplyTid_result : (parseReplyTid buf pos tid tidLen result).result = result := by
  unfold parseReplyTid
  cases findFrom buf pos (str "e1:t") with
  | none => rfl
  | some p =>
    cases h : readField buf p (fun l => 0 < l && l < tidLen) <;> simp only [h]

theorem parseReplyNeighbours_result : ∃ nbs,
    (parseReplyNeighbours buf pos tid tidLen result).result =
      { result with neighbours := nbs } := by
  unfold parseReplyNeighbours
  cases findFrom buf pos (str "e2:nbl") with
  | none => exact ⟨result.neighbours, rfl⟩
  | some p =>
    cases h : parseDtnEidList (buf.drop p) (buf.length - p) with
    | none => exact ⟨result.neighbours, by simp only [h]⟩
    | some r => exact ⟨r.2, by simp only [h, parseReplyTid_result]⟩

theorem parseReplyGroups_result : ∃ grs nbs,
    (parseReplyGroups buf pos tid tidLen result).result =
      { result with groups := grs, neighbours := nbs } := by
  unfold parseReplyGroups
  cases findFrom buf pos (str "2:grl") with
  | none => exact ⟨result.groups, result.neighbours, rfl⟩
  | some p =>
    cases h : parseDtnEidList (buf.drop p) (buf.length - p) with
    | none => exact ⟨result.groups, result.neighbours, by simp only [h]⟩
    | some r =>
      obtain ⟨nbs, hn⟩ := parseReplyNeighbours_result buf tid (p + r.1) tidLen
        { result with groups := r.2 }
      exact ⟨r.2, nbs, by simp only [h, hn]⟩

/-- An accepted reply has an EID of more than five bytes, spelt after the first marker. -/
theorem parseReplyEid_accepted
    (hm : (parseReplyEid buf pos tid tidLen result).message ≠ none) :
    ∃ p eid grs nbs, findFrom buf pos (str "e3:eid") = some p ∧ 5 < eid.length ∧
      Spells buf eid p ∧ (parseReplyEid buf pos tid tidLen result).result =
        { result with eid := some eid, groups := grs, neighbours := nbs } := by
  unfold parseReplyEid at hm ⊢
  cases hf : findFrom buf pos (str "e3:eid") with
  | none => simp [hf] at hm
  | some p =>
    cases hr : readField buf p (5 < ·) with
    | malformed => simp [hf, hr] at hm
    | overflow => simp [hf, hr] at hm
    | value eid =>
      obtain ⟨h5, hs⟩ := (readField_eq_value_iff fun l hl => (lt_trans (by decide)
        (of_decide_eq_true hl)).le).mp hr
      obtain ⟨grs, nbs, hg⟩ := parseReplyGroups_result buf tid (p + eid.length) tidLen
        { result with eid := some eid }
      exact ⟨p, eid, grs, nbs, rfl, by simpa using h5, hs, by simp only [hr, hg]⟩

end Filled

/-! ## The round trip -/

section RoundTrip

variable (inetNtop : ℕ → Bytes → Bytes) (frm : Sockaddr) (tid0 : Bytes) (i : DtnInfo)

/-- The name of a layer starts with `tcp` or `udp`. -/
def StartsTcpUdp (clname : Bytes) : Prop := str "tcp" <+: clname ∨ str "udp" <+: clname

instance (clname : Bytes) : Decidable (StartsTcpUdp clname) := by
  unfold StartsTcpUdp; infer_instance

/-- The layer the round trip asks for. -/
def expectedLayer (cl : ConvergenceLayer) : ConvergenceLayer :=
  ⟨cl.clname, if StartsTcpUdp cl.clname then ipArg inetNtop frm :: cl.args else cl.args⟩

/-- The packet `send_dtninfo` builds, received from `frm`, reads back as a reply with the same
EID, groups, neighbours, transaction id and layers, up to the `ip` arguments; `tid0` is what the
reader's array held. -/
def ReplyRoundTrip : Prop :=
  ∃ pkt, sendDtninfo i.tid i.eid i.cls i.nbs i.grs = some pkt ∧
    let r := parseDtnMessage inetNtop frm pkt tid0 16
    r.message = some .dtnReply ∧
      r.result = ⟨some i.eid, i.grs, i.nbs, i.cls.map (expectedLayer inetNtop frm)⟩ ∧
      r.tidLen = i.tid.length ∧ r.tid.take r.tidLen = i.tid

/-- The limits the reader sets and the writer does not: a layer at least, an argument in each, an
EID of six bytes, and no layer named by a proper prefix of `tcp` or `udp`. -/
structure DtnInfo.Readable : Prop where
  layers : i.cls ≠ []
  args : ∀ cl ∈ i.cls, cl.args ≠ []
  eid : 5 < i.eid.length
  names : ∀ cl ∈ i.cls, takesIp cl.clname → StartsTcpUdp cl.clname

/-- The end of the list of layers that the search for the EID reads again. -/
def DtnInfo.rescanned : Bytes := i.encodedLayers.drop (textLen i.cls)

theorem takesIp_of_startsTcpUdp {clname : Bytes} (h : StartsTcpUdp clname) : takesIp clname := by
  unfold takesIp nameMatches
  rcases h with ⟨r, rfl⟩ | ⟨r, rfl⟩
  · rw [show min (str "tcp" ++ r).length 3 = 3 from min_eq_right (by
      rw [List.length_append, show (str "tcp").length = 3 from rfl]; omega)]
    simp [show (str "tcp").length = 3 from rfl]
  · rw [show min (str "udp" ++ r).length 3 = 3 from min_eq_right (by
      rw [List.length_append, show (str "udp").length = 3 from rfl]; omega)]
    simp [show (str "udp").length = 3 from rfl]

/-- The reader adds an `ip` argument where it should exactly when the name is no proper prefix. -/
theorem decodedLayer_eq_iff {cl : ConvergenceLayer} :
    decodedLayer inetNtop frm cl = expectedLayer inetNtop frm cl ↔
      (takesIp cl.clname → StartsTcpUdp cl.clname) := by
  have hne : ipArg inetNtop frm :: cl.args ≠ cl.args := List.cons_ne_self _ _
  unfold decodedLayer expectedLayer
  by_cases hs : StartsTcpUdp cl.clname
  · simp only [takesIp_of_startsTcpUdp hs, hs, if_true, imp_self]
  · by_cases ht : takesIp cl.clname <;> simp [hs, ht]

variable {i}

theorem textLen_le : textLen i.cls ≤ i.encodedLayers.length := by
  rw [textLen, DtnInfo.encodedLayers, List.length_flatMap]
  refine List.sum_le_sum fun cl _ => ?_
  rw [length_encodeString]
  omega

theorem packet_drop : i.packet.drop (10 + textLen i.cls) = i.rescanned ++ i.eidPart := by
  rw [← List.drop_drop, DtnInfo.packet, List.drop_left' (by rfl : (str "d1:rd2:cll").length = 10),
    List.drop_append_of_le_length textLen_le, DtnInfo.rescanned]

variable (h : i.WellFormed)
include h

/-- The reader's answer to the packet, once the layers are read. -/
theorem parseDtnMessage_packet :
    parseDtnMessage inetNtop frm i.packet tid0 16 =
      if i.cls ≠ [] ∧ ∀ cl ∈ i.cls, cl.args ≠ [] then
        parseReplyEid i.packet (10 + textLen i.cls) tid0 16
          { clayer := i.cls.map (decodedLayer inetNtop frm) }
      else ⟨none, tid0, 16, {}⟩ := by
  have hq : (str "d1:ad3:eid").isPrefixOf i.packet = false := by
    rw [Bool.eq_false_iff, ne_eq, List.isPrefixOf_iff_prefix, DtnInfo.packet]
    intro hp
    have := List.prefix_of_prefix_length_le hp (List.prefix_append _ _) (by decide)
    exact absurd this (by decide)
  have hr : (str "d1:rd2:cll").isPrefixOf i.packet = true := by
    rw [List.isPrefixOf_iff_prefix, DtnInfo.packet]
    exact List.prefix_append _ _
  have hdrop : i.packet.drop 10 = i.encodedLayers ++ 101 :: (str "3:eid" ++
      (encodeString i.eid ++ i.groupsPart)) := by
    rw [DtnInfo.packet, List.drop_left' (by rfl : (str "d1:rd2:cll").length = 10),
      DtnInfo.eidPart]
    rfl
  have hlen : i.encodedLayers.length ≤ i.packet.length - 10 := by
    rw [← List.length_drop, hdrop, List.length_append]
    omega
  have hfits := h.fits
  have hlayers := parseDtnConvergenceLayer_encode inetNtop frm h.name_plain h.arg_plain
    (r := str "3:eid" ++ (encodeString i.eid ++ i.groupsPart)) hlen (by unfold longMax; omega)
  unfold parseDtnMessage parseDtnReply
  rw [if_neg (by rw [hq]; simp), if_pos hr, hdrop, DtnInfo.encodedLayers, hlayers]
  by_cases hargs : ∀ cl ∈ i.cls, cl.args ≠ []
  · rw [if_pos hargs]
    by_cases hcls : i.cls = []
    · rw [if_neg (fun hc => hc.1 hcls), hcls]
      rfl
    · rw [if_pos ⟨hcls, hargs⟩]
      obtain ⟨cl, cls, hcl⟩ := List.exists_cons_of_ne_nil hcls
      obtain ⟨n, hn⟩ : ∃ n, textLen i.cls = n + 1 := by
        refine ⟨textLen i.cls - 1, ?_⟩
        have := length_layerText cl
        simp only [hcl, textLen, List.map_cons, List.sum_cons]
        omega
      simp only [hn]
  · rw [if_neg hargs, if_neg (fun hc => hargs hc.2)]

/-- **The reply reads back** when the reader's limits are met and no marker stands in the bytes it
reads again. -/
theorem replyRoundTrip_of_readable (hread : i.Readable)
    (hmark : ¬ str "e3:eid" <:+: i.rescanned) : ReplyRoundTrip inetNtop frm tid0 i := by
  refine ⟨i.packet, sendDtninfo_eq h.fits, ?_⟩
  rw [parseDtnMessage_packet inetNtop frm tid0 h, if_pos ⟨hread.layers, hread.args⟩,
    parseReplyEid_eq h h.fits packet_drop hmark hread.eid]
  refine ⟨rfl, ?_, rfl, memcpy_take tid0 i.tid⟩
  have hmap : i.cls.map (decodedLayer inetNtop frm) = i.cls.map (expectedLayer inetNtop frm) :=
    List.map_congr_left fun cl hcl => (decodedLayer_eq_iff inetNtop frm).mpr (hread.names cl hcl)
  simp only [hmap]

/-- A reply that reads back met the reader's limits, and the first marker of the bytes read again,
if there is one, precedes a copy of the EID. -/
theorem readable_of_replyRoundTrip (hrt : ReplyRoundTrip inetNtop frm tid0 i) :
    i.Readable ∧ (¬ str "e3:eid" <:+: i.rescanned ∨
      ∃ j, findInfix (str "e3:eid") i.rescanned = some j ∧
        Spells (i.rescanned ++ i.eidPart) i.eid (j + 6)) := by
  obtain ⟨pkt, hpkt, hm, hres, -, -⟩ := hrt
  rw [sendDtninfo_eq h.fits, Option.some_inj] at hpkt
  subst hpkt
  have hp := parseDtnMessage_packet inetNtop frm tid0 h
  by_cases hc : i.cls ≠ [] ∧ ∀ cl ∈ i.cls, cl.args ≠ []
  · rw [if_pos hc] at hp
    rw [hp] at hm hres
    obtain ⟨p, eid, grs, nbs, hf, h5, hs, hr⟩ := parseReplyEid_accepted _ _ _ _ _ (by rw [hm]; simp)
    rw [hr] at hres
    obtain ⟨he, -, -, hcl⟩ := LookupResult.mk.inj hres
    rw [Option.some_inj] at he
    subst he
    refine ⟨⟨hc.1, hc.2, h5, fun cl hcl' => ?_⟩, ?_⟩
    · exact (decodedLayer_eq_iff inetNtop frm).mp (List.map_inj_left.mp hcl cl hcl')
    · by_cases hmark : str "e3:eid" <:+: i.rescanned
      · obtain ⟨j, hj⟩ := Option.ne_none_iff_exists'.mp
          (fun hn => findInfix_eq_none_iff.mp hn hmark)
        refine Or.inr ⟨j, hj, ?_⟩
        rw [findFrom, packet_drop, findInfix_append_left hj, Option.map_some,
          Option.some_inj] at hf
        unfold Spells at hs ⊢
        rwa [← packet_drop, List.drop_drop, show 10 + textLen i.cls + (j + 6) = p from
          (Nat.add_assoc _ _ _).symm.trans hf]
      · exact Or.inl hmark
  · rw [if_neg hc] at hp
    rw [hp] at hm
    simp at hm

/-- **The DTN reply round trip.** A reply that reads back meets the reader's limits, and the bytes
the search for the EID reads again hold no marker, or a copy of the EID after their first one. If
they hold no marker, the limits are enough. -/
theorem replyRoundTrip_iff :
    (ReplyRoundTrip inetNtop frm tid0 i → i.Readable ∧ (¬ str "e3:eid" <:+: i.rescanned ∨
      ∃ j, findInfix (str "e3:eid") i.rescanned = some j ∧
        Spells (i.rescanned ++ i.eidPart) i.eid (j + 6))) ∧
    (¬ str "e3:eid" <:+: i.rescanned → (ReplyRoundTrip inetNtop frm tid0 i ↔ i.Readable)) :=
  ⟨readable_of_replyRoundTrip inetNtop frm tid0 h, fun hmark =>
    ⟨fun hrt => (readable_of_replyRoundTrip inetNtop frm tid0 h hrt).1,
      fun hread => replyRoundTrip_of_readable inetNtop frm tid0 h hread hmark⟩⟩

end RoundTrip

/-- The reply of a node with a TCP layer, a neighbour and two groups. -/
def tcpInfo : DtnInfo :=
  ⟨str "pn" ++ [0, 0], str "dtn://node", [⟨str "tcp", [⟨str "port", str "4556"⟩]⟩],
    [str "dtn://other"], [str "dtn://all", str "g"]⟩

theorem tcpInfo_wellFormed : tcpInfo.WellFormed := by
  constructor <;> decide

theorem replyRoundTrip_tcpInfo :
    ReplyRoundTrip (fun _ _ => str "1.2.3.4") (sockaddrIn [1, 2, 3, 4] [0, 80])
      (List.replicate 16 7) tcpInfo :=
  ((replyRoundTrip_iff _ _ _ tcpInfo_wellFormed).2 (by decide)).mpr
    ⟨by decide, by decide, by decide, by decide⟩

/-- The reply of a node without a convergence layer, as the announcing tool sends it. -/
def bareInfo : DtnInfo := ⟨str "pn" ++ [0, 0], str "dtn://node", [], [], []⟩

/-- The reply of a node whose EID has five bytes. -/
def shortInfo : DtnInfo :=
  ⟨str "pn" ++ [0, 0], str "dtn:a", [⟨str "tcp", [⟨str "port", str "4556"⟩]⟩], [], []⟩

/-- The reply of a node with three layers, the last with a marker in its argument. -/
def markerInfo : DtnInfo :=
  ⟨str "pn" ++ [0, 0], str "dtn://node", [⟨str "tcp", [⟨str "port", str "4556"⟩]⟩,
    ⟨str "udp", [⟨str "port", str "4556"⟩]⟩, ⟨str "mail", [⟨str "to", str "e3:eid"⟩]⟩], [], []⟩

/-- The three replies fit and are refused. -/
theorem replyRoundTrip_refused :
    (bareInfo.WellFormed ∧ ¬ ReplyRoundTrip (fun _ _ => str "1.2.3.4")
      (sockaddrIn [1, 2, 3, 4] [0, 80]) (List.replicate 16 7) bareInfo) ∧
    (shortInfo.WellFormed ∧ ¬ ReplyRoundTrip (fun _ _ => str "1.2.3.4")
      (sockaddrIn [1, 2, 3, 4] [0, 80]) (List.replicate 16 7) shortInfo) ∧
    (markerInfo.WellFormed ∧ ¬ ReplyRoundTrip (fun _ _ => str "1.2.3.4")
      (sockaddrIn [1, 2, 3, 4] [0, 80]) (List.replicate 16 7) markerInfo) := by
  have key : ∀ i : DtnInfo, i.WellFormed →
      (parseDtnMessage (fun _ _ => str "1.2.3.4") (sockaddrIn [1, 2, 3, 4] [0, 80]) i.packet
        (List.replicate 16 7) 16).message = none →
      i.WellFormed ∧ ¬ ReplyRoundTrip (fun _ _ => str "1.2.3.4")
        (sockaddrIn [1, 2, 3, 4] [0, 80]) (List.replicate 16 7) i := by
    intro i hi hnone
    refine ⟨hi, ?_⟩
    rintro ⟨pkt, hpkt, hm, -⟩
    rw [sendDtninfo_eq hi.fits, Option.some_inj] at hpkt
    subst hpkt
    exact absurd (hnone.symm.trans hm) (by simp)
  refine ⟨key _ ?_ (by decide), key _ ?_ (by decide), key _ ?_ (by decide)⟩
  all_goals constructor <;> decide

end DtnDht
