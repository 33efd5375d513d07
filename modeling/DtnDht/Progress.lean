import DtnDht.Awake
import DtnDht.Lib.Potential

/-!
# Every search ends

Nothing need come back from the network for a search to end. Each step of a search asks at least
one more node, or announces to one, and no node is sent more than three requests in a row; when
none is left to be sent one, the search is done and the application is told. So a search in progress
is over after at most 43 calls of `dtn_dht_periodic`, if nothing is received meanwhile and each call
comes at least 25 seconds after the one before it (`search_ends`).
-/

namespace DtnDht

open CString

/-! ## The requests left -/

/-- How many requests may still be sent to the nodes until a reply comes. -/
def requestsLeft (nodes : List SearchNode) : ℕ := (nodes.map fun n => 3 - n.pinged).sum

/-- How many requests may still be sent for a search. -/
def Search.left (sr : Search) : ℕ := requestsLeft sr.nodes

@[simp] theorem requestsLeft_nil : requestsLeft [] = 0 := rfl

@[simp] theorem requestsLeft_cons (n : SearchNode) (nodes : List SearchNode) :
    requestsLeft (n :: nodes) = 3 - n.pinged + requestsLeft nodes := by
  simp [requestsLeft]

theorem requestsLeft_append (nodes nodes' : List SearchNode) :
    requestsLeft (nodes ++ nodes') = requestsLeft nodes + requestsLeft nodes' := by
  simp [requestsLeft]

theorem requestsLeft_le (nodes : List SearchNode) : requestsLeft nodes ≤ 3 * nodes.length := by
  induction nodes with
  | nil => exact le_rfl
  | cons n nodes ih =>
    rw [requestsLeft_cons, List.length_cons]
    omega

section

variable {net : Net} {now : ℤ} {sr : Search}

/-- Each request counts. -/
theorem Search.left_sendGetPeers (r : Routing) (j : ℕ) :
    (sr.sendGetPeers net now r j).1.left + (sr.sendGetPeers net now r j).2.2.2 = sr.left := by
  unfold Search.sendGetPeers
  cases hn : sr.nodes[j]? with
  | none => rfl
  | some n =>
    dsimp only
    by_cases hask : Search.toAsk now n = true
    · rw [if_pos hask]
      obtain ⟨hj, rfl⟩ := List.getElem?_eq_some_iff.mp hn
      have hpinged : sr.nodes[j].pinged < 3 := by
        unfold Search.toAsk at hask
        simp only [Bool.and_eq_true, decide_eq_true_eq] at hask
        exact hask.1.1
      have hsplit : sr.nodes = sr.nodes.take j ++ sr.nodes[j] :: sr.nodes.drop (j + 1) := by
        rw [List.getElem_cons_drop hj, List.take_append_drop]
      unfold Search.left
      dsimp only
      rw [List.set_eq_take_append_cons_drop, if_pos hj, requestsLeft_append, requestsLeft_cons]
      conv_rhs => rw [hsplit, requestsLeft_append, requestsLeft_cons]
      dsimp only
      omega
    · rw [if_neg hask]
      rfl

theorem Search.sendGetPeers_of_toAsk {j : ℕ} {n : SearchNode} (hn : sr.nodes[j]? = some n)
    (hask : Search.toAsk now n = true) (r : Routing) :
    (sr.sendGetPeers net now r j).2.2.2 = 1 := by
  unfold Search.sendGetPeers
  rw [hn]
  dsimp only
  rw [if_pos hask]

theorem Search.sendGetPeers_zero {r : Routing} {j : ℕ}
    (h : (sr.sendGetPeers net now r j).2.2.2 = 0) : (sr.sendGetPeers net now r j).1 = sr := by
  unfold Search.sendGetPeers at h ⊢
  cases hn : sr.nodes[j]? with
  | none => rfl
  | some n =>
    rw [hn] at h
    dsimp only at h ⊢
    by_cases hask : Search.toAsk now n = true
    · rw [if_pos hask] at h
      exact absurd h one_ne_zero
    · rw [if_neg hask]

theorem Search.left_askNodes_le (r : Routing) (asked : ℕ) (js : List ℕ) :
    (Search.askNodes net now r sr asked js).1.left ≤ sr.left := by
  induction js generalizing r sr asked with
  | nil => exact le_rfl
  | cons j js ih =>
    have hj : (sr.sendGetPeers net now r j).1.left ≤ sr.left :=
      le_iff_exists_add.mpr ⟨_, (Search.left_sendGetPeers r j).symm⟩
    unfold Search.askNodes
    dsimp only
    split_ifs
    · exact hj
    · exact (ih _ _).trans hj

/-- If one of the nodes is to be asked, a node is asked. -/
theorem Search.left_askNodes_lt (r : Routing) {asked : ℕ} (hasked : asked < 3) {js : List ℕ}
    {j : ℕ} (hj : j ∈ js) {n : SearchNode} (hn : sr.nodes[j]? = some n)
    (hask : Search.toAsk now n = true) :
    (Search.askNodes net now r sr asked js).1.left < sr.left := by
  induction js generalizing r asked with
  | nil => exact absurd hj List.not_mem_nil
  | cons k js ih =>
    have hk := @Search.left_sendGetPeers net now sr r k
    unfold Search.askNodes
    dsimp only
    by_cases h0 : (sr.sendGetPeers net now r k).2.2.2 = 0
    · -- node `k` is not asked, so it is another one
      have hne : j ≠ k := by
        rintro rfl
        rw [Search.sendGetPeers_of_toAsk hn hask r] at h0
        exact one_ne_zero h0
      have hmem : j ∈ js := (List.mem_cons.mp hj).resolve_left hne
      rw [h0, Nat.add_zero, if_neg (not_le.mpr hasked), Search.sendGetPeers_zero h0]
      exact ih _ hasked hmem
    · have hlt : (sr.sendGetPeers net now r k).1.left < sr.left := by omega
      split_ifs
      · exact hlt
      · exact (Search.left_askNodes_le _ _ _).trans_lt hlt

/-- An announcement counts, and without one all nodes have acknowledged. -/
theorem requestsLeft_announceNodes (j : ℕ) (nodes : List SearchNode) (r : Routing) :
    requestsLeft (Search.announceNodes net now sr j nodes r).1 ≤ requestsLeft nodes ∧
      ((Search.announceNodes net now sr j nodes r).2.2.2 = false →
        requestsLeft (Search.announceNodes net now sr j nodes r).1 < requestsLeft nodes) := by
  induction nodes generalizing j r with
  | nil => cases j <;> exact ⟨le_rfl, fun h => absurd h Bool.noConfusion⟩
  | cons n nodes ih =>
    cases j with
    | zero => exact ⟨le_rfl, fun h => absurd h Bool.noConfusion⟩
    | succ j =>
      have hpinged : (if n.token = [] then { n with acked := true } else n).pinged = n.pinged := by
        split_ifs <;> rfl
      unfold Search.announceNodes
      dsimp only
      generalize (if n.token = [] then { n with acked := true } else n) = n' at hpinged
      by_cases h3 : 3 ≤ n.pinged
      · obtain ⟨hle, hlt⟩ := ih (j + 1) r
        rw [if_pos h3]
        simp only [requestsLeft_cons]
        exact ⟨Nat.add_le_add_left hle _, fun h => Nat.add_lt_add_left (hlt h) _⟩
      · rw [if_neg h3]
        by_cases ha : n'.acked = true
        · obtain ⟨hle, hlt⟩ := ih j r
          rw [if_pos ha]
          simp only [requestsLeft_cons, hpinged]
          exact ⟨Nat.add_le_add_left hle _, fun h => Nat.add_lt_add_left (hlt h) _⟩
        · obtain ⟨hle, -⟩ := ih j (r.markPinged net now n'.id n'.ss.family).1
          rw [if_neg ha]
          simp only [requestsLeft_cons, hpinged]
          exact ⟨by omega, fun _ => by omega⟩

/-- Unless the first 8 live nodes have replied, one of them is to be asked once its last request is
old. -/
theorem Search.exists_toAsk (hall : sr.allDone = false)
    (hold : ∀ n ∈ sr.nodes, n.requestTime < now - 15) :
    ∃ j ∈ List.range sr.nodes.length, ∃ n, sr.nodes[j]? = some n ∧
      Search.toAsk now n = true := by
  unfold Search.allDone at hall
  obtain ⟨n, hn, hreplied⟩ := List.all_eq_false.mp hall
  obtain ⟨hmem, hpinged⟩ := List.mem_filter.mp (List.mem_of_mem_take hn)
  obtain ⟨j, hj⟩ := List.mem_iff_getElem?.mp hmem
  refine ⟨j, List.mem_range.mpr (List.getElem?_eq_some_iff.mp hj).1, n, hj, ?_⟩
  unfold Search.toAsk
  simp only [Bool.and_eq_true, decide_eq_true_eq, Bool.not_eq_true'] at hpinged ⊢
  exact ⟨⟨hpinged, Bool.eq_false_iff.mpr hreplied⟩, hold n hmem⟩

/-- A step of a search whose last requests are old ends it or sends a request. -/
theorem Search.step_lowers (r : Routing) (hold : ∀ n ∈ sr.nodes, n.requestTime < now - 15)
    (htime : sr.stepTime + 15 < now) :
    (sr.step net now r).1.stepTime = now ∧
      ((sr.step net now r).2.2.2 = true ∨ (sr.step net now r).1.left < sr.left) := by
  unfold Search.step
  by_cases hall : sr.allDone = true
  · rw [if_pos hall]
    by_cases hport : sr.port = 0
    · rw [if_pos hport]
      exact ⟨rfl, Or.inl rfl⟩
    · have hlt := (@requestsLeft_announceNodes net now sr 8 sr.nodes r).2
      rw [if_neg hport]
      dsimp only
      by_cases hacked : (Search.announceNodes net now sr 8 sr.nodes r).2.2.2 = true
      · rw [if_pos hacked]
        exact ⟨rfl, Or.inl rfl⟩
      · rw [if_neg hacked]
        exact ⟨rfl, Or.inr (hlt (Bool.eq_false_iff.mpr hacked))⟩
  · obtain ⟨j, hj, n, hn, hask⟩ := Search.exists_toAsk (Bool.eq_false_iff.mpr hall) hold
    rw [if_neg hall, if_neg (not_le.mpr htime)]
    exact ⟨rfl, Or.inr (Search.left_askNodes_lt r (by decide) hj hn hask)⟩

end

/-! ## What is told -/

namespace World

/-- The marks between two states, the former being an earlier one. -/
def Told (w w' : World) (o : Output → Prop) : Prop :=
  ∃ new, w'.marks = w.marks ++ new ∧ ∃ x ∈ new, o x

variable {w w' w'' : World} {o : Output → Prop}

theorem Told.later (h : Told w w' o) (h' : w'.marks <+: w''.marks) : Told w w'' o := by
  obtain ⟨new, hnew, x, hx, ho⟩ := h
  obtain ⟨new', hnew'⟩ := h'
  exact ⟨new ++ new', by rw [← hnew', hnew, List.append_assoc], x, List.mem_append_left _ hx, ho⟩

theorem Told.since (h : w.marks <+: w'.marks) (h' : Told w' w'' o) : Told w w'' o := by
  obtain ⟨new, hnew⟩ := h
  obtain ⟨new', hnew', x, hx, ho⟩ := h'
  exact ⟨new ++ new', by rw [hnew', ← hnew, List.append_assoc], x, List.mem_append_right _ hx, ho⟩

/-- A search for the id and family has been started between two states. -/
def StartedAgain (w w' : World) (sr : Search) : Prop :=
  Told w w' fun o => ∃ start, o = .searchStart start ∧ start.id = sr.id ∧ start.af = sr.af

/-- The search has ended between two states and the application was told, or it was started
again. -/
def Over (w w' : World) (sr : Search) : Prop :=
  StartedAgain w w' sr ∨ Told w w' (· = .operationDone sr.id) ∧
    ∃ sr' ∈ w'.searches, sr'.id = sr.id ∧ sr'.af = sr.af ∧ sr'.done = true

/-! ## Calls that leave searches in progress alone -/

/-- No time passes, and every search in progress is left alone or started again. -/
structure Spared (w w' : World) : Prop where
  now : w'.now = w.now
  marks : w.marks <+: w'.marks
  searches : ∀ sr ∈ w.searches, sr.done = false → StartedAgain w w' sr ∨ sr ∈ w'.searches

theorem Spared.refl (w : World) : Spared w w :=
  ⟨rfl, List.prefix_refl _, fun _ hsr _ => Or.inr hsr⟩

theorem Spared.trans (h : Spared w w') (h' : Spared w' w'') : Spared w w'' := by
  refine ⟨h'.now.trans h.now, h.marks.trans h'.marks, fun sr hsr hdone => ?_⟩
  rcases h.searches sr hsr hdone with hre | hsr'
  · exact Or.inl (hre.later h'.marks)
  · exact (h'.searches sr hsr' hdone).imp_left (Told.since h.marks)

/-- A step that writes neither to the searches nor to the marks. -/
theorem Spared.other (h : Spared w w') (hn : w''.now = w'.now) (hs : w''.searches = w'.searches)
    (hm : w''.marks = w'.marks) : Spared w w'' :=
  h.trans ⟨hn, hm ▸ List.prefix_refl _, fun _ hsr _ => Or.inr (hs ▸ hsr)⟩

theorem Spared.foldl {ι : Type*} {f : World → ι → World} (h : Spared w w') (is : List ι)
    (hf : ∀ w' i, Spared w w' → Spared w (f w' i)) : Spared w (is.foldl f w') :=
  List.foldlRecOn is f h fun w' hw i _ => hf w' i hw

theorem searches_searchStep (w : World) (i : ℕ) : (w.searchStep i).searches =
    (w.searches[i]?).elim w.searches fun sr =>
      w.searches.set i (sr.step w.net w.now w.routing).1 := by
  unfold searchStep
  cases w.searches[i]? with
  | none => rfl
  | some sr =>
    dsimp only
    split_ifs <;> rfl

theorem getElem?_searchStep_ne {i k : ℕ} (hik : i ≠ k) (w : World) :
    (w.searchStep i).searches[k]? = w.searches[k]? := by
  rw [searches_searchStep]
  cases w.searches[i]? with
  | none => rfl
  | some sr => exact List.getElem?_set_ne hik

/-- `dht_search` takes no slot of another search in progress. -/
theorem mem_searches_dhtSearch {sr : Search} (hsr : sr ∈ w.searches) (hdone : sr.done = false)
    {id : Id} {af : ℕ} (hne : ¬ (sr.id = id ∧ sr.af = af)) (port : UInt16) :
    sr ∈ (w.dhtSearch id port af).2.searches := by
  have hother {srs : List Search} {i k : ℕ} (hk : srs[k]? = some sr) (hik : i ≠ k)
      (f g : Search → Search) (start : SearchStart) (w' : World) (t : ℤ) :
      sr ∈ { (({ w' with searches := (srs.modify i f).modify i g }.emit
        [.searchStart start]).searchStep i) with searchTime := t }.searches := by
    refine List.mem_of_getElem? ((getElem?_searchStep_ne hik _).trans ?_)
    unfold emit
    dsimp only
    rw [List.getElem?_modify_ne _ _ hik, List.getElem?_modify_ne _ _ hik, hk]
  obtain ⟨k, hk⟩ := List.mem_iff_getElem?.mp hsr
  unfold dhtSearch searchSlot
  cases w.routing.findBucket id af with
  | none => exact hsr
  | some b =>
    cases hidx : w.findIdx id af with
    | some i =>
      obtain ⟨old, hi, hid, haf⟩ := findIdx_spec hidx
      have hik : i ≠ k := by
        rintro rfl
        obtain rfl := Option.some_inj.mp (hi.symm.trans hk)
        exact hne ⟨hid, haf⟩
      exact hother hk hik _ _ _ _ _
    | none =>
      dsimp only
      cases hnew : newSearch w.now (w.env.calloc 0) w.searches w.numsearches with
      | mk slot rest =>
        obtain ⟨searches, numsearches⟩ := rest
        cases slot with
        | none => exact hsr
        | some i =>
          rcases newSearch_cases hnew with ⟨rfl, -, old, hi, hold⟩ | ⟨rfl, rfl, -⟩
          · have hik : i ≠ k := by
              rintro rfl
              obtain rfl := Option.some_inj.mp (hi.symm.trans hk)
              exact Bool.noConfusion (hdone.symm.trans hold)
            exact hother hk hik _ _ _ _ _
          · have hk' : (callocSearch :: w.searches)[k + 1]? = some sr := hk
            exact hother hk' (Nat.succ_ne_zero k).symm _ _ _ _ _

theorem Spared.dhtSearch (h : Spared w w') (id : Id) (port : UInt16) (af : ℕ) :
    Spared w (w'.dhtSearch id port af).2 := by
  refine h.trans ?_
  have hsearches {sr : Search} (hsr : sr ∈ w'.searches) (hdone : sr.done = false) :=
    fun hne => @mem_searches_dhtSearch _ sr hsr hdone id af hne port
  rcases dhtSearch_cases w' id port af with
    ⟨hcan, -, hcalm⟩ | ⟨i, hs, tid, n, sid, t, fin, -, -, -, hstart, -, -⟩
  · refine ⟨hcalm.now, hcalm.marks ▸ List.prefix_refl _, fun sr hsr hdone => Or.inr ?_⟩
    by_cases hsame : sr.id = id ∧ sr.af = af
    · -- there is a slot, so there was no bucket
      have hidx : (w'.findIdx id af).isSome = true := by
        by_contra hnone
        exact findIdx_eq_none (Option.not_isSome_iff_eq_none.mp hnone) sr.head
          (List.mem_map_of_mem hsr) hsame
      have hbucket : w'.routing.findBucket id af = none := by
        unfold canSearch at hcan
        rwa [hidx, Bool.true_or, Bool.and_true, Option.isSome_eq_false_iff,
          Option.isNone_iff_eq_none] at hcan
      unfold World.dhtSearch
      rwa [hbucket]
    · exact hsearches hsr hdone hsame
  · refine ⟨hstart.now, ⟨_, hstart.marks.symm⟩, fun sr hsr hdone => ?_⟩
    by_cases hsame : sr.id = id ∧ sr.af = af
    · exact Or.inl ⟨_, hstart.marks, _, List.mem_cons_self, _, rfl, hsame.1.symm, hsame.2.symm⟩
    · exact Or.inr (hsearches hsr hdone hsame)

section

variable (ctx : Context)

theorem Spared.dtnDhtSearch (h : Spared w w') (id : Id) (port : UInt16) :
    Spared w (w'.dtnDhtSearch ctx id port).2 := by
  have h4 := h.dhtSearch id port afInet
  unfold World.dtnDhtSearch
  cases ctx.type with
  | bindnone => exact h
  | ipv4only => exact h4
  | ipv6only => exact h.dhtSearch id port afInet6
  | bindboth =>
    dsimp only
    split_ifs
    · exact h4
    · exact h4.dhtSearch id port afInet6

theorem Spared.readyForWork (h : Spared w w') : Spared w (w'.readyForWork ctx).2 := by
  unfold World.readyForWork
  dsimp only
  split_ifs <;> exact h.other rfl rfl rfl

theorem Spared.reannounceEntry (h : Spared w w') (i : ℕ) :
    Spared w (w'.reannounceEntry ctx i) := by
  have htime : Spared w w'.time.2 := h.other rfl rfl rfl
  unfold World.reannounceEntry
  generalize w'.time = out at htime
  obtain ⟨acttime, w₁⟩ := out
  dsimp only
  split
  · exact htime
  · rename_i pos _
    have hsearch := Spared.dtnDhtSearch ctx htime pos.md ctx.port
    split_ifs
    · exact hsearch
    · exact hsearch.other rfl rfl rfl
    · exact htime

theorem Spared.reannounceList (h : Spared w w') : Spared w (w'.reannounceList ctx) :=
  h.foldl _ fun _ i h₀ => h₀.reannounceEntry ctx i

/-- Starting a lookup adds a mark. -/
theorem spared_lookupStart (w : World) (key : Id) : Spared w (w.emit [.lookupStart key]) := by
  refine ⟨rfl, ⟨[.lookupStart key], ?_⟩, fun _ hsr _ => Or.inr hsr⟩
  unfold emit marks
  rw [List.filter_append]
  rfl

theorem Spared.relookupList (h : Spared w w') : Spared w (w'.relookupList ctx) := by
  refine h.foldl _ fun w₀ i h₀ => ?_
  unfold relookupEntry
  split
  · exact h₀
  · rename_i pos _
    have hsearch := (h₀.trans (spared_lookupStart w₀ pos.md)).dtnDhtSearch ctx pos.md 0
    by_cases hrepeat : pos.status = .doneAndReadyForRepeat
    · rw [if_pos hrepeat]
      dsimp only
      split_ifs
      · exact hsearch
      · exact hsearch.other rfl rfl rfl
    · rw [if_neg hrepeat]
      exact h₀

theorem spared_maintainLists (w : World) : Spared w (w.maintainLists ctx) := by
  have hmin : Spared w (w.setMinimumRating ctx) := (Spared.refl w).other rfl rfl rfl
  have hready := hmin.readyForWork ctx
  unfold World.maintainLists
  generalize (w.setMinimumRating ctx).readyForWork ctx = out at hready
  obtain ⟨ready, w₁⟩ := out
  dsimp only
  have hlists : Spared w (if 2 ≤ ready then (w₁.reannounceList ctx).relookupList ctx
      else w₁) := by
    split_ifs
    · exact (Spared.reannounceList ctx hready).relookupList ctx
    · exact hready
  exact hlists.other rfl rfl rfl

end

/-! ## Stepping the searches -/

/-- A step of another search. -/
theorem stepIfDue_other {i k : ℕ} (hik : i ≠ k) (w : World) :
    (w.stepIfDue i).searches[k]? = w.searches[k]? := by
  unfold stepIfDue
  split_ifs
  · exact getElem?_searchStep_ne hik w
  · rfl

theorem stepIfDue_keeps (w : World) (i : ℕ) :
    (w.stepIfDue i).now = w.now ∧ w.marks <+: (w.stepIfDue i).marks := by
  unfold stepIfDue
  split_ifs
  · refine ⟨(quiet_searchStep w i).now, ?_⟩
    cases hi : w.searches[i]? with
    | none =>
      have heq : w.searchStep i = w := by
        unfold searchStep
        rw [hi]
      rw [heq]
    | some sr =>
      obtain ⟨t, fin, hstep⟩ := searchStep_spec hi
      exact ⟨_, hstep.marks.symm⟩
  · exact ⟨rfl, List.prefix_refl _⟩

theorem foldl_stepIfDue_keeps (w : World) (is : List ℕ) :
    (is.foldl stepIfDue w).now = w.now ∧ w.marks <+: (is.foldl stepIfDue w).marks := by
  refine List.foldlRecOn (motive := fun w' => w'.now = w.now ∧ w.marks <+: w'.marks) is stepIfDue
    ⟨rfl, List.prefix_refl _⟩ fun w' h i _ => ?_
  obtain ⟨hnow, hmarks⟩ := stepIfDue_keeps w' i
  exact ⟨hnow.trans h.1, h.2.trans hmarks⟩

theorem foldl_stepIfDue_other (w : World) {is : List ℕ} {k : ℕ} (hk : k ∉ is) :
    (is.foldl stepIfDue w).searches[k]? = w.searches[k]? := by
  refine List.foldlRecOn (motive := fun w' => w'.searches[k]? = w.searches[k]?) is stepIfDue
    rfl fun w' h i hi => ?_
  have hik : i ≠ k := by
    rintro rfl
    exact hk hi
  exact (stepIfDue_other hik w').trans h

/-- The search has ended and the application was told, or a request was sent for it. -/
def Advanced (w w' : World) (sr sr' : Search) : Prop :=
  sr'.done = true ∧ Told w w' (· = .operationDone sr.id) ∨
    sr'.done = false ∧ sr'.left < sr.left ∧ sr'.stepTime = w'.now

/-- Search `sr` is ripe for a step. -/
structure Ripe (w : World) (sr : Search) : Prop where
  going : sr.done = false
  requests : ∀ n ∈ sr.nodes, n.requestTime < w.now - 15
  time : sr.stepTime + 15 < w.now

theorem stepIfDue_ripe {i : ℕ} {sr : Search} (hi : w.searches[i]? = some sr) (h : w.Ripe sr) :
    ∃ sr', (w.stepIfDue i).searches[i]? = some sr' ∧ sr'.id = sr.id ∧ sr'.af = sr.af ∧
      Advanced w (w.stepIfDue i) sr sr' := by
  have hdue : (w.searches[i]?.any fun sr => !sr.done && sr.stepTime + 5 ≤ w.now) = true := by
    have htime := h.time
    rw [hi, Option.any_some, h.going, Bool.not_false, Bool.true_and, decide_eq_true_iff]
    omega
  obtain ⟨htime, hlowers⟩ :=
    @Search.step_lowers w.net w.now sr w.routing h.requests h.time
  obtain ⟨t, -, hhead⟩ := sr.head_step w.net w.now w.routing
  have hdone : (sr.step w.net w.now w.routing).1.done = (sr.step w.net w.now w.routing).2.2.2 := by
    have hor := congrArg SearchHead.done hhead
    change _ = (sr.done || _) at hor
    rwa [h.going, Bool.false_or] at hor
  unfold stepIfDue
  rw [if_pos hdue]
  have hsearches : (w.searchStep i).searches[i]? = some (sr.step w.net w.now w.routing).1 := by
    rw [searches_searchStep, hi]
    exact List.getElem?_set_self (List.getElem?_eq_some_iff.mp hi).1
  have hid : (sr.step w.net w.now w.routing).1.id = sr.id := congrArg SearchHead.id hhead
  refine ⟨_, hsearches, hid, congrArg SearchHead.af hhead, ?_⟩
  cases hfin : (sr.step w.net w.now w.routing).2.2.2 with
  | true =>
    refine Or.inl ⟨hdone.trans hfin, [.operationDone sr.id], ?_, _, List.mem_singleton_self _, rfl⟩
    unfold searchStep
    rw [hi]
    dsimp only
    rw [if_pos hfin, marks_searchDone, hid]
    exact congrArg (· ++ _) (marks_request _ _)
  | false =>
    have hnow : (w.searchStep i).now = w.now := (quiet_searchStep w i).now
    refine Or.inr ⟨hdone.trans hfin, hlowers.resolve_left ?_, htime.trans hnow.symm⟩
    rw [hfin]
    exact Bool.false_ne_true

/-- The time and the searches stay, and the marks grow. -/
theorem Advanced.later {sr sr' : Search} (h : Advanced w w' sr sr') (hnow : w''.now = w'.now)
    (hmarks : w'.marks <+: w''.marks) : Advanced w w'' sr sr' := by
  rcases h with ⟨hdone, htold⟩ | ⟨hdone, hleft, htime⟩
  · exact Or.inl ⟨hdone, htold.later hmarks⟩
  · exact Or.inr ⟨hdone, hleft, htime.trans hnow.symm⟩

theorem Advanced.since {sr sr' : Search} (h : Advanced w' w'' sr sr')
    (hmarks : w.marks <+: w'.marks) : Advanced w w'' sr sr' :=
  h.imp_left fun ⟨hdone, htold⟩ => ⟨hdone, htold.since hmarks⟩

/-- A search of the id and family has advanced. -/
def Advances (w w' : World) (sr : Search) : Prop :=
  ∃ sr' ∈ w'.searches, sr'.id = sr.id ∧ sr'.af = sr.af ∧ Advanced w w' sr sr'

theorem Advances.later {sr : Search} (h : Advances w w' sr) (hnow : w''.now = w'.now)
    (hmarks : w'.marks <+: w''.marks) (hs : w''.searches = w'.searches) : Advances w w'' sr := by
  obtain ⟨sr', hsr', hid, haf, hadv⟩ := h
  exact ⟨sr', hs ▸ hsr', hid, haf, hadv.later hnow hmarks⟩

theorem Advances.since {sr : Search} (h : Advances w' w'' sr) (hmarks : w.marks <+: w'.marks) :
    Advances w w'' sr := by
  obtain ⟨sr', hsr', hid, haf, hadv⟩ := h
  exact ⟨sr', hsr', hid, haf, hadv.since hmarks⟩

/-- The steps that are due advance every search that is ripe. -/
theorem advances_stepSearches {sr : Search} (hsr : sr ∈ w.searches) (h : w.Ripe sr) :
    Advances w w.stepSearches sr := by
  obtain ⟨i, hi⟩ := List.mem_iff_getElem?.mp hsr
  have hi' : i ∈ List.range w.searches.length :=
    List.mem_range.mpr (List.getElem?_eq_some_iff.mp hi).1
  have hsteps : Advances w ((List.range w.searches.length).foldl stepIfDue w) sr := by
    have hnodup := List.nodup_range (n := w.searches.length)
    obtain ⟨before, after, hsplit⟩ := List.append_of_mem hi'
    rw [hsplit] at hnodup ⊢
    obtain ⟨-, hafter, hdisjoint⟩ := List.nodup_append.mp hnodup
    rw [List.foldl_append, List.foldl_cons]
    obtain ⟨hnow, hmarks⟩ := foldl_stepIfDue_keeps w before
    have hat : (before.foldl stepIfDue w).searches[i]? = some sr :=
      (foldl_stepIfDue_other w fun hmem => hdisjoint i hmem i List.mem_cons_self rfl).trans hi
    generalize before.foldl stepIfDue w = w₁ at hnow hmarks hat
    have hripe : w₁.Ripe sr := ⟨h.going, hnow ▸ h.requests, hnow ▸ h.time⟩
    obtain ⟨sr', hsr', hid, haf, hadv⟩ := stepIfDue_ripe hat hripe
    obtain ⟨hnow', hmarks'⟩ := foldl_stepIfDue_keeps (w₁.stepIfDue i) after
    have hend : (after.foldl stepIfDue (w₁.stepIfDue i)).searches[i]? = some sr' :=
      (foldl_stepIfDue_other _ (List.nodup_cons.mp hafter).1).trans hsr'
    exact ⟨sr', List.mem_of_getElem? hend, hid, haf, (hadv.later hnow' hmarks').since hmarks⟩
  unfold stepSearches
  dsimp only
  generalize (List.range w.searches.length).foldl stepIfDue w = w₁ at hsteps
  obtain ⟨hnext, -⟩ := core_nextSearchTime w₁
  refine hsteps.later (congrArg Statics.now hnext) ?_ (congrArg Statics.searches hnext)
  exact (calm_nextSearchTime w₁).marks ▸ List.prefix_refl _

/-! ## A call of `dht_periodic` -/

theorem searches_maintainBoth (w : World)
    (f : Net → ℤ → Routing → ℕ → Random → Routing × List Packet × Bool × Random)
    (due : World → ℕ → Bool) : (w.maintainBoth f due).2.searches = w.searches := by
  unfold maintainBoth
  dsimp only
  split_ifs <;> rfl

theorem searches_confirmNodes (w : World) : w.confirmNodes.searches = w.searches := by
  have hb := searches_maintainBoth w (fun net now r => r.bucketMaintenance net now) fun _ _ => true
  unfold confirmNodes
  dsimp only
  generalize w.maintainBoth (fun net now r => r.bucketMaintenance net now) (fun _ _ => true) =
    out at hb
  have hn := searches_maintainBoth out.2 (fun net now r => r.neighbourhoodMaintenance net now)
    hasGrown
  split_ifs
  · exact hb
  · exact hn.trans hb

/-- What is due before the searches leaves a search that is not old, and when it is due, alone. -/
theorem mem_searches_expire {sr : Search} (hsr : sr ∈ w.searches)
    (hlate : w.now - dhtSearchExpireTime ≤ sr.stepTime) : sr ∈ w.expire.searches := by
  have heq : w.expire.searches = (expireSearches w.now w.searches w.numsearches).1 := rfl
  rw [heq, expireSearches_fst]
  refine List.mem_filter.mpr ⟨hsr, ?_⟩
  rw [Bool.not_eq_true', decide_eq_false_iff_not]
  exact not_lt.mpr hlate

theorem marks_doDue (w : World) : w.marks <+: w.doDue.marks := by
  refine doDue_of_steps (p := fun w' => w.marks <+: w'.marks) (fun w₁ w₂ h h₁ => h.marks ▸ h₁)
    (fun w₁ i sr hi _ h₁ => ?_) ?_ (List.prefix_refl _)
  · obtain ⟨t, fin, hstep⟩ := searchStep_spec hi
    exact h₁.trans ⟨_, hstep.marks.symm⟩
  · exact fun _ w' _ _ h' => (marks_expire w').symm ▸ h'

/-- When the searches are due, what is due advances every search that is ripe and not old. -/
theorem advances_doDue {sr : Search} (hsr : sr ∈ w.searches) (h : w.Ripe sr)
    (hlate : w.now - dhtSearchExpireTime ≤ sr.stepTime)
    (hdue : 0 < w.searchTime ∧ w.searchTime ≤ w.now) : Advances w w.doDue sr := by
  unfold doDue
  dsimp only
  have h₁ : (if w.rotateSecretsTime ≤ w.now then w.rotateSecrets else w).now = w.now ∧
      (if w.rotateSecretsTime ≤ w.now then w.rotateSecrets else w).searchTime = w.searchTime ∧
      (if w.rotateSecretsTime ≤ w.now then w.rotateSecrets else w).marks = w.marks ∧
      (if w.rotateSecretsTime ≤ w.now then w.rotateSecrets else w).searches = w.searches := by
    split_ifs <;> exact ⟨rfl, rfl, rfl, rfl⟩
  generalize (if w.rotateSecretsTime ≤ w.now then w.rotateSecrets else w) = w₁ at h₁
  obtain ⟨hnow₁, htime₁, hmarks₁, hs₁⟩ := h₁
  have h₂ : (if w₁.expireStuffTime ≤ w₁.now then w₁.expire else w₁).now = w₁.now ∧
      (if w₁.expireStuffTime ≤ w₁.now then w₁.expire else w₁).searchTime = w₁.searchTime ∧
      (if w₁.expireStuffTime ≤ w₁.now then w₁.expire else w₁).marks = w₁.marks ∧
      sr ∈ (if w₁.expireStuffTime ≤ w₁.now then w₁.expire else w₁).searches := by
    split_ifs
    · exact ⟨rfl, rfl, marks_expire w₁, mem_searches_expire (hs₁ ▸ hsr) (hnow₁ ▸ hlate)⟩
    · exact ⟨rfl, rfl, rfl, hs₁ ▸ hsr⟩
  generalize (if w₁.expireStuffTime ≤ w₁.now then w₁.expire else w₁) = w₂ at h₂
  obtain ⟨hnow₂, htime₂, hmarks₂, hs₂⟩ := h₂
  have hnow := hnow₂.trans hnow₁
  have htime := htime₂.trans htime₁
  have hmarks := hmarks₂.trans hmarks₁
  rw [if_pos (show 0 < w₂.searchTime ∧ w₂.searchTime ≤ w₂.now by rw [htime, hnow]; exact hdue)]
  have hripe : w₂.Ripe sr := ⟨h.going, hnow ▸ h.requests, hnow ▸ h.time⟩
  have hgrown : w.marks <+: w₂.marks := hmarks ▸ List.prefix_refl _
  have hsteps := (advances_stepSearches hs₂ hripe).since hgrown
  split_ifs
  · have hcalm := calm_confirmNodes w₂.stepSearches
    exact hsteps.later hcalm.now (hcalm.marks ▸ List.prefix_refl _) (searches_confirmNodes _)
  · exact hsteps

/-- When 25 seconds have passed, a search in progress has been started again, or what is due
advances it unless it is old. -/
theorem Spared.advances {sr : Search} (h : Spared w w') (hw : w.Awake) (hw' : w'.Awake)
    (hsr : sr ∈ w.searches) (hdone : sr.done = false)
    (hearly : w.now + 25 ≤ w'.gettimeofday.now)
    (hlate : w'.gettimeofday.now ≤ sr.stepTime + dhtSearchExpireTime) :
    w.marks <+: w'.gettimeofday.doDue.marks ∧
      (StartedAgain w w'.gettimeofday.doDue sr ∨ Advances w w'.gettimeofday.doDue sr) := by
  have hmarks : w'.marks <+: w'.gettimeofday.doDue.marks := marks_doDue w'.gettimeofday
  refine ⟨h.marks.trans hmarks, ?_⟩
  rcases h.searches sr hsr hdone with hagain | hsr'
  · exact Or.inl (hagain.later hmarks)
  · obtain ⟨hpos, hsoon⟩ := hw'.searchTime sr hsr' hdone
    obtain ⟨-, hstep, hrequests⟩ := hw.timely sr hsr
    rw [h.now] at hsoon
    have hripe : Ripe w'.gettimeofday sr := by
      refine ⟨hdone, fun n hn => ?_, by omega⟩
      have := hrequests n hn
      omega
    have hdue : w'.gettimeofday.searchTime ≤ w'.gettimeofday.now :=
      (show w'.searchTime ≤ w.now + 24 from hsoon).trans (by omega)
    have hadv : Advances w'.gettimeofday w'.gettimeofday.doDue sr :=
      advances_doDue hsr' hripe (by omega) ⟨hpos, hdue⟩
    exact Or.inr (hadv.since (show w.marks <+: w'.gettimeofday.marks from h.marks))

end World

/-! ## Runs without replies -/

/-- `dtn_dht_periodic` is called when nothing has come in. -/
def ProcessCall.Silent (c : ProcessCall) : Prop := ∃ lib ctx, c = .api lib ctx (.periodic none)

namespace Process

variable {p : Process} {c : ProcessCall} {sr : Search}

theorem writes_silent (hc : c.Silent) : World.Writes p.world (p.call c).world := by
  obtain ⟨lib, ctx, rfl⟩ := hc
  exact p.writes_call rfl fun _ h => absurd h (Option.not_mem_none _)

/-- A call in silence, 25 seconds after the last time, advances every search in progress that it
does not start again, unless it is old. -/
theorem advances_silent (hp : p.world.Awake) (hs : p.world.Steady) (hc : c.Silent)
    (hsr : sr ∈ p.world.searches) (hdone : sr.done = false)
    (hearly : p.world.now + 25 ≤ (p.call c).world.now)
    (hlate : (p.call c).world.now ≤ sr.stepTime + dhtSearchExpireTime) :
    p.world.marks <+: (p.call c).world.marks ∧
      (World.StartedAgain p.world (p.call c).world sr ∨
        World.Advances p.world (p.call c).world sr) := by
  obtain ⟨lib, ctx, rfl⟩ := hc
  have hspared := World.spared_maintainLists ctx p.world
  have hlists := hp.writes hs (World.Writes.maintainLists ctx .refl)
  have hcall : (p.call (.api lib ctx (.periodic none))).world =
      (p.world.maintainLists ctx).gettimeofday.doDue := rfl
  rw [hcall] at hearly hlate ⊢
  rw [(World.quiet_doDue _).now] at hearly hlate
  exact hspared.advances hp hlists hsr hdone hearly hlate

/-- The calls come at least 25 seconds apart and at most 62 minutes, the first of them at most 62
minutes after `t`, so that no search last stepped at `t` is purged. -/
structure Spaced (p : Process) (t : ℤ) (calls : List ProcessCall) : Prop where
  early : ∀ c past, c :: past <:+ calls →
    (p.after past).world.now + 25 ≤ (p.after (c :: past)).world.now
  late : ∀ c past, c :: past <:+ calls → past ≠ [] →
    (p.after (c :: past)).world.now ≤ (p.after past).world.now + dhtSearchExpireTime
  first : ∀ c, [c] <:+ calls → (p.call c).world.now ≤ t + dhtSearchExpireTime

/-- A search of the id and family is in progress, with some requests left, and will not be purged
in the next call. -/
def Going (p : Process) (sr : Search) (calls past : List ProcessCall) (n : ℕ) : Prop :=
  p.world.marks <+: (p.after past).world.marks ∧
    ∃ sr' ∈ (p.after past).world.searches, sr'.id = sr.id ∧ sr'.af = sr.af ∧
      sr'.done = false ∧ sr'.left = n ∧ ∀ c, c :: past <:+ calls →
        (p.after (c :: past)).world.now ≤ sr'.stepTime + dhtSearchExpireTime

theorem writes_silent_after {calls : List ProcessCall} (hc : ∀ c ∈ calls, c.Silent) :
    World.Writes p.world (p.after calls).world := by
  induction calls with
  | nil => exact .refl
  | cons c calls ih =>
    exact (ih fun c hc' => hc c (List.mem_cons_of_mem _ hc')).trans
      (writes_silent (hc c List.mem_cons_self))

/-- A search in progress ends in silence. -/
theorem over_silent (hp : p.world.Awake) (hs : p.world.Steady) (hsr : sr ∈ p.world.searches)
    (hdone : sr.done = false) {calls : List ProcessCall} (hc : ∀ c ∈ calls, c.Silent)
    (hspaced : p.Spaced sr.stepTime calls) (hlong : sr.left < calls.length) :
    ∃ past, past <:+ calls ∧ World.Over p.world (p.after past).world sr := by
  have hgoing : p.Going sr calls [] sr.left :=
    ⟨List.prefix_refl _, sr, hsr, rfl, rfl, hdone, rfl, fun c hc => hspaced.first c hc⟩
  refine Potential.exists_over (fun c past n hpast hgoing => ?_) hgoing hlong
  obtain ⟨hmarks, sr', hsr', hid, haf, hdone', rfl, hlate⟩ := hgoing
  have hrun := writes_silent_after (p := p) fun c' hc' =>
    hc c' (hpast.subset (List.mem_cons_of_mem c hc'))
  obtain ⟨hgrown, hadv⟩ := advances_silent (hp.writes hs hrun)
    (World.forward_write.run hs hrun).1 (hc c (hpast.subset List.mem_cons_self)) hsr' hdone'
    (hspaced.early c past hpast) (hlate c hpast)
  rcases hadv with hagain | ⟨sr'', hsr'', hid', haf', ⟨hend, htold⟩ | ⟨hgoing, hleft, htime⟩⟩
  · unfold World.StartedAgain at hagain
    rw [hid, haf] at hagain
    exact Or.inl (Or.inl (hagain.since hmarks))
  · rw [hid] at htold hid'
    exact Or.inl (Or.inr ⟨htold.since hmarks, sr'', hsr'', hid', haf'.trans haf, hend⟩)
  · refine Or.inr ⟨_, hleft, hmarks.trans hgrown, sr'', hsr'', hid'.trans hid, haf'.trans haf,
      hgoing, rfl, fun c' hpast' => ?_⟩
    rw [htime]
    exact hspaced.late c' (c :: past) hpast' (List.cons_ne_nil c past)

end Process

/-- **Every search ends**, whatever was called since the start of the node, and even if nothing
comes back from the network: a search in progress has at most 42 requests left, and after one call
more than that it has ended and the application was told, or it has been started again. -/
theorem search_ends {p : Process} (hclock : Monotone p.world.env.clock)
    (hpos : 0 < p.world.env.clock 0) {ctx : Context} {id : Id} {oc : InitOutcomes}
    (h : (p.init ctx id oc).1 = .initialised) {later : List ProcessCall}
    (hl : ∀ c ∈ later, c.restarts = false ∧ c.Valid) :
    let q := (p.call (.init ctx id oc)).after later
    ∀ sr ∈ q.world.searches, sr.done = false → sr.left ≤ 42 ∧
      ∀ calls : List ProcessCall, (∀ c ∈ calls, c.Silent) → q.Spaced sr.stepTime calls →
        sr.left < calls.length →
        ∃ past, past <:+ calls ∧ World.Over q.world (q.after past).world sr := by
  obtain ⟨hawake, hsteady⟩ := Process.awake_after hclock hpos h hl
  intro q sr hsr hdone
  refine ⟨?_, fun calls hc hspaced hlong =>
    Process.over_silent hawake hsteady hsr hdone hc hspaced hlong⟩
  have hle := requestsLeft_le sr.nodes
  have hlen := (hawake.ordered sr hsr).length_le
  have h14 : searchNodes = 14 := rfl
  unfold Search.left
  omega

/-! ## A search that nobody answers -/

/-- A process whose clock moves on by 30 seconds at each reading. -/
def everyHalfMinute : Process :=
  Process.start { Env.still 1000 with clock := fun k => 1000 + 30 * k }

/-- A node is made known and a random id searched for. -/
def randomSearch : List ProcessCall :=
  [.startRandomLookup World.ipv4Context,
    .insertNode (Id.ofBytes (List.replicate 20 200)) (sockaddrIn [9, 9, 9, 9] [26, 225]) 16]

/-- Nothing has come in. -/
def silence : ProcessCall := .api World.samplePlatform World.ipv4Context (.periodic none)

/-- The node after the search was started. -/
def unanswered : Process :=
  (everyHalfMinute.call (.init World.ipv4Context (Id.ofBytes [1]) .succeed)).after randomSearch

/-- The search. -/
def randomSearched : Search := unanswered.world.searches.headD callocSearch

theorem spaced_silence :
    unanswered.Spaced randomSearched.stepTime (List.replicate 3 silence) := by
  have hnow : ∀ m < 4, (unanswered.after (List.replicate m silence)).world.now = 1000 + 30 * m := by
    decide +kernel
  have hsuffix {c : ProcessCall} {past : List ProcessCall}
      (h : c :: past <:+ List.replicate 3 silence) :
      ∃ m < 3, past = List.replicate m silence ∧ c :: past = List.replicate (m + 1) silence := by
    obtain ⟨hle, heq⟩ := List.suffix_replicate_iff.mp h
    rw [List.length_cons] at hle heq
    exact ⟨past.length, hle, congrArg List.tail heq, heq⟩
  have htime : randomSearched.stepTime = 1000 := by decide +kernel
  constructor
  · intro c past h
    obtain ⟨m, hm, hpast, hcons⟩ := hsuffix h
    rw [hcons, hpast, hnow m (by omega), hnow (m + 1) (by omega)]
    omega
  · intro c past h _
    obtain ⟨m, hm, hpast, hcons⟩ := hsuffix h
    rw [hcons, hpast, hnow m (by omega), hnow (m + 1) (by omega)]
    unfold dhtSearchExpireTime
    omega
  · intro c h
    obtain ⟨m, hm, hpast, hcons⟩ := hsuffix h
    obtain rfl : m = 0 := by simpa using (congrArg List.length hpast).symm
    have hcall : (unanswered.call c).world.now = _ :=
      (congrArg (fun cs => (unanswered.after cs).world.now) hcons).trans (hnow 1 (by omega))
    rw [hcall, htime]
    decide

theorem search_ends_unanswered : ∃ past, past <:+ List.replicate 3 silence ∧
    World.Over unanswered.world (unanswered.after past).world randomSearched := by
  have hlater : ∀ c ∈ randomSearch, c.restarts = false ∧ c.Valid := by
    intro c hc
    rcases List.mem_pair.mp hc with rfl | rfl
    · exact ⟨rfl, trivial⟩
    · exact ⟨rfl, isSockaddr_sockaddrIn rfl rfl⟩
  have hclock : Monotone everyHalfMinute.world.env.clock := fun k l hkl => by
    change (1000 + 30 * k : ℤ) ≤ 1000 + 30 * l
    omega
  have hinit : (everyHalfMinute.init World.ipv4Context (Id.ofBytes [1]) .succeed).1 =
      .initialised := by decide +kernel
  have hmem : randomSearched ∈ unanswered.world.searches := by decide +kernel
  obtain ⟨-, hends⟩ := search_ends hclock (by decide) hinit hlater randomSearched hmem
    (by decide +kernel)
  exact hends _ (fun c hc => ⟨_, _, List.eq_of_mem_replicate hc⟩) spaced_silence
    (by decide +kernel)

end DtnDht
