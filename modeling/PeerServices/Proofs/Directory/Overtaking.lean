import PeerServices.Proofs.Directory.Agreement

/-!
# Grants that overtake each other

What a peer grants is told in snapshots, by its requests and by its answers. Each snapshot that
arrives replaces the one before; nobody compares versions.

* `Couple.turn_turned`: what a turn makes of a peer's record. What was told is taken over as it is,
  and what is exported only counts up.
* `Couple.neverAges_iff`: a peer never falls back to an older version exactly if the versions that
  reach it never decrease.
* `Couple.turns_ahead`: if no snapshot is overtaken by a newer one, what a peer was told is never
  newer than anything that is still on its way.
* `Couple.last_told_holds`: the peer ends with the snapshot that reached it last, which is the
  newest if none was overtaken.
-/

namespace PeerServices.Couple

/-- What two peers do that forget services now and then. -/
inductive Turn
  | move (move : Move)
  /-- A peer drops a service from one side of its records. -/
  | drop (p : Partner) (side : GrantSide) (service : ServiceAddress)
  /-- A peer drops a service from both sides of its records. -/
  | purge (p : Partner) (service : ServiceAddress)

def turn (c : Couple) : Turn → Couple
  | .move move => c.step move
  | .drop p side service => c.setDirectory p ((c.directory p).deleteService side service).1
  | .purge p service => c.setDirectory p ((c.directory p).purge service).1

def turns (c : Couple) (ts : List Turn) : Couple := ts.foldl turn c

/-! ## What reaches a peer -/

/-- The version of what a peer was told. -/
def version? (c : Couple) (p : Partner) : Option Int64 := (c.imported? p).map GrantSet.version

/-- What a turn tells a peer: the grants in a request of the other one, or in an answer to it. -/
def told? (c : Couple) (p : Partner) : Turn → Option GrantSet
  | .move (.answer i) =>
    match c.requests[i]? with
    | none => none
    | some (q, data) => if q = p.other then some data else none
  | .move (.take i) =>
    match c.answers[i]? with
    | none => none
    | some (q, reply) => if q = p then reply else none
  | _ => none

/-- All that a peer is told, in the order in which it is. -/
def told (c : Couple) (p : Partner) : List Turn → List GrantSet
  | [] => []
  | t :: ts => (c.told? p t).toList ++ (c.turn t).told p ts

/-- The grants on their way to a peer. -/
def underway (c : Couple) (p : Partner) : List GrantSet :=
  c.requests.filterMap (fun (q, data) => if q = p.other then some data else none) ++
    c.answers.filterMap fun (q, reply) => if q = p then reply else none

/-- A turn that leaves a peer with an older version than it had. -/
def Ages (c : Couple) (p : Partner) (t : Turn) : Prop :=
  ∃ held ∈ c.version? p, ∃ left ∈ (c.turn t).version? p, left < held

/-- No turn leaves a peer with an older version than it had. -/
def NeverAges (c : Couple) (p : Partner) : List Turn → Prop
  | [] => True
  | t :: ts => ¬c.Ages p t ∧ (c.turn t).NeverAges p ts

/-- Nothing older than what a turn tells a peer is still on its way. -/
def NotOvertaken (c : Couple) (p : Partner) (t : Turn) : Prop :=
  ∀ data ∈ c.told? p t, ∀ late ∈ c.underway p, data.version ≤ late.version

/-- The version of what a peer grants can be counted up. -/
def Counts (c : Couple) (p : Partner) : Prop :=
  ∀ granted ∈ c.exported? p, granted.version ≤ granted.version + 1

/-- What reaches a peer is never overtaken by anything newer. -/
def InOrder (c : Couple) (p : Partner) : List Turn → Prop
  | [] => True
  | t :: ts => c.Counts p.other ∧ c.NotOvertaken p t ∧ (c.turn t).InOrder p ts

instance (c : Couple) (p : Partner) (t : Turn) : Decidable (c.Ages p t) :=
  inferInstanceAs (Decidable (∃ held ∈ c.version? p, ∃ left ∈ (c.turn t).version? p, left < held))

instance (c : Couple) (p : Partner) (t : Turn) : Decidable (c.NotOvertaken p t) :=
  inferInstanceAs
    (Decidable (∀ data ∈ c.told? p t, ∀ late ∈ c.underway p, data.version ≤ late.version))

instance (c : Couple) (p : Partner) : Decidable (c.Counts p) :=
  inferInstanceAs (Decidable (∀ granted ∈ c.exported? p, granted.version ≤ granted.version + 1))

instance decidableNeverAges (p : Partner) : (ts : List Turn) → (c : Couple) →
    Decidable (c.NeverAges p ts)
  | [], _ => .isTrue trivial
  | t :: ts, c =>
    have := decidableNeverAges p ts (c.turn t)
    inferInstanceAs (Decidable (¬c.Ages p t ∧ (c.turn t).NeverAges p ts))

instance decidableInOrder (p : Partner) : (ts : List Turn) → (c : Couple) →
    Decidable (c.InOrder p ts)
  | [], _ => .isTrue trivial
  | t :: ts, c =>
    have := decidableInOrder p ts (c.turn t)
    inferInstanceAs (Decidable (c.Counts p.other ∧ c.NotOvertaken p t ∧ (c.turn t).InOrder p ts))

/-! ## What a turn makes of a record -/

/-- A record before and after a turn that told its owner something, or did not. -/
structure Turned (data? : Option GrantSet) (r r' : PeerRecord) : Prop where
  address : r'.address = r.address
  told : ∀ data, data? = some data → r'.imported = data
  untold : data? = none → r'.imported.version = r.imported.version
  exported : r'.exported = r.exported ∨ r'.exported.version = r.exported.version + 1

theorem Turned.refl (r : PeerRecord) : Turned none r r :=
  ⟨rfl, fun _ h => (nomatch h), fun _ => rfl, .inl rfl⟩

theorem Turned.of_dropped {r r' : PeerRecord} (h : r.Dropped r') : Turned none r r' :=
  ⟨h.address, fun _ h => (nomatch h), fun _ => h.imported, h.exported⟩

theorem turned_grant (r : PeerRecord) (ids : List ServiceId) (descriptors : List Descriptor) :
    Turned none r (r.grant ids descriptors) :=
  ⟨rfl, fun _ h => (nomatch h), fun _ => rfl, .inr rfl⟩

theorem turned_applyExchange (r : PeerRecord) (data : GrantSet) :
    Turned (some data) r (r.applyExchange data) :=
  ⟨rfl, fun _ h => Option.some.inj h, fun h => (nomatch h), .inl rfl⟩

theorem turned_answered (r : PeerRecord) (reply : Option GrantSet) :
    Turned reply r (Directory.answered r reply) := by
  cases reply with
  | none => exact ⟨rfl, fun _ h => (nomatch h), fun _ => rfl, .inl rfl⟩
  | some data => exact turned_applyExchange r data

section Turns

variable {c c' : Couple} {p q : Partner} {r : PeerRecord} {t : Turn}

/-- Every record after a change of one of the two. -/
theorem turned_of_changed {changed r₀ r₁ : PeerRecord} (told? : Partner → Option GrantSet)
    (hChanged : Changed c c' q r₁) (hq : c.record? q = some r₀)
    (hTurned : Turned (told? q) r₀ r₁) (hNone : told? q.other = none)
    (hr : c.record? p = some changed) :
    ∃ r', c'.record? p = some r' ∧ Turned (told? p) changed r' := by
  rcases Partner.eq_or_eq_other q p with rfl | rfl
  · obtain rfl := Option.some.inj (hq.symm.trans hr)
    exact ⟨r₁, hChanged.here, hTurned⟩
  · rw [hNone]
    exact ⟨changed, hChanged.there.trans hr, .refl changed⟩

/-- Every record after the owner of one dropped a service. -/
theorem turned_of_dropped {d : Directory} (h : c.Knows)
    (hDropped : ∀ r, (c.directory q).find? (c.address q.other) = some r →
      ∃ r', d.find? (c.address q.other) = some r' ∧ r.Dropped r')
    (hr : c.record? p = some r) :
    ∃ r', (c.setDirectory q d).record? p = some r' ∧ Turned none r r' := by
  obtain ⟨r₀, hq, -⟩ := h q
  obtain ⟨r₁, hFind, hDrop⟩ := hDropped r₀ hq
  exact turned_of_changed (fun _ => none) (changed_setDirectory hFind) hq (.of_dropped hDrop) rfl
    hr

/-- What a turn tells a peer is taken over as it is, whatever was known before; nothing else changes
the version. What is granted either stays or counts up. -/
theorem turn_turned (h : c.Knows) (hr : c.record? p = some r) (t : Turn) :
    ∃ r', (c.turn t).record? p = some r' ∧ Turned (c.told? p t) r r' := by
  cases t with
  | drop q side service =>
    refine turned_of_dropped h (fun _ hFind => ?_) hr
    exact Directory.deleteService_of_known hFind side service
  | purge q service =>
    exact turned_of_dropped h (fun _ hFind => Directory.purge_of_known hFind service) hr
  | move move =>
    cases move with
    | grant q ids descriptors =>
      obtain ⟨r₀, hq, -⟩ := h q
      exact turned_of_changed (fun _ => none) (h.grant_changed hq ids descriptors) hq
        (turned_grant r₀ ids descriptors) rfl hr
    | ask q =>
      obtain ⟨r₀, hq, -⟩ := h q
      refine ⟨r, ?_, .refl r⟩
      rw [← hr, turn, step, requests_ask hq]
      rfl
    | loseRequest i | loseAnswer i => exact ⟨r, hr, .refl r⟩
    | answer i =>
      cases hRequest : c.requests[i]? with
      | none =>
        simp only [turn, step, answer_of_none hRequest, told?, hRequest]
        exact ⟨r, hr, .refl r⟩
      | some request =>
        obtain ⟨q, data⟩ := request
        obtain ⟨r₀, hq, -⟩ := h q.other
        obtain ⟨hChanged, -⟩ := h.answer_changed hRequest hq
        refine turned_of_changed (fun p => c.told? p (.move (.answer i))) hChanged hq
          ?_ ?_ hr
        · simp only [told?, hRequest, Partner.other_other, if_true]
          exact turned_applyExchange r₀ data
        · simp only [told?, hRequest, Partner.other_other, if_neg (Partner.ne_other q)]
    | take i =>
      cases hAnswer : c.answers[i]? with
      | none =>
        simp only [turn, step, take_of_none hAnswer, told?, hAnswer]
        exact ⟨r, hr, .refl r⟩
      | some answer =>
        obtain ⟨q, reply⟩ := answer
        obtain ⟨r₀, hq, -⟩ := h q
        refine turned_of_changed (fun p => c.told? p (.move (.take i)))
          (h.take_changed hAnswer hq) hq ?_ ?_ hr
        · simp only [told?, hAnswer, if_true]
          exact turned_answered r₀ reply
        · simp only [told?, hAnswer, if_neg (Partner.ne_other q)]

theorem turn_address (h : c.Knows) (t : Turn) : (c.turn t).address = c.address := by
  cases t with
  | drop q side service | purge q service => rfl
  | move move =>
    cases move with
    | loseRequest i | loseAnswer i => rfl
    | grant q ids descriptors =>
      obtain ⟨r, hr, -⟩ := h q
      exact (h.grant_changed hr ids descriptors).address
    | ask q =>
      obtain ⟨r, hr, -⟩ := h q
      rw [turn, step, requests_ask hr]
    | answer i =>
      cases hRequest : c.requests[i]? with
      | none => rw [turn, step, answer_of_none hRequest]
      | some request =>
        obtain ⟨r, hr, -⟩ := h request.1.other
        exact (h.answer_changed hRequest hr).1.address
    | take i =>
      cases hAnswer : c.answers[i]? with
      | none => rw [turn, step, take_of_none hAnswer]
      | some answer =>
        obtain ⟨r, hr, -⟩ := h answer.1
        exact (h.take_changed hAnswer hr).address

theorem Knows.turn (h : c.Knows) (t : Turn) : (c.turn t).Knows := by
  intro q
  obtain ⟨r, hr, hAddress⟩ := h q
  obtain ⟨r', hr', hTurned⟩ := turn_turned h hr t
  refine ⟨r', hr', ?_⟩
  rw [turn_address h, hTurned.address, hAddress]

theorem turns_knows (h : c.Knows) (ts : List Turn) : (c.turns ts).Knows := by
  induction ts generalizing c with
  | nil => exact h
  | cons t ts ih => exact ih (h.turn t)

/-! ## Versions -/

theorem version?_of_record? (h : c.record? p = some r) :
    c.version? p = some r.imported.version := by
  rw [version?, imported?_of_record? h, Option.map_some]

/-- After a turn a peer has the version that it was told, or the one that it had. -/
theorem version?_turn (h : c.Knows) {v : Int64} (hv : c.version? p = some v) (t : Turn) :
    (c.turn t).version? p = some (((c.told? p t).map GrantSet.version).getD v) := by
  obtain ⟨r, hr, -⟩ := h p
  obtain ⟨r', hr', hTurned⟩ := turn_turned h hr t
  obtain rfl := Option.some.inj ((version?_of_record? hr).symm.trans hv)
  rw [version?_of_record? hr']
  cases hTold : c.told? p t with
  | none => rw [hTurned.untold hTold, Option.map_none, Option.getD_none]
  | some data => rw [hTurned.told data hTold, Option.map_some, Option.getD_some]

theorem ages_iff (h : c.Knows) {v : Int64} (hv : c.version? p = some v) (t : Turn) :
    c.Ages p t ↔ ∃ data, c.told? p t = some data ∧ data.version < v := by
  simp only [Ages, hv, version?_turn h hv, Option.mem_def, Option.some.injEq, exists_eq_left']
  cases c.told? p t with
  | none => simp [Int64.lt_irrefl]
  | some data => simp

/-- The versions that a peer has over time, from the first one on. -/
def versions (c : Couple) (p : Partner) (ts : List Turn) (v : Int64) : List Int64 :=
  v :: (c.told p ts).map GrantSet.version

theorem versions_of_none (hTold : c.told? p t = none) (ts : List Turn) (v : Int64) :
    c.versions p (t :: ts) v = (c.turn t).versions p ts v := by
  simp only [versions, told, hTold, Option.toList_none, List.nil_append]

theorem versions_of_some {data : GrantSet} (hTold : c.told? p t = some data) (ts : List Turn)
    (v : Int64) :
    c.versions p (t :: ts) v = v :: (c.turn t).versions p ts data.version := by
  simp only [versions, told, hTold, Option.toList_some, List.cons_append, List.nil_append,
    List.map_cons]

/-- A peer has the version that it was told last. -/
theorem version?_turns (h : c.Knows) {v : Int64} (hv : c.version? p = some v) (ts : List Turn) :
    (c.turns ts).version? p = (c.versions p ts v).getLast? := by
  induction ts generalizing c v with
  | nil => exact hv
  | cons t ts ih =>
    have hStep := version?_turn h hv t
    cases hTold : c.told? p t with
    | none =>
      rw [hTold] at hStep
      rw [versions_of_none hTold]
      exact ih (h.turn t) hStep
    | some data =>
      rw [hTold] at hStep
      rw [versions_of_some hTold]
      exact ih (h.turn t) hStep

/-- A peer never falls back to an older version exactly if the versions that it is told never
decrease. -/
theorem neverAges_iff (h : c.Knows) {v : Int64} (hv : c.version? p = some v) (ts : List Turn) :
    c.NeverAges p ts ↔ (c.versions p ts v).Pairwise (· ≤ ·) := by
  induction ts generalizing c v with
  | nil => simp [NeverAges, versions, told]
  | cons t ts ih =>
    have hStep := version?_turn h hv t
    rw [NeverAges, ages_iff h hv]
    cases hTold : c.told? p t with
    | none =>
      rw [hTold] at hStep
      rw [versions_of_none hTold, ih (h.turn t) hStep]
      simp
    | some data =>
      rw [hTold] at hStep
      rw [versions_of_some hTold, ih (h.turn t) hStep, List.pairwise_cons]
      simp only [Option.some.injEq, exists_eq_left', Int64.not_lt]
      refine and_congr_left fun hRest => ⟨fun hLe w hw => ?_, fun hAll => ?_⟩
      · rcases List.mem_cons.mp hw with rfl | hw
        · exact hLe
        · exact Int64.le_trans hLe ((List.pairwise_cons.mp hRest).1 w hw)
      · exact hAll data.version List.mem_cons_self

/-! ## What is on its way -/

theorem mem_underway_iff {data : GrantSet} :
    data ∈ c.underway p ↔ (p.other, data) ∈ c.requests ∨ (p, some data) ∈ c.answers := by
  simp only [underway, List.mem_append, List.mem_filterMap]
  constructor
  · rintro (⟨⟨q, sent⟩, hMem, h⟩ | ⟨⟨q, reply⟩, hMem, h⟩)
    · split at h
      next hq => exact .inl (by rw [← hq, ← Option.some.inj h]; exact hMem)
      · cases h
    · split at h
      next hq => exact .inr (by rw [← hq, ← h]; exact hMem)
      · cases h
  · rintro (hMem | hMem)
    · exact .inl ⟨_, hMem, if_pos rfl⟩
    · exact .inr ⟨_, hMem, if_pos rfl⟩

/-- A peer is told only what was on its way. -/
theorem underway_of_told {data : GrantSet} (h : c.told? p t = some data) : data ∈ c.underway p := by
  rw [mem_underway_iff]
  unfold told? at h
  split at h
  · split at h
    · cases h
    next hRequest =>
      split at h
      next hq =>
        obtain rfl := Option.some.inj h
        exact .inl (hq ▸ List.mem_of_getElem? hRequest)
      · cases h
  · split at h
    · cases h
    next hAnswer =>
      split at h
      next hq => exact .inr (hq ▸ h ▸ List.mem_of_getElem? hAnswer)
      · cases h
  · cases h

/-- What sets out to a peer is what the other one grants by then. -/
theorem underway_turn (h : c.Knows) {data : GrantSet} (hData : data ∈ (c.turn t).underway p) :
    data ∈ c.underway p ∨ c.exported? p.other = some data := by
  rw [mem_underway_iff] at hData ⊢
  cases t with
  | drop q side service | purge q service => exact .inl hData
  | move move =>
    cases move with
    | grant q ids descriptors =>
      obtain ⟨hRequests, hAnswers⟩ := c.grant_in_flight q ids descriptors
      rw [turn, step, hRequests, hAnswers] at hData
      exact .inl hData
    | ask q =>
      obtain ⟨r, hr, -⟩ := h q
      rw [turn, step, requests_ask hr] at hData
      rcases hData with hMem | hMem
      · rcases List.mem_append.mp hMem with hMem | hMem
        · exact .inl (.inl hMem)
        · obtain ⟨rfl, rfl⟩ := Prod.mk.inj (List.mem_singleton.mp hMem)
          exact .inr (exported?_of_record? hr)
      · exact .inl (.inr hMem)
    | loseRequest i => exact .inl (hData.imp_left List.mem_of_mem_eraseIdx)
    | loseAnswer i => exact .inl (hData.imp_right List.mem_of_mem_eraseIdx)
    | take i =>
      cases hAnswer : c.answers[i]? with
      | none =>
        rw [turn, step, take_of_none hAnswer] at hData
        exact .inl hData
      | some answer =>
        rw [turn, step, requests_take, answers_take hAnswer] at hData
        exact .inl (hData.imp_right List.mem_of_mem_eraseIdx)
    | answer i =>
      cases hRequest : c.requests[i]? with
      | none =>
        rw [turn, step, answer_of_none hRequest] at hData
        exact .inl hData
      | some request =>
        obtain ⟨r, hr, -⟩ := h request.1.other
        obtain ⟨-, hAnswers⟩ := h.answer_changed hRequest hr
        rcases hData with hMem | hMem
        · exact .inl (.inl (mem_requests_of_answer hMem))
        · rw [turn, step, hAnswers] at hMem
          rcases List.mem_append.mp hMem with hMem | hMem
          · exact .inl (.inr hMem)
          · obtain ⟨rfl, hReply⟩ := Prod.mk.inj (List.mem_singleton.mp hMem)
            refine .inr ((exported?_of_record? hr).trans ?_)
            unfold replyOf at hReply
            split at hReply
            · exact hReply.symm
            · cases hReply

/-! ## Nothing is overtaken -/

/-- What a peer was told is not newer than what is on its way, nor is that newer than what the other
one grants. -/
structure Ahead (c : Couple) (p : Partner) : Prop where
  knows : c.Knows
  underway : ∀ held ∈ c.version? p, ∀ data ∈ c.underway p, held ≤ data.version
  granted : ∀ granted ∈ c.exported? p.other,
    (∀ held ∈ c.version? p, held ≤ granted.version) ∧
      ∀ data ∈ c.underway p, data.version ≤ granted.version

/-- What is granted after a turn is at least as new as what was granted before. -/
theorem exported?_turn (h : c.Knows) (hCounts : c.Counts q) {granted : GrantSet}
    (hGranted : (c.turn t).exported? q = some granted) :
    ∃ before, c.exported? q = some before ∧ before.version ≤ granted.version := by
  obtain ⟨r, hr, -⟩ := h q
  obtain ⟨r', hr', hTurned⟩ := turn_turned h hr t
  obtain rfl := Option.some.inj ((exported?_of_record? hr').symm.trans hGranted)
  refine ⟨r.exported, exported?_of_record? hr, ?_⟩
  rcases hTurned.exported with hSame | hCounted
  · rw [hSame]
    exact Int64.le_refl _
  · rw [hCounted]
    exact hCounts _ (exported?_of_record? hr)

theorem Ahead.turn (h : c.Ahead p) (hCounts : c.Counts p.other) (hOrder : c.NotOvertaken p t) :
    (c.turn t).Ahead p := by
  obtain ⟨r, hr, -⟩ := h.knows p
  obtain ⟨r₂, hr₂, -⟩ := h.knows p.other
  have hv := version?_of_record? hr
  have hGrantedNow := exported?_of_record? hr₂
  obtain ⟨hHeldGranted, hWayGranted⟩ := h.granted _ hGrantedNow
  -- What the peer has now it had before, or it was the oldest thing on its way.
  have hHeld : ∀ held ∈ (c.turn t).version? p,
      (∀ data ∈ c.underway p, held ≤ data.version) ∧ held ≤ r₂.exported.version := by
    intro held hMem
    rw [version?_turn h.knows hv] at hMem
    cases hTold : c.told? p t with
    | none =>
      rw [hTold] at hMem
      obtain rfl := Option.some.inj hMem
      exact ⟨h.underway _ hv, hHeldGranted _ hv⟩
    | some data =>
      rw [hTold] at hMem
      obtain rfl := Option.some.inj hMem
      exact ⟨hOrder data hTold, hWayGranted data (underway_of_told hTold)⟩
  have hWay : ∀ data ∈ (c.turn t).underway p, data.version ≤ r₂.exported.version := by
    intro data hMem
    rcases underway_turn h.knows hMem with hMem | hNew
    · exact hWayGranted data hMem
    · rw [Option.some.inj (hGrantedNow.symm.trans hNew)]
      exact Int64.le_refl _
  constructor
  case knows => exact h.knows.turn t
  case underway =>
    intro held hMem data hData
    rcases underway_turn h.knows hData with hData | hNew
    · exact (hHeld held hMem).1 data hData
    · rw [← Option.some.inj (hGrantedNow.symm.trans hNew)]
      exact (hHeld held hMem).2
  case granted =>
    intro granted hMem
    obtain ⟨before, hBefore, hLe⟩ := exported?_turn h.knows hCounts hMem
    obtain rfl := Option.some.inj (hGrantedNow.symm.trans hBefore)
    exact ⟨fun held hMem => Int64.le_trans (hHeld held hMem).2 hLe,
      fun data hMem => Int64.le_trans (hWay data hMem) hLe⟩

theorem Ahead.not_ages (h : c.Ahead p) (t : Turn) : ¬c.Ages p t := by
  obtain ⟨r, hr, -⟩ := h.knows p
  have hv := version?_of_record? hr
  rw [ages_iff h.knows hv]
  rintro ⟨data, hTold, hLt⟩
  exact Int64.not_lt.mpr (h.underway _ hv data (underway_of_told hTold)) hLt

theorem turns_ahead (h : c.Ahead p) {ts : List Turn} (hOrder : c.InOrder p ts) :
    (c.turns ts).Ahead p ∧ c.NeverAges p ts := by
  induction ts generalizing c with
  | nil => exact ⟨h, trivial⟩
  | cons t ts ih =>
    obtain ⟨hCounts, hNot, hRest⟩ := hOrder
    obtain ⟨hAhead, hNever⟩ := ih (h.turn hCounts hNot) hRest
    exact ⟨hAhead, h.not_ages t, hNever⟩

/-- The last of a list in which nothing decreases is its greatest. -/
theorem le_getLast {l : List Int64} {v last : Int64} (hSorted : l.Pairwise (· ≤ ·))
    (hLast : l.getLast? = some last) (hv : v ∈ l) : v ≤ last := by
  obtain ⟨earlier, rfl⟩ := List.getLast?_eq_some_iff.mp hLast
  rcases List.mem_append.mp hv with hv | hv
  · exact (List.pairwise_append.mp hSorted).2.2 v hv last (List.mem_singleton_self last)
  · rw [List.mem_singleton.mp hv]
    exact Int64.le_refl last

end Turns

theorem introduce_ahead (address : Partner → PeerAddress) (name : Partner → String)
    (known : Partner → Directory) (p : Partner) : (introduce address name known).Ahead p := by
  have hRecord := introduce_record? address name known
  constructor
  case knows => exact introduce_knows address name known
  case underway => exact fun _ _ data hMem => nomatch hMem
  case granted =>
    rw [exported?_of_record? (hRecord p.other), version?_of_record? (hRecord p)]
    rintro _ ⟨⟩
    refine ⟨?_, fun data hMem => nomatch hMem⟩
    rintro _ ⟨⟩
    exact Int64.le_refl 0

/-- Two peers were introduced, and from then on grant each other services, forget some and exchange
grants in any order, with anything lost or late. What a peer is told it knows at once, so it has the
version of the snapshot that reached it last, and it never falls back exactly if the versions that
reach it never decrease. If no snapshot is overtaken by a newer one it does not, and it has the
newest that reached it. -/
theorem last_told_holds (address : Partner → PeerAddress) (name : Partner → String)
    (known : Partner → Directory) (p : Partner) (ts : List Turn) :
    let c := introduce address name known
    let after := c.turns ts
    (∀ t data, after.told? p t = some data → (after.turn t).imported? p = some data) ∧
    after.version? p = (c.versions p ts 0).getLast? ∧
    (c.NeverAges p ts ↔ (c.versions p ts 0).Pairwise (· ≤ ·)) ∧
    (c.InOrder p ts → c.NeverAges p ts ∧
      ∃ held, after.version? p = some held ∧ ∀ data ∈ c.told p ts, data.version ≤ held) := by
  intro c after
  have hAhead : c.Ahead p := introduce_ahead address name known p
  have hv : c.version? p = some 0 :=
    version?_of_record? (introduce_record? address name known p)
  have hNever := neverAges_iff hAhead.knows hv ts
  have hLast : after.version? p = (c.versions p ts 0).getLast? := version?_turns hAhead.knows hv ts
  refine ⟨fun t data hTold => ?_, hLast, hNever, fun hOrder => ?_⟩
  · obtain ⟨r, hr, -⟩ := turns_knows hAhead.knows ts p
    obtain ⟨r', hr', hTurned⟩ := turn_turned (turns_knows hAhead.knows ts) hr t
    rw [imported?_of_record? hr', hTurned.told data hTold]
  · obtain ⟨hAfter, hNot⟩ := turns_ahead hAhead hOrder
    obtain ⟨r, hr, -⟩ := hAfter.knows p
    have hHeld : after.version? p = some r.imported.version := version?_of_record? hr
    refine ⟨hNot, _, hHeld, fun data hMem => ?_⟩
    exact le_getLast (hNever.mp hNot) (hLast.symm.trans hHeld)
      (List.mem_cons_of_mem _ (List.mem_map_of_mem hMem))

/-- A request and an answer bring two snapshots in order. -/
theorem sample_in_order :
    let ts : List Turn := [.move (.grant .second [⟨9⟩] []), .move (.ask .second),
      .move (.answer 0), .move (.grant .second [⟨8⟩] []), .move (.ask .first), .move (.answer 0),
      .move (.take 1)]
    sample.InOrder .first ts ∧ sample.NeverAges .first ts ∧
      ∃ held, (sample.turns ts).version? .first = some held ∧
        ∀ data ∈ sample.told .first ts, data.version ≤ held := by
  intro ts
  have hOrder : sample.InOrder .first ts := by decide +kernel
  exact ⟨hOrder, (last_told_holds _ _ _ .first ts).2.2.2 hOrder⟩

/-- Two requests arrive in reverse, or an answer is handled after a request that was sent later: in
the end the peer has the older snapshot. -/
theorem sample_falls_back :
    let requests : List Turn := [.move (.ask .second), .move (.grant .second [⟨9⟩] []),
      .move (.ask .second), .move (.answer 1), .move (.answer 0), .move (.take 0), .move (.take 0)]
    let crossing : List Turn := [.move (.ask .first), .move (.answer 0),
      .move (.grant .second [⟨9⟩] []), .move (.ask .second), .move (.answer 0), .move (.take 1),
      .move (.take 0)]
    ∀ ts ∈ [requests, crossing],
      ¬sample.NeverAges .first ts ∧
      (sample.turns ts).requests = [] ∧ (sample.turns ts).answers = [] ∧
      (sample.turns ts).version? .first = some 0 ∧
      (sample.told .first ts).map GrantSet.version = [1, 0] := by
  decide +kernel

end PeerServices.Couple
