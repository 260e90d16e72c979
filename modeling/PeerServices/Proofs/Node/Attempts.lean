import PeerServices.Proofs.Node.Attaching

/-!
# How an attempt to connect goes

Every step of a node goes on with at most one attempt to connect. Either the attempt is still under
way afterwards and nobody was told anything, or it is over and the owner of its session was told so
once: that the session is connected, or why it is not.

* `Node.Outcome`: what the owner of a session is told when an attempt ends.
* `Node.Idles`: a step that goes on with no attempt. `Node.Concerns`: a step that goes on with one.
* One lemma for each thing that a node does in an attempt: it reaches for the host, takes part in
  the handshake, opens the connection and sends the request.
-/

namespace PeerServices.Node

variable {n m n' : Node} {c : ConnectionId} {s : SessionId} {k : CallId} {taken : List Cue}
  {told told' : List (SessionId × Session.Hook)}

/-- How an attempt ends, as the owner of its session is told. The first time the session is told
before that it will be connected. -/
inductive Outcome (n : Node) (s : SessionId) : List (SessionId × Session.Hook) → Prop
  | unauthenticated (cause : HandshakeError) : Outcome n s [(s, .authenticationFailed cause)]
  | unconnected (cause : ServiceError) : Outcome n s [(s, .connectionFailed cause)]
  | first (view : Session.View) (h : ¬n.Configured s) :
      Outcome n s [(s, .configured), (s, .connected view)]
  | again (view : Session.View) (h : n.Configured s) : Outcome n s [(s, .connected view)]

/-- No call goes on but one. The others that were not sent are as far as they were, and none of them
is sent. -/
structure Leaves (n : Node) (k : CallId) (n' : Node) : Prop where
  unsent : ∀ j call, j ≠ k → n.calls.find? j = some call → (∀ c, call.stage ≠ .waiting c) →
    n'.calls.find? j = some call
  sent : ∀ j s c, j ≠ k → n'.CallAt j s (.waiting c) → n.CallAt j s (.waiting c)

/-- A connection was open for a session before, and is attached to it if it was so then. -/
def StayedOpen (n : Node) (c : ConnectionId) (s : SessionId) (n' : Node) : Prop :=
  n.OpenFor c s ∧ (n'.Attached s c ↔ n.Attached s c)

/-- A step that goes on with no attempt. One call may go on. -/
structure Idles (n : Node) (taken : List Cue) (k : CallId) (n' : Node) : Prop where
  paced : n'.Paced taken
  leaves : n.Leaves k n'
  trying : ∀ s, n'.Trying s ↔ n.Trying s
  openFor : ∀ c s, n'.OpenFor c s → n.StayedOpen c s n'
  tells : n.Tells [] n'

/-- A step that goes on with no attempt but that of one session. A connection is opened only if its
owner is told so, and is attached to its session then. -/
structure Concerns (n : Node) (taken : List Cue) (s : SessionId) (k : CallId)
    (told : List (SessionId × Session.Hook)) (n' : Node) : Prop where
  paced : n'.Paced taken
  leaves : n.Leaves k n'
  others : ∀ s', s' ≠ s → (n'.Trying s' ↔ n.Trying s')
  openFor : ∀ c s', n'.OpenFor c s' →
    n.StayedOpen c s' n' ∨ (s' = s ∧ n'.Attached s c ∧ ∃ view, (s, .connected view) ∈ told)
  tells : n.Tells told n'

/-- The attempt of a session is still under way, or it is over and its owner was told so. -/
def Pursues (n : Node) (s : SessionId) (told : List (SessionId × Session.Hook))
    (n' : Node) : Prop :=
  (n'.Trying s ∧ told = []) ∨ (¬n'.Trying s ∧ n.Outcome s told)

theorem Outcome.of_tells (h : n.Tells [] m) (hOutcome : m.Outcome s told) : n.Outcome s told := by
  have hSame : m.Configured s ↔ n.Configured s :=
    (h.configured s).trans (or_iff_left List.not_mem_nil)
  cases hOutcome with
  | unauthenticated cause => exact .unauthenticated cause
  | unconnected cause => exact .unconnected cause
  | first view hNew => exact .first view (mt hSame.mpr hNew)
  | again view hAgain => exact .again view (hSame.mp hAgain)

theorem Leaves.trans (h : n.Leaves k m) (h' : m.Leaves k n') : n.Leaves k n' where
  unsent j call hj hCall hUnsent := h'.unsent j call hj (h.unsent j call hj hCall hUnsent) hUnsent
  sent j s c hj hAt := h.sent j s c hj (h'.sent j s c hj hAt)

/-- Only the one call is changed, made or ended. -/
theorem Leaves.of_others (h : ∀ j, j ≠ k → n'.calls.find? j = n.calls.find? j) : n.Leaves k n' where
  unsent j _ hj hCall _ := (h j hj).trans hCall
  sent j s c hj hAt := by
    unfold CallAt at hAt ⊢
    rwa [h j hj] at hAt

theorem StayedOpen.trans (h : n.StayedOpen c s m) (h' : m.StayedOpen c s n') :
    n.StayedOpen c s n' :=
  ⟨h.1, h'.2.trans h.2⟩

theorem Calm.stayedOpen (h : n.Calm told n') (hOpen : n'.OpenFor c s) : n.StayedOpen c s n' :=
  ⟨h.openFor c s hOpen, h.attached c s hOpen⟩

theorem Idles.trans (h : n.Idles taken k m) (h' : m.Idles taken k n') : n.Idles taken k n' where
  paced := h'.paced
  leaves := h.leaves.trans h'.leaves
  trying s := (h'.trying s).trans (h.trying s)
  openFor c s hOpen := by
    have hLater := h'.openFor c s hOpen
    exact (h.openFor c s hLater.1).trans hLater
  tells := h.tells.trans h'.tells

theorem Idles.concerns (h : n.Idles taken k n') (s : SessionId) : n.Concerns taken s k [] n' where
  paced := h.paced
  leaves := h.leaves
  others s' _ := h.trying s'
  openFor c s' hOpen := .inl (h.openFor c s' hOpen)
  tells := h.tells

theorem Concerns.trans (h : n.Concerns taken s k told m) (h' : m.Concerns taken s k told' n') :
    n.Concerns taken s k (told ++ told') n' where
  paced := h'.paced
  leaves := h.leaves.trans h'.leaves
  others s' hs := (h'.others s' hs).trans (h.others s' hs)
  openFor c s' hOpen := by
    rcases h'.openFor c s' hOpen with hLater | ⟨hs, hAttached, view, hMem⟩
    · rcases h.openFor c s' hLater.1 with hBefore | ⟨rfl, hAttached, view, hMem⟩
      · exact .inl (hBefore.trans hLater)
      · exact .inr ⟨rfl, hLater.2.mpr hAttached, view, List.mem_append_left _ hMem⟩
    · exact .inr ⟨hs, hAttached, view, List.mem_append_right _ hMem⟩
  tells := h.tells.trans h'.tells

/-- Nothing was told before. -/
theorem Concerns.after (h : n.Concerns taken s k [] m) (h' : m.Concerns taken s k told n') :
    n.Concerns taken s k told n' := h.trans h'

/-- Nothing is told after it. -/
theorem Concerns.next (h : n.Concerns taken s k told m) (h' : m.Concerns taken s k [] n') :
    n.Concerns taken s k told n' := by
  rw [← List.append_nil told]
  exact h.trans h'

/-! ## Steps that go on with no attempt -/

/-- Calls reach for hosts, and handshakes are under way, for the same sessions. -/
theorem trying_congr (hDialling : ∀ k, n'.Dialling s k ↔ n.Dialling s k)
    (hHandshake : ∀ c, n'.handshake? c = n.handshake? c) : n'.Trying s ↔ n.Trying s := by
  unfold Trying
  simp only [hDialling, hHandshake]

theorem Paced.dialling_of_calm (h : n.Paced taken) (hCalm : n.Calm told n') :
    n'.Dialling s k ↔ n.Dialling s k :=
  ⟨hCalm.dialling,
    fun ⟨attempts, socket, hAt⟩ => ⟨attempts, socket, h.callAt_of_calm hCalm hAt fun _ => nofun⟩⟩

theorem Paced.leaves_of_calm (h : n.Paced taken) (hCalm : n.Calm told n') : n.Leaves k n' where
  unsent _ _ _ hCall hUnsent := h.find?_of_calm hCalm hCall hUnsent
  sent _ _ _ _ hAt := hCalm.callAt hAt

theorem Paced.concerns (h : n.Paced taken) (hCalm : n.Calm told n') (s : SessionId) (k : CallId) :
    n.Concerns taken s k told n' where
  paced := h.calm hCalm
  leaves := h.leaves_of_calm hCalm
  others _ _ := trying_congr (fun _ => h.dialling_of_calm hCalm) hCalm.handshake
  openFor _ _ hOpen := .inl (hCalm.stayedOpen hOpen)
  tells := hCalm.tells

theorem Paced.idles (h : n.Paced taken) (hCalm : n.Calm [] n') (k : CallId) :
    n.Idles taken k n' where
  paced := h.calm hCalm
  leaves := h.leaves_of_calm hCalm
  trying _ := trying_congr (fun _ => h.dialling_of_calm hCalm) hCalm.handshake
  openFor _ _ := hCalm.stayedOpen
  tells := hCalm.tells

theorem Idles.calm (h : n.Idles taken k m) (hCalm : m.Calm [] n') : n.Idles taken k n' :=
  h.trans (h.paced.idles hCalm k)

theorem Idles.refl (h : n.Paced taken) (k : CallId) : n.Idles taken k n := h.idles (.refl n) k

/-- What a change of a session does not touch is true of it as before. -/
theorem exists_modifySession {f : Session → Session} {P : Session → Prop}
    (h : ∀ old, P (f old) ↔ P old) {s' : SessionId} :
    (∃ session, (n.modifySession s f).sessions.find? s' = some session ∧ P session) ↔
      ∃ session, n.sessions.find? s' = some session ∧ P session := by
  by_cases hs : s' = s
  · subst hs
    rw [find?_modifySession_self]
    simp only [Option.map_eq_some_iff]
    constructor
    · rintro ⟨_, ⟨old, hOld, rfl⟩, hNew⟩
      exact ⟨old, hOld, (h old).mp hNew⟩
    · rintro ⟨old, hOld, hNew⟩
      exact ⟨f old, ⟨old, hOld, rfl⟩, (h old).mpr hNew⟩
  · rw [n.find?_modifySession_of_ne hs]

/-- Which call connects a session, and who waits for that, is told to nobody. -/
theorem tells_modifySession {f : Session → Session}
    (h : ∀ old, (f old).configured = old.configured) : n.Tells [] (n.modifySession s f) := by
  refine ⟨(List.append_nil _).symm, fun s' => ?_⟩
  rw [or_iff_left List.not_mem_nil]
  exact exists_modifySession fun old => by rw [h]

theorem attached_modifySession {f : Session → Session} (h : ∀ old, (f old).current = old.current)
    {s' : SessionId} : (n.modifySession s f).Attached s' c ↔ n.Attached s' c :=
  exists_modifySession fun old => by rw [h]

theorem tells_emit (n : Node) {e : Effect} (h : e.notice? = none) : n.Tells [] (n.emit e) where
  notices := by
    unfold Node.notices emit
    rw [List.filterMap_append, List.filterMap_eq_nil_iff.mpr (List.forall_mem_singleton.mpr h)]
  configured _ := (or_iff_left List.not_mem_nil).symm

/-- Calls reach for hosts, and handshakes are under way, as before. -/
theorem idles_modifySession {f : Session → Session} (h : (n.modifySession s f).Paced taken)
    (hConfigured : ∀ old, (f old).configured = old.configured)
    (hCurrent : ∀ old, (f old).current = old.current) :
    n.Idles taken k (n.modifySession s f) where
  paced := h
  leaves := .of_others fun _ _ => rfl
  trying _ := Iff.rfl
  openFor _ _ hOpen := ⟨hOpen, attached_modifySession hCurrent⟩
  tells := tells_modifySession hConfigured

theorem idles_emit {e : Effect} (h : (n.emit e).Paced taken) (hNotice : e.notice? = none) :
    n.Idles taken k (n.emit e) where
  paced := h
  leaves := .of_others fun _ _ => rfl
  trying _ := Iff.rfl
  openFor _ _ hOpen := ⟨hOpen, .rfl⟩
  tells := tells_emit n hNotice

theorem idles_newSession (h : n.Paced taken) {session : Session}
    (hHolder : session.connecting = none) (hWaiters : session.waiters = [])
    (hCurrent : session.current = none) (hFresh : session.configured = false) :
    n.Idles taken k (n.newSession session).2 where
  paced := h.newSession hHolder hWaiters hCurrent
  leaves := .of_others fun _ _ => rfl
  trying _ := Iff.rfl
  openFor c s hOpen := by
    refine ⟨hOpen, fun ⟨new, hNew, hLinked⟩ => ?_, fun ⟨old, hOld, hLinked⟩ => ⟨old, ?_, hLinked⟩⟩
    · rcases SortedMap.find?_insert_eq_some hNew with ⟨-, rfl⟩ | ⟨-, hOld⟩
      · cases hCurrent.symm.trans hLinked
      · exact ⟨new, hOld, hLinked⟩
    · refine (SortedMap.find?_insert_of_ne ?_ _ _).trans hOld
      rintro rfl
      exact Nat.lt_irrefl _ (h.sessions _ (by rw [hOld]; rfl))
  tells := by
    refine ⟨(List.append_nil _).symm, fun s => ?_⟩
    rw [or_iff_left List.not_mem_nil]
    unfold Configured newSession
    by_cases hs : s = n.nextSession
    · subst hs
      rw [SortedMap.find?_insert_self]
      refine iff_of_false ?_ ?_
      · rintro ⟨_, ⟨⟩, hConfigured⟩
        cases hFresh.symm.trans hConfigured
      · rintro ⟨old, hOld, -⟩
        exact Nat.lt_irrefl _ (h.sessions _ (by rw [hOld]; rfl))
    · rw [SortedMap.find?_insert_of_ne hs]

/-- What becomes of who connects a session, and of what is said then. -/
theorem release_eq (n : Node) (s : SessionId) :
    ∃ sessions effects, n.release s = { n with sessions, effects := n.effects ++ effects } := by
  unfold Node.release
  split
  · exact ⟨n.sessions, [], by rw [List.append_nil]⟩
  · dsimp only
    split
    · exact ⟨_, [], by rw [List.append_nil]; rfl⟩
    · exact ⟨_, _, rfl⟩

theorem attached_release {s' : SessionId} : (n.release s).Attached s' c ↔ n.Attached s' c := by
  unfold Node.release
  split
  · rfl
  next session _ =>
    let next (session : Session) : Session :=
      { session with connecting := session.waiters.head?, waiters := session.waiters.tail }
    have hSame : (n.modifySession s next).Attached s' c ↔ n.Attached s' c :=
      attached_modifySession (f := next) fun _ => rfl
    dsimp only
    split <;> exact hSame

theorem idles_release (h : n.Paced taken) (hHolds : n.Holds s k) (hDone : ¬n.Attempts s k)
    (hUndue : ¬n.Due taken (.proceed k)) : n.Idles taken k (n.release s) where
  paced := h.release hHolds hDone hUndue
  leaves := by
    obtain ⟨sessions, effects, hEq⟩ := n.release_eq s
    rw [hEq]
    exact .of_others fun _ _ => rfl
  trying s' := by
    obtain ⟨sessions, effects, hEq⟩ := n.release_eq s
    rw [hEq]
    exact Iff.rfl
  openFor c s' hOpen := by
    refine ⟨?_, attached_release⟩
    obtain ⟨sessions, effects, hEq⟩ := n.release_eq s
    rwa [hEq] at hOpen
  tells := by
    unfold Node.release
    split
    · exact .refl n
    next session _ =>
      have hNext : n.Tells [] (n.modifySession s fun session =>
          { session with connecting := session.waiters.head?, waiters := session.waiters.tail }) :=
        tells_modifySession fun _ => rfl
      dsimp only
      split
      · exact hNext
      · exact hNext.trans (tells_emit _ rfl)

/-! ## Calls -/

/-- What a call is about that is changed makes a difference for its own session only. -/
theorem trying_recall {calls : SortedMap CallId Call} {next : CallId}
    (hOthers : ∀ j, j ≠ k → calls.find? j = n.calls.find? j)
    (hBefore : ¬n.Dialling s k)
    (hAfter : ¬({ n with calls, nextCall := next } : Node).Dialling s k) :
    ({ n with calls, nextCall := next } : Node).Trying s ↔ n.Trying s := by
  refine trying_congr (fun j => ?_) fun _ => rfl
  by_cases hj : j = k
  · subst hj
    exact iff_of_false hAfter hBefore
  · unfold Dialling CallAt
    change (∃ attempts socket call, calls.find? j = some call ∧ _) ↔ _
    rw [hOthers j hj]

theorem not_dialling {s' : SessionId} {stage : Call.Stage} (hAt : n.CallAt k s stage)
    (h : s' ≠ s ∨ ∀ attempts socket, stage ≠ .dialling attempts socket) : ¬n.Dialling s' k := by
  rintro ⟨attempts, socket, hDialling⟩
  obtain ⟨rfl, rfl⟩ := hAt.unique hDialling
  exact h.elim (· rfl) (· attempts socket rfl)

theorem CallAt.restage {old : Call.Stage} (h : n.CallAt k s old) (stage : Call.Stage) :
    (n.modifyCall k fun call => { call with stage }).CallAt k s stage := by
  obtain ⟨call, hCall, rfl, -⟩ := h
  refine ⟨{ call with stage }, ?_, rfl, rfl⟩
  change (n.calls.modify k _).find? k = _
  rw [SortedMap.find?_modify_self, hCall]
  rfl

/-- A call that is free goes on, without reaching for a host. -/
theorem idles_restage (h : n.Paced taken) (hFree : n.Free taken k) {old : Call.Stage}
    (hAt : n.CallAt k s old) (hUnsent : ∀ c, old ≠ .waiting c)
    (hBefore : ∀ attempts socket, old ≠ .dialling attempts socket) (stage : Call.Stage)
    (hAfter : ∀ attempts socket, stage ≠ .dialling attempts socket) :
    n.Idles taken k (n.modifyCall k fun call => { call with stage }) where
  paced := h.restage hFree hAt hUnsent fun attempts socket hDialling =>
    absurd hDialling (hAfter attempts socket)
  leaves := .of_others fun _ hj => SortedMap.find?_modify_of_ne hj _ _
  trying _ := trying_recall (fun _ hj => SortedMap.find?_modify_of_ne hj _ _)
    (not_dialling hAt (.inr hBefore)) (not_dialling (hAt.restage stage) (.inr hAfter))
  openFor _ _ hOpen := ⟨hOpen, .rfl⟩
  tells := .of_same rfl rfl

/-- A call that is free starts to reach for its host. -/
theorem concerns_restage (h : n.Paced taken) (hFree : n.Free taken k) {old : Call.Stage}
    (hAt : n.CallAt k s old) (hUnsent : ∀ c, old ≠ .waiting c) (stage : Call.Stage)
    (hDialling : ∀ attempts socket, stage = .dialling attempts socket →
      n.Holds s k ∧ n.Unattached s) :
    n.Concerns taken s k [] (n.modifyCall k fun call => { call with stage }) where
  paced := h.restage hFree hAt hUnsent hDialling
  leaves := .of_others fun _ hj => SortedMap.find?_modify_of_ne hj _ _
  others _ hs := trying_recall (fun _ hj => SortedMap.find?_modify_of_ne hj _ _)
    (not_dialling hAt (.inl hs)) (not_dialling (hAt.restage stage) (.inl hs))
  openFor _ _ hOpen := .inl ⟨hOpen, .rfl⟩
  tells := .of_same rfl rfl

/-- A call is there no more. -/
theorem not_dialling_erase (s : SessionId) :
    ¬({ n with calls := n.calls.erase k } : Node).Dialling s k := by
  rintro ⟨attempts, socket, call, hCall, -⟩
  cases (SortedMap.find?_erase_self n.calls k).symm.trans hCall

theorem paced_erase (h : n.Paced taken) (hFree : n.Free taken k) :
    ({ n with calls := n.calls.erase k } : Node).Paced taken := by
  have hGone := SortedMap.find?_erase_self n.calls k
  refine h.recall (fun j hj => SortedMap.find?_erase_of_ne hj _) hFree (Nat.le_refl _)
    (fun call hFind => ?_) fun hSome => ?_
  · cases hGone.symm.trans hFind
  · rw [hGone] at hSome
    cases hSome

/-- A call that is free ends; if it was reaching for its host, its session's attempt is over. -/
theorem concerns_finish (h : n.Paced taken) (hFree : n.Free taken k) {stage : Call.Stage}
    (hAt : n.CallAt k s stage) (result : Reply.Result) :
    n.Concerns taken s k [] (n.finish k result) ∧ (n.finish k result).calls.find? k = none := by
  have hErased : n.Concerns taken s k [] { n with calls := n.calls.erase k } :=
    { paced := paced_erase h hFree
      leaves := .of_others fun j hj => SortedMap.find?_erase_of_ne hj _
      others := fun s' hs => trying_recall (fun j hj => SortedMap.find?_erase_of_ne hj _)
        (not_dialling hAt (.inl hs)) (not_dialling_erase s')
      openFor := fun _ _ hOpen => .inl ⟨hOpen, .rfl⟩
      tells := .of_same rfl rfl }
  unfold Node.finish SortedMap.contains
  rw [if_pos hAt.isSome]
  exact ⟨hErased.next (hErased.paced.concerns (calm_emit _ rfl rfl) s k),
    SortedMap.find?_erase_self n.calls k⟩

theorem idles_finish (h : n.Paced taken) (hFree : n.Free taken k) {stage : Call.Stage}
    (hAt : n.CallAt k s stage) (hStage : ∀ attempts socket, stage ≠ .dialling attempts socket)
    (result : Reply.Result) : n.Idles taken k (n.finish k result) := by
  have hErased : n.Idles taken k { n with calls := n.calls.erase k } :=
    { paced := paced_erase h hFree
      leaves := .of_others fun j hj => SortedMap.find?_erase_of_ne hj _
      trying := fun s' => trying_recall (fun j hj => SortedMap.find?_erase_of_ne hj _)
        (not_dialling hAt (.inr hStage)) (not_dialling_erase s')
      openFor := fun _ _ hOpen => ⟨hOpen, .rfl⟩
      tells := .of_same rfl rfl }
  unfold Node.finish SortedMap.contains
  rw [if_pos hAt.isSome]
  exact hErased.calm (calm_emit _ rfl rfl)

/-- Nobody knows of a call that is made only now. -/
theorem Paced.free_of_new (h : n.Paced taken) : n.Free taken n.nextCall where
  unqueued s hQueued := Nat.lt_irrefl _ (h.calls _ (h.queue s _ hQueued).1.isSome)
  start hDue := by
    obtain ⟨s, hAt, -⟩ := h.starts _ hDue
    exact Nat.lt_irrefl _ (h.calls _ hAt.isSome)
  proceed hDue := by
    obtain ⟨s, hAt, -⟩ := h.proceeds _ hDue
    exact Nat.lt_irrefl _ (h.calls _ hAt.isSome)
  idle c s hHandshake := Nat.lt_irrefl _ (h.calls _ (h.reached c s _ hHandshake).isSome)

/-- A call is made that gets its responses itself. -/
theorem idles_newCall (h : n.Paced taken) (s : SessionId) (timeout : Duration)
    (message : Message → Message) (code : UInt8) (listeners : CallId → List (Listener Target))
    (resolved : Option Reply.Result)
    (hOwn : ∀ k, ∀ l ∈ listeners k, ∀ j, l.target.call? = some j → j = k) :
    n.Idles taken n.nextCall (n.newCall s timeout message code listeners resolved).2 ∧
      (n.newCall s timeout message code listeners resolved).2.CallAt n.nextCall s .pending ∧
      (n.newCall s timeout message code listeners resolved).2.Free taken n.nextCall ∧
      ¬(n.newCall s timeout message code listeners resolved).2.Holds s n.nextCall := by
  let call : Call :=
    { session := s, message := message (.request (uidOf n.nextCall) code)
      listeners := listeners n.nextCall, timeout, resolved, stage := .pending }
  have hFound : (n.calls.insert n.nextCall call).find? n.nextCall = some call :=
    SortedMap.find?_insert_self ..
  have hAt : (n.newCall s timeout message code listeners resolved).2.CallAt n.nextCall s .pending :=
    ⟨call, hFound, rfl, rfl⟩
  have hFree : n.Free taken n.nextCall := h.free_of_new
  refine ⟨⟨?_, .of_others fun j hj => SortedMap.find?_insert_of_ne hj _ _, fun s' => ?_,
    fun _ _ hOpen => ⟨hOpen, .rfl⟩, .of_same rfl rfl⟩, hAt,
    ⟨hFree.unqueued, hFree.start, hFree.proceed, hFree.idle⟩,
    fun hHolds => Nat.lt_irrefl _ (h.holder s _ hHolds)⟩
  · refine h.recall (fun j hj => SortedMap.find?_insert_of_ne hj _ _) hFree (Nat.le_succ _) ?_
      fun _ => Nat.lt_succ_self _
    intro made hMade
    obtain rfl := Option.some.inj (hFound.symm.trans hMade)
    refine ⟨hOwn n.nextCall, fun hTargeted => ?_, fun _ _ => nofun⟩
    exact absurd (h.targets _ hTargeted).1 (Nat.lt_irrefl _)
  · refine trying_recall (fun j hj => SortedMap.find?_insert_of_ne hj _ _) ?_
      (not_dialling hAt (.inr fun _ _ => nofun))
    rintro ⟨attempts, socket, hDialling⟩
    exact Nat.lt_irrefl _ (h.calls _ hDialling.isSome)

end PeerServices.Node
