import PeerServices.Proofs.Node.GivingUp
import PeerServices.Proofs.Node.Reaching
import PeerServices.Proofs.Wire.Delivery

/-!
# One connection for all requests of a session

Any number of requests of one session may begin at the same time, connections may break and be
closed at any time, and still a session has at most one connection that it did not give up: at most
one attempt to connect it is under way, none while it has a connection, and every request is passed
to the connection that is attached to it then. If the first attempt succeeds, and nothing is closed
or given up, there is no other attempt, and all requests share its connection.

* `Node.Undisturbed`, `Node.Shared`: the first attempt succeeds, and all requests share it.
* `Node.connection_shared`: all this holds at every time of a timely run.
* `Node.HoldsOne`: only one connection is open for a session. This does not hold while somebody
  closes the session, who gives its connection up before closing that.
* `Node.begin_of_large`: a request that is too long is not sent.
  `Node.holds_two_and_sends_none`: both happen.
-/

namespace PeerServices.Node

open Session (connected? hooksFor)

variable {n n' : Node} {c : ConnectionId} {s : SessionId} {k : CallId} {taken : List Cue}
  {told : List (SessionId × Session.Hook)} {begun overrun unlinked : Option SessionId}
  {o : Occasion} {start : Node} {past : List Occasion}

/-- No attempt to connect a session failed before one succeeded, no connection of it was closed, and
it gave none up. -/
structure Undisturbed (start : Node) (past : List Occasion) (s : SessionId) : Prop where
  succeeds : ∀ hook ∈ ((start.meetAll past).outcomes s).head?, hook.isFailure = false
  unclosed : ∀ reason, .closed s reason ∉ (start.meetAll past).words
  kept : .unlink s ∉ past

/-- No connection is open for a session, and no request of it was sent. -/
structure Silent (n : Node) (s : SessionId) : Prop where
  unopened : ∀ c, ¬n.OpenFor c s
  unsent : ∀ k c, ¬n.CallAt k s (.waiting c)

/-- No other connection is open for a session, and no request of it waits on another one. -/
structure UsesOnly (n : Node) (s : SessionId) (c : ConnectionId) : Prop where
  connection : ∀ c', n.OpenFor c' s → c' = c
  requests : ∀ k c', n.CallAt k s (.waiting c') → c' = c

/-- What becomes of the requests of a session whose first attempt does not fail, and of which no
connection is closed. -/
inductive Shared (start : Node) (past : List Occasion) (s : SessionId) : Prop
  /-- At most one attempt was begun so far, and no request was sent. -/
  | awaited (hUntold : (start.meetAll past).outcomes s = []) (hOnce : tally begun? s start past ≤ 1)
      (hSilent : ∀ p, p <+: past → (start.meetAll p).Silent s)
  /-- Exactly one attempt was begun, and its connection is open and was the only one at any time. -/
  | connected {c : ConnectionId} {view : Session.View} (hOpen : (start.meetAll past).OpenFor c s)
      (hTold : (start.meetAll past).outcomes s = [.connected view])
      (hOnce : tally begun? s start past = 1)
      (hUses : ∀ p, p <+: past → (start.meetAll p).UsesOnly s c)

/-! ## Sessions that connect -/

theorem Remembers.accepts (h : Remembers n n') (hAccepts : n.Accepts s) : n'.Accepts s := by
  obtain ⟨holder, ws, hLineup⟩ := hAccepts
  obtain ⟨session, hSession, hOf⟩ := Option.map_eq_some_iff.mp hLineup
  obtain ⟨session', hSession', hSame⟩ := h s session hSession
  have hServing : session'.isProxy = false := hSame.isProxy.trans (congrArg Prod.fst hOf)
  refine ⟨session'.connecting, session'.waiters, ?_⟩
  unfold lineup?
  rw [hSession', Option.map_some, Session.lineup, hServing]

/-- A session that accepts its connection never connects. -/
theorem accepts_meet (hSound : n.Sound) (hAdmits : n.Admits o) (h : n.Accepts s) :
    (n.meet o).Accepts s := by
  have hGoes : ∀ {n'}, Goes n n' → n'.Accepts s := fun hGoes => (hGoes hSound).2.sessions.accepts h
  cases o with
  | move m =>
    cases m with
    | event e => exact hGoes (goes_handle hAdmits)
    | proxy address mode behaviour => exact hGoes (goes_newSession ⟨rfl, rfl⟩)
    | request s timeout code payload forms resolved =>
      exact hGoes (goes_request n s timeout code payload forms resolved)
    | _ => exact (calm_make (by nofun)).accepts.mpr h
  | unlink _ => exact (accepts_congr (lineup?_unlink _ _ _)).mpr h
  | close c => exact (calm_terminate n c none).accepts.mpr h
  | closeAll => exact (calm_closeAll n).accepts.mpr h

/-- No attempt of a session that connects is cut off. -/
theorem Timely.tally_overrun (h : Timely start past) (hConnects : ¬(start.meetAll past).Accepts s) :
    tally overrun? s start past = 0 := by
  induction h with
  | nil _ => rfl
  | @concat past o hPast hAdmits hInTime ih =>
    rw [meetAll_concat] at hConnects
    have hBefore := mt (accepts_meet hPast.lived.sound hAdmits) hConnects
    obtain ⟨told, hAffects⟩ := hPast.affects hAdmits hInTime
    rw [tally_concat, ih hBefore, if_neg]
    intro hOverrun
    cases hAffects.relates s with
    | untouched _ hNot _ _ => exact hNot hOverrun
    | begins _ hNot _ _ => exact hNot hOverrun
    | goesOn _ hNot _ _ => exact hNot hOverrun
    | overruns _ _ _ hAccepts _ _ => exact hBefore hAccepts

/-- How many attempts were begun for a session that connects. -/
theorem Timely.tally_begun (h : Timely start past) (hConnects : ¬(start.meetAll past).Accepts s) :
    ((start.meetAll past).Trying s →
      tally begun? s start past = ((start.meetAll past).outcomes s).length + 1) ∧
    (¬(start.meetAll past).Trying s →
      tally begun? s start past = ((start.meetAll past).outcomes s).length) := by
  have hBalanced := h.accounted.balanced s
  rw [h.tally_overrun hConnects] at hBalanced
  exact ⟨hBalanced.underWay, hBalanced.ended⟩

/-- At most one attempt is under way. -/
theorem Timely.tally_begun_le (h : Timely start past)
    (hConnects : ¬(start.meetAll past).Accepts s) :
    tally begun? s start past ≤ ((start.meetAll past).outcomes s).length + 1 := by
  obtain ⟨hUnderWay, hEnded⟩ := h.tally_begun hConnects
  by_cases hTrying : (start.meetAll past).Trying s
  · exact Nat.le_of_eq (hUnderWay hTrying)
  · rw [hEnded hTrying]
    exact Nat.le_succ _

/-! ## Requests that share a connection -/

theorem Undisturbed.before (h : Undisturbed start (past ++ [o]) s)
    (hTells : (start.meetAll past).Tells told ((start.meetAll past).meet o))
    (hLived : (start.meetAll past).Lived) (hAdmits : (start.meetAll past).Admits o) :
    Undisturbed start past s where
  succeeds hook hHead := by
    apply h.succeeds
    rw [meetAll_concat, hTells.outcomes]
    cases hOutcomes : (start.meetAll past).outcomes s with
    | nil =>
      rw [hOutcomes] at hHead
      cases hHead
    | cons first rest =>
      rw [hOutcomes] at hHead
      exact hHead
  unclosed reason hMem := by
    obtain ⟨ts, hPath, -, -⟩ := proceeds_meet hAdmits hLived.fit
    apply h.unclosed reason
    rw [meetAll_concat, hPath.words]
    exact List.mem_append_left _ hMem
  kept hMem := h.kept (List.mem_append_left _ hMem)

/-- While nothing is closed, a connection that was opened is open. -/
theorem Undisturbed.openFor (h : Undisturbed start past s) {story : List Turn}
    (hOrderly : (start.meetAll past).Orderly story) (hMem : .opened c s ∈ story) :
    (start.meetAll past).OpenFor c s := by
  rcases hOrderly.openFor_or_closed hMem with hOpen | ⟨reason, hClosed⟩
  · exact hOpen
  · refine absurd ?_ (h.unclosed reason)
    rw [hOrderly.words]
    exact List.mem_filterMap.mpr ⟨_, hClosed, rfl⟩

/-- A session that gives nothing up has only one connection. -/
theorem Undisturbed.only (h : Undisturbed start past s) (hTimely : Timely start past)
    (hOpen : (start.meetAll past).OpenFor c s) {c' : ConnectionId}
    (hOpen' : (start.meetAll past).OpenFor c' s) : c' = c :=
  (hTimely.exclusive s).connection c c' hOpen (fun hGivenUp => h.kept hGivenUp.mem) hOpen'
    fun hGivenUp => h.kept hGivenUp.mem

theorem Undisturbed.attached (h : Undisturbed start past s) (hTimely : Timely start past)
    (hOpen : (start.meetAll past).OpenFor c s) : (start.meetAll past).Attached s c :=
  (hTimely.attached_or_givenUp hOpen).resolve_right fun hGivenUp => h.kept hGivenUp.mem

/-- As long as a connection is open, all attempts that were begun are over. -/
theorem Undisturbed.tally_begun (h : Undisturbed start past s) (hTimely : Timely start past)
    (hConnects : ¬(start.meetAll past).Accepts s) (hOpen : (start.meetAll past).OpenFor c s) :
    tally begun? s start past = ((start.meetAll past).outcomes s).length :=
  (hTimely.tally_begun hConnects).2 fun hTrying =>
    hTimely.paced.unattached_of_trying hTrying _ hOpen (h.attached hTimely hOpen)

/-- A request that waits after a step waited before, or was passed to the open connection. -/
theorem Settles.waiting (h : n.Settles told n') (hFit : n'.Fit)
    (hWaiting : n'.CallAt k s (.waiting c)) : n.CallAt k s (.waiting c) ∨ n'.OpenFor c s := by
  refine (h.sent s k c hWaiting).imp_right fun ⟨m, hOpen, hPassed⟩ =>
    hFit.openFor (hFit.openConnection?_iff.mp ?_)
  rw [hPassed, openConnection?_transmit]
  exact hOpen

theorem Silent.usesOnly (h : n.Silent s) (c : ConnectionId) : n.UsesOnly s c where
  connection c' hOpen := absurd hOpen (h.unopened c')
  requests k c' hWaiting := absurd hWaiting (h.unsent k c')

theorem Silent.step (h : n.Silent s) (hAffects : n.Affects begun overrun unlinked told n')
    (hFit : n'.Fit) (hUntold : ∀ hook, (s, hook) ∉ told) : n'.Silent s := by
  have hUnopened : ∀ c, ¬n'.OpenFor c s := fun c hOpen =>
    (hAffects.openFor c s hOpen).elim (fun hBefore => h.unopened c hBefore.1)
      fun ⟨_, _, hTold⟩ => hUntold _ hTold
  exact ⟨hUnopened, fun k c hWaiting =>
    (hAffects.settles.waiting hFit hWaiting).elim (h.unsent k c) (hUnopened c)⟩

theorem UsesOnly.step (h : n.UsesOnly s c) (hSettles : n.Settles told n') (hFit : n'.Fit)
    (hOnly : ∀ c', n'.OpenFor c' s → c' = c) : n'.UsesOnly s c where
  connection := hOnly
  requests k c' hWaiting := (hSettles.waiting hFit hWaiting).elim (h.requests k c') (hOnly c')

/-- What held at every time of a run and holds now held at every time of the longer run. -/
theorem forall_prefix_concat {P : Node → Prop} (hBefore : ∀ p, p <+: past → P (start.meetAll p))
    (hNow : P (start.meetAll (past ++ [o]))) : ∀ p, p <+: past ++ [o] → P (start.meetAll p) := by
  intro p hPrefix
  rcases List.prefix_concat_iff.mp hPrefix with rfl | hPrefix
  · exact hNow
  · exact hBefore p hPrefix

/-- Nothing was sent before anything happened. -/
theorem Blank.silent (h : n.Blank) (s : SessionId) : n.Silent s where
  unopened _ := h.not_openFor
  unsent := by
    rintro k c ⟨call, hCall, -⟩
    rw [h.calls] at hCall
    cases hCall

/-- While no attempt was over, the next one that is over is the first, and it opens the
connection. -/
theorem Affects.first (h : n.Affects begun overrun unlinked told n')
    (hSucceeds : ∀ hook ∈ (n'.outcomes s).head?, hook.isFailure = false)
    (hUntold : n.outcomes s = []) : (∀ hook, (s, hook) ∉ told) ∨
      ∃ view, (s, .connected view) ∈ told ∧ n'.outcomes s = [.connected view] := by
  refine (h.relates s).untold_or_ended.imp_right fun ⟨_, hOutcome⟩ => ?_
  obtain ⟨hook, hTold, hOne⟩ := hOutcome.eq_singleton
  have hNow := h.tells.outcomes s
  rw [hUntold, hOne, List.nil_append] at hNow
  have hEnds : hook.endsAttempt = true :=
    (List.mem_filter.mp (hOne ▸ List.mem_singleton_self hook)).2
  have hNoFailure := hSucceeds hook (by rw [hNow]; rfl)
  cases hook with
  | connected view => exact ⟨view, hTold, hNow⟩
  | _ => cases hNoFailure.symm.trans hEnds

/-- While nothing is closed, a session stays connected. -/
theorem Undisturbed.stays (h : Undisturbed start (past ++ [o]) s)
    (hLived : (start.meetAll past).Lived) (hAdmits : (start.meetAll past).Admits o)
    (hTells : (start.meetAll past).Tells told ((start.meetAll past).meet o))
    (hOpen : (start.meetAll past).OpenFor c s) : (start.meetAll (past ++ [o])).OpenFor c s := by
  obtain ⟨story, hOrderly⟩ := hLived.exists_orderly
  obtain ⟨ts, hNext, -⟩ := hTells.opened hLived hAdmits hOrderly
  rw [← meetAll_concat] at hNext
  exact h.openFor hNext (List.mem_append_left _ (hOrderly.opened_of_openFor hOpen))

/-- While nothing is closed, a session that is told to be connected is so. -/
theorem Undisturbed.connects (h : Undisturbed start (past ++ [o]) s)
    (hLived : (start.meetAll past).Lived) (hAdmits : (start.meetAll past).Admits o)
    (hTells : (start.meetAll past).Tells told ((start.meetAll past).meet o))
    {view : Session.View} (hTold : (s, .connected view) ∈ told) :
    ∃ c, (start.meetAll (past ++ [o])).OpenFor c s := by
  obtain ⟨story, hOrderly⟩ := hLived.exists_orderly
  obtain ⟨ts, hNext, hOpened⟩ := hTells.opened hLived hAdmits hOrderly
  rw [← meetAll_concat] at hNext
  have hMem : s ∈ ts.filterMap Turn.opened? := by
    rw [← hOpened]
    exact List.mem_filterMap.mpr ⟨_, hTold, rfl⟩
  obtain ⟨t, hTurn, hOf⟩ := List.mem_filterMap.mp hMem
  obtain ⟨c, rfl⟩ : ∃ c, t = .opened c s := by
    cases t with
    | opened c s' =>
      cases hOf
      exact ⟨c, rfl⟩
    | _ => cases hOf
  exact ⟨c, h.openFor hNext (List.mem_append_right _ hTurn)⟩

/-- If the first attempt succeeds, and nothing is closed or given up, there is no other attempt. -/
theorem Timely.shared (h : Timely start past) (hConnects : ¬(start.meetAll past).Accepts s)
    (hUndisturbed : Undisturbed start past s) : Shared start past s := by
  induction h with
  | nil h =>
    refine .awaited ?_ (Nat.zero_le 1) fun p hPrefix => ?_
    · change start.outcomes s = []
      rw [outcomes, h.hooksOf]
      rfl
    · obtain rfl := List.prefix_nil.mp hPrefix
      exact h.silent s
  | @concat past o hPast hAdmits hInTime ih =>
    have hNow := hPast.concat hAdmits hInTime
    have hFit := hNow.lived.fit
    have hOnly : ∀ {c}, (start.meetAll (past ++ [o])).OpenFor c s →
        ∀ c', (start.meetAll (past ++ [o])).OpenFor c' s → c' = c :=
      fun hOpen _ => hUndisturbed.only hNow hOpen
    obtain ⟨told, hAffects⟩ := hPast.affects hAdmits hInTime
    have hLived := hPast.lived
    have hUndisturbedThen := hUndisturbed.before hAffects.tells hLived hAdmits
    have hBefore := ih (mt (accepts_meet hLived.sound hAdmits) (meetAll_concat .. ▸ hConnects))
      hUndisturbedThen
    rw [← meetAll_concat] at hAffects
    cases hBefore with
    | awaited hUntold hOnce hSilent =>
      rcases hAffects.first hUndisturbed.succeeds hUntold with hNothing | ⟨view, hTold, hFirst⟩
      · have hStill := (hSilent past List.prefix_rfl).step hAffects hFit hNothing
        have hSame := hAffects.tells.outcomes_of_untold hNothing
        rw [hUntold] at hSame
        refine .awaited hSame ?_ (forall_prefix_concat (P := (·.Silent s)) hSilent hStill)
        have hTally := hNow.tally_begun_le hConnects
        rwa [hSame] at hTally
      · obtain ⟨c, hOpen⟩ := hUndisturbed.connects hLived hAdmits
          (meetAll_concat .. ▸ hAffects.tells) hTold
        have hUses := ((hSilent past List.prefix_rfl).usesOnly c).step hAffects.settles hFit
          (hOnly hOpen)
        refine .connected hOpen hFirst ?_
          (forall_prefix_concat (P := (·.UsesOnly s c))
            (fun p hPrefix => (hSilent p hPrefix).usesOnly c) hUses)
        rw [hUndisturbed.tally_begun hNow hConnects hOpen, hFirst]
        rfl
    | @connected c view hWasOpen hTold hOnce hUses =>
      have hOpen := hUndisturbed.stays hLived hAdmits (meetAll_concat .. ▸ hAffects.tells) hWasOpen
      have hAttached := hUndisturbedThen.attached hPast hWasOpen
      -- Nobody is told of an attempt of a session that has a connection.
      have hSame := hAffects.tells.outcomes_of_untold fun hook hMem =>
        hAffects.unattached s hook hMem c hWasOpen hAttached
      have hStill := (hUses past List.prefix_rfl).step hAffects.settles hFit (hOnly hOpen)
      rw [hTold] at hSame
      refine .connected hOpen hSame ?_ (forall_prefix_concat (P := (·.UsesOnly s c)) hUses hStill)
      rw [hUndisturbed.tally_begun hNow hConnects hOpen, hSame]
      rfl

/-- In every timely run, whatever requests begin at the same time, and whatever breaks or is closed:
every session has at most one connection that it did not give up, and none while an attempt to get
it one is under way, which is the only one. A connection is opened for it only while none is
attached to it, so that those which were opened for it before are closed or given up. Each request
that was not sent yet, of a session that connects, still waits, or fails because its session could
not be connected or was closed as soon as it was, or is passed to the open connection that is
attached to its session then; and no request waits on any other connection. If the first attempt
succeeds, and nothing is closed or given up, there is no other one, and all requests share the one
connection. -/
theorem connection_shared (h : Timely start past) :
    (∀ s, Exclusive start past s) ∧
    (∃ story, (start.meetAll past).Orderly story) ∧
    (∀ o, (start.meetAll past).Admits o → (start.meetAll past).InTime (cuesOf past) o →
      ∃ told, ((start.meetAll past).meet o).notices = (start.meetAll past).notices ++ told ∧
        (∀ s hook, (s, hook) ∈ told → (start.meetAll past).openConnection? s = none) ∧
        (start.meetAll past).Settles told ((start.meetAll past).meet o) ∧
        ∀ story, (start.meetAll past).Orderly story → ∃ ts,
          ((start.meetAll past).meet o).Orderly (story ++ ts) ∧ Successive start past ts) ∧
    ∀ s, ¬(start.meetAll past).Accepts s → Undisturbed start past s → Shared start past s := by
  refine ⟨h.exclusive, h.lived.exists_orderly, fun o hAdmits hInTime => ?_, fun s => h.shared⟩
  obtain ⟨told, hAffects⟩ := h.affects hAdmits hInTime
  exact ⟨told, hAffects.tells.notices,
    fun s hook hMem => h.lived.fit.openConnection?_of_unattached (hAffects.unattached s hook hMem),
    hAffects.settles, fun story => h.successive hAdmits hAffects⟩

/-! ## Two requests -/

section Requests

open Handshake

/-- The client of a relay makes two requests of the middle, which begin at the same time. The first
one connects. -/
def requesting : List Occasion :=
  [.move (.add Relay.sample.contact),
    .move (.route Relay.sample.middle.address (some (.v4 [127, 0, 0, 1] 80))),
    .move (.proxy ⟨Relay.sample.offered, Relay.sample.middle.address⟩ .restricted
      (.application [] false)),
    .move (.request 0 (.ofSeconds 30) 1 [] [(1, .done)] none),
    .move (.request 0 (.ofSeconds 30) 1 [] [(1, .done)] none),
    .move (.event (.begin 0)), .move (.event (.begin 1)),
    .move (.event (.dialled 0 (.ok ⟨0, Relay.sample.counter, true⟩)))] ++
  Relay.sample.middleFrames.map (fun frame => .move (.event (.receive 0 frame)))

/-- Then the second one goes on. -/
def proceeding : Occasion := .move (.event (.proceed 1))

/-- The connection on which a call waits for its response. -/
def awaited? (n : Node) (k : CallId) : Option (SessionId × ConnectionId) := do
  let call ← n.calls.find? k
  match call.stage with
  | .waiting c => some (call.session, c)
  | _ => none

theorem requesting_timely : Timely (create Relay.sample.client) requesting := by
  have hBlank : Timely (create Relay.sample.client) [] := .nil ⟨rfl, rfl, rfl, rfl, rfl, rfl⟩
  have hKnows := hBlank.plain (o := .move (.add Relay.sample.contact)) trivial rfl fun _ _ => nofun
  have hFinds := hKnows.plain
    (o := .move (.route Relay.sample.middle.address (some (.v4 [127, 0, 0, 1] 80)))) trivial rfl
    fun _ _ => nofun
  have hProxy := hFinds.plain
    (o := .move (.proxy ⟨Relay.sample.offered, Relay.sample.middle.address⟩ .restricted
      (.application [] false))) trivial rfl fun _ _ => nofun
  have hFirst := hProxy.plain (o := .move (.request 0 (.ofSeconds 30) 1 [] [(1, .done)] none))
    trivial rfl fun _ _ => nofun
  have hSecond := hFirst.plain (o := .move (.request 0 (.ofSeconds 30) 1 [] [(1, .done)] none))
    trivial rfl fun _ _ => nofun
  have hBegins := hSecond.cued (e := .begin 0) trivial rfl (by decide +kernel)
  have hQueues := hBegins.cued (e := .begin 1) trivial rfl (by decide +kernel)
  have hReaches := hQueues.plain
    (o := .move (.event (.dialled 0 (.ok ⟨0, Relay.sample.counter, true⟩))))
    (Option.not_isSome_iff_eq_none.mp (by decide +kernel)) rfl fun _ _ => nofun
  have hProves := hReaches.plain (o := .move (.event (.receive 0
    (.ok (Parcel.proof (Relay.sample.middle.sign Relay.sample.counter.octets.toList)).body))))
    trivial rfl fun _ _ => nofun
  exact hProves.plain
    (o := .move (.event (.receive 0 (.ok (Serial.encode Relay.sample.issued))))) trivial rfl
    fun _ _ => nofun

/-- The session is connected, and the second request may go on. -/
theorem requesting_attaches :
    let n := (create Relay.sample.client).meetAll requesting
    n.Attached 0 0 ∧ n.Due (cuesOf requesting) (.proceed 1) := by
  decide +kernel

theorem proceeding_timely : Timely (create Relay.sample.client) (requesting ++ [proceeding]) :=
  have hDue := requesting_attaches.2
  requesting_timely.cued hDue.mem_effects rfl hDue

/-- Both requests wait for a response on the one connection, for which one attempt was begun. -/
theorem proceeding_awaits :
    let n := (create Relay.sample.client).meetAll (requesting ++ [proceeding])
    n.awaited? 0 = some (0, 0) ∧ n.awaited? 1 = some (0, 0) ∧
      tally begun? 0 (create Relay.sample.client) (requesting ++ [proceeding]) = 1 ∧
      (n.lineup? 0).map Prod.fst = some true ∧ (n.outcomes 0).map Session.Hook.isFailure = [false] ∧
      n.words.length = 1 ∧ n.words.filterMap Word.connected? = [0] ∧ n.nextCall = 2 := by
  decide +kernel

theorem proceeding_connects :
    ¬((create Relay.sample.client).meetAll (requesting ++ [proceeding])).Accepts 0 := by
  obtain ⟨-, -, -, hProxy, -⟩ := proceeding_awaits
  rintro ⟨holder, ws, hLineup⟩
  rw [hLineup] at hProxy
  cases hProxy

theorem proceeding_undisturbed :
    Undisturbed (create Relay.sample.client) (requesting ++ [proceeding]) 0 := by
  obtain ⟨-, -, -, -, hOutcomes, hLength, hWords, -⟩ := proceeding_awaits
  constructor
  case succeeds =>
    intro hook hHead
    obtain ⟨told, hTold, hSucceeds⟩ := List.map_eq_singleton_iff.mp hOutcomes
    rw [hTold] at hHead
    cases hHead
    exact hSucceeds
  case unclosed =>
    intro reason hMem
    obtain ⟨word, hWord⟩ := List.length_eq_one_iff.mp hLength
    rw [hWord] at hMem hWords
    cases List.mem_singleton.mp hMem
    cases hWords
  case kept => simp [requesting, proceeding]

/-- So they share it. -/
theorem requests_shared : Timely (create Relay.sample.client) (requesting ++ [proceeding]) ∧
    ((create Relay.sample.client).meetAll (requesting ++ [proceeding])).awaited? 0 = some (0, 0) ∧
    ((create Relay.sample.client).meetAll (requesting ++ [proceeding])).awaited? 1 = some (0, 0) ∧
    Shared (create Relay.sample.client) (requesting ++ [proceeding]) 0 :=
  ⟨proceeding_timely, proceeding_awaits.1, proceeding_awaits.2.1,
    (connection_shared proceeding_timely).2.2.2 0 proceeding_connects proceeding_undisturbed⟩

/-! ## A session that is closed while it connects -/

/-- Only one connection is open for a session. -/
def HoldsOne (n : Node) (s : SessionId) : Prop := ∀ c c', n.OpenFor c s → n.OpenFor c' s → c' = c

/-- Somebody closes the session when the first request was sent. Before the connection is closed,
the second request goes on, which connects the session again. -/
def reconnecting : List Occasion :=
  requesting ++ [.unlink 0, proceeding,
    .move (.event (.dialled 1 (.ok ⟨1, Relay.sample.counter, true⟩)))] ++
  Relay.sample.middleFrames.map (fun frame => .move (.event (.receive 1 frame)))

theorem reconnecting_timely : Timely (create Relay.sample.client) reconnecting := by
  have hGivesUp := requesting_timely.plain (o := .unlink 0) trivial rfl fun _ _ => nofun
  have hDue : ((create Relay.sample.client).meetAll (requesting ++ [.unlink 0])).Due
      (cuesOf (requesting ++ [.unlink 0])) (.proceed 1) := by decide +kernel
  have hProceeds := hGivesUp.cued (e := .proceed 1) hDue.mem_effects rfl hDue
  have hReaches := hProceeds.plain
    (o := .move (.event (.dialled 1 (.ok ⟨1, Relay.sample.counter, true⟩))))
    (Option.not_isSome_iff_eq_none.mp (by decide +kernel)) rfl fun _ _ => nofun
  have hProves := hReaches.plain (o := .move (.event (.receive 1
    (.ok (Parcel.proof (Relay.sample.middle.sign Relay.sample.counter.octets.toList)).body))))
    trivial rfl fun _ _ => nofun
  exact hProves.plain
    (o := .move (.event (.receive 1 (.ok (Serial.encode Relay.sample.issued))))) trivial rfl
    fun _ _ => nofun

theorem reconnecting_opens :
    let n := (create Relay.sample.client).meetAll reconnecting
    n.Attached 0 1 ∧ n.OpenFor 0 0 ∧ n.OpenFor 1 0 := by
  decide +kernel

/-- So more than one connection can be open for a session: it is attached to another one while the
one that it was attached to before is open. -/
theorem session_holds_two : ¬((create Relay.sample.client).meetAll reconnecting).HoldsOne 0 := by
  obtain ⟨-, hFirst, hSecond⟩ := reconnecting_opens
  intro hOne
  cases hOne 0 1 hFirst hSecond

/-- When the connection that was given up is closed then, the session keeps the other one. -/
example : let n := ((create Relay.sample.client).meetAll reconnecting).meet (.close 0)
    ¬n.OpenFor 0 0 ∧ n.OpenFor 1 0 ∧ n.openConnection? 0 = some 1 := by
  decide +kernel

/-! ## A request that is too long -/

/-- A request that no frame holds fails when it begins on a connected session, and nothing goes
out. -/
theorem begin_of_large {call : Call} (hCall : n.calls.find? k = some call)
    (hOpen : n.openConnection? call.session = some c) (hTable : (n.table? c).isSome = true)
    (hLarge : Message.maxPayload < call.message.written.length) :
    (n.begin k).effects = n.effects ++ [.finished k (.error (.ofWire
      (.frameTooLarge (min (Message.sizeWith call.message.written.length) Frame.maxHeader)
        Frame.maxSize)))] := by
  obtain ⟨t, hSome⟩ := Option.isSome_iff_exists.mp hTable
  obtain ⟨connection, hConnection, hOutstanding⟩ := Option.bind_eq_some_iff.mp hSome
  have hTooLong : Frame.maxSize < (Serial.encode call.message).length := by
    rw [Message.length_encode, ← Nat.not_le, Message.sizeWith_le_iff]
    exact Nat.not_le_of_gt hLarge
  have hHeld : connection.outstanding.isSome = true := by rw [hOutstanding]; rfl
  rw [begin_of_open hCall hOpen, transmit_of_large hCall hConnection hHeld hTooLong,
    Message.length_encode, finish_of_isSome (by rw [hCall]; rfl)]
  rfl

/-- A request whose payload alone would fill a frame. -/
def oversized : Occasion :=
  .move (.request 0 (.ofSeconds 30) 1 (List.replicate Frame.maxSize 0) [(1, .done)] none)

/-- The first request waits, and the second one goes on. Then the third one is made. -/
def overreaching : List Occasion := requesting ++ [proceeding] ++ [oversized]

theorem overreaching_timely : Timely (create Relay.sample.client) overreaching :=
  proceeding_timely.plain (o := oversized) trivial rfl fun _ _ => nofun

/-- The call that it makes. -/
theorem exists_oversized : ∃ call,
    ((create Relay.sample.client).meetAll overreaching).calls.find? 2 = some call ∧
      call.session = 0 ∧ call.message.written = List.replicate Frame.maxSize 0 := by
  obtain ⟨-, -, -, -, -, -, -, hNext⟩ := proceeding_awaits
  unfold overreaching
  rw [meetAll_concat, ← hNext]
  generalize (create Relay.sample.client).meetAll (requesting ++ [proceeding]) = n
  exact ⟨_, SortedMap.find?_insert_self _ _ _, rfl, rfl⟩

theorem overreaching_spec :
    let n := (create Relay.sample.client).meetAll overreaching
    n.openConnection? 0 = some 0 ∧ (n.table? 0).isSome = true ∧
      n.Due (cuesOf overreaching) (.start 2) := by
  decide +kernel

theorem sizeWith_maxSize : min (Message.sizeWith Frame.maxSize) Frame.maxHeader = 16777231 := by
  decide +kernel

theorem oversized_unsent :
    (((create Relay.sample.client).meetAll overreaching).begin 2).effects =
      ((create Relay.sample.client).meetAll overreaching).effects ++
        [.finished 2 (.error (.ofWire (.frameTooLarge 16777231 Frame.maxSize)))] := by
  obtain ⟨call, hCall, hSession, hWritten⟩ := exists_oversized
  obtain ⟨hOpen, hTable, -⟩ := overreaching_spec
  have hLength : call.message.written.length = Frame.maxSize := by
    rw [hWritten, List.length_replicate]
  have hLarge : Message.maxPayload < call.message.written.length := by
    rw [hLength]
    decide
  have hBegun := begin_of_large hCall (by rw [hSession]; exact hOpen) hTable hLarge
  rw [hLength, sizeWith_maxSize] at hBegun
  exact hBegun

/-- A session is attached to a connection while another one is open that it was attached to before,
and a request that begins on a connected session fails and is not sent. -/
theorem holds_two_and_sends_none :
    Timely (create Relay.sample.client) reconnecting ∧
      ((create Relay.sample.client).meetAll requesting).Attached 0 0 ∧
      ((create Relay.sample.client).meetAll reconnecting).Attached 0 1 ∧
      ¬((create Relay.sample.client).meetAll reconnecting).HoldsOne 0 ∧
      Timely (create Relay.sample.client) (overreaching ++ [.move (.event (.begin 2))]) ∧
      ((create Relay.sample.client).meetAll overreaching).openConnection? 0 = some 0 ∧
      (((create Relay.sample.client).meetAll overreaching).begin 2).effects =
        ((create Relay.sample.client).meetAll overreaching).effects ++
          [.finished 2 (.error (.ofWire (.frameTooLarge 16777231 Frame.maxSize)))] :=
  have hDue := overreaching_spec.2.2
  ⟨reconnecting_timely, requesting_attaches.1, reconnecting_opens.1, session_holds_two,
    overreaching_timely.cued (e := .begin 2) trivial rfl hDue, overreaching_spec.1,
    oversized_unsent⟩

end Requests

end PeerServices.Node
