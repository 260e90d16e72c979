import PeerServices.Proofs.Node.Calm

/-!
# One call at a time

A session that connects has one call that does that, and the others wait for it in order. In a
timely run this is so at every time: an attempt to connect is made by the call that holds its
session, it goes on only while no open connection is attached to that session, and a call whose
request was not sent yet is ended by nobody else.

* `Node.Attempts`: a call connects its session. `Node.Holds`, `Node.Queued`: it is the one that does
  so, or it waits.
* `Node.Paced`: the invariant. `Node.Locked` is its part about attempts, `Node.Lined` the one about
  calls that wait or are called upon, `Node.Tracked` the one about what calls there are.
* `Node.Locked.mono`, `Node.Lined.mono`, `Node.Tracked.mono`: what each part depends on.
* `Node.Free`: a call that nobody will call upon, so that it can go on or end.
* `Node.Suits`, `Node.Seats`: what a call may become, and what a session may become.
* `Node.Paced.calm`, `Node.Paced.recall`, `Node.Paced.relineup`: what keeps the invariant.
-/

namespace PeerServices.Node

variable {n n' : Node} {c : ConnectionId} {s : SessionId} {k : CallId} {taken : List Cue}
  {told : List (SessionId × Session.Hook)}

/-- A call of a session is this far. -/
def CallAt (n : Node) (k : CallId) (s : SessionId) (stage : Call.Stage) : Prop :=
  ∃ call, n.calls.find? k = some call ∧ call.session = s ∧ call.stage = stage

/-- A call reaches for the host of its session. -/
def Dialling (n : Node) (s : SessionId) (k : CallId) : Prop :=
  ∃ attempts socket, n.CallAt k s (.dialling attempts socket)

/-- A call connects its session: it reaches for the host, or the handshake is under way. -/
def Attempts (n : Node) (s : SessionId) (k : CallId) : Prop :=
  n.Dialling s k ∨ ∃ c, n.handshake? c = some (s, some k)

/-- An attempt to connect is under way for a session: a call reaches for the host, or there is a
handshake. -/
def Trying (n : Node) (s : SessionId) : Prop :=
  (∃ k, n.Dialling s k) ∨ ∃ c k?, n.handshake? c = some (s, k?)

/-- A session connects, and this is the call that does so. -/
def Holds (n : Node) (s : SessionId) (k : CallId) : Prop :=
  ∃ ws, n.lineup? s = some (true, some k, ws)

/-- A session connects, and this call waits for the one that does so. -/
def Queued (n : Node) (s : SessionId) (k : CallId) : Prop :=
  ∃ holder ws, n.lineup? s = some (true, holder, ws) ∧ k ∈ ws

/-- A session does not connect: it accepts its connection. -/
def Accepts (n : Node) (s : SessionId) : Prop := ∃ holder ws, n.lineup? s = some (false, holder, ws)

/-- No open connection is attached to a session. -/
def Unattached (n : Node) (s : SessionId) : Prop := ∀ c, n.OpenFor c s → ¬n.Attached s c

/-- Somebody will call upon a call, or a call waits for that. -/
def Called (n : Node) (taken : List Cue) (k : CallId) : Prop :=
  n.Due taken (.start k) ∨ n.Due taken (.proceed k) ∨ ∃ s, n.Queued s k

/-- Each attempt is made by the call that holds its session, or by the one handshake of a session
that accepts, while no open connection is attached. -/
structure Locked (n : Node) : Prop where
  lock : ∀ s k, n.Attempts s k → n.Holds s k ∧ n.Unattached s
  reached : ∀ c s k, n.handshake? c = some (s, some k) → n.CallAt k s .reached
  serving : ∀ c s, n.handshake? c = some (s, none) → n.Accepts s ∧ n.Unattached s
  single : ∀ c c' p, n.handshake? c = some p → n.handshake? c' = some p → c' = c

/-- Whoever is called upon has not begun, and is called upon once. -/
structure Lined (n : Node) (taken : List Cue) : Prop where
  starts : ∀ k, n.Due taken (.start k) →
    ∃ s, n.CallAt k s .pending ∧ ¬n.Holds s k ∧ ¬n.Queued s k
  proceeds : ∀ k, n.Due taken (.proceed k) → ∃ s, n.CallAt k s .pending ∧ n.Holds s k
  queue : ∀ s k, n.Queued s k → n.CallAt k s .pending ∧ ¬n.Holds s k
  line : ∀ s holder ws, n.lineup? s = some (true, holder, ws) → ws.Nodup
  once : ∀ q, n.cues.count q ≤ taken.count q + 1

/-- The numbers of calls and sessions that are known are taken, and responses are for calls that
were sent. -/
structure Tracked (n : Node) : Prop where
  holder : ∀ s k, n.Holds s k → k < n.nextCall
  targets : ∀ k, n.Targeted k → k < n.nextCall ∧ ((n.calls.find? k).isSome = true → n.IsSent k)
  own : ∀ k call l j, n.calls.find? k = some call → l ∈ call.listeners →
    l.target.call? = some j → j = k
  calls : ∀ k, (n.calls.find? k).isSome = true → k < n.nextCall
  sessions : ∀ s, (n.sessions.find? s).isSome = true → s < n.nextSession

/-- What holds at every time of a timely run, once some cues were taken. -/
structure Paced (n : Node) (taken : List Cue) : Prop extends Locked n, Lined n taken, Tracked n

/-! ## What follows -/

theorem CallAt.isSome {stage : Call.Stage} (h : n.CallAt k s stage) :
    (n.calls.find? k).isSome = true := by
  obtain ⟨call, hCall, -⟩ := h
  rw [hCall]
  rfl

theorem CallAt.unique {s' : SessionId} {stage stage' : Call.Stage} (h : n.CallAt k s stage)
    (h' : n.CallAt k s' stage') : s' = s ∧ stage' = stage := by
  obtain ⟨call, hCall, rfl, rfl⟩ := h
  obtain ⟨call', hCall', rfl, rfl⟩ := h'
  obtain rfl := Option.some.inj (hCall.symm.trans hCall')
  exact ⟨rfl, rfl⟩

theorem CallAt.not_sent {stage : Call.Stage} (h : n.CallAt k s stage)
    (hStage : ∀ c, stage ≠ .waiting c) : ¬n.IsSent k := by
  rintro ⟨call, c, hCall, hWaiting⟩
  obtain ⟨-, rfl⟩ := h.unique ⟨call, hCall, rfl, rfl⟩
  exact hStage c hWaiting

theorem Holds.unique {k' : CallId} (h : n.Holds s k) (h' : n.Holds s k') : k' = k := by
  obtain ⟨ws, hLineup⟩ := h
  obtain ⟨ws', hLineup'⟩ := h'
  cases hLineup.symm.trans hLineup'
  rfl

theorem Attempts.trying (h : n.Attempts s k) : n.Trying s :=
  h.imp (fun hDialling => ⟨k, hDialling⟩) fun ⟨c, hHandshake⟩ => ⟨c, some k, hHandshake⟩

theorem lineup?_isSome : (n.lineup? s).isSome = (n.sessions.find? s).isSome := Option.isSome_map

/-- A call that is exposed was sent, if it has not ended. -/
theorem Tracked.not_exposed (h : n.Tracked) {stage : Call.Stage} (hAt : n.CallAt k s stage)
    (hStage : ∀ c, stage ≠ .waiting c) : ¬n.Exposed k := by
  rintro (hTargeted | hSent)
  · exact hAt.not_sent hStage ((h.targets k hTargeted).2 hAt.isSome)
  · exact hAt.not_sent hStage hSent

/-- Nobody but the holder connects a session. -/
theorem Locked.holder_of_attempts (h : n.Locked) {k' : CallId} (hHolds : n.Holds s k)
    (hAttempts : n.Attempts s k') : k' = k := hHolds.unique (h.lock s k' hAttempts).1

/-- Who is connected is not connected once more. -/
theorem Locked.unattached_of_trying (h : n.Locked) (hTrying : n.Trying s) : n.Unattached s := by
  rcases hTrying with ⟨k, hDialling⟩ | ⟨c, k?, hHandshake⟩
  · exact (h.lock s k (.inl hDialling)).2
  · cases k? with
    | none => exact (h.serving c s hHandshake).2
    | some k => exact (h.lock s k (.inr ⟨c, hHandshake⟩)).2

section Session

variable {session : Session} (h : n.sessions.find? s = some session)
include h

theorem lineup?_of_session : n.lineup? s = some session.lineup := by
  rw [lineup?, h, Option.map_some]

theorem holds_iff : n.Holds s k ↔ session.isProxy = true ∧ session.connecting = some k := by
  simp [Holds, lineup?_of_session h, Session.lineup]

theorem queued_iff : n.Queued s k ↔ session.isProxy = true ∧ k ∈ session.waiters := by
  simp [Queued, lineup?_of_session h, Session.lineup, and_assoc]

theorem accepts_iff : n.Accepts s ↔ session.isProxy = false := by
  simp [Accepts, lineup?_of_session h, Session.lineup]

theorem find?_modifySession_of_session (f : Session → Session) :
    (n.modifySession s f).sessions.find? s = some (f session) := by
  rw [find?_modifySession_self, h, Option.map_some]

end Session

/-! ## What they depend on -/

theorem callAt_congr (h : n'.calls.find? k = n.calls.find? k) {stage : Call.Stage} :
    n'.CallAt k s stage ↔ n.CallAt k s stage := by
  rw [CallAt, h, CallAt]

theorem holds_congr (h : n'.lineup? s = n.lineup? s) : n'.Holds s k ↔ n.Holds s k := by
  rw [Holds, h, Holds]

theorem queued_congr (h : n'.lineup? s = n.lineup? s) : n'.Queued s k ↔ n.Queued s k := by
  rw [Queued, h, Queued]

theorem accepts_congr (h : n'.lineup? s = n.lineup? s) : n'.Accepts s ↔ n.Accepts s := by
  rw [Accepts, h, Accepts]

theorem due_congr (h : n'.cues = n.cues) {q : Cue} : n'.Due taken q ↔ n.Due taken q := by
  rw [Due, h, Due]

theorem Unattached.mono (h : n.Unattached s) (hOpenFor : ∀ c, n'.OpenFor c s → n.OpenFor c s)
    (hAttached : ∀ c, n'.OpenFor c s → n'.Attached s c → n.Attached s c) : n'.Unattached s :=
  fun c hOpen hLinked => h c (hOpenFor c hOpen) (hAttached c hOpen hLinked)

/-- No handshake begins, and whoever reaches for a host did so before, or may. -/
theorem Locked.mono (h : n.Locked)
    (hHandshake : ∀ c p, n'.handshake? c = some p → n.handshake? c = some p)
    (hDialling : ∀ s k, n'.Dialling s k → n.Dialling s k ∨ (n.Holds s k ∧ n.Unattached s))
    (hReached : ∀ c s k, n'.handshake? c = some (s, some k) → n.CallAt k s .reached →
      n'.CallAt k s .reached)
    (hHolds : ∀ s k, n'.Attempts s k → n.Holds s k → n'.Holds s k)
    (hAccepts : ∀ s, n.Accepts s → n'.Accepts s)
    (hUnattached : ∀ s, n'.Trying s → n.Unattached s → n'.Unattached s) : n'.Locked where
  lock s k hAttempts := by
    have hBefore : n.Holds s k ∧ n.Unattached s := by
      rcases hAttempts with hDials | ⟨c, hShakes⟩
      · exact (hDialling s k hDials).elim (fun hDialled => h.lock s k (.inl hDialled)) id
      · exact h.lock s k (.inr ⟨c, hHandshake c _ hShakes⟩)
    exact ⟨hHolds s k hAttempts hBefore.1, hUnattached s hAttempts.trying hBefore.2⟩
  reached c s k hShakes := hReached c s k hShakes (h.reached c s k (hHandshake c _ hShakes))
  serving c s hShakes := by
    obtain ⟨hServes, hNone⟩ := h.serving c s (hHandshake c _ hShakes)
    exact ⟨hAccepts s hServes, hUnattached s (.inr ⟨c, none, hShakes⟩) hNone⟩
  single c c' p hShakes hShakes' :=
    h.single c c' p (hHandshake c p hShakes) (hHandshake c' p hShakes')

/-- Who holds a session and who waits for that is as before, and no call begins that is called
upon. -/
theorem Lined.mono (h : n.Lined taken) (hLineup : ∀ s, n'.lineup? s = n.lineup? s)
    (hCues : n'.cues = n.cues)
    (hPending : ∀ s k, n.Called taken k → n.CallAt k s .pending → n'.CallAt k s .pending) :
    n'.Lined taken where
  starts k hDue := by
    have hBefore := (due_congr hCues).mp hDue
    obtain ⟨s, hAt, hNotHolder, hUnqueued⟩ := h.starts k hBefore
    exact ⟨s, hPending s k (.inl hBefore) hAt, mt (holds_congr (hLineup s)).mp hNotHolder,
      mt (queued_congr (hLineup s)).mp hUnqueued⟩
  proceeds k hDue := by
    have hBefore := (due_congr hCues).mp hDue
    obtain ⟨s, hAt, hHolds⟩ := h.proceeds k hBefore
    exact ⟨s, hPending s k (.inr (.inl hBefore)) hAt, (holds_congr (hLineup s)).mpr hHolds⟩
  queue s k hQueued := by
    have hBefore := (queued_congr (hLineup s)).mp hQueued
    obtain ⟨hAt, hNotHolder⟩ := h.queue s k hBefore
    exact ⟨hPending s k (.inr (.inr ⟨s, hBefore⟩)) hAt, mt (holds_congr (hLineup s)).mp hNotHolder⟩
  line s holder ws hSome := h.line s holder ws ((hLineup s).symm.trans hSome)
  once q := hCues ▸ h.once q

/-- No call and no session is made, and whoever can be given a response was exposed. -/
theorem Tracked.mono (h : n.Tracked) (hLineup : ∀ s, n'.lineup? s = n.lineup? s)
    (hCalls : ∀ k call, n'.calls.find? k = some call → n.calls.find? k = some call)
    (hTargeted : ∀ k, n'.Targeted k → n.Exposed k) (hCall : n.nextCall ≤ n'.nextCall)
    (hSession : n'.nextSession = n.nextSession) : n'.Tracked where
  holder s k hHolds :=
    Nat.lt_of_lt_of_le (h.holder s k ((holds_congr (hLineup s)).mp hHolds)) hCall
  targets k hAfter := by
    -- Whoever was exposed was sent, if it is there.
    have hBefore : k < n.nextCall ∧ ((n.calls.find? k).isSome = true → n.IsSent k) := by
      rcases hTargeted k hAfter with hTargeted | hSent
      · exact h.targets k hTargeted
      · obtain ⟨call, c, hFind, -⟩ := id hSent
        exact ⟨h.calls k (by rw [hFind]; rfl), fun _ => hSent⟩
    refine ⟨Nat.lt_of_lt_of_le hBefore.1 hCall, fun hSome => ?_⟩
    obtain ⟨call, hFind⟩ := Option.isSome_iff_exists.mp hSome
    obtain ⟨call', c, hFind', hStage⟩ := hBefore.2 (by rw [hCalls k call hFind]; rfl)
    obtain rfl := Option.some.inj ((hCalls k call hFind).symm.trans hFind')
    exact ⟨call, c, hFind, hStage⟩
  own k call l j hFind := h.own k call l j (hCalls k call hFind)
  calls k hSome := by
    obtain ⟨call, hFind⟩ := Option.isSome_iff_exists.mp hSome
    exact Nat.lt_of_lt_of_le (h.calls k (by rw [hCalls k call hFind]; rfl)) hCall
  sessions s hSome := by
    rw [hSession]
    apply h.sessions s
    rwa [← lineup?_isSome, ← hLineup, lineup?_isSome]

/-! ## Cues -/

/-- Cues may be taken. -/
theorem Paced.take (h : n.Paced taken) (more : List Cue) : n.Paced (taken ++ more) where
  toLocked := h.toLocked
  starts k hDue := h.starts k hDue.of_append
  proceeds k hDue := h.proceeds k hDue.of_append
  queue := h.queue
  line := h.line
  once q := by
    rw [List.count_append]
    exact Nat.le_trans (h.once q) (Nat.succ_le_succ (Nat.le_add_right _ _))
  toTracked := h.toTracked

/-- Nobody will call upon a call: it does not wait for another one, no cue for it is due, and no
handshake is under way for it. -/
structure Free (n : Node) (taken : List Cue) (k : CallId) : Prop where
  unqueued : ∀ s, ¬n.Queued s k
  start : ¬n.Due taken (.start k)
  proceed : ¬n.Due taken (.proceed k)
  idle : ∀ c s, n.handshake? c ≠ some (s, some k)

/-- A call that has begun, and has no handshake under way. -/
theorem Paced.free_of_begun (h : n.Paced taken) {stage : Call.Stage} (hAt : n.CallAt k s stage)
    (hBegun : stage ≠ .pending) (hIdle : ∀ c s, n.handshake? c ≠ some (s, some k)) :
    n.Free taken k where
  unqueued s' hQueued := hBegun ((h.queue s' k hQueued).1.unique hAt).2
  start hDue := by
    obtain ⟨s', hPending, -⟩ := h.starts k hDue
    exact hBegun (hPending.unique hAt).2
  proceed hDue := by
    obtain ⟨s', hPending, -⟩ := h.proceeds k hDue
    exact hBegun (hPending.unique hAt).2
  idle := hIdle

/-- A call that did not reach its host has no handshake under way. -/
theorem Paced.idle_of_unreached (h : n.Paced taken) {stage : Call.Stage} (hAt : n.CallAt k s stage)
    (hStage : stage ≠ .reached) (c : ConnectionId) (s' : SessionId) :
    n.handshake? c ≠ some (s', some k) := fun hHandshake =>
  hStage ((h.reached c s' k hHandshake).unique hAt).2

/-- A call that begins is free, and its session is not its own yet. -/
theorem Paced.free_of_start (h : n.Paced taken) (hDue : n.Due taken (.start k)) :
    n.Free (taken ++ [.start k]) k ∧ ∃ s, n.CallAt k s .pending ∧ ¬n.Holds s k := by
  obtain ⟨s, hAt, hNotHolder, hUnqueued⟩ := h.starts k hDue
  refine ⟨⟨fun s' hQueued => ?_, not_due_taken (h.once _), fun hProceed => ?_,
    h.idle_of_unreached hAt nofun⟩, s, hAt, hNotHolder⟩
  · obtain ⟨rfl, -⟩ := hAt.unique (h.queue s' k hQueued).1
    exact hUnqueued hQueued
  · obtain ⟨s', hAt', hHolds⟩ := h.proceeds k hProceed.of_append
    obtain ⟨rfl, -⟩ := hAt.unique hAt'
    exact hNotHolder hHolds

/-- A call that goes on after another one is free, and holds its session. -/
theorem Paced.free_of_proceed (h : n.Paced taken) (hDue : n.Due taken (.proceed k)) :
    n.Free (taken ++ [.proceed k]) k ∧ ∃ s, n.CallAt k s .pending ∧ n.Holds s k := by
  obtain ⟨s, hAt, hHolds⟩ := h.proceeds k hDue
  refine ⟨⟨fun s' hQueued => ?_, fun hStart => ?_, not_due_taken (h.once _),
    h.idle_of_unreached hAt nofun⟩, s, hAt, hHolds⟩
  · obtain ⟨hAt', hNotHolder⟩ := h.queue s' k hQueued
    obtain ⟨rfl, -⟩ := hAt.unique hAt'
    exact hNotHolder hHolds
  · obtain ⟨s', hAt', hNotHolder, -⟩ := h.starts k hStart.of_append
    obtain ⟨rfl, -⟩ := hAt.unique hAt'
    exact hNotHolder hHolds

theorem Free.not_called (h : n.Free taken k) : ¬n.Called taken k := by
  rintro (hStart | hProceed | ⟨s, hQueued⟩)
  · exact h.start hStart
  · exact h.proceed hProceed
  · exact h.unqueued s hQueued

/-! ## Calm steps -/

/-- A call that was not sent is as it was. -/
theorem Paced.find?_of_calm (h : n.Paced taken) (hCalm : n.Calm told n') {call : Call}
    (hCall : n.calls.find? k = some call) (hUnsent : ∀ c, call.stage ≠ .waiting c) :
    n'.calls.find? k = some call := by
  rcases hCalm.ended k call hCall with hStill | hExposed
  · exact hStill
  · exact absurd hExposed (h.not_exposed ⟨call, hCall, rfl, rfl⟩ hUnsent)

theorem Paced.callAt_of_calm (h : n.Paced taken) (hCalm : n.Calm told n') {stage : Call.Stage}
    (hAt : n.CallAt k s stage) (hUnsent : ∀ c, stage ≠ .waiting c) : n'.CallAt k s stage := by
  obtain ⟨call, hCall, hSession, rfl⟩ := hAt
  exact ⟨call, h.find?_of_calm hCalm hCall hUnsent, hSession, rfl⟩

theorem Calm.callAt (h : n.Calm told n') {stage : Call.Stage} (hAt : n'.CallAt k s stage) :
    n.CallAt k s stage := by
  obtain ⟨call, hCall, hOf⟩ := hAt
  exact ⟨call, h.calls k call hCall, hOf⟩

theorem Calm.holds (h : n.Calm told n') : n'.Holds s k ↔ n.Holds s k := holds_congr (h.lineup s)

theorem Calm.accepts (h : n.Calm told n') : n'.Accepts s ↔ n.Accepts s :=
  accepts_congr (h.lineup s)

theorem Calm.unattached (h : n.Calm told n') (hNone : n.Unattached s) : n'.Unattached s :=
  hNone.mono (fun c => h.openFor c s) fun c hOpen => (h.attached c s hOpen).mp

theorem Calm.dialling (h : n.Calm told n') (hDialling : n'.Dialling s k) : n.Dialling s k :=
  hDialling.imp fun _ => Exists.imp fun _ => h.callAt

theorem Calm.free (hCalm : n.Calm told n') (hFree : n.Free taken k) : n'.Free taken k where
  unqueued s hQueued := hFree.unqueued s ((queued_congr (hCalm.lineup s)).mp hQueued)
  start hDue := hFree.start ((due_congr hCalm.cues).mp hDue)
  proceed hDue := hFree.proceed ((due_congr hCalm.cues).mp hDue)
  idle c s := by
    rw [hCalm.handshake]
    exact hFree.idle c s

theorem Paced.calm (h : n.Paced taken) (hCalm : n.Calm told n') : n'.Paced taken where
  toLocked := h.toLocked.mono (fun c _ hSome => (hCalm.handshake c).symm.trans hSome)
    (fun _ _ hDialling => .inl (hCalm.dialling hDialling))
    (fun _ _ _ _ hAt => h.callAt_of_calm hCalm hAt fun _ => nofun)
    (fun _ _ _ => hCalm.holds.mpr) (fun _ => hCalm.accepts.mpr) fun _ _ => hCalm.unattached
  toLined := h.toLined.mono hCalm.lineup hCalm.cues fun _ _ _ hAt =>
    h.callAt_of_calm hCalm hAt fun _ => nofun
  toTracked := h.toTracked.mono hCalm.lineup hCalm.calls hCalm.targeted hCalm.nextCall
    hCalm.nextSession

/-! ## Calls -/

/-- A call of this number may be this one: it gets its responses itself, it was sent if somebody has
one for it, and it reaches for a host only on behalf of the session that it holds. -/
structure Suits (n : Node) (k : CallId) (call : Call) : Prop where
  own : ∀ l ∈ call.listeners, ∀ j, l.target.call? = some j → j = k
  sent : n.Targeted k → ∃ c, call.stage = .waiting c
  lock : ∀ attempts socket, call.stage = .dialling attempts socket →
    n.Holds call.session k ∧ n.Unattached call.session

section Recall

variable {calls : SortedMap CallId Call} {next : CallId}
  (hOthers : ∀ j, j ≠ k → calls.find? j = n.calls.find? j)
include hOthers

theorem Locked.recall (h : n.Locked) (hIdle : ∀ c s, n.handshake? c ≠ some (s, some k))
    (hSuits : ∀ call, calls.find? k = some call → n.Suits k call) :
    ({ n with calls, nextCall := next } : Node).Locked := by
  refine h.mono (fun _ _ => id) (fun s j hDialling => ?_) (fun c s j hHandshake hAt => ?_)
    (fun _ _ _ => id) (fun _ => id) fun _ _ => id
  · obtain ⟨attempts, socket, hAt⟩ := hDialling
    by_cases hj : j = k
    · subst hj
      obtain ⟨call, hFind, rfl, hStage⟩ := hAt
      exact .inr ((hSuits call hFind).lock attempts socket hStage)
    · exact .inl ⟨attempts, socket, (callAt_congr (hOthers j hj)).mp hAt⟩
  · have hj : j ≠ k := by
      rintro rfl
      exact hIdle c s hHandshake
    exact (callAt_congr (hOthers j hj)).mpr hAt

theorem Lined.recall (h : n.Lined taken) (hUncalled : ¬n.Called taken k) :
    ({ n with calls, nextCall := next } : Node).Lined taken := by
  refine h.mono (fun _ => rfl) rfl fun s j hCalled hAt => ?_
  have hj : j ≠ k := by
    rintro rfl
    exact hUncalled hCalled
  exact (callAt_congr (hOthers j hj)).mpr hAt

theorem Tracked.recall (h : n.Tracked) (hNext : n.nextCall ≤ next)
    (hSuits : ∀ call, calls.find? k = some call → n.Suits k call)
    (hLate : (calls.find? k).isSome = true → k < next) :
    ({ n with calls, nextCall := next } : Node).Tracked where
  holder s j hHolds := Nat.lt_of_lt_of_le (h.holder s j hHolds) hNext
  targets j hTarget := by
    have hBefore : n.Targeted j :=
      hTarget.of_same rfl (List.append_nil _).symm (List.forall_mem_nil _)
    obtain ⟨hMade, hSent⟩ := h.targets j hBefore
    refine ⟨Nat.lt_of_lt_of_le hMade hNext, fun hSome => ?_⟩
    by_cases hj : j = k
    · subst hj
      obtain ⟨call, hFind⟩ := Option.isSome_iff_exists.mp hSome
      obtain ⟨c, hStage⟩ := (hSuits call hFind).sent hBefore
      exact ⟨call, c, hFind, hStage⟩
    · obtain ⟨call, c, hFind, hStage⟩ := hSent (hOthers j hj ▸ hSome)
      exact ⟨call, c, (hOthers j hj).trans hFind, hStage⟩
  own j call l i hFind hMem hTarget := by
    by_cases hj : j = k
    · subst hj
      exact (hSuits call hFind).own l hMem i hTarget
    · exact h.own j call l i ((hOthers j hj).symm.trans hFind) hMem hTarget
  calls j hSome := by
    by_cases hj : j = k
    · subst hj
      exact hLate hSome
    · exact Nat.lt_of_lt_of_le (h.calls j (hOthers j hj ▸ hSome)) hNext
  sessions := h.sessions

/-- A free call may change in any way that suits it. -/
theorem Paced.recall (h : n.Paced taken) (hFree : n.Free taken k) (hNext : n.nextCall ≤ next)
    (hSuits : ∀ call, calls.find? k = some call → n.Suits k call)
    (hLate : (calls.find? k).isSome = true → k < next) :
    ({ n with calls, nextCall := next } : Node).Paced taken where
  toLocked := h.toLocked.recall hOthers hFree.idle hSuits
  toLined := h.toLined.recall hOthers hFree.not_called
  toTracked := h.toTracked.recall hOthers hNext hSuits hLate

end Recall

/-- A free call that was not sent goes on. -/
theorem Paced.restage (h : n.Paced taken) (hFree : n.Free taken k) {old stage : Call.Stage}
    (hAt : n.CallAt k s old) (hUnsent : ∀ c, old ≠ .waiting c)
    (hDialling : ∀ attempts socket, stage = .dialling attempts socket →
      n.Holds s k ∧ n.Unattached s) :
    (n.modifyCall k fun call => { call with stage }).Paced taken := by
  have hUnexposed := h.not_exposed hAt hUnsent
  obtain ⟨call, hFind, rfl, -⟩ := hAt
  refine h.recall (fun j hj => SortedMap.find?_modify_of_ne hj _ _) hFree (Nat.le_refl _) ?_
    fun _ => h.calls k (by rw [hFind]; rfl)
  intro new hNew
  rw [SortedMap.find?_modify_self, hFind] at hNew
  cases hNew
  exact ⟨fun l hMem j => h.own k call l j hFind hMem,
    fun hTargeted => absurd (.inl hTargeted) hUnexposed, hDialling⟩

/-! ## Who connects and who waits -/

theorem Paced.not_due_of_queued (h : n.Paced taken) (hQueued : n.Queued s k) :
    ¬n.Due taken (.start k) ∧ ¬n.Due taken (.proceed k) := by
  obtain ⟨hAt, hNotHolder⟩ := h.queue s k hQueued
  refine ⟨fun hDue => ?_, fun hDue => ?_⟩
  · obtain ⟨s', hAt', -, hUnqueued⟩ := h.starts k hDue
    obtain ⟨rfl, -⟩ := hAt.unique hAt'
    exact hUnqueued hQueued
  · obtain ⟨s', hAt', hHolds⟩ := h.proceeds k hDue
    obtain ⟨rfl, -⟩ := hAt.unique hAt'
    exact hNotHolder hHolds

/-- A session may be like this from now on: nobody is taken out of an attempt, and nobody is called
upon twice. -/
structure Seats (n : Node) (taken : List Cue) (s : SessionId) (new : Session) : Prop where
  serving : n.Accepts s → new.isProxy = false
  holder : ∀ k, new.isProxy = true → new.connecting = some k → k < n.nextCall
  lock : ∀ k, n.Attempts s k → new.isProxy = true ∧ new.connecting = some k
  proceeds : ∀ k, n.Due taken (.proceed k) → n.Holds s k →
    new.isProxy = true ∧ new.connecting = some k
  starts : ∀ k, n.Due taken (.start k) → n.CallAt k s .pending →
    new.connecting ≠ some k ∧ k ∉ new.waiters
  waits : ∀ k ∈ new.waiters, n.CallAt k s .pending ∧ new.connecting ≠ some k
  nodup : new.waiters.Nodup

/-- A node with other sessions. -/
def withSessions (n : Node) (sessions : SortedMap SessionId Session) (next : SessionId) : Node :=
  { n with sessions, nextSession := next }

section Relineup

variable {sessions : SortedMap SessionId Session} {next : SessionId} {new : Session}
  (hOthers : ∀ s', s' ≠ s → (n.withSessions sessions next).lineup? s' = n.lineup? s')
  (hNew : (n.withSessions sessions next).sessions.find? s = some new) (hSeats : n.Seats taken s new)
include hOthers hNew hSeats

theorem Locked.relineup (h : n.Locked)
    (hUnattached : ∀ s', n.Unattached s' →
      (n.withSessions sessions next).Unattached s') :
    (n.withSessions sessions next).Locked := by
  refine h.mono (fun _ _ => id) (fun _ _ => .inl) (fun _ _ _ _ => id)
    (fun s' k hAttempts hHolds => ?_) (fun s' hAccepts => ?_) fun s' _ => hUnattached s'
  · by_cases hs : s' = s
    · subst hs
      exact (holds_iff hNew).mpr (hSeats.lock k hAttempts)
    · exact (holds_congr (hOthers s' hs)).mpr hHolds
  · by_cases hs : s' = s
    · subst hs
      exact (accepts_iff hNew).mpr (hSeats.serving hAccepts)
    · exact (accepts_congr (hOthers s' hs)).mpr hAccepts

theorem Lined.relineup (h : n.Lined taken) :
    (n.withSessions sessions next).Lined taken where
  starts k hDue := by
    obtain ⟨s', hAt, hNotHolder, hUnqueued⟩ := h.starts k hDue
    refine ⟨s', hAt, ?_⟩
    by_cases hs : s' = s
    · subst hs
      obtain ⟨hOther, hNotIn⟩ := hSeats.starts k hDue hAt
      exact ⟨fun hHolds => hOther ((holds_iff hNew).mp hHolds).2,
        fun hQueued => hNotIn ((queued_iff hNew).mp hQueued).2⟩
    · exact ⟨mt (holds_congr (hOthers s' hs)).mp hNotHolder,
        mt (queued_congr (hOthers s' hs)).mp hUnqueued⟩
  proceeds k hDue := by
    obtain ⟨s', hAt, hHolds⟩ := h.proceeds k hDue
    refine ⟨s', hAt, ?_⟩
    by_cases hs : s' = s
    · subst hs
      exact (holds_iff hNew).mpr (hSeats.proceeds k hDue hHolds)
    · exact (holds_congr (hOthers s' hs)).mpr hHolds
  queue s' k hQueued := by
    by_cases hs : s' = s
    · subst hs
      obtain ⟨hAt, hOther⟩ := hSeats.waits k ((queued_iff hNew).mp hQueued).2
      exact ⟨hAt, fun hHolds => hOther ((holds_iff hNew).mp hHolds).2⟩
    · obtain ⟨hAt, hNotHolder⟩ := h.queue s' k ((queued_congr (hOthers s' hs)).mp hQueued)
      exact ⟨hAt, mt (holds_congr (hOthers s' hs)).mp hNotHolder⟩
  line s' holder ws hSome := by
    by_cases hs : s' = s
    · subst hs
      have hSame : new.waiters = ws :=
        congrArg (·.2.2) (Option.some.inj ((lineup?_of_session hNew).symm.trans hSome))
      exact hSame ▸ hSeats.nodup
    · exact h.line s' holder ws ((hOthers s' hs).symm.trans hSome)
  once := h.once

theorem Tracked.relineup (h : n.Tracked)
    (hNext : ∀ s', (sessions.find? s').isSome = true → s' < next) :
    (n.withSessions sessions next).Tracked where
  holder s' k hHolds := by
    by_cases hs : s' = s
    · subst hs
      obtain ⟨hProxy, hHolder⟩ := (holds_iff hNew).mp hHolds
      exact hSeats.holder k hProxy hHolder
    · exact h.holder s' k ((holds_congr (hOthers s' hs)).mp hHolds)
  targets k hTargeted :=
    h.targets k (hTargeted.of_same rfl (List.append_nil _).symm (List.forall_mem_nil _))
  own := h.own
  calls := h.calls
  sessions := hNext

/-- A session may be as the node seats it, if it refers to no other connection then. -/
theorem Paced.relineup (h : n.Paced taken)
    (hAttached : ∀ c s', (n.withSessions sessions next).Attached s' c →
      n.Attached s' c)
    (hNext : ∀ s', (sessions.find? s').isSome = true → s' < next) :
    (n.withSessions sessions next).Paced taken where
  toLocked := h.toLocked.relineup hOthers hNew hSeats fun s' hNone =>
    hNone.mono (fun _ => id) fun c _ => hAttached c s'
  toLined := h.toLined.relineup hOthers hNew hSeats
  toTracked := h.toTracked.relineup hOthers hNew hSeats hNext

end Relineup

/-- Only who connects the session and who waits for that is changed, or it gives up its
connection. -/
theorem Paced.modifySession (h : n.Paced taken) {session : Session}
    (hSession : n.sessions.find? s = some session) {f : Session → Session}
    (hCurrent : ∀ c, (f session).current = some c → session.current = some c)
    (hSeats : n.Seats taken s (f session)) : (n.modifySession s f).Paced taken := by
  have hFound := find?_modifySession_of_session hSession f
  refine h.relineup (fun s' hs => ?_) hFound hSeats (fun c s' hAttached => ?_) fun s' hSome => ?_
  · exact congrArg (Option.map Session.lineup) (SortedMap.find?_modify_of_ne hs _ _)
  · obtain ⟨new, hNew, hLinked⟩ := hAttached
    rcases SortedMap.find?_modify_eq_some hNew with ⟨rfl, old, hOld, rfl⟩ | ⟨-, hOld⟩
    · obtain rfl := Option.some.inj (hSession.symm.trans hOld)
      exact ⟨session, hSession, hCurrent c hLinked⟩
    · exact ⟨new, hOld, hLinked⟩
  · apply h.sessions s'
    obtain ⟨new, hNew⟩ := Option.isSome_iff_exists.mp hSome
    rcases SortedMap.find?_modify_eq_some hNew with ⟨rfl, old, hOld, -⟩ | ⟨-, hOld⟩
    all_goals
      rw [hOld]
      rfl

/-- A session begins that nobody connects, and that has no connection. -/
theorem Paced.newSession (h : n.Paced taken) {session : Session}
    (hHolder : session.connecting = none) (hWaiters : session.waiters = [])
    (hCurrent : session.current = none) : (n.newSession session).2.Paced taken := by
  have hFresh : n.lineup? n.nextSession = none := by
    rw [← Option.not_isSome_iff_eq_none, lineup?_isSome]
    exact fun hSome => Nat.lt_irrefl _ (h.sessions _ hSome)
  have hNobody : ∀ k, ¬n.Holds n.nextSession k := by
    rintro k ⟨ws, hLineup⟩
    cases hFresh.symm.trans hLineup
  have hSeats : n.Seats taken n.nextSession session := by
    constructor
    case serving =>
      rintro ⟨holder, ws, hLineup⟩
      cases hFresh.symm.trans hLineup
    case holder =>
      intro k _ hSome
      cases hHolder.symm.trans hSome
    case lock => exact fun k hAttempts => absurd (h.lock _ k hAttempts).1 (hNobody k)
    case proceeds => exact fun k _ hHolds => absurd hHolds (hNobody k)
    case starts =>
      intro k _ _
      rw [hHolder, hWaiters]
      exact ⟨nofun, List.not_mem_nil⟩
    case waits =>
      rw [hWaiters]
      exact fun _ => nofun
    case nodup =>
      rw [hWaiters]
      exact List.nodup_nil
  refine h.relineup (fun s' hs => ?_) (SortedMap.find?_insert_self n.sessions n.nextSession session)
    hSeats (fun c s' hAttached => ?_) fun s' hSome => ?_
  · exact congrArg (Option.map Session.lineup) (SortedMap.find?_insert_of_ne hs _ _)
  · obtain ⟨new, hNew, hLinked⟩ := hAttached
    rcases SortedMap.find?_insert_eq_some hNew with ⟨-, rfl⟩ | ⟨-, hOld⟩
    · cases hCurrent.symm.trans hLinked
    · exact ⟨new, hOld, hLinked⟩
  · obtain ⟨new, hNew⟩ := Option.isSome_iff_exists.mp hSome
    rcases SortedMap.find?_insert_eq_some hNew with ⟨rfl, -⟩ | ⟨-, hOld⟩
    · exact Nat.lt_succ_self _
    · exact Nat.lt_succ_of_lt (h.sessions s' (by rw [hOld]; rfl))

/-- A free call waits for the one that connects its session. -/
theorem Paced.enqueue (h : n.Paced taken) {session : Session}
    (hSession : n.sessions.find? s = some session) (hProxy : session.isProxy = true)
    (hFree : n.Free taken k) (hAt : n.CallAt k s .pending) (hNotHolder : ¬n.Holds s k) :
    (n.modifySession s fun session =>
      { session with waiters := session.waiters ++ [k] }).Paced taken := by
  have hHolds : ∀ {j}, n.Holds s j ↔ session.connecting = some j :=
    (holds_iff hSession).trans (and_iff_right hProxy)
  have hQueued : ∀ {j}, n.Queued s j ↔ j ∈ session.waiters :=
    (queued_iff hSession).trans (and_iff_right hProxy)
  refine h.modifySession hSession (fun _ => id) ?_
  constructor
  case serving => exact (accepts_iff hSession).mp
  case holder => exact fun j _ hHolder => h.holder s j (hHolds.mpr hHolder)
  case lock => exact fun j hAttempts => ⟨hProxy, hHolds.mp (h.lock s j hAttempts).1⟩
  case proceeds => exact fun j _ hHeld => ⟨hProxy, hHolds.mp hHeld⟩
  case starts =>
    intro j hDue hPending
    obtain ⟨s', hAt', hApart, hUnqueued⟩ := h.starts j hDue
    obtain ⟨rfl, -⟩ := hPending.unique hAt'
    refine ⟨mt hHolds.mpr hApart, fun hMem => ?_⟩
    rcases List.mem_append.mp hMem with hMem | hMem
    · exact hUnqueued (hQueued.mpr hMem)
    · obtain rfl := List.mem_singleton.mp hMem
      exact hFree.start hDue
  case waits =>
    intro j hMem
    rcases List.mem_append.mp hMem with hMem | hMem
    · exact (h.queue s j (hQueued.mpr hMem)).imp_right (mt hHolds.mpr)
    · obtain rfl := List.mem_singleton.mp hMem
      exact ⟨hAt, mt hHolds.mpr hNotHolder⟩
  case nodup =>
    have hLine := h.line s session.connecting session.waiters
      (by rw [lineup?_of_session hSession, Session.lineup, hProxy])
    refine List.nodup_append.mpr ⟨hLine, List.pairwise_singleton _ k, ?_⟩
    rintro j hMem _ hLast rfl
    obtain rfl := List.mem_singleton.mp hLast
    exact hFree.unqueued s (hQueued.mpr hMem)

/-- A free call connects a session that nobody connects. -/
theorem Paced.hold (h : n.Paced taken) {session : Session}
    (hSession : n.sessions.find? s = some session) (hProxy : session.isProxy = true)
    (hNobody : session.connecting = none) (hFree : n.Free taken k)
    (hSome : (n.calls.find? k).isSome = true) :
    (n.modifySession s fun session => { session with connecting := some k }).Paced taken := by
  have hNot : ∀ j, ¬n.Holds s j := by
    intro j hHolds
    cases hNobody.symm.trans ((holds_iff hSession).mp hHolds).2
  have hQueued : ∀ {j}, n.Queued s j ↔ j ∈ session.waiters :=
    (queued_iff hSession).trans (and_iff_right hProxy)
  refine h.modifySession hSession (fun _ => id) ?_
  constructor
  case serving => exact (accepts_iff hSession).mp
  case holder =>
    rintro _ - ⟨⟩
    exact h.calls k hSome
  case lock => exact fun j hAttempts => absurd (h.lock s j hAttempts).1 (hNot j)
  case proceeds => exact fun j _ hHolds => absurd hHolds (hNot j)
  case starts =>
    intro j hDue hPending
    obtain ⟨s', hAt', -, hUnqueued⟩ := h.starts j hDue
    obtain ⟨rfl, -⟩ := hPending.unique hAt'
    refine ⟨?_, mt hQueued.mpr hUnqueued⟩
    rintro ⟨⟩
    exact hFree.start hDue
  case waits =>
    intro j hMem
    refine ⟨(h.queue s j (hQueued.mpr hMem)).1, ?_⟩
    rintro ⟨⟩
    exact hFree.unqueued s (hQueued.mpr hMem)
  case nodup =>
    exact h.line s session.connecting session.waiters
      (by rw [lineup?_of_session hSession, Session.lineup, hProxy])

theorem holds_hold {session : Session} (hSession : n.sessions.find? s = some session)
    (hProxy : session.isProxy = true) :
    (n.modifySession s fun session => { session with connecting := some k }).Holds s k :=
  (holds_iff (find?_modifySession_of_session hSession _)).mpr ⟨hProxy, rfl⟩

/-! ## Cues that are given -/

theorem cues_later {e : Event} {q : Cue} (h : e.cue? = some q) :
    (n.emit (.later e)).cues = n.cues ++ [q] := by
  have hLast : [Effect.later e].filterMap Effect.cue? = [q] :=
    List.filterMap_cons_some (f := Effect.cue?) h
  unfold cues emit
  rw [List.filterMap_append, hLast]

/-- Only the cue that is given becomes due. -/
theorem Due.of_later {e : Event} {q q' : Cue} (hCue : e.cue? = some q)
    (h : (n.emit (.later e)).Due taken q') : q' = q ∨ n.Due taken q' := by
  by_cases hq : q' = q
  · exact .inl hq
  · unfold Due at h ⊢
    rw [cues_later hCue, List.count_append, List.count_singleton,
      if_neg (by simpa using Ne.symm hq)] at h
    exact .inr h

/-- A call is told to begin, or to go on, for the first time since it was. -/
theorem Paced.cue (h : n.Paced taken) {e : Event} {q : Cue} (hCue : e.cue? = some q)
    (hPlain : delivery? (.later e) = none) (hNotDue : ¬n.Due taken q)
    (hStart : ∀ k, q = .start k → ∃ s, n.CallAt k s .pending ∧ ¬n.Holds s k ∧ ¬n.Queued s k)
    (hProceed : ∀ k, q = .proceed k → ∃ s, n.CallAt k s .pending ∧ n.Holds s k) :
    (n.emit (.later e)).Paced taken where
  toLocked := ⟨h.lock, h.reached, h.serving, h.single⟩
  starts k hDue := (hDue.of_later hCue).elim (fun hSame => hStart k hSame.symm) (h.starts k)
  proceeds k hDue := (hDue.of_later hCue).elim (fun hSame => hProceed k hSame.symm) (h.proceeds k)
  queue := h.queue
  line := h.line
  once q' := by
    rw [cues_later hCue, List.count_append]
    by_cases hq : q' = q
    · subst hq
      rw [List.count_singleton_self]
      exact Nat.succ_le_succ (Nat.not_lt.mp hNotDue)
    · rw [List.count_singleton, if_neg (by simpa using Ne.symm hq)]
      exact h.once q'
  toTracked := h.toTracked.mono (fun _ => rfl) (fun _ _ => id)
    (fun _ hTargeted => .inl (hTargeted.of_same rfl rfl (List.forall_mem_singleton.mpr hPlain)))
    (Nat.le_refl _) rfl

/-- The first one that waits may hold a session once the call that held it is done. -/
theorem Paced.seats_next (h : n.Paced taken) (hHolds : n.Holds s k) (hDone : ¬n.Attempts s k)
    (hUndue : ¬n.Due taken (.proceed k)) {session : Session}
    (hSession : n.sessions.find? s = some session) :
    n.Seats taken s
      { session with connecting := session.waiters.head?, waiters := session.waiters.tail } := by
  have hProxy := ((holds_iff hSession).mp hHolds).1
  have hNodup := h.line s session.connecting session.waiters
    (by rw [lineup?_of_session hSession, Session.lineup, hProxy])
  have hQueued : ∀ {j}, j ∈ session.waiters → n.Queued s j :=
    fun hMem => (queued_iff hSession).mpr ⟨hProxy, hMem⟩
  constructor
  case serving => exact (accepts_iff hSession).mp
  case holder =>
    intro j _ hFirst
    exact h.calls j (h.queue s j (hQueued (List.mem_of_mem_head? hFirst))).1.isSome
  case lock =>
    intro j hAttempts
    obtain rfl := h.holder_of_attempts hHolds hAttempts
    exact absurd hAttempts hDone
  case proceeds =>
    intro j hDue hHolds'
    obtain rfl := hHolds.unique hHolds'
    exact absurd hDue hUndue
  case starts =>
    intro j hDue _
    have hNotIn : j ∉ session.waiters := fun hMem => (h.not_due_of_queued (hQueued hMem)).1 hDue
    exact ⟨fun hFirst => hNotIn (List.mem_of_mem_head? hFirst), mt List.mem_of_mem_tail hNotIn⟩
  case waits =>
    intro j hMem
    refine ⟨(h.queue s j (hQueued (List.mem_of_mem_tail hMem))).1, fun hFirst => ?_⟩
    have hFirst : session.waiters.head? = some j := hFirst
    obtain ⟨rest, hRest⟩ := List.head?_eq_some_iff.mp hFirst
    rw [hRest] at hNodup
    exact (List.nodup_cons.mp hNodup).1 (by simpa [hRest] using hMem)
  case nodup => exact hNodup.tail

/-- The call that holds a session is done with it, and the next one holds it. -/
theorem Paced.release (h : n.Paced taken) (hHolds : n.Holds s k) (hDone : ¬n.Attempts s k)
    (hUndue : ¬n.Due taken (.proceed k)) : (n.release s).Paced taken := by
  obtain ⟨ws, hLineup⟩ := id hHolds
  obtain ⟨session, hSession, -⟩ := Option.map_eq_some_iff.mp hLineup
  have hProxy := ((holds_iff hSession).mp hHolds).1
  have hNext := h.modifySession hSession (f := fun session =>
    { session with connecting := session.waiters.head?, waiters := session.waiters.tail })
    (fun _ => id) (h.seats_next hHolds hDone hUndue hSession)
  unfold Node.release
  rw [hSession]
  dsimp only
  split
  · exact hNext
  next j hFirst =>
    have hQueued := (queued_iff hSession).mpr ⟨hProxy, List.mem_of_mem_head? hFirst⟩
    refine hNext.cue rfl rfl (h.not_due_of_queued hQueued).2 (fun _ => nofun) ?_
    rintro _ ⟨⟩
    exact ⟨s, (h.queue s j hQueued).1,
      (holds_iff (find?_modifySession_of_session hSession _)).mpr ⟨hProxy, hFirst⟩⟩

/-- A call stays free as long as it does not begin to wait for another one. -/
theorem Free.modifySession (h : n.Free taken k) {f : Session → Session}
    (hProxy : ∀ old, (f old).isProxy = old.isProxy)
    (hWaiters : ∀ old, ∀ j ∈ (f old).waiters, j ∈ old.waiters) :
    (n.modifySession s f).Free taken k := by
  refine ⟨fun s' hQueued => ?_, h.start, h.proceed, h.idle⟩
  obtain ⟨holder, ws, hLineup, -⟩ := id hQueued
  obtain ⟨new, hNew, -⟩ := Option.map_eq_some_iff.mp hLineup
  obtain ⟨hConnects, hMem⟩ := (queued_iff hNew).mp hQueued
  rcases SortedMap.find?_modify_eq_some hNew with ⟨rfl, old, hOld, rfl⟩ | ⟨-, hOld⟩
  · exact h.unqueued s' ((queued_iff hOld).mpr ⟨hProxy old ▸ hConnects, hWaiters old k hMem⟩)
  · exact h.unqueued s' ((queued_iff hOld).mpr ⟨hConnects, hMem⟩)

/-- A free call stays so when the one that holds its session is done. -/
theorem Free.release (h : n.Free taken k) {session : Session}
    (hSession : n.sessions.find? s = some session) (hProxy : session.isProxy = true) :
    (n.release s).Free taken k := by
  have hNext : (n.modifySession s fun session =>
      { session with connecting := session.waiters.head?, waiters := session.waiters.tail }).Free
        taken k := h.modifySession (fun _ => rfl) fun _ _ => List.mem_of_mem_tail
  unfold Node.release
  rw [hSession]
  dsimp only
  split
  · exact hNext
  next j hFirst =>
    refine ⟨hNext.unqueued, fun hDue => ?_, fun hDue => ?_, hNext.idle⟩
    · exact hNext.start ((hDue.of_later rfl).resolve_left nofun)
    · refine hNext.proceed ((hDue.of_later rfl).resolve_left ?_)
      rintro ⟨⟩
      exact h.unqueued s ((queued_iff hSession).mpr ⟨hProxy, List.mem_of_mem_head? hFirst⟩)

/-- A session gives up its connection, and nobody's attempt is affected. -/
theorem Paced.unlink (h : n.Paced taken) (s : SessionId) : (n.unlink s).Paced taken := by
  have hLineup := lineup?_unlink n s
  exact
    { toLocked := h.toLocked.mono (fun _ _ => id) (fun _ _ => .inl) (fun _ _ _ _ => id)
        (fun s' _ _ => (holds_congr (hLineup s')).mpr) (fun s' => (accepts_congr (hLineup s')).mpr)
        fun s' _ hNone => hNone.mono (fun _ => id) fun _ _ hAttached =>
          (attached_unlink.mp hAttached).2
      toLined := h.toLined.mono hLineup rfl fun _ _ _ => id
      toTracked := h.toTracked.mono hLineup (fun _ _ => id)
        (fun _ hTargeted => .inl (hTargeted.of_same rfl (List.append_nil _).symm
          (List.forall_mem_nil _))) (Nat.le_refl _) rfl }

end PeerServices.Node
