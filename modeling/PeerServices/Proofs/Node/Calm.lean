import PeerServices.Proofs.Node.Cues

/-!
# Steps that touch no attempt to connect

Most of what a node does leaves every attempt to connect as far as it is: the handshakes that are
under way, who connects a session and who waits for that, and every call that has sent nothing yet.

* `Node.handshake?`, `Session.lineup`: what there is to know of an attempt.
* `Node.Exposed`: a call that may end at any time, because its request was sent or somebody is to
  give it a response.
* `Node.Calm`: what a calm step does, and what owners are told by it of attempts.
* One lemma for each thing that a node does in this way: it closes connections, answers, takes
  responses and changes its directory.
-/

namespace PeerServices

/-- Whether a session connects, which call does that, and which calls wait for it. -/
def Session.lineup (session : Session) : Bool × Option CallId × List CallId :=
  (session.isProxy, session.connecting, session.waiters)

namespace Effect

/-- What the owner of a session is told of an attempt to connect. -/
def notice? : Effect → Option (SessionId × Session.Hook)
  | .hook _ (.closed _) => none
  | .hook s h => some (s, h)
  | _ => none

/-- Gives no cue, hands no response over and tells nobody of a first connection. -/
def isCalm : Effect → Bool
  | .later (.begin _) | .later (.proceed _) | .later (.deliver ..) | .hook _ .configured => false
  | _ => true

variable {e : Effect}

theorem cue?_of_isCalm (h : e.isCalm = true) : e.cue? = none := by
  cases e with
  | later e => cases e <;> first | rfl | cases h
  | _ => rfl

theorem delivery?_of_isCalm (h : e.isCalm = true) : Node.delivery? e = none := by
  cases e with
  | later e => cases e <;> first | rfl | cases h
  | _ => rfl

theorem notice?_of_isCalm (h : e.isCalm = true) (s : SessionId) :
    e.notice? ≠ some (s, .configured) := by
  cases e with
  | hook s' hook =>
    intro hSame
    cases hook <;> cases hSame
    cases h
  | _ => nofun

end Effect

/-- The session for which a handshake is under way, and the call for which it is, if this side
connects. -/
def Connection.handshake? (connection : Connection) : Option (SessionId × Option CallId) :=
  match connection.stage with
  | .accepting s _ => some (s, none)
  | .connecting s k _ => some (s, some k)
  | _ => none

namespace Node

/-! ## Attempts and what belongs to them -/

def handshake? (n : Node) (c : ConnectionId) : Option (SessionId × Option CallId) :=
  (n.connections.find? c).bind Connection.handshake?

variable {n n' n'' : Node} {c : ConnectionId} {s : SessionId} {k : CallId}
  {told told' : List (SessionId × Session.Hook)}

theorem handshake?_eq_some {p : SessionId × Option CallId} : n.handshake? c = some p ↔
    ∃ connection, n.connections.find? c = some connection ∧ connection.handshake? = some p :=
  Option.bind_eq_some_iff

section Stages

variable {connection : Connection} (h : n.connections.find? c = some connection)
include h

theorem handshake?_of_naming {issued : Challenge} (hStage : connection.stage = .naming issued) :
    n.handshake? c = none := by
  rw [handshake?, h, Option.bind_some, Connection.handshake?, hStage]

theorem handshake?_of_accepting {rest : Received → Dialogue Handshake.Result}
    (hStage : connection.stage = .accepting s rest) : n.handshake? c = some (s, none) := by
  rw [handshake?, h, Option.bind_some, Connection.handshake?, hStage]

theorem handshake?_of_connecting {rest : Received → Dialogue Handshake.Result}
    (hStage : connection.stage = .connecting s k rest) : n.handshake? c = some (s, some k) := by
  rw [handshake?, h, Option.bind_some, Connection.handshake?, hStage]

end Stages

def lineup? (n : Node) (s : SessionId) : Option (Bool × Option CallId × List CallId) :=
  (n.sessions.find? s).map Session.lineup

/-- A connection is open on behalf of a session. -/
def OpenFor (n : Node) (c : ConnectionId) (s : SessionId) : Prop :=
  ∃ connection, n.connections.find? c = some connection ∧ connection.isOpen = true ∧
    connection.session = some s

instance (n : Node) (c : ConnectionId) (s : SessionId) : Decidable (n.OpenFor c s) :=
  inferInstanceAs (Decidable (∃ connection ∈ n.connections.find? c, connection.isOpen = true ∧
    connection.session = some s))

/-- A session refers to a connection. -/
def Attached (n : Node) (s : SessionId) (c : ConnectionId) : Prop :=
  ∃ session, n.sessions.find? s = some session ∧ session.current = some c

instance (n : Node) (s : SessionId) (c : ConnectionId) : Decidable (n.Attached s c) :=
  inferInstanceAs (Decidable (∃ session ∈ n.sessions.find? s, session.current = some c))

def Configured (n : Node) (s : SessionId) : Prop :=
  ∃ session, n.sessions.find? s = some session ∧ session.configured = true

/-- The request of a call was sent, and its response is waited for. -/
def IsSent (n : Node) (k : CallId) : Prop :=
  ∃ call c, n.calls.find? k = some call ∧ call.stage = .waiting c

/-- Somebody waits for a response that goes to a call, or has one for it. -/
inductive Targeted (n : Node) (k : CallId) : Prop
  | listens {c : ConnectionId} {connection : Connection} {l : Listener Target}
      (hFind : n.connections.find? c = some connection) (hMem : l ∈ connection.listeners)
      (hTarget : l.target.call? = some k)
  | takes {l : Listener Target} {m : Message} (hMem : (l, m) ∈ n.deliveries)
      (hTarget : l.target.call? = some k)

def Exposed (n : Node) (k : CallId) : Prop := n.Targeted k ∨ n.IsSent k

/-- What owners were told of attempts to connect, in order. -/
def notices (n : Node) : List (SessionId × Session.Hook) := n.effects.filterMap Effect.notice?

/-- Owners are told something of attempts to connect. Who is told of a first connection is kept for
configured from then on. -/
structure Tells (n : Node) (told : List (SessionId × Session.Hook)) (n' : Node) : Prop where
  notices : n'.notices = n.notices ++ told
  configured : ∀ s, n'.Configured s ↔ n.Configured s ∨ (s, .configured) ∈ told

/-- Every attempt to connect is as far as it was. No connection is opened, those that stay open are
attached as before, and only calls that are exposed end. -/
structure Calm (n : Node) (told : List (SessionId × Session.Hook)) (n' : Node) : Prop where
  handshake : ∀ c, n'.handshake? c = n.handshake? c
  lineup : ∀ s, n'.lineup? s = n.lineup? s
  openFor : ∀ c s, n'.OpenFor c s → n.OpenFor c s
  attached : ∀ c s, n'.OpenFor c s → (n'.Attached s c ↔ n.Attached s c)
  calls : ∀ k call, n'.calls.find? k = some call → n.calls.find? k = some call
  ended : ∀ k call, n.calls.find? k = some call → n'.calls.find? k = some call ∨ n.Exposed k
  targeted : ∀ k, n'.Targeted k → n.Exposed k
  nextCall : n.nextCall ≤ n'.nextCall
  nextSession : n'.nextSession = n.nextSession
  cues : n'.cues = n.cues
  tells : n.Tells told n'

/-- Nobody is told anything, and who is kept for configured is as before. -/
theorem Tells.of_same (hNotices : n'.notices = n.notices)
    (hSessions : n'.sessions = n.sessions) : n.Tells [] n' where
  notices := hNotices.trans (List.append_nil _).symm
  configured s := by
    unfold Configured
    rw [hSessions]
    exact (or_iff_left List.not_mem_nil).symm

theorem Tells.refl (n : Node) : n.Tells [] n := .of_same rfl rfl

theorem Tells.trans (h : n.Tells told n') (h' : n'.Tells told' n'') :
    n.Tells (told ++ told') n'' where
  notices := by rw [h'.notices, h.notices, List.append_assoc]
  configured s := by rw [h'.configured, h.configured, List.mem_append, or_assoc]

theorem IsSent.of_calls (hCalls : ∀ k call, n'.calls.find? k = some call →
    n.calls.find? k = some call) (h : n'.IsSent k) : n.IsSent k := by
  obtain ⟨call, c, hCall, hStage⟩ := h
  exact ⟨call, c, hCalls k call hCall, hStage⟩

theorem Calm.exposed (h : n.Calm told n') (hExposed : n'.Exposed k) : n.Exposed k :=
  hExposed.elim (h.targeted k) fun hSent => .inr (hSent.of_calls h.calls)

theorem Calm.trans (h : n.Calm told n') (h' : n'.Calm told' n'') :
    n.Calm (told ++ told') n'' where
  handshake c := (h'.handshake c).trans (h.handshake c)
  lineup s := (h'.lineup s).trans (h.lineup s)
  openFor c s hOpen := h.openFor c s (h'.openFor c s hOpen)
  attached c s hOpen := (h'.attached c s hOpen).trans (h.attached c s (h'.openFor c s hOpen))
  calls k call hCall := h.calls k call (h'.calls k call hCall)
  ended k call hCall := by
    rcases h.ended k call hCall with hStill | hExposed
    · exact (h'.ended k call hStill).imp_right h.exposed
    · exact .inr hExposed
  targeted k hTargeted := h.exposed (h'.targeted k hTargeted)
  nextCall := Nat.le_trans h.nextCall h'.nextCall
  nextSession := h'.nextSession.trans h.nextSession
  cues := h'.cues.trans h.cues
  tells := h.tells.trans h'.tells

/-- Nobody is told anything by the second step. -/
theorem Calm.next (h : n.Calm told n') (h' : n'.Calm [] n'') : n.Calm told n'' := by
  rw [← List.append_nil told]
  exact h.trans h'

theorem Targeted.of_same {new : List Effect} (h : n'.Targeted k)
    (hConnections : n'.connections = n.connections) (hEffects : n'.effects = n.effects ++ new)
    (hNew : ∀ e ∈ new, delivery? e = none) : n.Targeted k := by
  cases h with
  | listens hFind hMem hTarget => exact .listens (hConnections ▸ hFind) hMem hTarget
  | takes hMem hTarget =>
    unfold deliveries at hMem
    rw [hEffects, List.filterMap_append, List.filterMap_eq_nil_iff.mpr hNew, List.append_nil]
      at hMem
    exact .takes hMem hTarget

/-- Connections and sessions are as they were, and nothing remarkable is said. -/
theorem Calm.of_same {new : List Effect} (hConnections : n'.connections = n.connections)
    (hSessions : n'.sessions = n.sessions)
    (hCalls : ∀ k, n'.calls.find? k = n.calls.find? k ∨
      (n'.calls.find? k = none ∧ ((n.calls.find? k).isSome = true → n.Exposed k)))
    (hCall : n.nextCall ≤ n'.nextCall) (hSession : n'.nextSession = n.nextSession)
    (hEffects : n'.effects = n.effects ++ new) (hNew : ∀ e ∈ new, e.isCalm = true) :
    n.Calm (new.filterMap Effect.notice?) n' where
  handshake c := by rw [handshake?, hConnections, handshake?]
  lineup s := by rw [lineup?, hSessions, lineup?]
  openFor c s hOpen := by
    unfold OpenFor at hOpen ⊢
    rwa [hConnections] at hOpen
  attached c s _ := by rw [Attached, hSessions, Attached]
  calls k call hFind := by
    rcases hCalls k with hSame | ⟨hNone, -⟩
    · exact hSame.symm.trans hFind
    · cases hNone.symm.trans hFind
  ended k call hFind := by
    rcases hCalls k with hSame | ⟨-, hExposed⟩
    · exact .inl (hSame.trans hFind)
    · exact .inr (hExposed (by rw [hFind]; rfl))
  targeted k hTargeted := .inl (hTargeted.of_same hConnections hEffects fun e hMem =>
    Effect.delivery?_of_isCalm (hNew e hMem))
  nextCall := hCall
  nextSession := hSession
  cues := by
    unfold Node.cues
    rw [hEffects, List.filterMap_append, List.filterMap_eq_nil_iff.mpr fun e hMem =>
      Effect.cue?_of_isCalm (hNew e hMem), List.append_nil]
  tells := by
    constructor
    · unfold Node.notices
      rw [hEffects, List.filterMap_append]
    · intro s
      have hNobody : (s, .configured) ∉ new.filterMap Effect.notice? := by
        intro hMem
        obtain ⟨e, hMem, hNotice⟩ := List.mem_filterMap.mp hMem
        exact Effect.notice?_of_isCalm (hNew e hMem) s hNotice
      unfold Node.Configured
      rw [hSessions]
      exact (or_iff_left hNobody).symm

/-- Nothing of all that is changed. -/
theorem Calm.of_eq (hConnections : n'.connections = n.connections)
    (hSessions : n'.sessions = n.sessions) (hCalls : n'.calls = n.calls)
    (hCall : n.nextCall ≤ n'.nextCall) (hSession : n'.nextSession = n.nextSession)
    (hEffects : n'.effects = n.effects) : n.Calm [] n' := by
  have hSame : n'.effects = n.effects ++ [] := by rw [hEffects, List.append_nil]
  exact .of_same hConnections hSessions (fun k => .inl (by rw [hCalls])) hCall hSession hSame
    (List.forall_mem_nil _)

theorem Calm.refl (n : Node) : n.Calm [] n := .of_eq rfl rfl rfl (Nat.le_refl _) rfl rfl

theorem calm_foldl {α : Type} {f : Node → α → Node} (h : ∀ n a, Calm n [] (f n a)) (l : List α)
    (n : Node) : n.Calm [] (l.foldl f n) := by
  induction l generalizing n with
  | nil => exact .refl n
  | cons a l ih => exact (h n a).next (ih (f n a))

/-! ## Single changes -/

theorem calm_tell (n : Node) {e : Effect} (h : e.isCalm = true) :
    n.Calm e.notice?.toList (n.emit e) := by
  have hTold : e.notice?.toList = [e].filterMap Effect.notice? := by
    cases hNotice : e.notice? <;> simp [hNotice]
  have hCalm : n.Calm ([e].filterMap Effect.notice?) (n.emit e) :=
    .of_same rfl rfl (fun _ => .inl rfl) (Nat.le_refl _) rfl rfl
      (List.forall_mem_singleton.mpr h)
  rwa [hTold]

/-- An effect that tells no owner anything of an attempt. -/
theorem calm_emit (n : Node) {e : Effect} (h : e.isCalm = true) (hNotice : e.notice? = none) :
    n.Calm [] (n.emit e) := by
  have hTold := calm_tell n h
  rwa [hNotice] at hTold

theorem calm_sendAll (n : Node) (c : ConnectionId) (parcels : List Parcel) :
    n.Calm [] (n.sendAll c parcels) := calm_foldl (fun n _ => calm_emit n rfl rfl) parcels n

theorem calm_strike (n : Node) (c : ConnectionId) : n.Calm [] (n.strike c) :=
  .of_eq rfl rfl rfl (Nat.le_refl _) rfl rfl

/-- What may become of a connection: its handshake goes on, if one is under way, it is not opened,
and whoever waits for a response on it did so before or is exposed anyhow. -/
theorem calm_modifyConnection {f : Connection → Connection}
    (hHandshake : ∀ old, n.connections.find? c = some old →
      (f old).handshake? = old.handshake?)
    (hOpen : ∀ old, n.connections.find? c = some old → (f old).isOpen = true →
      old.isOpen = true ∧ (f old).session = old.session)
    (hListeners : ∀ old, n.connections.find? c = some old → ∀ l ∈ (f old).listeners,
      l ∈ old.listeners ∨ ∀ k, l.target.call? = some k → n.Exposed k) :
    n.Calm [] (n.modifyConnection c f) where
  handshake c' := by
    unfold handshake?
    by_cases hc : c' = c
    · subst hc
      rw [find?_modifyConnection_self]
      cases hFind : n.connections.find? c' with
      | none => rfl
      | some old => exact hHandshake old hFind
    · rw [find?_modifyConnection_of_ne _ hc]
  lineup _ := rfl
  openFor c' s := by
    rintro ⟨new, hNew, hIsOpen, hSession⟩
    rcases SortedMap.find?_modify_eq_some hNew with ⟨rfl, old, hOld, rfl⟩ | ⟨-, hOld⟩
    · obtain ⟨hWasOpen, hSame⟩ := hOpen old hOld hIsOpen
      exact ⟨old, hOld, hWasOpen, hSame.symm.trans hSession⟩
    · exact ⟨new, hOld, hIsOpen, hSession⟩
  attached _ _ _ := Iff.rfl
  calls _ _ hCall := hCall
  ended _ _ hCall := .inl hCall
  targeted k hTargeted := by
    cases hTargeted with
    | @listens c' new l hNew hMem hTarget =>
      rcases SortedMap.find?_modify_eq_some hNew with ⟨rfl, old, hOld, rfl⟩ | ⟨-, hOld⟩
      · rcases hListeners old hOld l hMem with hMem | hExposed
        · exact .inl (.listens hOld hMem hTarget)
        · exact hExposed k hTarget
      · exact .inl (.listens hOld hMem hTarget)
    | takes hMem hTarget => exact .inl (.takes hMem hTarget)
  nextCall := Nat.le_refl _
  nextSession := rfl
  cues := rfl
  tells := .of_same rfl rfl

/-- How far a connection is, and who waits on it, is as it was. -/
theorem calm_adjustConnection {f : Connection → Connection}
    (hStage : ∀ old, (f old).stage = old.stage) (hSession : ∀ old, (f old).session = old.session)
    (hOutstanding : ∀ old, (f old).outstanding = old.outstanding) :
    n.Calm [] (n.modifyConnection c f) := by
  apply calm_modifyConnection
  · intro old _
    unfold Connection.handshake?
    rw [hStage]
  · intro old _ hOpen
    unfold Connection.isOpen at hOpen ⊢
    rw [hStage] at hOpen
    exact ⟨hOpen, hSession old⟩
  · intro old _ l hMem
    unfold Connection.listeners at hMem ⊢
    rw [hOutstanding] at hMem
    exact .inl hMem

/-- The requests that wait on a connection are others afterwards. -/
theorem calm_expect {t : Outstanding Target}
    (h : ∀ old, n.connections.find? c = some old → ∀ l ∈ t.listeners,
      l ∈ old.listeners ∨ ∀ k, l.target.call? = some k → n.Exposed k) :
    n.Calm [] (n.modifyConnection c fun connection => { connection with outstanding := some t }) :=
  calm_modifyConnection (fun _ _ => rfl) (fun _ _ hOpen => ⟨hOpen, rfl⟩) h

/-- After a calm step a call may end that was exposed before. -/
theorem Calm.finish (h : n.Calm told n') (result : Reply.Result)
    (hExposed : (n.calls.find? k).isSome = true → n.Exposed k) :
    n.Calm told (n'.finish k result) := by
  obtain ⟨calls, new, hFinish, hCalls, hAll, -⟩ := n'.finish_eq k result
  have hNew : ∀ e ∈ new, e.isCalm = true ∧ e.notice? = none := by
    intro e hMem
    rw [hAll e hMem]
    exact ⟨rfl, rfl⟩
  have hNotices := List.filterMap_eq_nil_iff.mpr fun e hMem => (hNew e hMem).2
  have hCues := List.filterMap_eq_nil_iff.mpr fun e hMem => Effect.cue?_of_isCalm (hNew e hMem).1
  rw [hFinish]
  constructor
  case handshake => exact h.handshake
  case lineup => exact h.lineup
  case openFor => exact h.openFor
  case attached => exact h.attached
  case calls =>
    intro j call hFind
    change calls.find? j = some call at hFind
    rw [hCalls] at hFind
    split at hFind
    · cases hFind
    · exact h.calls j call hFind
  case ended =>
    intro j call hFind
    change calls.find? j = some call ∨ _
    rw [hCalls]
    split
    next hj =>
      subst hj
      exact .inr (hExposed (by rw [hFind]; rfl))
    · exact h.ended j call hFind
  case targeted =>
    intro j hTargeted
    exact h.targeted j (hTargeted.of_same (n := n') rfl rfl fun e hMem =>
      Effect.delivery?_of_isCalm (hNew e hMem).1)
  case nextCall => exact h.nextCall
  case nextSession => exact h.nextSession
  case cues => exact List.filterMap_append.trans (by rw [hCues, List.append_nil]; exact h.cues)
  case tells =>
    refine ⟨?_, h.tells.configured⟩
    exact List.filterMap_append.trans (by rw [hNotices, List.append_nil]; exact h.tells.notices)

theorem Calm.abandon {ls : List (Listener Target)} (h : n.Calm told n')
    (hExposed : ∀ l ∈ ls, ∀ k, l.target.call? = some k → n.Exposed k) :
    n.Calm told (n'.abandon ls) := by
  have hCalls : ∀ k ∈ ls.filterMap (·.target.call?), n.Exposed k := by
    intro k hMem
    obtain ⟨l, hMem, hTarget⟩ := List.mem_filterMap.mp hMem
    exact hExposed l hMem k hTarget
  unfold Node.abandon
  generalize ls.filterMap (·.target.call?) = ks at hCalls ⊢
  induction ks generalizing n' with
  | nil => exact h
  | cons k ks ih =>
    exact ih (h.finish _ fun _ => hCalls k List.mem_cons_self)
      fun j hMem => hCalls j (List.mem_cons_of_mem k hMem)

/-- After a calm step a response may be handed over to a call that was exposed before. -/
theorem Calm.handOver {l : Listener Target} (h : n.Calm told n') (m : Message)
    (hExposed : ∀ k, l.target.call? = some k → n.Exposed k) :
    n.Calm told (n'.emit (.later (.deliver l m))) where
  handshake := h.handshake
  lineup := h.lineup
  openFor := h.openFor
  attached := h.attached
  calls := h.calls
  ended := h.ended
  targeted k hTargeted := by
    cases hTargeted with
    | listens hFind hMem hTarget => exact h.targeted k (.listens hFind hMem hTarget)
    | takes hMem hTarget =>
      rw [deliveries_emit] at hMem
      rcases List.mem_append.mp hMem with hMem | hMem
      · exact h.targeted k (.takes hMem hTarget)
      · cases List.mem_singleton.mp hMem
        exact hExposed k hTarget
  nextCall := h.nextCall
  nextSession := h.nextSession
  cues := List.filterMap_append.trans ((List.append_nil _).trans h.cues)
  tells := ⟨List.filterMap_append.trans ((List.append_nil _).trans h.tells.notices),
    h.tells.configured⟩

/-! ## Sessions -/

/-- A session is detached from no other connection. -/
theorem attached_detach {s' : SessionId} {c' : ConnectionId} (hOther : ¬(s' = s ∧ c' = c)) :
    (n.detach s c).Attached s' c' ↔ n.Attached s' c' := by
  constructor
  · rintro ⟨new, hNew, hCurrent⟩
    obtain ⟨old, hOld, hSame, -⟩ := current_detach hNew hCurrent
    exact ⟨old, hOld, hSame⟩
  · rintro ⟨session, hSession, hCurrent⟩
    refine ⟨session, ?_, hCurrent⟩
    rw [find?_detach, hSession, Option.map_some, if_neg]
    rintro ⟨rfl, hSame⟩
    exact hOther ⟨rfl, Option.some.inj (hCurrent.symm.trans hSame)⟩

/-- A session that gave up its connection refers to none. -/
theorem attached_unlink {s' : SessionId} :
    (n.unlink s).Attached s' c ↔ s' ≠ s ∧ n.Attached s' c := by
  constructor
  · rintro ⟨new, hNew, hCurrent⟩
    rcases SortedMap.find?_modify_eq_some hNew with ⟨rfl, old, -, rfl⟩ | ⟨hs, hOld⟩
    · cases hCurrent
    · exact ⟨hs, new, hOld, hCurrent⟩
  · rintro ⟨hs, session, hSession, hCurrent⟩
    exact ⟨session, (SortedMap.find?_modify_of_ne hs _ _).trans hSession, hCurrent⟩

theorem lineup?_modifySession {f : Session → Session} (h : ∀ old, (f old).lineup = old.lineup)
    (s' : SessionId) : (n.modifySession s f).lineup? s' = n.lineup? s' := by
  unfold lineup?
  by_cases hs : s' = s
  · subst hs
    rw [find?_modifySession_self, Option.map_map]
    exact congrArg (fun lineup => (n.sessions.find? s').map lineup) (funext h)
  · rw [n.find?_modifySession_of_ne hs]

theorem lineup?_detach (n : Node) (s : SessionId) (c : ConnectionId) (s' : SessionId) :
    (n.detach s c).lineup? s' = n.lineup? s' :=
  lineup?_modifySession (fun old => by split <;> rfl) s'

theorem lineup?_unlink (n : Node) (s s' : SessionId) :
    (n.unlink s).lineup? s' = n.lineup? s' := by
  unfold unlink
  apply lineup?_modifySession
  exact fun _ => rfl

theorem configured_detach {s' : SessionId} : (n.detach s c).Configured s' ↔ n.Configured s' := by
  unfold Configured
  rw [find?_detach]
  simp only [Option.map_eq_some_iff]
  constructor
  · rintro ⟨_, ⟨session, hSession, rfl⟩, hConfigured⟩
    refine ⟨session, hSession, ?_⟩
    split at hConfigured <;> exact hConfigured
  · rintro ⟨session, hSession, hConfigured⟩
    refine ⟨_, ⟨session, hSession, rfl⟩, ?_⟩
    split <;> exact hConfigured

theorem Exposed.of_detach (h : (n.detach s c).Exposed k) : n.Exposed k := by
  rcases h with hTargeted | hSent
  · cases hTargeted with
    | listens hFind hMem hTarget => exact .inl (.listens hFind hMem hTarget)
    | takes hMem hTarget => exact .inl (.takes hMem hTarget)
  · exact .inr hSent

/-- A session is detached from a connection that is not open any more in the end. -/
theorem Calm.of_detached (hShut : ¬n'.OpenFor c s) (h : (n.detach s c).Calm told n') :
    n.Calm told n' where
  handshake := h.handshake
  lineup s' := (h.lineup s').trans (lineup?_detach n s c s')
  openFor := h.openFor
  attached c' s' hOpen := by
    refine (h.attached c' s' hOpen).trans (attached_detach ?_)
    rintro ⟨rfl, rfl⟩
    exact hShut hOpen
  calls := h.calls
  ended k call hCall := (h.ended k call hCall).imp_right Exposed.of_detach
  targeted k hTargeted := (h.targeted k hTargeted).of_detach
  nextCall := h.nextCall
  nextSession := h.nextSession
  cues := h.cues
  tells := ⟨h.tells.notices, fun s' => (h.tells.configured s').trans (by rw [configured_detach])⟩

theorem calm_detach (hShut : ¬n.OpenFor c s) : n.Calm [] (n.detach s c) :=
  .of_detached hShut (.refl _)

/-- An owner is told something, but not that there is a first connection. -/
theorem calm_fire {session : Session} (hSession : n.sessions.find? s = some session)
    {hook : Session.Hook} (h : hook ≠ .configured) :
    n.Calm (Effect.hook s hook).notice?.toList (n.fire s hook) := by
  obtain ⟨kept, hKept⟩ := fire_eq hSession hook
  have hCalm : (Effect.hook s hook).isCalm = true := by
    cases hook <;> first | rfl | exact absurd rfl h
  rw [hKept]
  exact (calm_tell n hCalm).next (.of_eq rfl rfl rfl (Nat.le_refl _) rfl rfl)

theorem calm_fireClosed (n : Node) (s : SessionId) (reason : Option WireError) :
    n.Calm [] (n.fire s (.closed reason)) := by
  cases hSession : n.sessions.find? s with
  | none =>
    rw [fire_none hSession]
    exact .refl n
  | some session =>
    have hNot : Session.Hook.closed reason ≠ .configured := nofun
    exact calm_fire hSession hNot

/-- A session is told that it will be connected, and that is kept. -/
theorem calm_configure {session : Session} (hSession : n.sessions.find? s = some session) :
    n.Calm [(s, .configured)] (n.configure s) := by
  have hModified := n.find?_modifySession_self s fun session => { session with configured := true }
  rw [hSession] at hModified
  have hOthers : ∀ {s'}, s' ≠ s → (n.configure s).sessions.find? s' = n.sessions.find? s' := by
    intro s' hs
    obtain ⟨kept, hConfigured⟩ := fire_eq hModified .configured
    unfold Node.configure
    rw [hConfigured]
    exact n.find?_modifySession_of_ne hs _
  have hFound := (configure_spec hSession).1
  have hMember : ∀ s', (s', Session.Hook.configured) ∈ [(s, Session.Hook.configured)] ↔ s' = s := by
    intro s'
    rw [List.mem_singleton, Prod.mk.injEq]
    exact and_iff_left rfl
  constructor
  case lineup =>
    intro s'
    unfold lineup?
    by_cases hs : s' = s
    · subst hs
      rw [hFound, hSession]
      rfl
    · rw [hOthers hs]
  case attached =>
    intro c s' _
    unfold Node.Attached
    by_cases hs : s' = s
    · subst hs
      simp only [hFound, hSession, Option.some.injEq, exists_eq_left']
    · rw [hOthers hs]
  case tells =>
    obtain ⟨kept, hConfigured⟩ := fire_eq hModified .configured
    refine ⟨?_, fun s' => ?_⟩
    · unfold Node.configure
      rw [hConfigured]
      exact List.filterMap_append
    · rw [hMember]
      by_cases hs : s' = s
      · subst hs
        exact iff_of_true ⟨_, hFound, rfl⟩ (.inr rfl)
      · unfold Node.Configured
        rw [hOthers hs]
        exact (or_iff_left hs).symm
  all_goals
    obtain ⟨kept, hConfigured⟩ := fire_eq hModified .configured
    unfold Node.configure
    rw [hConfigured]
  case handshake => exact fun _ => rfl
  case openFor => exact fun _ _ hOpen => hOpen
  case calls => exact fun _ _ hCall => hCall
  case ended => exact fun _ _ hCall => .inl hCall
  case targeted =>
    exact fun k hTargeted => .inl (hTargeted.of_same (n := n) rfl rfl (by simp [delivery?]))
  case nextCall => exact Nat.le_refl _
  case nextSession => rfl
  case cues => exact List.filterMap_append.trans (List.append_nil _)

/-! ## Closing -/

theorem not_openFor (h : n.isOpen c = false) : ¬n.OpenFor c s := by
  rintro ⟨connection, hFind, hOpen, -⟩
  cases h.symm.trans (isOpen_iff.mpr ⟨connection, hFind, hOpen⟩)

/-- A connection is closed, and every call that waits for a response on it ends. -/
theorem calm_giveUp {connection : Connection} (hFind : n.connections.find? c = some connection)
    (hOpen : connection.isOpen = true) :
    n.Calm [] ((n.modifyConnection c Connection.afterClosing).abandon connection.listeners) := by
  refine Calm.abandon ?_ fun l hMem k hTarget => .inl (.listens hFind hMem hTarget)
  apply calm_modifyConnection
  · intro old hOld
    obtain rfl := Option.some.inj (hOld.symm.trans hFind)
    unfold Connection.isOpen at hOpen
    unfold Connection.handshake?
    split at hOpen
    next hStage =>
      rw [hStage]
      rfl
    · cases hOpen
  · exact fun _ _ => nofun
  · exact fun _ _ _ => nofun

theorem calm_terminate (n : Node) (c : ConnectionId) (reason : Option WireError) :
    n.Calm [] (n.terminate c reason) := by
  cases hOpen : n.isOpen c with
  | false =>
    rw [terminate_of_not_open hOpen]
    exact .refl n
  | true =>
    obtain ⟨connection, hFind, hIsOpen⟩ := isOpen_iff.mp hOpen
    have hGivenUp := calm_giveUp hFind hIsOpen
    have hShut := (wanes_abandon (n.modifyConnection c Connection.afterClosing)
      connection.listeners).not_open (not_open_afterClosing n c)
    unfold terminate
    rw [hFind]
    simp only [hIsOpen, Bool.not_true, Bool.false_eq_true, if_false]
    generalize hMiddle : (if connection.reading = true then _ else _ : Node) = middle
    have hHungUp : n.Calm [] middle ∧ middle.isOpen c = false := by
      subst hMiddle
      split
      · exact ⟨hGivenUp.next (calm_emit _ rfl rfl), hShut⟩
      · exact ⟨hGivenUp, hShut⟩
    have hStruck := hHungUp.1.next (calm_strike middle c)
    have hStillShut : (middle.strike c).isOpen c = false := hHungUp.2
    split
    · exact hStruck
    · exact (hStruck.next (calm_detach (not_openFor hStillShut))).next (calm_fireClosed _ _ _)

theorem calm_closeSession (n : Node) (s : SessionId) : n.Calm [] (n.closeSession s) := by
  unfold closeSession
  split
  · exact .refl n
  next c hCurrent =>
    rw [unlink_eq_detach hCurrent]
    refine .of_detached (not_openFor (s := s) ?_) (calm_terminate (n.detach s c) c none)
    cases hOpen : (n.detach s c).isOpen c with
    | false =>
      rw [terminate_of_not_open hOpen]
      exact hOpen
    | true =>
      obtain ⟨connection, hFind, hIsOpen⟩ := isOpen_iff.mp hOpen
      exact (wanes_terminate_of_open hFind hIsOpen none).not_open (not_open_afterClosing _ c)

theorem calm_closeAll (n : Node) : n.Calm [] n.closeAll := by
  have hDrained : n.Calm [] { n with roster := .empty } :=
    .of_eq rfl rfl rfl (Nat.le_refl _) rfl rfl
  exact hDrained.next (calm_foldl (fun n c => calm_terminate n c none) _ _)

theorem calm_stopReading (n : Node) (c : ConnectionId) (reason : WireError) :
    n.Calm [] (n.stopReading c reason) := by
  unfold stopReading
  split
  · exact calm_terminate n c _
  · have hStopped := calm_adjustConnection (n := n) (c := c)
      (f := fun connection => { connection with reading := false }) (fun _ => rfl) (fun _ => rfl)
      fun _ => rfl
    exact hStopped.next (calm_emit _ rfl rfl)

/-- A connection whose handshake has not begun, or is over, is refused. -/
theorem calm_refuse (h : n.handshake? c = none) (cause : WireError) :
    n.Calm [] (n.refuse c cause) := by
  refine Calm.next ?_ (calm_emit _ rfl rfl)
  apply calm_modifyConnection
  · intro old hOld
    unfold handshake? at h
    rw [hOld] at h
    exact h.symm
  · exact fun _ _ => nofun
  · exact fun _ _ _ hMem => .inl hMem

/-! ## Messages -/

/-- Whoever waits for a response to the request is exposed anyhow. -/
theorem calm_sendRequest {m : Message} {ls : List (Listener Target)}
    (h : ∀ l ∈ ls, ∀ k, l.target.call? = some k → n.Exposed k) :
    n.Calm [] (n.sendRequest c m ls).2 := by
  unfold sendRequest
  split
  · exact .refl n
  next connection hConnection =>
    split
    · exact .refl n
    · exact .refl n
    next outstanding hOutstanding _ =>
      refine Calm.next (calm_expect fun old hOld l hMem => ?_) (calm_emit _ rfl rfl)
      obtain rfl := Option.some.inj (hOld.symm.trans hConnection)
      rcases Outstanding.mem_listeners_insert hMem with hMem | hMem
      · rw [Connection.listeners_of_some hOutstanding]
        exact .inl hMem
      · exact .inr (h l hMem)

theorem calm_withdraw {uid : Int64} {t : Outstanding Target} {ls : List (Listener Target)}
    (h : (((n.connections.find? c).bind (·.outstanding)).bind fun t =>
      (t.find? uid).map (t, ·)) = some (t, ls)) :
    n.Calm [] (n.modifyConnection c fun connection =>
      { connection with outstanding := some (t.erase uid) }) := by
  apply calm_expect
  intro old hOld l hMem
  rw [Connection.listeners_of_some (outstanding_of_find? h old hOld)]
  exact .inl (Outstanding.mem_listeners_erase hMem)

/-- The calls that wait for the responses to one request are exposed. -/
theorem targeted_of_listener {uid : Int64} {t : Outstanding Target} {ls : List (Listener Target)}
    (h : (((n.connections.find? c).bind (·.outstanding)).bind fun t =>
      (t.find? uid).map (t, ·)) = some (t, ls)) {l : Listener Target} (hMem : l ∈ ls)
    (hTarget : l.target.call? = some k) : n.Targeted k := by
  obtain ⟨t', hTable, hEntry⟩ := Option.bind_eq_some_iff.mp h
  obtain ⟨connection, hFind, hOutstanding⟩ := Option.bind_eq_some_iff.mp hTable
  obtain ⟨ls', hFound, hPair⟩ := Option.map_eq_some_iff.mp hEntry
  cases hPair
  refine .listens hFind ?_ hTarget
  rw [Connection.listeners_of_some hOutstanding]
  exact Outstanding.mem_listeners_of_find? hFound hMem

theorem calm_forget (n : Node) (c : ConnectionId) (uid : Int64) :
    n.Calm [] (n.forget c uid).2 := by
  unfold forget
  split
  · exact .refl n
  next hFound =>
    exact (calm_withdraw hFound).abandon fun l hMem k hTarget =>
      .inl (targeted_of_listener hFound hMem hTarget)

theorem calm_respond (n : Node) (c : ConnectionId) (m : Message) : n.Calm [] (n.respond c m) := by
  unfold respond
  split
  · exact .refl n
  · split
    · exact calm_emit n rfl rfl
    · exact .refl n

theorem calm_takeResponse (n : Node) (c : ConnectionId) (m : Message) :
    n.Calm [] (n.takeResponse c m) := by
  unfold takeResponse
  split
  · exact .refl n
  next t ls hFound =>
    have hWaits : ∀ l ∈ ls, ∀ k, l.target.call? = some k → n.Exposed k :=
      fun l hMem k hTarget => .inl (targeted_of_listener hFound hMem hTarget)
    dsimp only
    split
    next l hChosen =>
      obtain ⟨before, after, rfl, -⟩ := Outstanding.chosen?_eq_some_iff.mp hChosen
      have hMem : l ∈ before ++ l :: after := List.mem_append_right before List.mem_cons_self
      exact (calm_withdraw hFound).handOver m (hWaits l hMem)
    · exact (calm_withdraw hFound).abandon hWaits

/-- Who waits for a response waits no longer. -/
theorem calm_lapse (n : Node) (k : CallId) (cause : Call → ServiceError) :
    n.Calm [] (n.lapse k cause) := by
  unfold lapse
  split
  · exact .refl n
  next call hCall =>
    split
    next c hStage =>
      have hFinished := (Calm.refl n).finish (.error (cause call)) fun _ =>
        .inr ⟨call, c, hCall, hStage⟩
      exact hFinished.next (calm_forget _ _ _)
    · exact .refl n

theorem calm_skipCall (n : Node) : n.Calm [] { n with nextCall := n.nextCall + 1 } :=
  .of_eq rfl rfl rfl (Nat.le_succ _) rfl rfl

theorem calm_fail (n : Node) (cause : ServiceError) : n.Calm [] (n.fail cause).2 :=
  (calm_skipCall n).next (calm_emit _ rfl rfl)

/-- The owner waits for responses to a request of its own. -/
theorem calm_post (n : Node) (c : ConnectionId) (code : UInt8) (payload : Bytes)
    (codes : List UInt8) : n.Calm [] (n.post c code payload codes).2.2 := by
  apply (calm_skipCall n).next
  apply calm_sendRequest
  intro l hMem k hTarget
  obtain ⟨code, -, rfl⟩ := List.mem_map.mp hMem
  cases hTarget

theorem calm_decline (n : Node) (outcome : Except ServiceError Line) :
    n.Calm [] (n.decline outcome) := by
  unfold decline
  split
  · exact calm_emit n rfl rfl
  · exact .refl n

theorem calm_cancelDials (n : Node) : n.Calm [] n.cancelDials := by
  have hCancelled : n.Calm [] { n with dialsCancelled := true } :=
    .of_eq rfl rfl rfl (Nat.le_refl _) rfl rfl
  apply hCancelled.next
  apply calm_foldl
  intro n' e
  split
  · exact .refl n'
  · exact calm_emit n' rfl rfl

/-! ## Directories -/

theorem calm_commit (n : Node) (change : Directory.Change) : n.Calm [] (n.commit change) := by
  have hChanged : n.Calm [] { n with directory := change.1 } :=
    .of_eq rfl rfl rfl (Nat.le_refl _) rfl rfl
  exact hChanged.next (calm_foldl (fun n' _ => calm_emit n' rfl rfl) _ _)

theorem calm_exchangeSoon (n : Node) (p : PeerAddress) : n.Calm [] (n.exchangeSoon p) :=
  calm_emit n rfl rfl

theorem calm_add (n : Node) (r : PeerRecord) : n.Calm [] (n.add r) :=
  (calm_commit n _).next (calm_exchangeSoon _ _)

theorem calm_update {r : PeerRecord} (h : n.update r = .ok n') : n.Calm [] n' := by
  unfold update at h
  cases hUpdate : n.directory.update r with
  | error e =>
    rw [hUpdate] at h
    cases h
  | ok change =>
    rw [hUpdate] at h
    cases h
    exact (calm_commit n change).next (calm_exchangeSoon _ _)

theorem calm_grant {p : PeerAddress} {ids : List ServiceId} {descriptors : List Descriptor}
    (h : n.grant p ids descriptors = .ok n') : n.Calm [] n' := by
  unfold grant at h
  cases hGrant : n.directory.grant p ids descriptors with
  | error e =>
    rw [hGrant] at h
    cases h
  | ok change =>
    rw [hGrant] at h
    cases h
    exact (calm_commit n change).next (calm_exchangeSoon _ _)

theorem calm_delete (n : Node) (p : PeerAddress) : n.Calm [] (n.delete p) := by
  have hDeleted : n.Calm [] { n with
      directory := (n.directory.delete p).1, exchanges := n.exchanges.erase p } :=
    .of_eq rfl rfl rfl (Nat.le_refl _) rfl rfl
  unfold delete
  cases n.exchanges.find? p with
  | none => exact hDeleted.next (calm_commit _ _)
  | some s => exact (hDeleted.next (calm_closeSession _ s)).next (calm_commit _ _)

theorem calm_deactivate (n : Node) (service : ServiceId) : n.Calm [] (n.deactivate service) := by
  unfold deactivate
  split
  · exact .refl n
  · have hUnlisted : n.Calm [] (n.unlist service) := .of_eq rfl rfl rfl (Nat.le_refl _) rfl rfl
    exact hUnlisted.next (calm_commit _ _)

theorem calm_closeExchanges (n : Node) : n.Calm [] n.closeExchanges := by
  have hForgotten : n.Calm [] { n with exchanges := .empty } :=
    .of_eq rfl rfl rfl (Nat.le_refl _) rfl rfl
  exact hForgotten.next (calm_foldl calm_closeSession _ _)

theorem calm_leave (n : Node) : n.Calm [] n.leave := by
  have hLeft : n.closeExchanges.Calm []
      { n.closeExchanges with listening := false, shutDown := true } :=
    .of_eq rfl rfl rfl (Nat.le_refl _) rfl rfl
  exact ((calm_closeExchanges n).next hLeft).next (calm_closeAll _)

theorem calm_shutdown (n : Node) : n.Calm [] n.shutdown := by
  unfold shutdown
  split
  · exact .refl n
  · exact (calm_cancelDials n).next (calm_leave _)

/-! ## Messages that are taken -/

theorem calm_takeExchange (p : PeerAddress) (m : Message) (h : n.Exposed k) :
    n.Calm [] (n.takeExchange k p m) := by
  unfold takeExchange
  split
  · exact (Calm.refl n).finish _ fun _ => h
  · split
    · exact (Calm.refl n).finish _ fun _ => h
    · exact (calm_commit n _).finish _ fun _ => h

theorem calm_deliver {l : Listener Target} (m : Message)
    (h : ∀ k, l.target.call? = some k → n.Exposed k) : n.Calm [] (n.deliver l m) := by
  unfold deliver
  split
  next k form hTarget => exact (Calm.refl n).finish _ fun _ => h k (by rw [hTarget]; rfl)
  next k p hTarget => exact calm_takeExchange p m (h k (by rw [hTarget]; rfl))
  · exact calm_emit n rfl rfl

theorem calm_answerExchange (n : Node) (p : Option PeerAddress) (m : Message) :
    n.Calm [] (n.answerExchange p m).2 := by
  unfold answerExchange
  split
  · exact .refl n
  · exact .refl n
  · split
    · exact .refl n
    · exact calm_commit n _

theorem calm_dispatch (n : Node) (c : ConnectionId) (m : Message) :
    n.Calm [] (n.dispatch c m) := by
  unfold dispatch
  split
  · exact .refl n
  next s _ =>
    dsimp only
    split
    · exact calm_respond n c _
    · split
      · have hAnswered := calm_answerExchange n (n.peerOf? s) m
        generalize n.answerExchange (n.peerOf? s) m = answered at hAnswered ⊢
        obtain ⟨answer, n'⟩ := answered
        cases answer <;> exact hAnswered.next (calm_respond n' c _)
      · exact calm_respond n c _
    · split
      · exact calm_respond n c _
      next handler _ =>
        generalize handler _ m = reaction
        have hClosed : n.Calm [] (if reaction.closes then n.closeSession s else n) := by
          split
          · exact calm_closeSession n s
          · exact .refl n
        split
        · exact hClosed.next (calm_respond _ c _)
        · exact hClosed
        · exact hClosed.next (calm_respond _ c _)

theorem calm_takeMessage (n : Node) (c : ConnectionId) (frame : Received) :
    n.Calm [] (n.takeMessage c frame) := by
  unfold takeMessage
  split
  · split
    · exact calm_dispatch n c _
    · exact calm_takeResponse n c _
  · exact .refl n
  · exact calm_stopReading n c _

/-! ## New connections -/

/-- A connection comes about. -/
def join (n : Node) (line : Line) (stage : Connection.Stage) : Node :=
  { n with connections := n.connections.insert line.id (Connection.create line stage) }

/-- A new connection is not open. -/
theorem openFor_join {line : Line} {stage : Connection.Stage}
    (h : (n.join line stage).OpenFor c s) : n.OpenFor c s := by
  obtain ⟨connection, hFind, hOpen, hSession⟩ := h
  rcases SortedMap.find?_insert_eq_some hFind with ⟨-, rfl⟩ | ⟨-, hFind⟩
  · cases hSession
  · exact ⟨connection, hFind, hOpen, hSession⟩

/-- Nobody waits for a response on it. -/
theorem targeted_join {line : Line} {stage : Connection.Stage}
    (h : (n.join line stage).Targeted k) : n.Targeted k := by
  cases h with
  | listens hFind hMem hTarget =>
    rcases SortedMap.find?_insert_eq_some hFind with ⟨-, rfl⟩ | ⟨-, hFind⟩
    · cases hMem
    · exact .listens hFind hMem hTarget
  | takes hMem hTarget => exact .takes hMem hTarget

/-- A connection comes about whose handshake has not begun. -/
theorem calm_join {line : Line} (issued : Challenge) (h : n.connections.find? line.id = none) :
    n.Calm [] (n.join line (.naming issued)) where
  handshake c := by
    unfold handshake? join
    by_cases hc : c = line.id
    · subst hc
      rw [SortedMap.find?_insert_self, h]
      rfl
    · rw [SortedMap.find?_insert_of_ne hc]
  lineup _ := rfl
  openFor _ _ := openFor_join
  attached _ _ _ := Iff.rfl
  calls _ _ hCall := hCall
  ended _ _ hCall := .inl hCall
  targeted _ hTargeted := .inl (targeted_join hTargeted)
  nextCall := Nat.le_refl _
  nextSession := rfl
  cues := rfl
  tells := .of_same rfl rfl

theorem calm_accept {line : Line} (h : n.connections.find? line.id = none) :
    n.Calm [] (n.accept line) :=
  ((calm_join line.issued h).next (calm_emit _ rfl rfl)).next (calm_emit _ rfl rfl)

end Node

end PeerServices
