import PeerServices.Proofs.Node.Pacing

/-!
# Handshakes of one call at a time

A handshake begins only for a session that has no connection attached and for which no other one is
under way, and so it leaves every other attempt alone; a connection that it opens is the only one
that is attached to its session.

* `Node.Paced.reconnect`: at most one handshake begins. `Node.Paced.engage`, `Node.Paced.reach`: it
  is for a connection that is there, or for a new one.
* `Node.Ready`: only one handshake is under way for a session. `Node.Paced.attach`: its connection is
  opened.
-/

namespace PeerServices.Node

variable {n n' : Node} {c : ConnectionId} {s : SessionId} {k : CallId} {taken : List Cue}

/-! ## Handshakes -/

theorem handshake?_modifyConnection_of_ne {c' : ConnectionId} (hc : c' ≠ c)
    (f : Connection → Connection) : (n.modifyConnection c f).handshake? c' = n.handshake? c' := by
  unfold handshake?
  rw [find?_modifyConnection_of_ne _ hc]

/-- A handshake is over for a connection that is closed. -/
theorem handshake?_closed {f : Connection → Connection} (hStage : ∀ old, (f old).stage = .closed) :
    (n.modifyConnection c f).handshake? c = none := by
  unfold handshake?
  rw [find?_modifyConnection_self]
  cases n.connections.find? c with
  | none => rfl
  | some old =>
    change (f old).handshake? = none
    unfold Connection.handshake?
    rw [hStage]

/-- No handshake is under way that was not before. -/
theorem handshake?_of_closed {f : Connection → Connection}
    (hStage : ∀ old, (f old).stage = .closed) {c' : ConnectionId} {p : SessionId × Option CallId}
    (h : (n.modifyConnection c f).handshake? c' = some p) : c' ≠ c ∧ n.handshake? c' = some p := by
  by_cases hc : c' = c
  · subst hc
    cases (handshake?_closed hStage).symm.trans h
  · exact ⟨hc, (handshake?_modifyConnection_of_ne hc f).symm.trans h⟩

/-- No connection is opened by a change after which it is not open. -/
theorem openFor_of_shut {f : Connection → Connection} (hShut : ∀ old, (f old).isOpen = false)
    {c' : ConnectionId} (h : (n.modifyConnection c f).OpenFor c' s) : n.OpenFor c' s := by
  obtain ⟨connection, hFind, hIsOpen, hSession⟩ := h
  rcases SortedMap.find?_modify_eq_some hFind with ⟨rfl, old, -, rfl⟩ | ⟨-, hFind⟩
  · cases (hShut old).symm.trans hIsOpen
  · exact ⟨connection, hFind, hIsOpen, hSession⟩

/-- No connection is opened, and at most one handshake begins, for a session for which none is under
way. -/
theorem Locked.reconnect (h : n.Locked) {connections : SortedMap ConnectionId Connection}
    (new : Option (SessionId × Option CallId))
    (hHandshake : ∀ c' p, ({ n with connections } : Node).handshake? c' = some p →
      (c' = c ∧ new = some p) ∨ n.handshake? c' = some p)
    (hOpen : ∀ c' s, ({ n with connections } : Node).OpenFor c' s → n.OpenFor c' s)
    (hCalls : ∀ s k, new = some (s, some k) → n.Holds s k ∧ n.Unattached s ∧ n.CallAt k s .reached)
    (hServes : ∀ s, new = some (s, none) → n.Accepts s ∧ n.Unattached s)
    (hAlone : ∀ c' p, new = some p → n.handshake? c' = some p → c' = c) :
    ({ n with connections } : Node).Locked := by
  have hStill : ∀ {s}, n.Unattached s → ({ n with connections } : Node).Unattached s :=
    fun hNone => hNone.mono (fun c' => hOpen c' _) fun _ _ => id
  constructor
  case lock =>
    rintro s k (hDialling | ⟨c', hSome⟩)
    · exact (h.lock s k (.inl hDialling)).imp_right hStill
    · rcases hHandshake c' _ hSome with ⟨-, hNew⟩ | hSome
      · obtain ⟨hHolds, hUnattached, -⟩ := hCalls s k hNew
        exact ⟨hHolds, hStill hUnattached⟩
      · exact (h.lock s k (.inr ⟨c', hSome⟩)).imp_right hStill
  case reached =>
    intro c' s k hSome
    rcases hHandshake c' _ hSome with ⟨-, hNew⟩ | hSome
    · exact (hCalls s k hNew).2.2
    · exact h.reached c' s k hSome
  case serving =>
    intro c' s hSome
    rcases hHandshake c' _ hSome with ⟨-, hNew⟩ | hSome
    · exact (hServes s hNew).imp_right hStill
    · exact (h.serving c' s hSome).imp_right hStill
  case single =>
    intro c' c'' p hSome hSome'
    rcases hHandshake c' _ hSome with ⟨rfl, hNew⟩ | hSome
    · rcases hHandshake c'' _ hSome' with ⟨rfl, -⟩ | hSome'
      · rfl
      · exact hAlone c'' p hNew hSome'
    · rcases hHandshake c'' _ hSome' with ⟨rfl, hNew⟩ | hSome'
      · exact (hAlone c' p hNew hSome).symm
      · exact h.single c' c'' p hSome hSome'

/-- The connections may change if besides nobody waits for a response who did not before. -/
theorem Paced.reconnect (h : n.Paced taken) {connections : SortedMap ConnectionId Connection}
    (hLocked : ({ n with connections } : Node).Locked)
    (hTargeted : ∀ k, ({ n with connections } : Node).Targeted k → n.Targeted k) :
    ({ n with connections } : Node).Paced taken where
  toLocked := hLocked
  toLined := h.toLined.mono (fun _ => rfl) rfl fun _ _ _ => id
  toTracked := h.toTracked.mono (fun _ => rfl) (fun _ _ => id)
    (fun k hTarget => .inl (hTargeted k hTarget)) (Nat.le_refl _) rfl

/-- What becomes of a connection that is not open, and that nobody waits on any more than before. -/
theorem Paced.engage (h : n.Paced taken) {f : Connection → Connection}
    (new : Option (SessionId × Option CallId))
    (hNew : ∀ old, n.connections.find? c = some old → (f old).handshake? = new)
    (hShut : ∀ old, (f old).isOpen = false)
    (hOutstanding : ∀ old, (f old).outstanding = old.outstanding)
    (hCalls : ∀ s k, new = some (s, some k) → n.Holds s k ∧ n.Unattached s ∧ n.CallAt k s .reached)
    (hServes : ∀ s, new = some (s, none) → n.Accepts s ∧ n.Unattached s)
    (hAlone : ∀ c' p, new = some p → n.handshake? c' = some p → c' = c) :
    (n.modifyConnection c f).Paced taken := by
  refine h.reconnect (h.toLocked.reconnect new (fun c' p hSome => ?_) (fun c' s hOpen => ?_) hCalls
    hServes hAlone) fun k hTargeted => ?_
  · obtain ⟨connection, hFind, hOf⟩ := Option.bind_eq_some_iff.mp hSome
    rcases SortedMap.find?_modify_eq_some hFind with ⟨rfl, old, hOld, rfl⟩ | ⟨-, hFind⟩
    · exact .inl ⟨rfl, (hNew old hOld).symm.trans hOf⟩
    · exact .inr (Option.bind_eq_some_iff.mpr ⟨connection, hFind, hOf⟩)
  · exact openFor_of_shut hShut hOpen
  · cases hTargeted with
    | listens hFind hMem hTarget =>
      rcases SortedMap.find?_modify_eq_some hFind with ⟨rfl, old, hOld, rfl⟩ | ⟨-, hFind⟩
      · unfold Connection.listeners at hMem
        rw [hOutstanding] at hMem
        exact .listens hOld hMem hTarget
      · exact .listens hFind hMem hTarget
    | takes hMem hTarget => exact .takes hMem hTarget

/-- A connection that is not open is closed for good. -/
theorem Paced.shut (h : n.Paced taken) {f : Connection → Connection}
    (hStage : ∀ old, (f old).stage = .closed)
    (hOutstanding : ∀ old, (f old).outstanding = old.outstanding) :
    (n.modifyConnection c f).Paced taken := by
  refine h.engage none (fun old _ => ?_) (fun old => Connection.isOpen_of_closed (hStage old))
    hOutstanding (fun _ _ => nofun) (fun _ => nofun) fun _ _ => nofun
  unfold Connection.handshake?
  rw [hStage]

/-- The host of a call was reached, and the handshake begins. -/
theorem Paced.reach (h : n.Paced taken) (line : Line) (hAt : n.CallAt k s .reached)
    (hIdle : ∀ c s', n.handshake? c ≠ some (s', some k)) (hHolds : n.Holds s k)
    (hUnattached : n.Unattached s) (rest : Received → Dialogue Handshake.Result) :
    (n.join line (.connecting s k rest)).Paced taken := by
  refine h.reconnect (h.toLocked.reconnect (c := line.id) (some (s, some k))
    (fun c' p hSome => ?_) (fun c' s' hOpen => openFor_join hOpen) (fun s' k' hNew => ?_)
    (fun _ => nofun) fun c' p hNew hSome => ?_) fun k' hTargeted => targeted_join hTargeted
  · obtain ⟨connection, hFind, hOf⟩ := Option.bind_eq_some_iff.mp hSome
    rcases SortedMap.find?_insert_eq_some hFind with ⟨rfl, rfl⟩ | ⟨-, hFind⟩
    · exact .inl ⟨rfl, hOf⟩
    · exact .inr (Option.bind_eq_some_iff.mpr ⟨connection, hFind, hOf⟩)
  · cases hNew
    exact ⟨hHolds, hUnattached, hAt⟩
  · cases hNew
    exact absurd hSome (hIdle c' s)

/-! ## Opening -/

/-- No attempt is made for a session but the handshake on one connection, and no open one is
attached. -/
structure Ready (n : Node) (c : ConnectionId) (s : SessionId) : Prop where
  known : n.Knows s
  undialled : ∀ k, ¬n.Dialling s k
  alone : ∀ c' k?, n.handshake? c' = some (s, k?) → c' = c
  own : ∀ p, n.handshake? c = some p → p.1 = s
  unattached : n.Unattached s

theorem handshake?_attach {record? : Option PeerRecord} {c' : ConnectionId}
    {p : SessionId × Option CallId} :
    (n.attach c s record?).handshake? c' = some p ↔ c' ≠ c ∧ n.handshake? c' = some p := by
  unfold handshake?
  by_cases hc : c' = c
  · subst hc
    refine iff_of_false (fun hSome => ?_) fun hSome => hSome.1 rfl
    obtain ⟨connection, hFind, hOf⟩ := Option.bind_eq_some_iff.mp hSome
    change (n.modifyConnection c' _).connections.find? c' = _ at hFind
    rw [find?_modifyConnection_self] at hFind
    obtain ⟨old, -, rfl⟩ := Option.map_eq_some_iff.mp hFind
    cases hOf
  · rw [find?_attach_of_ne hc]
    exact (and_iff_right hc).symm

theorem openFor_attach {record? : Option PeerRecord} {c' : ConnectionId} {s' : SessionId}
    (h : (n.attach c s record?).OpenFor c' s') :
    (c' = c ∧ s' = s) ∨ (c' ≠ c ∧ n.OpenFor c' s') := by
  obtain ⟨connection, hFind, hOpen, hSession⟩ := h
  rcases SortedMap.find?_modify_eq_some hFind with ⟨rfl, old, -, rfl⟩ | ⟨hc, hFind⟩
  · cases hSession
    exact .inl ⟨rfl, rfl⟩
  · exact .inr ⟨hc, connection, hFind, hOpen, hSession⟩

theorem lineup?_attach (record? : Option PeerRecord) (s' : SessionId) :
    (n.attach c s record?).lineup? s' = n.lineup? s' :=
  lineup?_modifySession (n := (n.modifyConnection c _).enlist c)
    (f := fun session => { session with current := some c }) (fun _ => rfl) s'

/-- A session is attached to another connection than before only if it is the one whose connection
is opened. -/
theorem attached_attach {record? : Option PeerRecord} {c' : ConnectionId} {s' : SessionId}
    (hs : s' ≠ s) : (n.attach c s record?).Attached s' c' ↔ n.Attached s' c' := by
  unfold Attached
  change (∃ session, (n.sessions.modify s _).find? s' = some session ∧ _) ↔ _
  rw [SortedMap.find?_modify_of_ne hs]

theorem attached_attach_self {session : Session} (hSession : n.sessions.find? s = some session)
    {record? : Option PeerRecord} {c' : ConnectionId} :
    (n.attach c s record?).Attached s c' ↔ c' = c := by
  constructor
  · rintro ⟨new, hNew, hLinked⟩
    obtain rfl := Option.some.inj ((attach_session_self hSession).symm.trans hNew)
    exact (Option.some.inj hLinked).symm
  · rintro rfl
    exact ⟨_, attach_session_self hSession, rfl⟩

theorem targeted_attach {record? : Option PeerRecord} (h : (n.attach c s record?).Targeted k) :
    n.Targeted k := by
  cases h with
  | listens hFind hMem hTarget =>
    rcases SortedMap.find?_modify_eq_some hFind with ⟨rfl, old, -, rfl⟩ | ⟨-, hFind⟩
    · cases hMem
    · exact .listens hFind hMem hTarget
  | takes hMem hTarget => exact .takes hMem hTarget

/-- Once its connection is opened, nobody tries to connect a session any more. -/
theorem Ready.not_trying (h : n.Ready c s) (record? : Option PeerRecord) :
    ¬(n.attach c s record?).Trying s := by
  rintro (⟨k, hDialling⟩ | ⟨c', k?, hHandshake⟩)
  · exact h.undialled k hDialling
  · obtain ⟨hOther, hHandshake⟩ := handshake?_attach.mp hHandshake
    exact hOther (h.alone c' k? hHandshake)

theorem Locked.attach (h : n.Locked) (hReady : n.Ready c s) (record? : Option PeerRecord) :
    (n.attach c s record?).Locked := by
  refine h.mono (fun _ _ hSome => (handshake?_attach.mp hSome).2) (fun _ _ => .inl)
    (fun _ _ _ _ => id) (fun s' _ _ => (holds_congr (lineup?_attach record? s')).mpr)
    (fun s' => (accepts_congr (lineup?_attach record? s')).mpr) fun s' hTrying hNone => ?_
  have hs : s' ≠ s := by
    rintro rfl
    exact hReady.not_trying record? hTrying
  exact hNone.mono (fun _ hOpen => ((openFor_attach hOpen).resolve_left (hs ·.2)).2)
    fun _ _ => (attached_attach hs).mp

/-- A connection is attached to its session. -/
theorem Paced.attach (h : n.Paced taken) (hReady : n.Ready c s) (record? : Option PeerRecord) :
    (n.attach c s record?).Paced taken where
  toLocked := h.toLocked.attach hReady record?
  toLined := h.toLined.mono (lineup?_attach record?) rfl fun _ _ _ => id
  toTracked := h.toTracked.mono (lineup?_attach record?) (fun _ _ => id)
    (fun _ hTargeted => .inl (targeted_attach hTargeted)) (Nat.le_refl _) rfl

end PeerServices.Node
