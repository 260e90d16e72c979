import PeerServices.Node.Start
import PeerServices.Proofs.Node.Preservation

/-!
# The course of a node

A node begins with nothing, and takes one move after another: its owner does something with it, or
something happens to it. Nobody takes its effects here, so they tell all that it ever did.

* `Node.Move`, `Node.make`: the moves.
* `Node.Reachable`: a node in its course. `Node.Reachable.sound`: it is sound.
* `Node.make_outlives`: what a move does to the sessions for exchanges.
-/

namespace PeerServices.Node

/-- What happens to a node, or what its owner does with it. An exchange of grants that the owner
asks for is an event like one that is due. -/
inductive Move
  | event (e : Event)
  | add (r : PeerRecord)
  | update (r : PeerRecord)
  | grant (peer : PeerAddress) (ids : List ServiceId) (descriptors : List Descriptor)
  | delete (peer : PeerAddress)
  | deleteService (side : GrantSide) (service : ServiceAddress)
  | purge (service : ServiceAddress)
  | proxy (address : ServiceAddress) (mode : Mode) (behaviour : Behaviour)
  | request (s : SessionId) (timeout : Duration) (code : UInt8) (payload : Bytes)
      (forms : List (UInt8 × Reply.Form)) (resolved : Option Reply.Result)
  | post (c : ConnectionId) (code : UInt8) (payload : Bytes) (codes : List UInt8)
  | close (s : SessionId)
  | activate (service : Service)
  | unlist (id : ServiceId)
  | deactivate (id : ServiceId)
  /-- A way to a peer is known, or is known no longer. -/
  | route (peer : PeerAddress) (socket : Option SocketAddress)
  /-- Whether sessions can connect, and whether exchanges can begin one. -/
  | restrict (connects exchangeConnects : Bool)
  | cancelDials
  | closeExchanges
  | leave
  | shutdown

/-- What a move makes of a node. -/
def make (n : Node) : Move → Node
  | .event e => n.handle e
  | .add r => n.add r
  | .update r =>
    match n.update r with
    | .ok n' => n'
    | .error _ => n
  | .grant peer ids descriptors =>
    match n.grant peer ids descriptors with
    | .ok n' => n'
    | .error _ => n
  | .delete peer => n.delete peer
  | .deleteService side service => n.deleteService side service
  | .purge service => n.purge service
  | .proxy address mode behaviour => (n.proxy address mode behaviour).2
  | .request s timeout code payload forms resolved =>
    (n.request s timeout code payload forms resolved).2
  | .post c code payload codes => (n.post c code payload codes).2.2
  | .close s => n.closeSession s
  | .activate service => n.activate service
  | .unlist id => n.unlist id
  | .deactivate id => n.deactivate id
  | .route peer (some socket) => { n with routes := n.routes.insert peer socket }
  | .route peer none => { n with routes := n.routes.erase peer }
  | .restrict connects exchangeConnects => { n with connects, exchangeConnects }
  | .cancelDials => n.cancelDials
  | .closeExchanges => n.closeExchanges
  | .leave => n.leave
  | .shutdown => n.shutdown

/-- Can a move be made? -/
def Permits (n : Node) : Move → Prop
  | .event e => n.Allows e
  | _ => True

/-- A move by which the owner gives up the session for exchanges with a peer. -/
def Move.Forgets (p : PeerAddress) : Move → Prop
  | .delete peer => peer = p
  | .closeExchanges | .leave | .shutdown => True
  | _ => False

/-- A node that nothing has happened to. -/
structure Blank (n : Node) : Prop where
  connections : n.connections = .empty
  sessions : n.sessions = .empty
  calls : n.calls = .empty
  exchanges : n.exchanges = .empty
  roster : n.roster = .empty
  effects : n.effects = []

/-- A node in its course. -/
inductive Reachable : Node → Prop
  | blank {n : Node} (h : n.Blank) : Reachable n
  | make {n : Node} (h : Reachable n) (m : Move) (hPermits : n.Permits m) : Reachable (n.make m)

/-! ## What a move does to the sessions for exchanges -/

/-- The sessions for exchanges outlive a step, but for those that the step gives up. -/
def Moves (n n' : Node) (forgets : PeerAddress → Prop) : Prop :=
  n.Sound → n'.Sound ∧ ∃ new, n'.effects = n.effects ++ new ∧
    ∀ p s, n.exchanges.find? p = some s → ¬forgets p → Outlives n n' new p s

variable {n n' : Node} {forgets : PeerAddress → Prop}

theorem Goes.moves (h : Goes n n') : Moves n n' forgets := by
  intro hSound
  obtain ⟨hSound', hChanges⟩ := h hSound
  obtain ⟨new, hNew, hOutlives⟩ := hChanges.effects
  exact ⟨hSound', new, hNew, fun p s hFind _ => hOutlives p s hFind⟩

/-- First some sessions for exchanges are given up, then the node goes on. -/
theorem Goes.moves_of_forget (kept : SortedMap PeerAddress SessionId)
    (hKept : ∀ p s, kept.find? p = some s → n.exchanges.find? p = some s)
    (hGiven : ∀ p s, n.exchanges.find? p = some s → ¬forgets p → kept.find? p = some s)
    (h : Goes { n with exchanges := kept } n') : Moves n n' forgets := by
  intro hSound
  obtain ⟨hSound', hChanges⟩ := h (hSound.forget hKept)
  obtain ⟨new, hNew, hOutlives⟩ := hChanges.effects
  exact ⟨hSound', new, hNew, fun p s hFind hNot => hOutlives p s (hGiven p s hFind hNot)⟩

theorem moves_delete (n : Node) (p : PeerAddress) : Moves n (n.delete p) (p = ·) := by
  apply Goes.moves_of_forget (n.exchanges.erase p)
  · exact fun _ _ hFind => (SortedMap.find?_erase_eq_some hFind).2
  · exact fun q s hFind hNot => (SortedMap.find?_erase_of_ne (fun h => hNot h.symm) _).trans hFind
  · have hDeleted : Goes { n with exchanges := n.exchanges.erase p }
        { n with directory := (n.directory.delete p).1, exchanges := n.exchanges.erase p } :=
      Goes.of_eq rfl rfl rfl rfl rfl rfl rfl
    unfold delete
    cases n.exchanges.find? p with
    | none => exact hDeleted.trans (goes_commit _ _)
    | some s => exact (hDeleted.trans (goes_closeSession _ s)).trans (goes_commit _ _)

theorem goes_closeExchanges (n : Node) :
    Goes { n with exchanges := .empty } n.closeExchanges :=
  goes_foldl (fun n s => goes_closeSession n s) _ _

theorem moves_closeExchanges (n : Node) : Moves n n.closeExchanges fun _ => True :=
  (goes_closeExchanges n).moves_of_forget .empty (fun _ _ => nofun) fun _ _ _ hNot =>
    absurd trivial hNot

theorem goes_leave (n : Node) : Goes { n with exchanges := .empty } n.leave := by
  apply (goes_closeExchanges n).trans
  apply Goes.trans _ (goes_closeAll _)
  exact Goes.of_eq rfl rfl rfl rfl rfl rfl rfl

theorem moves_leave (n : Node) : Moves n n.leave fun _ => True :=
  (goes_leave n).moves_of_forget .empty (fun _ _ => nofun) fun _ _ _ hNot => absurd trivial hNot

theorem moves_shutdown (n : Node) : Moves n n.shutdown fun _ => True := by
  unfold shutdown
  split
  · exact (Goes.refl n).moves
  · intro hSound
    obtain ⟨hSound', hChanges⟩ := goes_cancelDials n hSound
    obtain ⟨hSound'', new', hNew', _⟩ := moves_leave n.cancelDials hSound'
    obtain ⟨new, hNew, _⟩ := hChanges.effects
    refine ⟨hSound'', new ++ new', by rw [hNew', hNew, List.append_assoc], ?_⟩
    exact fun _ _ _ hNot => absurd trivial hNot

theorem make_outlives {m : Move} (h : n.Permits m) : Moves n (n.make m) fun p => m.Forgets p := by
  cases m with
  | event e => exact (goes_handle h).moves
  | add r => exact (goes_add n r).moves
  | update r =>
    cases hUpdate : n.update r with
    | ok n' =>
      simp only [make, hUpdate]
      exact (goes_update hUpdate).moves
    | error e =>
      simp only [make, hUpdate]
      exact (Goes.refl n).moves
  | grant peer ids descriptors =>
    cases hGrant : n.grant peer ids descriptors with
    | ok n' =>
      simp only [make, hGrant]
      exact (goes_grant hGrant).moves
    | error e =>
      simp only [make, hGrant]
      exact (Goes.refl n).moves
  | delete peer => exact moves_delete n peer
  | deleteService side service => exact (goes_deleteService n side service).moves
  | purge service => exact (goes_purge n service).moves
  | proxy address mode behaviour =>
    have hUnused : (Session.create address mode true behaviour).Unused := ⟨rfl, rfl⟩
    exact (goes_newSession hUnused).moves
  | request s timeout code payload forms resolved =>
    exact (goes_request n s timeout code payload forms resolved).moves
  | post c code payload codes => exact (goes_post n c code payload codes).moves
  | close s => exact (goes_closeSession n s).moves
  | activate service | unlist id | restrict connects exchangeConnects =>
    apply Goes.moves
    exact Goes.of_eq rfl rfl rfl rfl rfl rfl rfl
  | deactivate id => exact (goes_deactivate n id).moves
  | route peer socket =>
    apply Goes.moves
    cases socket <;> exact Goes.of_eq rfl rfl rfl rfl rfl rfl rfl
  | cancelDials => exact (goes_cancelDials n).moves
  | closeExchanges => exact moves_closeExchanges n
  | leave => exact moves_leave n
  | shutdown => exact moves_shutdown n

/-! ## Every node in its course is sound -/

theorem Blank.sound (h : n.Blank) : n.Sound := by
  have hConnection : ∀ c connection, n.connections.find? c ≠ some connection := by
    simp [h.connections]
  have hSession : ∀ s session, n.sessions.find? s ≠ some session := by
    simp [h.sessions]
  have hCall : ∀ k call, n.calls.find? k ≠ some call := by
    simp [h.calls]
  have hExchange : ∀ p s, n.exchanges.find? p ≠ some s := by
    simp [h.exchanges]
  refine ⟨⟨?_, ?_, ?_⟩, ⟨?_, ?_, ?_⟩, ⟨?_, ?_, ?_, ?_, ?_⟩, ⟨?_, ?_, ?_⟩⟩
  · exact fun s session hFind => absurd hFind (hSession s session)
  · exact fun k call hFind => absurd hFind (hCall k call)
  · intro s _
    unfold hasEnded
    rw [h.effects]
    rfl
  · exact fun k call _ _ hFind => absurd hFind (hCall k call)
  · intro k hMem
    rw [h.effects] at hMem
    cases hMem
  · exact fun s session _ hFind => absurd hFind (hSession s session)
  · exact fun c connection _ _ _ hFind => absurd hFind (hConnection c connection)
  · exact fun c connection _ _ hFind => absurd hFind (hConnection c connection)
  · exact fun s session _ hFind => absurd hFind (hSession s session)
  · exact fun c connection _ hFind => absurd hFind (hConnection c connection)
  · exact fun c connection hFind => absurd hFind (hConnection c connection)
  · exact fun p s hFind => absurd hFind (hExchange p s)
  · exact fun p s hFind => absurd hFind (hExchange p s)
  · exact fun p s hFind => absurd hFind (hExchange p s)

theorem Reachable.sound (h : n.Reachable) : n.Sound := by
  induction h with
  | blank h => exact h.sound
  | make _ m hPermits ih => exact (make_outlives hPermits ih).1

/-- The course of a node that is started begins with what it was started with. -/
theorem reachable_start {s : Settings} {drawn : Keypair} {bound : Except String SocketAddress}
    {socket : SocketAddress} (h : start s drawn bound = .ok (n, socket)) : n.Reachable := by
  have hAdds : ∀ (introductions : List Introduction) (n : Node), n.Reachable →
      (introductions.foldl (fun n i => n.add (.create i.address i.name)) n).Reachable := by
    intro introductions
    induction introductions with
    | nil => exact fun _ hReachable => hReachable
    | cons i rest ih => exact fun n hReachable => ih _ (hReachable.make (.add _) trivial)
  unfold start at h
  simp only [bind, Except.bind, pure, Except.pure] at h
  split at h
  · cases h
  · split at h
    · cases h
    · split at h
      · cases h
      · cases h
        apply hAdds
        refine (Reachable.blank ?_).make (.activate _) trivial
        exact ⟨rfl, rfl, rfl, rfl, rfl, rfl⟩

end PeerServices.Node
