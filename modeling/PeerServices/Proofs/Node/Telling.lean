import PeerServices.Proofs.Node.Linking

/-!
# Changes of calls and of the sessions for exchanges

* `Node.goes_calls`: calls are made, changed and ended.
* `Node.goes_fire`: the owner of a session is told something, and the session is kept for exchanges
  or dropped with that.
* `Node.goes_keep`, `Node.Sound.forget`: the same without telling anybody.
-/

namespace PeerServices.Node

variable {n n' : Node}

/-! ## Calls -/

theorem goes_calls {calls : SortedMap CallId Call} {next : CallId} (hNext : n.nextCall ≤ next)
    (hCalls : n.Sound → ∀ k call, calls.find? k = some call → k < next ∧
      (∀ attempts socket, call.stage = .dialling attempts socket → n.Proxies call.session) ∧
      ((∃ old, n.calls.find? k = some old ∧ old.session = call.session) ∨ n.nextCall ≤ k)) :
    Goes n { n with calls, nextCall := next } := by
  intro hSound
  have hCalls := hCalls hSound
  have hCleared : ∀ k, n.Cleared k → ({ n with calls, nextCall := next } : Node).Cleared k := by
    intro k hCleared
    refine ⟨Nat.lt_of_lt_of_le hCleared.1 hNext, fun call hCall => ?_⟩
    rcases (hCalls k call hCall).2.2 with ⟨old, hOld, hSame⟩ | hNew
    · exact hSame ▸ hCleared.2 old hOld
    · exact absurd hCleared.1 (Nat.not_lt.mpr hNew)
  refine ⟨⟨⟨hSound.numbered.session, fun k call hCall => (hCalls k call hCall).1,
    hSound.numbered.unheard⟩, ⟨?_, ?_, ?_⟩, hSound.linked.of_eq rfl rfl rfl,
    ⟨hSound.kept.suits, hSound.kept.lasting, hSound.kept.heard⟩⟩, ?_⟩
  · intro k call attempts socket hCall hStage
    exact (hCalls k call hCall).2.1 attempts socket hStage
  · intro k hMem
    exact hCleared k (hSound.calling.released k hMem)
  · intro s session k hSession hMem
    exact hCleared k (hSound.calling.waiting s session k hSession hMem)
  · exact ⟨.refl n, [], (List.append_nil _).symm, fun _ _ h => .inl h⟩

theorem goes_modifyCall {k : CallId} {f : Call → Call}
    (hCall : n.Sound → ∀ call, n.calls.find? k = some call → (f call).session = call.session ∧
      ∀ attempts socket, (f call).stage = .dialling attempts socket → n.Proxies call.session) :
    Goes n (n.modifyCall k f) := by
  apply goes_calls (Nat.le_refl _)
  intro hSound k' call hFind
  rcases SortedMap.find?_modify_eq_some hFind with ⟨rfl, old, hOld, rfl⟩ | ⟨_, hFind⟩
  · obtain ⟨hSame, hDialling⟩ := hCall hSound old hOld
    refine ⟨hSound.numbered.call k' old hOld, fun attempts socket hStage => ?_,
      .inl ⟨old, hOld, hSame.symm⟩⟩
    rw [hSame]
    exact hDialling attempts socket hStage
  · exact ⟨hSound.numbered.call k' call hFind,
      fun attempts socket => hSound.calling.dialling k' call attempts socket hFind,
      .inl ⟨call, hFind, rfl⟩⟩

theorem goes_finish (n : Node) (k : CallId) (result : Reply.Result) :
    Goes n (n.finish k result) := by
  unfold finish
  split
  · have hErase : Goes n { n with calls := n.calls.erase k } := by
      apply goes_calls (Nat.le_refl _)
      intro hSound k' call hFind
      obtain ⟨_, hFind⟩ := SortedMap.find?_erase_eq_some hFind
      exact ⟨hSound.numbered.call k' call hFind,
        fun attempts socket => hSound.calling.dialling k' call attempts socket hFind,
        .inl ⟨call, hFind, rfl⟩⟩
    apply hErase.trans
    exact goes_emit fun _ => ⟨fun _ _ => nofun, fun _ => nofun⟩
  · exact Goes.refl n

/-! ## Hooks -/

section Hooks

variable {s : SessionId} {session : Session}

theorem suits_of_peerOf? (h : n.sessions.find? s = some session)
    (hBehaviour : session.behaviour = .exchange) {p : PeerAddress} (hPeer : n.peerOf? s = some p) :
    session.Suits n.connections p := by
  refine ⟨hBehaviour, ?_, ?_⟩
  · intro hProxy
    exact Option.some.inj ((peerOf?_of_isProxy h hProxy).symm.trans hPeer)
  · intro hServing c connection hCurrent hFind hOpen
    obtain ⟨c', connection', hCurrent', hFind', _, hPeer'⟩ := (peerOf?_eq_some h hServing).mp hPeer
    obtain rfl := Option.some.inj (hCurrent.symm.trans hCurrent')
    obtain rfl := Option.some.inj (hFind.symm.trans hFind')
    exact hPeer'

/-- Nobody is at the other side of a session that waits for its handshake. -/
theorem Reserved.peerOf? {c : ConnectionId} (h : n.Reserved c s) : n.peerOf? s = none := by
  obtain ⟨session, hSession, hServing, hCurrent⟩ := h.serving
  exact peerOf?_of_current hSession hServing hCurrent

/-- What may become of the sessions for exchanges when the owner of a session is told something. -/
structure Follows (n : Node) (s : SessionId) (session : Session) (h : Session.Hook)
    (kept : SortedMap PeerAddress SessionId) : Prop where
  stays : ∀ p s', kept.find? p = some s' →
    (n.exchanges.find? p = some s' ∧ (s' = s → h.ended? = some true → ¬n.Proxies s)) ∨
      (s' = s ∧ session.behaviour = .exchange ∧ n.peerOf? s = some p ∧
        ∃ view, h = .connected view ∧ view.peer = some p)
  lost : ∀ p s', n.exchanges.find? p = some s' → kept.find? p = some s' ∨
    (s' = s ∧ h.ended? = some true ∧ n.Proxies s) ∨
    (s' ≠ s ∧ ∃ view, h = .connected view ∧ view.peer = some p)

theorem Follows.keeps {h : Session.Hook} {kept : SortedMap PeerAddress SessionId}
    (hFollows : n.Follows s session h kept) (hKept : n.Kept)
    (hKnown : n.sessions.find? s = some session) :
    ({ n with effects := n.effects ++ [.hook s h], exchanges := kept } : Node).Kept := by
  have hTold : ∀ s', ({ n with
      effects := n.effects ++ [.hook s h], exchanges := kept } : Node).hasEnded s' =
        if s = s' then h.ended?.getD (n.hasEnded s') else n.hasEnded s' :=
    fun _ => List.foldl_append
  constructor
  · intro p s' hFind
    rcases hFollows.stays p s' hFind with ⟨hFind, _⟩ | ⟨rfl, hBehaviour, hPeer, _⟩
    · exact hKept.suits p s' hFind
    · exact ⟨session, hKnown, suits_of_peerOf? hKnown hBehaviour hPeer⟩
  · intro p s' hFind hProxies
    rw [hTold]
    rcases hFollows.stays p s' hFind with ⟨hFind, hOnly⟩ | ⟨rfl, _, _, view, rfl, _⟩
    · have hBefore := hKept.lasting p s' hFind hProxies
      by_cases hSame : s = s'
      · subst hSame
        rw [if_pos rfl, hBefore]
        cases hEnded : h.ended? with
        | none => rfl
        | some ended =>
          cases ended with
          | false => rfl
          | true => exact absurd hProxies (hOnly rfl hEnded)
      · rw [if_neg hSame, hBefore]
    · rw [if_pos rfl]
      rfl
  · intro p s' hFind
    rcases hFollows.stays p s' hFind with ⟨hFind, _⟩ | ⟨rfl, _, _, view, rfl, hView⟩
    · exact (hKept.heard p s' hFind).imp_right (HasHeard.append [.hook s h])
    · exact .inr ⟨view, List.mem_append_right _ (List.mem_singleton_self _), hView⟩

theorem goes_told (hKnown : n.sessions.find? s = some session) {h : Session.Hook}
    {kept : SortedMap PeerAddress SessionId} (hFollows : n.Sound → n.Follows s session h kept) :
    Goes n { n with effects := n.effects ++ [.hook s h], exchanges := kept } := by
  intro hSound
  have hFollows := hFollows hSound
  refine ⟨⟨⟨hSound.numbered.session, hSound.numbered.call, ?_⟩,
    ⟨hSound.calling.dialling, ?_, hSound.calling.waiting⟩,
    ⟨hSound.linked.connecting, ?_, hSound.linked.current, hSound.linked.attached,
      hSound.linked.outstanding⟩, hFollows.keeps hSound.kept hKnown⟩, ⟨.refl n, _, rfl, ?_⟩⟩
  · intro s' hLe
    have hLt := hSound.numbered.session s session hKnown
    have hOther : s ≠ s' := Nat.ne_of_lt (Nat.lt_of_lt_of_le hLt hLe)
    refine List.foldl_append.trans ?_
    exact (if_neg hOther).trans (hSound.numbered.unheard s' hLe)
  · intro k hMem
    rcases List.mem_append.mp hMem with hMem | hMem
    · exact hSound.calling.released k hMem
    · cases List.mem_singleton.mp hMem
  · intro c connection s' rest hFind hStage
    have hReserved := hSound.linked.accepting c connection s' rest hFind hStage
    refine ⟨hReserved.serving, hReserved.alone, hReserved.unattached, fun p hFind => ?_⟩
    rcases hFollows.stays p s' hFind with ⟨hFind, _⟩ | ⟨rfl, _, hPeer, _⟩
    · exact hReserved.unkept p hFind
    · rw [hReserved.peerOf?] at hPeer
      cases hPeer
  · intro p s' hFind
    rcases hFollows.lost p s' hFind with hFind | ⟨rfl, hEnded, hProxies⟩ | ⟨hOther, view, rfl, hPeer⟩
    · exact .inl hFind
    · exact .inr (.inl ⟨hProxies, h, hEnded, List.mem_singleton_self _⟩)
    · exact .inr (.inr ⟨s, view, hOther.symm, List.mem_singleton_self _, hPeer⟩)

theorem goes_fire_connected (hKnown : n.sessions.find? s = some session)
    (hBehaviour : session.behaviour = .exchange) {view : Session.View}
    (hView : view.peer = n.peerOf? s) : Goes n (n.fire s (.connected view)) := by
  obtain ⟨kept, hEq, hSpec⟩ := (n.emit (.hook s (.connected view))).keepExchange_spec s
  rw [fire_connected hKnown hBehaviour, hEq]
  apply goes_told hKnown
  intro _
  constructor
  · intro p s' hFind
    rcases (hSpec p s').1 hFind with hFind | ⟨rfl, hPeer⟩
    · exact .inl ⟨hFind, fun _ => nofun⟩
    · exact .inr ⟨rfl, hBehaviour, hPeer, view, rfl, hView.trans hPeer⟩
  · intro p s' hFind
    rcases (hSpec p s').2 hFind with hFind | ⟨hOther, hPeer⟩
    · exact .inl hFind
    · exact .inr (.inr ⟨hOther, view, rfl, hView.trans hPeer⟩)

theorem goes_fire_ended (hKnown : n.sessions.find? s = some session)
    (hBehaviour : session.behaviour = .exchange) {h : Session.Hook} (hEnded : h.ended? = some true)
    (hEnding : n.Sound → n.Proxies s ∨ n.peerOf? s = none) : Goes n (n.fire s h) := by
  obtain ⟨kept, hEq, hSpec⟩ := (n.emit (.hook s h)).dropExchange_spec s
  rw [fire_ended hKnown hBehaviour hEnded, hEq]
  apply goes_told hKnown
  intro hSound
  constructor
  · intro p s' hFind
    obtain ⟨hFind, hOnly⟩ := (hSpec p s').1 hFind
    refine .inl ⟨hFind, ?_⟩
    rintro rfl _ ⟨session', hSession, hProxy⟩
    obtain ⟨_, hSuited, hSuits⟩ := hSound.kept.suits p s' hFind
    obtain rfl := Option.some.inj (hSession.symm.trans hSuited)
    apply hOnly
    refine ⟨rfl, (peerOf?_of_isProxy hSession hProxy).trans ?_⟩
    rw [hSuits.host hProxy]
  · intro p s' hFind
    rcases (hSpec p s').2 hFind with hFind | ⟨rfl, hPeer⟩
    · exact .inl hFind
    · rcases hEnding hSound with hProxies | hNone
      · exact .inr (.inl ⟨rfl, hEnded, hProxies⟩)
      · cases hPeer.symm.trans hNone

/-- A session that loses its connection has nobody at the other side any more, unless it connects;
then it is dropped. -/
theorem goes_fire {h : Session.Hook}
    (hConnected : ∀ view, h = .connected view → view.peer = n.peerOf? s)
    (hEnding : n.Sound → h.ended? = some true → n.Proxies s ∨ n.peerOf? s = none) :
    Goes n (n.fire s h) := by
  cases hKnown : n.sessions.find? s with
  | none =>
    rw [fire_none hKnown]
    exact Goes.refl n
  | some session =>
    by_cases hBehaviour : session.behaviour = .exchange
    · cases hEnded : h.ended? with
      | none =>
        obtain rfl := Session.Hook.eq_configured hEnded
        rw [fire_configured hKnown]
        apply goes_told hKnown
        exact fun _ => ⟨fun _ _ hFind => .inl ⟨hFind, fun _ => nofun⟩, fun _ _ => .inl⟩
      | some ended =>
        cases ended with
        | true => exact goes_fire_ended hKnown hBehaviour hEnded fun hSound => hEnding hSound hEnded
        | false =>
          obtain ⟨view, rfl⟩ := Session.Hook.eq_connected hEnded
          exact goes_fire_connected hKnown hBehaviour (hConnected view rfl)
    · rw [fire_of_application hKnown hBehaviour]
      apply goes_told hKnown
      intro hSound
      refine ⟨fun p s' hFind => .inl ⟨hFind, ?_⟩, fun _ _ => .inl⟩
      rintro rfl
      obtain ⟨session', hSession, hSuits⟩ := hSound.kept.suits p s' hFind
      obtain rfl := Option.some.inj (hKnown.symm.trans hSession)
      exact absurd hSuits.behaviour hBehaviour

end Hooks

/-! ## Sessions for exchanges -/

/-- Sessions for exchanges can be forgotten. -/
theorem Sound.forget (h : n.Sound) {kept : SortedMap PeerAddress SessionId}
    (hKept : ∀ p s, kept.find? p = some s → n.exchanges.find? p = some s) :
    ({ n with exchanges := kept } : Node).Sound := by
  refine ⟨⟨h.numbered.session, h.numbered.call, h.numbered.unheard⟩,
    ⟨h.calling.dialling, h.calling.released, h.calling.waiting⟩,
    ⟨h.linked.connecting, ?_, h.linked.current, h.linked.attached, h.linked.outstanding⟩,
    ⟨?_, ?_, ?_⟩⟩
  · intro c connection s rest hFind hStage
    obtain ⟨hServing, hAlone, hUnattached, hUnkept⟩ :=
      h.linked.accepting c connection s rest hFind hStage
    exact ⟨hServing, hAlone, hUnattached, fun p hFind => hUnkept p (hKept p s hFind)⟩
  · exact fun p s hFind => h.kept.suits p s (hKept p s hFind)
  · exact fun p s hFind => h.kept.lasting p s (hKept p s hFind)
  · exact fun p s hFind => h.kept.heard p s (hKept p s hFind)

/-- A session that connects to a peer can be kept for exchanges with it. -/
theorem goes_keep {p : PeerAddress} {s : SessionId} {session : Session}
    (hNone : n.exchanges.find? p = none) (hSession : n.sessions.find? s = some session)
    (hProxy : session.isProxy = true) (hBehaviour : session.behaviour = .exchange)
    (hHost : session.address.host = p) (hEnded : n.hasEnded s = false) :
    Goes n { n with exchanges := n.exchanges.insert p s } := by
  intro hSound
  refine ⟨⟨⟨hSound.numbered.session, hSound.numbered.call, hSound.numbered.unheard⟩,
    ⟨hSound.calling.dialling, hSound.calling.released, hSound.calling.waiting⟩,
    ⟨hSound.linked.connecting, ?_, hSound.linked.current, hSound.linked.attached,
      hSound.linked.outstanding⟩, ⟨?_, ?_, ?_⟩⟩, .refl n, [], (List.append_nil _).symm, ?_⟩
  · intro c connection s' rest hFind hStage
    obtain ⟨hServing, hAlone, hUnattached, hUnkept⟩ :=
      hSound.linked.accepting c connection s' rest hFind hStage
    refine ⟨hServing, hAlone, hUnattached, fun p' hFind => ?_⟩
    rcases SortedMap.find?_insert_eq_some hFind with ⟨_, rfl⟩ | ⟨_, hFind⟩
    · obtain ⟨session', hSession', hIsServing, _⟩ := hServing
      obtain rfl := Option.some.inj (hSession.symm.trans hSession')
      rw [hProxy] at hIsServing
      cases hIsServing
    · exact hUnkept p' hFind
  · intro p' s' hFind
    rcases SortedMap.find?_insert_eq_some hFind with ⟨rfl, rfl⟩ | ⟨_, hFind⟩
    · refine ⟨session, hSession, hBehaviour, fun _ => hHost, fun hServing => ?_⟩
      rw [hProxy] at hServing
      cases hServing
    · exact hSound.kept.suits p' s' hFind
  · intro p' s' hFind hProxies
    rcases SortedMap.find?_insert_eq_some hFind with ⟨_, rfl⟩ | ⟨_, hFind⟩
    · exact hEnded
    · exact hSound.kept.lasting p' s' hFind hProxies
  · intro p' s' hFind
    rcases SortedMap.find?_insert_eq_some hFind with ⟨_, rfl⟩ | ⟨_, hFind⟩
    · exact .inl ⟨session, hSession, hProxy⟩
    · exact hSound.kept.heard p' s' hFind
  · intro p' s' hFind
    apply Or.inl
    have hKey : p' ≠ p := by
      rintro rfl
      rw [hNone] at hFind
      cases hFind
    exact (SortedMap.find?_insert_of_ne hKey _ _).trans hFind

end PeerServices.Node
