import PeerServices.Proofs.Node.Calling
import PeerServices.Proofs.Node.Replying

/-!
# A failed exchange leaves no trace

An exchange asks a peer for its grants and waits for one response. The first response that comes
while it waits decides: if it can be taken, the record of the peer is changed when the listener
takes it. If it cannot, or none comes before the time is over, the request is lost or the connection
is closed, the exchange ends with an error, and everything is as if it had never been begun.

* `Message.IsAnswer`: a response that can be taken. `Query.received?`: the response that decides.
* `Query.stands`: how far an exchange is, told by the response that decides.
* `Node.Asks`: an exchange waits for its response. `Node.Asked`: what becomes of it.
* `Node.failed_exchange_traceless`: both sides of an exchange.
-/

namespace PeerServices

/-! ## Responses that can be taken -/

/-- A payload that starts with a truth value and, if that is true, with grants behind it. -/
inductive HoldsAnswer : Bytes → Option GrantSet → Prop
  | settled (rest : Bytes) : HoldsAnswer (boolBytes false ++ rest) none
  | pending {data : GrantSet} {behind rest : Bytes}
      (hRead : (Serial.read : Reader GrantSet) behind = .ok (data, rest)) :
      HoldsAnswer (boolBytes true ++ behind) (some data)

/-- A response that an exchange takes. -/
structure Message.IsAnswer (m : Message) (data : Option GrantSet) : Prop where
  status : m.status = .ok
  code : m.code = Node.exchangeCode
  payload : HoldsAnswer m.unread data

theorem exchangeAnswer_eq_ok_iff {payload : Bytes} {data : Option GrantSet} :
    (∃ rest, Node.exchangeAnswer payload = .ok (data, rest)) ↔ HoldsAnswer payload data := by
  unfold Node.exchangeAnswer
  simp only [Reader.bind_eq_ok_iff, Reader.exact_bool _ _ _]
  constructor
  · rintro ⟨rest, isPending, behind, rfl, hRest⟩
    cases isPending with
    | false =>
      cases hRest
      exact .settled _
    | true =>
      obtain ⟨grants, left, hRead, hDone⟩ := Reader.bind_eq_ok_iff.mp hRest
      cases hDone
      exact .pending hRead
  · rintro (⟨rest⟩ | ⟨hRead⟩)
    · exact ⟨rest, false, rest, rfl, rfl⟩
    · exact ⟨_, true, _, rfl, Reader.bind_eq_ok_iff.mpr ⟨_, _, hRead, rfl⟩⟩

theorem Node.offered?_eq_some_iff {m : Message} {data : Option GrantSet} :
    offered? m = some data ↔ m.status = .ok ∧ HoldsAnswer m.unread data := by
  rw [← exchangeAnswer_eq_ok_iff]
  unfold offered? Message.readWith
  cases hStatus : m.status with
  | error => simp
  | ok =>
    cases exchangeAnswer m.unread with
    | error e => simp [bind, Except.bind]
    | ok read => simp [bind, Except.bind, pure, Except.pure, Prod.ext_iff]

/-! ## The response that decides -/

namespace Incident

/-- An incident that belongs to a call: a response to it, its listener's taking one, the end of its
time, the loss of its request. -/
def belongs (q : Query) : Incident → Bool
  | .response _ m _ => m.uid = q.uid
  | .deliver l _ => l.target.call? = some q.call
  | .overdue k => k = q.call
  | .unwritten k => k = q.call
  | _ => false

/-- After such an incident a call waits for no response any more. -/
def Ends (q : Query) : Incident → Prop
  | .overdue k => k = q.call
  | .unwritten k => k = q.call
  | .close _ => True
  | _ => False

end Incident

namespace Query

/-- What happens besides a call. -/
def others (q : Query) (es : List Incident) : List Incident := es.filter fun e => !e.belongs q

/-- The response that comes while the call waits for one. -/
def received? (q : Query) : List Incident → Option Message
  | [] => none
  | .response _ m _ :: es => if m.uid = q.uid then some m else q.received? es
  | .overdue k :: es => if k = q.call then none else q.received? es
  | .unwritten k :: es => if k = q.call then none else q.received? es
  | .close _ :: _ => none
  | _ :: es => q.received? es

/-- The call waits for nothing any more, although no response came. -/
def GivenUp (q : Query) (es : List Incident) : Prop :=
  q.received? es = none ∧ ∃ e ∈ es, e.Ends q

variable {q : Query} {m : Message} {result : Reply.Result} {heard : Option Message}
  {es : List Incident}

theorem next_ended (e : Incident) : q.next (.ended result heard) e = .ended result heard := by
  cases e <;> simp [next, Phase.answer, take, Phase.lapse, Phase.conclude, Phase.cut]

theorem foldl_next_ended (es : List Incident) :
    es.foldl q.next (.ended result heard) = .ended result heard := by
  induction es with
  | nil => rfl
  | cons e es ih => rw [List.foldl_cons, next_ended, ih]

/-- A listener that has a response takes it, unless the time of the call is over before. -/
theorem foldl_next_given (es : List Incident) :
    es.foldl q.next (.given m) = .given m ∨
      ∃ result, es.foldl q.next (.given m) = .ended result (some m) ∧
        (result = q.outcome m ∨ ∃ e, result = .error e) := by
  induction es with
  | nil => exact .inl rfl
  | cons e es ih =>
    have hNext : q.next (.given m) e = .given m ∨
        q.next (.given m) e = .ended (q.outcome m) (some m) ∨
        ∃ cause, q.next (.given m) e = .ended (.error cause) (some m) := by
      cases e with
      | deliver l _ =>
        by_cases hOwn : l.target.call? = some q.call
        · exact .inr (.inl (if_pos hOwn))
        · exact .inl (if_neg hOwn)
      | overdue k | unwritten k =>
        by_cases hOwn : k = q.call
        · exact .inr (.inr ⟨_, if_pos hOwn⟩)
        · exact .inl (if_neg hOwn)
      | response _ message _ => exact .inl (ite_self _)
      | _ => exact .inl rfl
    rw [List.foldl_cons]
    rcases hNext with hNext | hNext | ⟨cause, hNext⟩
    · rw [hNext]
      exact ih
    · rw [hNext, foldl_next_ended]
      exact .inr ⟨_, rfl, .inl rfl⟩
    · rw [hNext, foldl_next_ended]
      exact .inr ⟨_, rfl, .inr ⟨_, rfl⟩⟩

/-- How far a call is that waited for a response. -/
inductive Stands (q : Query) (es : List Incident) : Phase → Prop
  /-- Its listener has the response. -/
  | given (m : Message) (hReceived : q.received? es = some m)
      (hTaken : m.status = .error ∨ m.code = q.code) : Stands q es (.given m)
  /-- Its listener took the response, or the time was over before. -/
  | heard (m : Message) (result : Reply.Result) (hReceived : q.received? es = some m)
      (hTaken : m.status = .error ∨ m.code = q.code)
      (hResult : result = q.outcome m ∨ ∃ e, result = .error e) : Stands q es (.ended result (some m))
  /-- Its listener does not take such a response. -/
  | unheard (m : Message) (hReceived : q.received? es = some m)
      (hPassed : ¬(m.status = .error ∨ m.code = q.code)) :
      Stands q es (.ended (.error Reply.dropped) none)
  /-- No response came in time. -/
  | givenUp (e : ServiceError) (hGivenUp : q.GivenUp es) : Stands q es (.ended (.error e) none)
  | waiting (hNothing : q.received? es = none) (hNever : ¬q.GivenUp es) : Stands q es .waiting

/-- An incident that leaves a waiting call waiting changes nothing about what decides. -/
theorem Stands.cons {φ : Phase} {e : Incident} (h : q.Stands es φ)
    (hReceived : q.received? (e :: es) = q.received? es) (hEnds : ¬e.Ends q) :
    q.Stands (e :: es) φ := by
  have hGivenUp : q.GivenUp (e :: es) ↔ q.GivenUp es := by simp [GivenUp, hReceived, hEnds]
  cases h with
  | given m h hTaken => exact .given m (hReceived.trans h) hTaken
  | heard m result h hTaken hResult => exact .heard m result (hReceived.trans h) hTaken hResult
  | unheard m h hPassed => exact .unheard m (hReceived.trans h) hPassed
  | givenUp e h => exact .givenUp e (hGivenUp.mpr h)
  | waiting h hNever => exact .waiting (hReceived.trans h) (hNever ∘ hGivenUp.mp)

/-- A call that waits for no response any more ends with an error. -/
theorem stands_ended {e : Incident} {cause : ServiceError} (hEnds : e.Ends q)
    (hReceived : q.received? (e :: es) = none)
    (hNext : q.next .waiting e = .ended (.error cause) none) :
    q.Stands (e :: es) (es.foldl q.next (q.next .waiting e)) := by
  rw [hNext, foldl_next_ended]
  exact .givenUp cause ⟨hReceived, e, List.mem_cons_self, hEnds⟩

/-- The first response, the end of the time, the loss of the request and the end of the connection
decide, whichever is first. -/
theorem stands (q : Query) (es : List Incident) : q.Stands es (es.foldl q.next .waiting) := by
  induction es with
  | nil => exact .waiting rfl (by simp [GivenUp])
  | cons e es ih =>
    rw [List.foldl_cons]
    cases e with
    | response frame m hFrame =>
      by_cases hUid : m.uid = q.uid
      · have hReceived : q.received? (.response frame m hFrame :: es) = some m := if_pos hUid
        by_cases hTaken : m.status = .error ∨ m.code = q.code
        · have hNext : q.next .waiting (.response frame m hFrame) = .given m :=
            (if_pos hUid).trans (if_pos hTaken)
          rw [hNext]
          rcases foldl_next_given (q := q) (m := m) es with hGiven | ⟨result, hOver, hResult⟩
          · rw [hGiven]
            exact .given m hReceived hTaken
          · rw [hOver]
            exact .heard m result hReceived hTaken hResult
        · have hNext : q.next .waiting (.response frame m hFrame) =
              .ended (.error Reply.dropped) none := (if_pos hUid).trans (if_neg hTaken)
          rw [hNext, foldl_next_ended]
          exact .unheard m hReceived hTaken
      · have hNext : q.next .waiting (.response frame m hFrame) = .waiting := if_neg hUid
        rw [hNext]
        exact ih.cons (if_neg hUid) id
    | overdue k =>
      by_cases hOwn : k = q.call
      · exact stands_ended hOwn (if_pos hOwn) (if_pos hOwn)
      · have hNext : q.next .waiting (.overdue k) = .waiting := if_neg hOwn
        rw [hNext]
        exact ih.cons (if_neg hOwn) hOwn
    | unwritten k =>
      by_cases hOwn : k = q.call
      · exact stands_ended hOwn (if_pos hOwn) (if_pos hOwn)
      · have hNext : q.next .waiting (.unwritten k) = .waiting := if_neg hOwn
        rw [hNext]
        exact ih.cons (if_neg hOwn) hOwn
    | close reason => exact stands_ended trivial rfl rfl
    | deliver l m =>
      have hNext : q.next .waiting (.deliver l m) = .waiting := ite_self _
      rw [hNext]
      exact ih.cons rfl id
    | _ => exact ih.cons rfl id

theorem Stands.entry?_eq_none {φ : Phase} (h : q.Stands es φ)
    (hOver : (q.received? es).isSome = true ∨ q.GivenUp es) : φ.entry? q = none := by
  cases h with
  | waiting hNothing hNever =>
    rcases hOver with hReceived | hGivenUp
    · rw [hNothing] at hReceived
      cases hReceived
    · exact absurd hGivenUp hNever
  | _ => rfl

theorem Stands.results_of_givenUp {φ : Phase} (h : q.Stands es φ) (hGivenUp : q.GivenUp es) :
    ∃ e, φ.results = [.error e] := by
  cases h with
  | given m hReceived => cases hGivenUp.1.symm.trans hReceived
  | heard m result hReceived => cases hGivenUp.1.symm.trans hReceived
  | unheard => exact ⟨_, rfl⟩
  | givenUp e => exact ⟨e, rfl⟩
  | waiting hNothing hNever => exact absurd hGivenUp hNever

end Query

/-! ## An exchange that waits -/

namespace Node

/-- An exchange with a peer waits for its response on a connection. No other request has its uid, and
nobody else answers it. -/
structure Asks (n : Node) (q : Query) (p : PeerAddress) : Prop where
  aim : q.aim = .grants p
  code : q.code = exchangeCode
  hosts : n.Hosts q .waiting (n.without q)

/-- What becomes of an exchange with a peer that waits for its response. -/
structure Asked (n : Node) (q : Query) (p : PeerAddress) (es : List Incident) : Prop where
  taken : ∀ m data, q.received? es = some m → m.IsAnswer data →
    let before := n.play q.connection es
    let after := before.deliver q.listener m
    let change := before.directory.exchanged p data
    (q.listener, m) ∈ before.deliveries ∧ after.directory = change.1 ∧
      after.changes = before.changes ++ change.2 ∧
      ((before.directory.find? p).isSome = true → after.changes ≠ before.changes)
  stored : ∀ m data r, q.received? es = some m → m.IsAnswer data →
    let before := n.play q.connection es
    before.directory.find? p = some r →
      before.directory.Takes r data (before.deliver q.listener m).directory
  failed : (∀ m, q.received? es = some m → ∀ data, ¬m.IsAnswer data) →
    let after := n.play q.connection es
    let otherwise := (n.without q).play q.connection (q.others es)
    after.without q = otherwise ∧ after.directory = otherwise.directory ∧
      after.changes = otherwise.changes ∧ ∀ result ∈ after.results q.call, ∃ e, result = .error e
  refused : ∀ m, q.received? es = some m → (∀ data, ¬m.IsAnswer data) →
    let after := n.play q.connection es
    (∃ e, after.results q.call = [.error e]) ∨
      (q.listener, m) ∈ after.deliveries ∧
        ∃ e, (after.deliver q.listener m).results q.call = [.error e]
  givenUp : q.GivenUp es → ∃ e, (n.play q.connection es).results q.call = [.error e]
  late : (q.received? es).isSome = true ∨ q.GivenUp es → ∀ frame m,
    (Frame.decode Message frame = .ok m ∧ m.kind = .response) → m.uid = q.uid →
      (n.play q.connection es).receive q.connection frame = n.play q.connection es

section Exchange

variable {n m : Node} {q : Query} {φ : Query.Phase} {p : PeerAddress} {es : List Incident}
  {e : Incident} {message : Message} {data : Option GrantSet}

theorem changes_without (n : Node) (q : Query) : (n.without q).changes = n.changes := by
  unfold changes without
  dsimp only
  induction n.effects with
  | nil => rfl
  | cons e effects ih =>
    cases hAbout : e.isAbout q.call with
    | false =>
      rw [List.filter_cons_of_pos (by simp [hAbout]), List.filterMap_cons, List.filterMap_cons, ih]
    | true =>
      have hSilent : e.change? = none := by
        cases e with
        | changed event => cases hAbout
        | _ => rfl
      rw [List.filter_cons_of_neg (by simp [hAbout]), List.filterMap_cons, hSilent, ih]

theorem changes_finish (n : Node) (k : CallId) (result : Reply.Result) :
    (n.finish k result).changes = n.changes := by
  unfold finish
  split
  · exact changes_emit rfl
  · rfl

theorem directory_finish (n : Node) (k : CallId) (result : Reply.Result) :
    (n.finish k result).directory = n.directory := by
  unfold finish
  split <;> rfl

/-! ### Responses that fail -/

theorem adopt_of_vain (h : offered? message = none) : n.adopt q message = n := by
  unfold adopt
  rw [h]
  split
  next hSome => cases hSome
  · rfl

theorem outcome_of_vain (hAim : q.aim = .grants p) (h : offered? message = none) :
    ∃ e, q.outcome message = .error e := by
  unfold Query.outcome
  unfold offered? at h
  split
  · exact ⟨_, rfl⟩
  next hError =>
    rw [if_neg hError] at h
    rw [hAim]
    dsimp only
    cases hRead : message.readWith exchangeAnswer with
    | error e => exact ⟨_, rfl⟩
    | ok read =>
      rw [hRead] at h
      cases h

/-- Whoever has taken a response keeps it. -/
theorem heard?_next (h : φ.heard? = some message) (e : Incident) :
    (q.next φ e).heard? = some message := by
  cases φ with
  | ended result heard => rw [Query.next_ended, h]
  | given response =>
    obtain rfl := Option.some.inj h
    rcases Query.foldl_next_given (q := q) (m := response) [e] with hGiven | ⟨result, hOver, -⟩
    · exact congrArg Query.Phase.heard? hGiven
    · exact congrArg Query.Phase.heard? hOver
  | _ => cases h

/-- What belongs to the call changes nothing without it, unless a response is taken. -/
theorem Hosts.perform_beside (h : n.Hosts q φ m) (hFair : e.IsFair n q)
    (hBelongs : e.belongs q = true)
    (hVain : ∀ message, φ.heard? = some message → offered? message = none) :
    e.perform m q.connection = m := by
  cases e with
  | response frame message hFrame => exact h.receive_beside hFrame (of_decide_eq_true hBelongs)
  | deliver l message =>
    have hTarget : l.target.call? = some q.call := of_decide_eq_true hBelongs
    have hHanded : (l, message) ∈ n.handed q.call :=
      List.mem_filter.mpr ⟨hFair hTarget, hBelongs⟩
    obtain ⟨rfl, hHeard⟩ := h.shows.of_mem_handed hHanded
    exact (h.deliver_beside message).trans (adopt_of_vain (hVain message hHeard))
  | overdue k | unwritten k =>
    obtain rfl : k = q.call := of_decide_eq_true hBelongs
    exact h.lapse_beside _
  | _ => cases hBelongs

/-- Without a call that took no response, there is no difference between what happened and what
happened besides it. -/
theorem Hosts.play_others (h : n.Hosts q φ m) (hFair : n.Fair q es)
    (hVain : ∀ message, (es.foldl q.next φ).heard? = some message → offered? message = none) :
    m.play q.connection es = m.play q.connection (q.others es) := by
  induction es using concat_induction with
  | nil => rfl
  | concat es e ih =>
    rw [List.foldl_append] at hVain
    have hBefore : ∀ message, (es.foldl q.next φ).heard? = some message →
        offered? message = none := fun message hHeard => hVain message (heard?_next hHeard e)
    have hRest := ih hFair.before hBefore
    have hPlayed := h.play hFair.before
    unfold Query.others at hRest ⊢
    rw [play_concat, List.filter_append]
    cases hBelongs : e.belongs q with
    | false =>
      have hKept : [e].filter (fun e => !e.belongs q) = [e] := by simp [hBelongs]
      rw [hKept, play_concat, hRest]
    | true =>
      have hGone : [e].filter (fun e => !e.belongs q) = [] := by simp [hBelongs]
      rw [hGone, List.append_nil, ← hRest]
      exact hPlayed.perform_beside (hFair es e [] rfl) hBelongs hBefore

/-! ### The course of an exchange -/

/-- If the response that decides cannot be taken, or none came, nothing that the listener has can. -/
theorem Asks.vain (h : n.Asks q p) (hStands : q.Stands es φ)
    (hVain : ∀ m, q.received? es = some m → ∀ data, ¬m.IsAnswer data) :
    ∀ message, φ.heard? = some message → offered? message = none := by
  have hNone : ∀ m, q.received? es = some m → (m.status = .error ∨ m.code = q.code) →
      offered? m = none := by
    intro m hReceived hTaken
    rw [Option.eq_none_iff_forall_ne_some]
    intro data hOffered
    obtain ⟨hStatus, hPayload⟩ := offered?_eq_some_iff.mp hOffered
    have hCode : m.code = q.code := hTaken.resolve_left (by rw [hStatus]; nofun)
    exact hVain m hReceived data ⟨hStatus, hCode.trans h.code, hPayload⟩
  intro message hHeard
  cases hStands with
  | given m hReceived hTaken =>
    obtain rfl := Option.some.inj hHeard
    exact hNone _ hReceived hTaken
  | heard m result hReceived hTaken _ =>
    obtain rfl := Option.some.inj hHeard
    exact hNone _ hReceived hTaken
  | _ => cases hHeard

theorem results_of_vain (hAim : q.aim = .grants p) (hStands : q.Stands es φ)
    (hVain : ∀ message, φ.heard? = some message → offered? message = none) :
    ∀ result ∈ φ.results, ∃ e, result = .error e := by
  intro result hMem
  cases hStands with
  | heard m given hReceived hTaken hResult =>
    obtain rfl := List.mem_singleton.mp hMem
    rcases hResult with rfl | hError
    · exact outcome_of_vain hAim (hVain m rfl)
    · exact hError
  | unheard => exact ⟨_, List.mem_singleton.mp hMem⟩
  | givenUp e => exact ⟨e, List.mem_singleton.mp hMem⟩
  | _ => cases hMem

/-- The listener of an exchange takes a response. -/
theorem deliver_answer (h : n.Asks q p) (before : Node) (hAnswer : message.IsAnswer data) :
    before.deliver q.listener message =
      (before.commit (before.directory.exchanged p data)).finish q.call (q.outcome message) := by
  have hOffered := offered?_eq_some_iff.mpr ⟨hAnswer.status, hAnswer.payload⟩
  have hAdopt : before.adopt q message = before.commit (before.directory.exchanged p data) := by
    unfold adopt
    rw [h.aim, hOffered]
  rw [deliver_listener, hAdopt]

theorem exchanged_changes_ne_nil (d : Directory) (data : Option GrantSet)
    (hKnown : (d.find? p).isSome = true) : (d.exchanged p data).2 ≠ [] := by
  obtain ⟨r, hFind⟩ := Option.isSome_iff_exists.mp hKnown
  unfold Directory.exchanged Directory.finishExchange
  rw [hFind]
  simp

/-- An answer that decides is what the listener has. -/
theorem Asks.heard?_of_answer (h : n.Asks q p) (hStands : q.Stands es φ)
    (hReceived : q.received? es = some message) (hAnswer : message.IsAnswer data) :
    φ.heard? = some message := by
  cases hStands with
  | given m hReceived' => exact hReceived'.symm.trans hReceived
  | heard m _ hReceived' => exact hReceived'.symm.trans hReceived
  | unheard m hReceived' hPassed =>
    obtain rfl := Option.some.inj (hReceived'.symm.trans hReceived)
    exact absurd (.inr (hAnswer.code.trans h.code.symm)) hPassed
  | givenUp e hGivenUp => cases hGivenUp.1.symm.trans hReceived
  | waiting hNothing => cases hNothing.symm.trans hReceived

/-- A response that is no answer ends the exchange with an error, as soon as its listener has taken
it. -/
theorem Hosts.refused (h : n.Hosts q φ m) (hAim : q.aim = .grants p) (hStands : q.Stands es φ)
    (hReceived : q.received? es = some message)
    (hVain : ∀ m, φ.heard? = some m → offered? m = none) :
    (∃ e, n.results q.call = [.error e]) ∨
      (q.listener, message) ∈ n.deliveries ∧
        ∃ e, (n.deliver q.listener message).results q.call = [.error e] := by
  have hErrors := results_of_vain hAim hStands hVain
  have hResults := h.shows.results
  cases hStands with
  | given m' hReceived' =>
    obtain rfl := Option.some.inj (hReceived'.symm.trans hReceived)
    have hHanded := h.shows.mem_handed rfl
    obtain ⟨e, hError⟩ := outcome_of_vain hAim (hVain m' rfl)
    refine .inr ⟨(List.mem_filter.mp hHanded).1, e, ?_⟩
    rw [(h.read hHanded).shows.results, ← hError]
    rfl
  | heard m' result =>
    obtain ⟨e, rfl⟩ := hErrors result (List.mem_singleton_self _)
    exact .inl ⟨e, hResults⟩
  | unheard => exact .inl ⟨_, hResults⟩
  | givenUp e => exact .inl ⟨e, hResults⟩
  | waiting hNothing => cases hNothing.symm.trans hReceived

theorem Asks.asked (h : n.Asks q p) (hFair : n.Fair q es) : n.Asked q p es := by
  have hHosts := h.hosts.play hFair
  have hStands := q.stands es
  constructor
  case taken =>
    intro m data hReceived hAnswer before after change
    have hDelivered : after = _ := deliver_answer h before hAnswer
    have hHanded := hHosts.shows.mem_handed (h.heard?_of_answer hStands hReceived hAnswer)
    have hChanges : after.changes = before.changes ++ change.2 := by
      rw [hDelivered, changes_finish, changes_commit]
    refine ⟨(List.mem_filter.mp hHanded).1, ?_, hChanges, fun hKnown hSame => ?_⟩
    · rw [hDelivered, directory_finish, directory_commit]
    · rw [hChanges] at hSame
      exact exchanged_changes_ne_nil _ data hKnown (List.append_right_eq_self.mp hSame)
  case stored =>
    intro m data r hReceived hAnswer before hKnown
    rw [deliver_answer h before hAnswer, directory_finish, directory_commit]
    exact Directory.takes_exchanged hKnown data
  case failed =>
    intro hVain after otherwise
    have hUnheard := h.vain hStands hVain
    have hSame : after.without q = otherwise :=
      hHosts.same.trans (h.hosts.play_others hFair hUnheard)
    refine ⟨hSame, ?_, ?_, ?_⟩
    · rw [← hSame]
      rfl
    · rw [← hSame, changes_without]
    · rw [hHosts.shows.results]
      exact results_of_vain h.aim hStands hUnheard
  case refused =>
    intro m hReceived hVain after
    refine hHosts.refused h.aim hStands hReceived (h.vain hStands fun m' hReceived' => ?_)
    obtain rfl := Option.some.inj (hReceived'.symm.trans hReceived)
    exact hVain
  case givenUp =>
    intro hGivenUp
    rw [hHosts.shows.results]
    exact hStands.results_of_givenUp hGivenUp
  case late =>
    intro hOver frame message hFrame hUid
    have hNone : (n.play q.connection es).waiting? q.connection q.uid = none :=
      hHosts.shows.entry.trans (hStands.entry?_eq_none hOver)
    rw [receive_response hHosts.transponds hFrame, takeResponse_eq, hUid, hNone]

/-- Both sides of an exchange. The answering side takes a request exactly if its sender is known and
its payload starts with grants; it is answered with what is told then, and otherwise nothing is
changed or told, and the answer is an error. The asking side takes the first response that comes in
time exactly if it is no error, has the code of an exchange, and holds an answer; then the record of
a peer that is still known is changed. After any other response, and if none comes before the time is
over or the connection is closed, the node is in all things as if the exchange had not been begun,
the exchange ends with an error, and a later response is passed over. -/
theorem failed_exchange_traceless :
    (∀ (n : Node) (c : ConnectionId) (s : SessionId) (connection : Connection) (frame : Received)
      (m : Message), n.exchanging? c = some s → n.connections.find? c = some connection →
      Frame.decode Message frame = .ok m → m.kind = .request → m.code = exchangeCode →
      n.Replies connection c s m (n.receive c frame)) ∧
    ∀ (n : Node) (q : Query) (p : PeerAddress) (es : List Incident), n.Asks q p → n.Fair q es →
      n.Asked q p es :=
  ⟨fun _ _ _ _ _ _ h hFind hFrame hKind hCode => receive_replies h hFind hFrame hKind hCode,
    fun _ _ _ _ h hFair => h.asked hFair⟩

end Exchange

/-! ## An exchange that is begun -/

section Overture

variable {n : Node} {p : PeerAddress} {r : PeerRecord} {s : SessionId} {c : ConnectionId}

/-- The exchange with a peer that a node begins next, for a session on its connection. -/
def overture (n : Node) (p : PeerAddress) (r : PeerRecord) (s : SessionId) (c : ConnectionId) :
    Query :=
  { call := n.nextCall, session := s, connection := c
    message := (Message.request (uidOf n.nextCall) exchangeCode).put r.exported
    code := exchangeCode, timeout := n.exchangeTimeout, aim := .grants p }

/-- On a session that is connected, the request of an exchange is sent at once. -/
theorem exchange_eq_transmit (hKnown : n.directory.find? p = some r)
    (hKept : n.exchanges.find? p = some s) (hOpen : n.openConnection? s = some c) :
    (n.exchange p).2 = (n.enrol (n.overture p r s c)).transmit n.nextCall c := by
  have hMade : (n.exchangeCall p r s).2 = n.enrol (n.overture p r s c) := rfl
  have hCall : (n.enrol (n.overture p r s c)).calls.find? n.nextCall =
      some ((n.overture p r s c).record .pending) := SortedMap.find?_insert_self _ _ _
  rw [exchange_eq hKnown (exchangeSession?_of_kept hKept), hMade]
  exact begin_of_open hCall hOpen

/-- An exchange whose request was sent on a connected session waits for its response. -/
theorem Timely.asks {start : Node} {past : List Occasion} (h : Timely start past)
    (hNode : n = start.meetAll past) (hKnown : n.directory.find? p = some r)
    (hKept : n.exchanges.find? p = some s) (hOpen : n.openConnection? s = some c)
    (hUnused : n.Unused c (n.overture p r s c).uid)
    (hSent : n.sending c (n.overture p r s c).message = .ok ())
    (hTime : n.exchangeTimeout.nanoseconds ≠ 0) :
    (n.takeEffects.2.exchange p).2.Asks (n.overture p r s c) p := by
  subst hNode
  obtain ⟨-, -, -, hIsOpen⟩ := openConnection?_eq_some.mp hOpen
  have hHosts := (h.paced.hosts (q := (start.meetAll past).overture p r s c)
    (h.lived.transponds hIsOpen) hUnused rfl).send
  have hBegun : ((start.meetAll past).overture p r s c).begun (.ok ()) = .waiting := if_neg hTime
  have hSent' : ((start.meetAll past).takeEffects.2.enrol
      ((start.meetAll past).overture p r s c)).sending c
        ((start.meetAll past).overture p r s c).message = .ok () := hSent
  have hConnection : ((start.meetAll past).overture p r s c).connection = c := rfl
  rw [hConnection, hSent', hBegun] at hHosts
  have hExchange := exchange_eq_transmit (n := (start.meetAll past).takeEffects.2) hKnown hKept hOpen
  refine ⟨rfl, rfl, ?_⟩
  rw [hExchange]
  obtain ⟨hSame, hLone, hShows, hTransponds⟩ := hHosts
  exact ⟨rfl, hLone, hShows, hTransponds⟩

end Overture

/-! ## What a guest says -/

section Guest

open Handshake

/-- Neither grants nor an answer to an exchange. -/
def garbled : Bytes := [7]

def granted : GrantSet := .ofLists 1 [Relay.sample.service] []

/-- The guest asks for an exchange, with some payload. -/
def guestRequest (payload : Bytes) : Message := (Message.request 3 exchangeCode).write payload

/-- The host asks the guest for one. -/
def guestQuery : Query := attended.overture Relay.sample.client.address Relay.sample.record 0 0

def asking : Node := (attended.takeEffects.2.exchange Relay.sample.client.address).2

/-- The guest answers the host, with some payload. -/
def guestResponse (payload : Bytes) : Message :=
  (guestQuery.message.respond exchangeCode).write payload

theorem decode_written {m : Message} (h : m.written.length ≤ Codec.maxBlobLength) :
    Frame.decode Message (.ok (Serial.encode m)) = .ok m.received := Message.decode_encode h

def guestReply (payload : Bytes) (h : payload.length ≤ Codec.maxBlobLength) : Incident :=
  .response (.ok (Serial.encode (guestResponse payload))) (guestResponse payload).received
    ⟨decode_written h, rfl⟩

theorem garbled_spec : (Serial.read : Reader GrantSet) garbled = .error .endOfBuffer ∧
    exchangeAnswer garbled = .error (.invalidBool 7) := ⟨rfl, rfl⟩

theorem granted_spec : (Serial.read : Reader GrantSet) (Serial.encode granted) =
    .ok (granted, []) := by
  have hFits : granted.Fits := ⟨by decide, by decide, fun x hx => nomatch hx⟩
  have hRead := (GrantSet.undoes hFits).read []
  rwa [List.append_nil] at hRead

theorem guestResponse_spec (payload : Bytes) :
    (guestResponse payload).received.uid = guestQuery.uid ∧
      (guestResponse payload).received.unread = payload := by
  have hResponse : ∀ q : Query,
      ((q.message.respond exchangeCode).write payload).received.uid = q.uid ∧
        ((q.message.respond exchangeCode).write payload).received.unread = payload :=
    fun _ => ⟨rfl, rfl⟩
  exact hResponse guestQuery

theorem received?_guestReply {payload : Bytes} (h : payload.length ≤ Codec.maxBlobLength) :
    guestQuery.received? [guestReply payload h] = some (guestResponse payload).received :=
  if_pos (guestResponse_spec payload).1

set_option maxRecDepth 100000 in
theorem attended_exchanges : attended.exchanging? 0 = some 0 ∧
    attended.directory.find? Relay.sample.client.address = some Relay.sample.record ∧
    attended.exchanges.find? Relay.sample.client.address = some 0 ∧
    attended.waiting? 0 guestQuery.uid = none ∧
    (attended.sending 0 guestQuery.message).isOk = true ∧
    attended.exchangeTimeout.nanoseconds ≠ 0 ∧
    attended.peerOf? 0 = some Relay.sample.client.address := by
  decide +kernel

theorem attended_asks : asking.Asks guestQuery Relay.sample.client.address := by
  obtain ⟨-, hKnown, hKept, hEntry, hSent, hTime, -⟩ := attended_exchanges
  have hSending : attended.sending 0 guestQuery.message = .ok () := by
    cases hSending : attended.sending 0 guestQuery.message with
    | ok done => rfl
    | error e =>
      rw [hSending] at hSent
      cases hSent
  have hUnused : attended.Unused 0 guestQuery.uid := ⟨hEntry, fun j call hFind => by
    have hMem := SortedMap.mem_toList_iff.mpr hFind
    rw [attended_spec.2.1] at hMem
    cases hMem⟩
  exact visit_timely.asks rfl hKnown hKept attended_spec.1 hUnused hSending hTime

/-- The guest can be understood if it grants something. -/
theorem attended_understands : attended.Understands 0 (guestRequest (Serial.encode granted)).received
    Relay.sample.client.address Relay.sample.record granted := by
  obtain ⟨-, hKnown, -, -, -, -, hPeer⟩ := attended_exchanges
  exact ⟨hPeer, hKnown, [], granted_spec⟩

theorem not_understands_garbled (n : Node) (s : SessionId) (p : PeerAddress) (r : PeerRecord)
    (data : GrantSet) : ¬n.Understands s (guestRequest garbled).received p r data := by
  intro hUnderstands
  obtain ⟨rest, hRead⟩ := hUnderstands.readable
  cases hRead.symm.trans garbled_spec.1

/-- What the guest replies is about the exchange. -/
theorem others_guestReply {payload : Bytes} (h : payload.length ≤ Codec.maxBlobLength) :
    guestQuery.others [guestReply payload h] = [] := by
  have hBelongs : (guestReply payload h).belongs guestQuery =
      decide ((guestResponse payload).received.uid = guestQuery.uid) := rfl
  simp [Query.others, hBelongs, (guestResponse_spec payload).1]

theorem guestResponse_isAnswer :
    (guestResponse (boolBytes true ++ Serial.encode granted)).received.IsAnswer (some granted) where
  status := rfl
  code := rfl
  payload := by
    rw [(guestResponse_spec _).2]
    exact .pending granted_spec

theorem guestResponse_not_isAnswer (data : Option GrantSet) :
    ¬(guestResponse garbled).received.IsAnswer data := by
  intro h
  have hPayload := h.payload
  rw [(guestResponse_spec garbled).2] at hPayload
  obtain ⟨rest, hAnswer⟩ := exchangeAnswer_eq_ok_iff.mpr hPayload
  cases hAnswer.symm.trans garbled_spec.2

set_option maxRecDepth 100000 in
/-- Until the answer of the guest is taken, its record stays as it is. -/
theorem asking_knows : (asking.play 0 [guestReply (boolBytes true ++ Serial.encode granted)
    (by decide)]).directory.find? Relay.sample.client.address = some Relay.sample.record := by
  decide +kernel

/-- The guest asks for an exchange, and the host asks the guest for one. If neither can read what the
guest says, the host's directory stays as it is; if it grants something, its record takes that. -/
theorem garbled_traceless :
    (attended.exchanging? 0 = some 0 ∧
      Frame.decode Message (.ok (Serial.encode (guestRequest garbled))) =
        .ok (guestRequest garbled).received ∧
      (attended.receive 0 (.ok (Serial.encode (guestRequest garbled)))).directory =
        attended.directory ∧
      (attended.receive 0 (.ok (Serial.encode (guestRequest garbled)))).changes =
        attended.changes ∧
      attended.directory.Takes Relay.sample.record (some granted)
        (attended.receive 0 (.ok (Serial.encode (guestRequest (Serial.encode granted))))).directory) ∧
    asking.Asks guestQuery Relay.sample.client.address ∧
      (asking.Fair guestQuery [guestReply garbled (by decide)] ∧
        (asking.play 0 [guestReply garbled (by decide)]).directory = asking.directory ∧
        (asking.play 0 [guestReply garbled (by decide)]).changes = asking.changes) ∧
      let answer := boolBytes true ++ Serial.encode granted
      let answered := asking.play 0 [guestReply answer (by decide)]
      asking.Fair guestQuery [guestReply answer (by decide)] ∧
        answered.directory.Takes Relay.sample.record (some granted)
          (answered.deliver guestQuery.listener (guestResponse answer).received).directory := by
  obtain ⟨hReplies, hAsked⟩ := failed_exchange_traceless
  obtain ⟨hExchanging, -⟩ := attended_exchanges
  obtain ⟨connection, -, hFind, -⟩ := exchanging?_eq_some.mp hExchanging
  have hDecode : ∀ payload : Bytes, payload.length ≤ Codec.maxBlobLength →
      Frame.decode Message (.ok (Serial.encode (guestRequest payload))) =
        .ok (guestRequest payload).received := fun payload h =>
    decode_written (m := guestRequest payload) h
  have hReply : ∀ payload (h : payload.length ≤ Codec.maxBlobLength),
      asking.Fair guestQuery [guestReply payload h] := fun _ _ =>
    (fair_nil _ _).concat True.intro
  have hConnection : guestQuery.connection = 0 := rfl
  -- The host answers.
  have hRebuffs := (hReplies attended 0 0 connection _ _ hExchanging hFind
    (hDecode garbled (by decide)) rfl rfl).rebuffed (not_understands_garbled _ _)
  have hStored := (hReplies attended 0 0 connection _ _ hExchanging hFind
    (hDecode (Serial.encode granted) (by decide)) rfl rfl).stored _ _ _ attended_understands
  -- The host asks.
  have hFailed := (hAsked _ _ _ _ attended_asks (hReply garbled (by decide))).failed
    fun m hDecides data => by
      obtain rfl := Option.some.inj ((received?_guestReply _).symm.trans hDecides)
      exact guestResponse_not_isAnswer data
  have hTaken := (hAsked _ _ _ _ attended_asks
    (hReply (boolBytes true ++ Serial.encode granted) (by decide))).stored _ _ _
      (received?_guestReply _) guestResponse_isAnswer asking_knows
  have hNothing : ∀ n : Node, (n.without guestQuery).play 0 [] = n.without guestQuery ∧
      (n.without guestQuery).directory = n.directory := fun _ => ⟨rfl, rfl⟩
  rw [others_guestReply, hConnection, (hNothing asking).1] at hFailed
  obtain ⟨-, hDirectory, hChanges, -⟩ := hFailed
  exact ⟨⟨hExchanging, hDecode garbled (by decide), hRebuffs.directory, hRebuffs.changes, hStored⟩,
    attended_asks, ⟨hReply _ _, hDirectory.trans (hNothing asking).2,
      hChanges.trans (changes_without _ _)⟩, hReply _ _, hTaken⟩

end Guest

end Node

end PeerServices
