import PeerServices.Proofs.Directory.Couple

/-!
# Exchanges that cross

Two peers are introduced, grant each other services, and from then on only exchange what they
granted. Any number of exchanges runs at once, begun by either peer; requests and answers overtake
each other freely, and none is lost.

* `Couple.Settling`: what ties the flags, the imported sets and all that is in flight together.
* `Couple.play_settling`: it is kept whatever arrives next.
* `Couple.exchanges_agree`: once an exchange is complete and nothing is in flight any more, both
  peers know what they grant each other and wait for nothing. Until then each of them knows either
  nothing or exactly what the other one grants.
-/

namespace PeerServices.Couple

/-- A move of an exchange by which nothing is lost. -/
def Move.Delivers : Move → Prop
  | .ask _ | .answer _ | .take _ => True
  | .grant .. | .loseRequest _ | .loseAnswer _ => False

/-- An exchange is complete after these moves: its answer was taken. -/
def Completes (c : Couple) (moves : List Move) : Prop :=
  ∃ earlier i later, moves = earlier ++ .take i :: later ∧ i < (c.play earlier).answers.length

/-! ## What a changed record is seen as -/

section Changed

variable {c c' : Couple} {p : Partner} {r : PeerRecord}

theorem imported?_of_record? (h : c.record? p = some r) : c.imported? p = some r.imported := by
  rw [imported?, h, Option.map_some]

theorem exported?_of_record? (h : c.record? p = some r) : c.exported? p = some r.exported := by
  rw [exported?, h, Option.map_some]

theorem isPending_of_record? (h : c.record? p = some r) : c.isPending p ↔ r.pending = true := by
  rw [isPending, h, Option.map_some, Option.some.injEq]

theorem imported?_congr (h : c'.record? p = c.record? p) : c'.imported? p = c.imported? p := by
  rw [imported?, imported?, h]

theorem exported?_congr (h : c'.record? p = c.record? p) : c'.exported? p = c.exported? p := by
  rw [exported?, exported?, h]

theorem isPending_congr (h : c'.record? p = c.record? p) : c'.isPending p ↔ c.isPending p := by
  rw [isPending, isPending, h]

end Changed

/-! ## What is in flight after a move -/

section Flight

variable {c : Couple} {i : Nat}

theorem mem_requests_of_answer {q : Partner × GrantSet} (h : q ∈ (c.answer i).requests) :
    q ∈ c.requests := by
  unfold answer at h
  split at h
  · exact h
  · dsimp only at h
    split at h <;> exact List.mem_of_mem_eraseIdx h

theorem requests_take (c : Couple) (i : Nat) : (c.take i).requests = c.requests := by
  unfold take
  split <;> rfl

theorem answers_take {a : Partner × Option GrantSet} (h : c.answers[i]? = some a) :
    (c.take i).answers = c.answers.eraseIdx i := by
  unfold take
  rw [h]

theorem answer_of_none (h : c.requests[i]? = none) : c.answer i = c := by
  unfold answer
  rw [h]

theorem take_of_none (h : c.answers[i]? = none) : c.take i = c := by
  unfold take
  rw [h]

theorem grant_in_flight (c : Couple) (p : Partner) (ids : List ServiceId)
    (descriptors : List Descriptor) :
    (c.grant p ids descriptors).requests = c.requests ∧
      (c.grant p ids descriptors).answers = c.answers := by
  unfold grant
  split <;> exact ⟨rfl, rfl⟩

/-- What was in flight is the answer that is taken, or is in flight still. -/
theorem eq_or_mem_eraseIdx {α : Type} {l : List α} {x y : α} (hx : l[i]? = some x) (hy : y ∈ l) :
    y = x ∨ y ∈ l.eraseIdx i := by
  obtain ⟨j, hj⟩ := List.mem_iff_getElem?.mp hy
  by_cases hIndex : j = i
  · subst hIndex
    exact .inl (Option.some.inj (hj.symm.trans hx))
  · exact .inr (List.mem_eraseIdx_iff_getElem?.mpr ⟨j, hIndex, hj⟩)

end Flight

/-! ## Settling -/

/-- A peer has granted another one this set and exchanges it. -/
structure Tells (granted : GrantSet) (c : Couple) (p q : Partner) : Prop where
  exported : c.exported? p = some granted
  imported : c.imported? q = some .empty ∨ c.imported? q = some granted
  request : ∀ data, (p, data) ∈ c.requests → data = granted
  answer : ∀ data, (q, some data) ∈ c.answers → data = granted
  /-- Having answered, the peer waits no longer to tell its grants. -/
  settled : ∀ reply, (q, reply) ∈ c.answers → ¬c.isPending p
  /-- The peer is answered only if it was heard. -/
  heard : ∀ reply, (p, reply) ∈ c.answers → c.imported? q = some granted
  /-- If the peer waits no longer, it has told its grants or they are on their way. -/
  told : ¬c.isPending p → c.imported? q = some granted ∨ (q, some granted) ∈ c.answers

/-- Two peers that have granted each other these sets and exchange them. -/
structure Settling (granted : Partner → GrantSet) (c : Couple) : Prop where
  knows : c.Knows
  tells : ∀ p, Tells (granted p) c p p.other

section Moves

variable {granted : GrantSet} {c c' : Couple} {p q : Partner} {r : PeerRecord}

theorem Tells.exported_eq (h : Tells granted c p q) (hr : c.record? p = some r) :
    r.exported = granted :=
  Option.some.inj ((exported?_of_record? hr).symm.trans h.exported)

/-- A peer that asks sends what it granted. -/
theorem Tells.asks (h : Tells granted c p q) (a : Partner) (hr : c.record? a = some r) :
    Tells granted (c.ask a) p q := by
  rw [requests_ask hr]
  refine { h with request := fun data hMem => ?_ }
  rcases List.mem_append.mp hMem with hMem | hMem
  · exact h.request data hMem
  · obtain ⟨rfl, rfl⟩ := Prod.mk.inj (List.mem_singleton.mp hMem)
    exact h.exported_eq hr

/-- A peer that answers has told its grants, or sends them. -/
theorem Tells.answers (h : Tells granted c p q) (hNe : p ≠ q) (hr : c.record? p = some r)
    (hRequests : ∀ request ∈ c'.requests, request ∈ c.requests)
    (hAnswers : c'.answers = c.answers ++ [(q, replyOf r)]) {data : GrantSet}
    (hHere : c'.record? p = some (r.applyExchange data))
    (hThere : c'.record? q = c.record? q) : Tells granted c' p q := by
  constructor
  case exported =>
    rw [exported?_of_record? hHere, ← h.exported_eq hr]
    rfl
  case imported =>
    rw [imported?_congr hThere]
    exact h.imported
  case request => exact fun data hMem => h.request data (hRequests _ hMem)
  case answer =>
    intro data hMem
    rw [hAnswers, replyOf, h.exported_eq hr] at hMem
    rcases List.mem_append.mp hMem with hMem | hMem
    · exact h.answer data hMem
    · have hReply := (Prod.mk.inj (List.mem_singleton.mp hMem)).2
      split at hReply
      · exact Option.some.inj hReply
      · cases hReply
  case settled =>
    intro reply _
    rw [isPending_of_record? hHere]
    exact Bool.false_ne_true
  case heard =>
    intro reply hMem
    rw [hAnswers] at hMem
    rw [imported?_congr hThere]
    rcases List.mem_append.mp hMem with hMem | hMem
    · exact h.heard reply hMem
    · exact absurd (Prod.mk.inj (List.mem_singleton.mp hMem)).1 hNe
  case told =>
    intro _
    rw [imported?_congr hThere, hAnswers, replyOf, h.exported_eq hr]
    by_cases hWas : r.pending = true
    · rw [if_pos hWas]
      exact .inr (List.mem_append_right _ (List.mem_singleton_self _))
    · have hTold := h.told (by rwa [isPending_of_record? hr])
      exact hTold.imp_right fun hMem => List.mem_append_left _ hMem

/-- A peer whose request arrives was heard. -/
theorem Tells.is_heard (h : Tells granted c p q) (hNe : p ≠ q) {reply : Option GrantSet}
    (hRequests : ∀ request ∈ c'.requests, request ∈ c.requests)
    (hAnswers : c'.answers = c.answers ++ [(p, reply)])
    (hHere : c'.imported? q = some granted) (hThere : c'.record? p = c.record? p) :
    Tells granted c' p q := by
  have hOld : ∀ reply', (q, reply') ∈ c'.answers → (q, reply') ∈ c.answers := by
    intro reply' hMem
    rw [hAnswers] at hMem
    rcases List.mem_append.mp hMem with hMem | hMem
    · exact hMem
    · exact absurd (Prod.mk.inj (List.mem_singleton.mp hMem)).1.symm hNe
  constructor
  case exported => exact (exported?_congr hThere).trans h.exported
  case imported => exact .inr hHere
  case request => exact fun data hMem => h.request data (hRequests _ hMem)
  case answer => exact fun data hMem => h.answer data (hOld _ hMem)
  case settled =>
    intro reply' hMem
    rw [isPending_congr hThere]
    exact h.settled reply' (hOld _ hMem)
  case heard => exact fun _ _ => hHere
  case told => exact fun _ => .inl hHere

/-- A peer that takes an answer was heard before. -/
theorem Tells.takes (h : Tells granted c p q) {i : Nat} {reply : Option GrantSet}
    (hAnswer : c.answers[i]? = some (p, reply)) (hr : c.record? p = some r)
    (hRequests : c'.requests = c.requests) (hAnswers : c'.answers = c.answers.eraseIdx i)
    (hHere : c'.record? p = some (Directory.answered r reply))
    (hThere : c'.record? q = c.record? q) : Tells granted c' p q := by
  have hHeard := h.heard reply (List.mem_of_getElem? hAnswer)
  have hOld : ∀ answer ∈ c'.answers, answer ∈ c.answers := by
    intro answer hMem
    rw [hAnswers] at hMem
    exact List.mem_of_mem_eraseIdx hMem
  have hNot : ¬c'.isPending p := by
    rw [isPending_of_record? hHere]
    cases reply <;> exact Bool.false_ne_true
  rw [← imported?_congr hThere] at hHeard
  constructor
  case exported =>
    rw [exported?_of_record? hHere, ← h.exported_eq hr]
    cases reply <;> rfl
  case imported => exact .inr hHeard
  case request => exact fun data hMem => h.request data (hRequests ▸ hMem)
  case answer => exact fun data hMem => h.answer data (hOld _ hMem)
  case settled => exact fun _ _ => hNot
  case heard => exact fun _ _ => hHeard
  case told => exact fun _ => .inl hHeard

/-- A peer whose answer is taken stays as it is. If its grants were in the answer they are known
now, and otherwise they are as well known as before. -/
theorem Tells.is_taken (h : Tells granted c p q) {i : Nat} {reply : Option GrantSet}
    (hAnswer : c.answers[i]? = some (q, reply)) (hr : c.record? q = some r)
    (hRequests : c'.requests = c.requests) (hAnswers : c'.answers = c.answers.eraseIdx i)
    (hHere : c'.record? q = some (Directory.answered r reply))
    (hThere : c'.record? p = c.record? p) : Tells granted c' p q := by
  have hOld : ∀ answer ∈ c'.answers, answer ∈ c.answers := by
    intro answer hMem
    rw [hAnswers] at hMem
    exact List.mem_of_mem_eraseIdx hMem
  have hKnown : c'.imported? q = c.imported? q ∧ reply = none ∨
      c'.imported? q = some granted := by
    rw [imported?_of_record? hHere, imported?_of_record? hr]
    cases reply with
    | none => exact .inl ⟨rfl, rfl⟩
    | some data =>
      obtain rfl := h.answer data (List.mem_of_getElem? hAnswer)
      exact .inr rfl
  have hKeeps : c.imported? q = some granted → c'.imported? q = some granted := by
    intro hWas
    rcases hKnown with ⟨hSame, -⟩ | hKnown
    · exact hSame.trans hWas
    · exact hKnown
  constructor
  case exported => exact (exported?_congr hThere).trans h.exported
  case imported =>
    rcases hKnown with ⟨hSame, -⟩ | hKnown
    · rw [hSame]
      exact h.imported
    · exact .inr hKnown
  case request => exact fun data hMem => h.request data (hRequests ▸ hMem)
  case answer => exact fun data hMem => h.answer data (hOld _ hMem)
  case settled =>
    intro reply' hMem
    rw [isPending_congr hThere]
    exact h.settled reply' (hOld _ hMem)
  case heard => exact fun reply' hMem => hKeeps (h.heard reply' (hOld _ hMem))
  case told =>
    intro hNot
    rw [isPending_congr hThere] at hNot
    rcases h.told hNot with hTold | hTold
    · exact .inl (hKeeps hTold)
    · rcases eq_or_mem_eraseIdx hAnswer hTold with hThis | hStill
      · rcases hKnown with ⟨-, rfl⟩ | hKnown
        · cases (Prod.mk.inj hThis).2
        · exact .inl hKnown
      · exact .inr (hAnswers ▸ hStill)

end Moves

section Runs

variable {granted : Partner → GrantSet} {c : Couple}

/-- What a peer tells its partner, seen from the partner. -/
theorem Settling.tells_other (h : Settling granted c) (p : Partner) :
    Tells (granted p.other) c p.other p := by
  have hTells := h.tells p.other
  rwa [Partner.other_other] at hTells

theorem Settling.of_tells (hKnows : c.Knows) (p : Partner) (h : Tells (granted p) c p p.other)
    (hOther : Tells (granted p.other) c p.other p) : Settling granted c := by
  refine ⟨hKnows, fun q => ?_⟩
  rcases Partner.eq_or_eq_other p q with rfl | rfl
  · exact h
  · rwa [Partner.other_other]

theorem Settling.ask (h : Settling granted c) (p : Partner) : Settling granted (c.ask p) := by
  obtain ⟨r, hr, -⟩ := h.knows p
  exact ⟨h.knows.ask p, fun q => (h.tells q).asks p hr⟩

theorem Settling.answer (h : Settling granted c) (i : Nat) : Settling granted (c.answer i) := by
  cases hRequest : c.requests[i]? with
  | none =>
    rw [answer_of_none hRequest]
    exact h
  | some request =>
    obtain ⟨p, data⟩ := request
    obtain rfl := (h.tells p).request data (List.mem_of_getElem? hRequest)
    obtain ⟨r, hr, -⟩ := h.knows p.other
    obtain ⟨hChanged, hAnswers⟩ := h.knows.answer_changed hRequest hr
    have hThere := hChanged.there
    rw [Partner.other_other] at hThere
    have hRequests : ∀ request ∈ (c.answer i).requests, request ∈ c.requests :=
      fun _ => mem_requests_of_answer
    apply Settling.of_tells (h.knows.answer i) p
    · exact (h.tells p).is_heard (Partner.ne_other p) hRequests hAnswers
        (imported?_of_record? hChanged.here) hThere
    · exact (h.tells_other p).answers (Partner.other_ne p) hr hRequests hAnswers hChanged.here
        hThere

theorem Settling.take (h : Settling granted c) (i : Nat) : Settling granted (c.take i) := by
  cases hAnswer : c.answers[i]? with
  | none =>
    rw [take_of_none hAnswer]
    exact h
  | some answer =>
    obtain ⟨p, reply⟩ := answer
    obtain ⟨r, hr, -⟩ := h.knows p
    have hChanged := h.knows.take_changed hAnswer hr
    apply Settling.of_tells (h.knows.take i) p
    · exact (h.tells p).takes hAnswer hr (requests_take c i) (answers_take hAnswer) hChanged.here
        hChanged.there
    · exact (h.tells_other p).is_taken hAnswer hr (requests_take c i) (answers_take hAnswer)
        hChanged.here hChanged.there

theorem Settling.step (h : Settling granted c) {move : Move} (hDelivers : move.Delivers) :
    Settling granted (c.step move) := by
  cases move with
  | ask p => exact h.ask p
  | answer i => exact h.answer i
  | take i => exact h.take i
  | grant _ _ _ | loseRequest _ | loseAnswer _ => exact hDelivers.elim

theorem play_settling (h : Settling granted c) {moves : List Move}
    (hDelivers : ∀ move ∈ moves, move.Delivers) : Settling granted (c.play moves) := by
  induction moves generalizing c with
  | nil => exact h
  | cons move moves ih =>
    rw [List.forall_mem_cons] at hDelivers
    exact ih (h.step hDelivers.1) hDelivers.2

end Runs

/-! ## Exchanges that are complete -/

/-- Neither peer waits to tell its grants. -/
def Settled (c : Couple) : Prop := ∀ p, ¬c.isPending p

section Complete

variable {granted : Partner → GrantSet} {c : Couple}

/-- Both peers of an exchange whose answer is taken wait no longer. -/
theorem Settling.settled_take (h : Settling granted c) {i : Nat} (hi : i < c.answers.length) :
    (c.take i).Settled := by
  have hAnswer := List.getElem?_eq_getElem hi
  generalize c.answers[i] = answer at hAnswer
  obtain ⟨p, reply⟩ := answer
  obtain ⟨r, hr, -⟩ := h.knows p
  have hChanged := h.knows.take_changed hAnswer hr
  intro q
  rcases Partner.eq_or_eq_other p q with rfl | rfl
  · rw [isPending_of_record? hChanged.here]
    cases reply <;> exact Bool.false_ne_true
  · rw [isPending_congr hChanged.there]
    exact (h.tells_other p).settled reply (List.mem_of_getElem? hAnswer)

/-- A peer whose record was changed by an exchange waits for nothing, nor does the other one if it
did not before. -/
theorem Settled.of_changed {c' : Couple} {p : Partner} {r : PeerRecord} (h : c.Settled)
    (hChanged : Changed c c' p r) (hr : r.pending = false) : c'.Settled := by
  intro q
  rcases Partner.eq_or_eq_other p q with rfl | rfl
  · rw [isPending_of_record? hChanged.here, hr]
    exact Bool.false_ne_true
  · rw [isPending_congr hChanged.there]
    exact h p.other

theorem Settled.step (h : c.Settled) (hKnows : c.Knows) {move : Move}
    (hDelivers : move.Delivers) : (c.step move).Settled := by
  cases move with
  | ask p =>
    obtain ⟨r, hr, -⟩ := hKnows p
    simp only [Couple.step, requests_ask hr]
    exact h
  | answer i =>
    cases hRequest : c.requests[i]? with
    | none =>
      simp only [Couple.step, answer_of_none hRequest]
      exact h
    | some request =>
      obtain ⟨r, hr, -⟩ := hKnows request.1.other
      exact h.of_changed (hKnows.answer_changed hRequest hr).1 rfl
  | take i =>
    cases hAnswer : c.answers[i]? with
    | none =>
      simp only [Couple.step, take_of_none hAnswer]
      exact h
    | some answer =>
      obtain ⟨r, hr, -⟩ := hKnows answer.1
      refine h.of_changed (hKnows.take_changed hAnswer hr) ?_
      cases answer.2 <;> rfl
  | grant _ _ _ | loseRequest _ | loseAnswer _ => exact hDelivers.elim

theorem play_settled (h : c.Settled) (hKnows : c.Knows) {moves : List Move}
    (hDelivers : ∀ move ∈ moves, move.Delivers) : (c.play moves).Settled := by
  induction moves generalizing c with
  | nil => exact h
  | cons move moves ih =>
    rw [List.forall_mem_cons] at hDelivers
    exact ih (h.step hKnows hDelivers.1) (hKnows.step move) hDelivers.2

theorem play_append (c : Couple) (moves later : List Move) :
    c.play (moves ++ later) = (c.play moves).play later := List.foldl_append

theorem Settling.settled_of_completes (h : Settling granted c) {moves : List Move}
    (hDelivers : ∀ move ∈ moves, move.Delivers) (hCompletes : c.Completes moves) :
    (c.play moves).Settled := by
  obtain ⟨earlier, i, later, rfl, hi⟩ := hCompletes
  rw [List.forall_mem_append, List.forall_mem_cons] at hDelivers
  have hEarlier := play_settling h hDelivers.1
  rw [play_append]
  exact play_settled (hEarlier.settled_take hi) (hEarlier.knows.take i) hDelivers.2.2

/-- Nothing is in flight and an exchange is complete: both peers know what they grant each other. -/
theorem Settling.imported?_eq (h : Settling granted c) (hSettled : c.Settled)
    (hAnswers : c.answers = []) (p : Partner) : c.imported? p = c.exported? p.other := by
  have hTells := h.tells_other p
  rcases hTells.told (hSettled p.other) with hTold | hTold
  · rw [hTold, hTells.exported]
  · rw [hAnswers] at hTold
    cases hTold

end Complete

/-! ## From the introduction on -/

/-- Two peers that were introduced and may have granted each other services. -/
structure Fresh (c : Couple) : Prop where
  knows : c.Knows
  pending : ∀ p, c.isPending p
  imported : ∀ p, c.imported? p = some .empty
  requests : c.requests = []
  answers : c.answers = []

theorem introduce_fresh (address : Partner → PeerAddress) (name : Partner → String)
    (known : Partner → Directory) : (introduce address name known).Fresh where
  knows := introduce_knows address name known
  pending p := (isPending_of_record? (introduce_record? address name known p)).mpr rfl
  imported p := imported?_of_record? (introduce_record? address name known p)
  requests := rfl
  answers := rfl

theorem Fresh.grant {c : Couple} (h : c.Fresh) (p : Partner) (ids : List ServiceId)
    (descriptors : List Descriptor) : (c.grant p ids descriptors).Fresh := by
  obtain ⟨r, hr, hAddress⟩ := h.knows p
  have hChanged := h.knows.grant_changed hr ids descriptors
  obtain ⟨hRequests, hAnswers⟩ := c.grant_in_flight p ids descriptors
  constructor
  case knows => exact h.knows.of_changed hChanged hAddress
  case pending =>
    intro q
    rcases Partner.eq_or_eq_other p q with rfl | rfl
    · exact (isPending_of_record? hChanged.here).mpr rfl
    · exact (isPending_congr hChanged.there).mpr (h.pending p.other)
  case imported =>
    intro q
    rcases Partner.eq_or_eq_other p q with rfl | rfl
    · exact (imported?_of_record? hChanged.here).trans
        ((imported?_of_record? hr).symm.trans (h.imported q))
    · exact (imported?_congr hChanged.there).trans (h.imported p.other)
  case requests => exact hRequests.trans h.requests
  case answers => exact hAnswers.trans h.answers

theorem play_grants_fresh {c : Couple} (h : c.Fresh)
    (grants : List (Partner × List ServiceId × List Descriptor)) :
    (c.play (grants.map fun g => .grant g.1 g.2.1 g.2.2)).Fresh := by
  induction grants generalizing c with
  | nil => exact h
  | cons g grants ih => exact ih (h.grant g.1 g.2.1 g.2.2)

theorem Fresh.settling {c : Couple} (h : c.Fresh) :
    ∃ granted : Partner → GrantSet, Settling granted c := by
  have hExported : ∀ p, ∃ granted, c.exported? p = some granted := by
    intro p
    obtain ⟨r, hr, -⟩ := h.knows p
    exact ⟨r.exported, exported?_of_record? hr⟩
  obtain ⟨granted, hGranted⟩ := Classical.axiomOfChoice hExported
  refine ⟨granted, h.knows, fun p => ?_⟩
  constructor
  case exported => exact hGranted p
  case imported => exact .inl (h.imported p.other)
  case request => simp [h.requests]
  case answer => simp [h.answers]
  case settled => simp [h.answers]
  case heard => simp [h.answers]
  case told => exact fun hNot => absurd (h.pending p) hNot

/-- Two peers were introduced, granted each other services and then only exchange these grants,
with nothing lost. Whatever was handled so far, the grants are what they were, and each peer knows
either nothing or exactly what the other one grants. Once an exchange is complete and no answer is
in flight, neither peer waits for anything and each knows what the other one grants. -/
theorem exchanges_agree (address : Partner → PeerAddress) (name : Partner → String)
    (known : Partner → Directory) (grants : List (Partner × List ServiceId × List Descriptor))
    {moves : List Move} (hDelivers : ∀ move ∈ moves, move.Delivers) :
    let before := (introduce address name known).play
      (grants.map fun g => .grant g.1 g.2.1 g.2.2)
    let after := before.play moves
    (∀ p, ∃ granted, before.exported? p = some granted ∧ after.exported? p = some granted) ∧
    (∀ p, before.imported? p = some .empty ∧
      (after.imported? p = some .empty ∨ after.imported? p = after.exported? p.other)) ∧
    (before.Completes moves → after.answers = [] →
      ∀ p, ¬after.isPending p ∧ after.imported? p = after.exported? p.other) := by
  intro before after
  have hFresh : before.Fresh := play_grants_fresh (introduce_fresh address name known) grants
  obtain ⟨granted, hBefore⟩ := hFresh.settling
  have hAfter : Settling granted after := play_settling hBefore hDelivers
  refine ⟨fun p => ?_, fun p => ⟨hFresh.imported p, ?_⟩, fun hCompletes hAnswers p => ?_⟩
  · exact ⟨granted p, (hBefore.tells p).exported, (hAfter.tells p).exported⟩
  · rw [(hAfter.tells_other p).exported]
    exact (hAfter.tells_other p).imported
  · have hSettled := hBefore.settled_of_completes hDelivers hCompletes
    exact ⟨hSettled p, hAfter.imported?_eq hSettled hAnswers p⟩

/-- Both peers ask at once, the second one with a grant; the answers are taken in reverse. -/
theorem sample_agrees :
    let before := sample.play [.grant .second [⟨9⟩] []]
    let moves : List Move := [.ask .first, .ask .second, .answer 1, .answer 0, .take 1, .take 0]
    (∀ move ∈ moves, move.Delivers) ∧ before.Completes moves ∧
      (before.play moves).requests = [] ∧ (before.play moves).answers = [] ∧
      ∀ p, ¬(before.play moves).isPending p ∧
        (before.play moves).imported? p = (before.play moves).exported? p.other := by
  intro before moves
  have hDelivers : ∀ move ∈ moves, move.Delivers := by
    simp [moves, Move.Delivers]
  have hCompletes : before.Completes moves :=
    ⟨[.ask .first, .ask .second, .answer 1, .answer 0], 1, [.take 0], rfl, by decide +kernel⟩
  have hEmpty : (before.play moves).requests = [] ∧ (before.play moves).answers = [] := by
    decide +kernel
  exact ⟨hDelivers, hCompletes, hEmpty.1, hEmpty.2,
    (exchanges_agree _ _ _ [(.second, [⟨9⟩], [])] hDelivers).2.2 hCompletes hEmpty.2⟩

end PeerServices.Couple
