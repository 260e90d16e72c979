import PeerServices.Proofs.Directory.Lookup

/-!
# Two peers that exchange grants

Two peers know each other, grant each other services and exchange grants. Requests and answers are
in flight until they arrive or are lost; they overtake each other freely.

* `Couple.play_knows`: whatever happens, each peer goes on knowing the other one.
* `Couple.exchange_synchronises`: what an exchange that runs alone makes of any state that can come
  about. The answering peer always ends with the asking peer's grants. The asking peer does too if
  the answering peer's grants were pending, or had been told before. As long as no answer with
  grants in it was lost, one of the two is the case.
-/

namespace PeerServices

inductive Partner
  | first
  | second
deriving DecidableEq, Repr

namespace Partner

def other : Partner → Partner
  | first => second
  | second => first

@[simp] theorem other_other (p : Partner) : p.other.other = p := by cases p <;> rfl

@[simp] theorem other_ne (p : Partner) : p.other ≠ p := by cases p <;> decide

@[simp] theorem ne_other (p : Partner) : p ≠ p.other := by cases p <;> decide

theorem eq_or_eq_other (p q : Partner) : q = p ∨ q = p.other := by
  cases p <;> cases q <;> simp [other]

end Partner

/-- Two peers, what each of them knows, and what is in flight between them. -/
structure Couple where
  address : Partner → PeerAddress
  directory : Partner → Directory
  /-- What asking peers sent. -/
  requests : List (Partner × GrantSet)
  /-- What asking peers are answered. -/
  answers : List (Partner × Option GrantSet)

namespace Couple

def record? (c : Couple) (p : Partner) : Option PeerRecord :=
  (c.directory p).find? (c.address p.other)

/-- What a peer was told that the other one grants. -/
def imported? (c : Couple) (p : Partner) : Option GrantSet := (c.record? p).map PeerRecord.imported

def exported? (c : Couple) (p : Partner) : Option GrantSet := (c.record? p).map PeerRecord.exported

/-- A peer's grants wait to be told. -/
def isPending (c : Couple) (p : Partner) : Prop := (c.record? p).map PeerRecord.pending = some true

/-- Two peers that were just introduced, whomever else they know. -/
def introduce (address : Partner → PeerAddress) (name : Partner → String)
    (known : Partner → Directory) : Couple where
  address
  directory p := ((known p).add (.create (address p.other) (name p.other))).1
  requests := []
  answers := []

/-! ## Moves -/

def setDirectory (c : Couple) (p : Partner) (d : Directory) : Couple :=
  { c with directory := fun q => if q = p then d else c.directory q }

inductive Move
  /-- A peer grants the other one exactly these services. -/
  | grant (p : Partner) (ids : List ServiceId) (descriptors : List Descriptor)
  | ask (p : Partner)
  /-- A request arrives and is answered. -/
  | answer (i : Nat)
  | loseRequest (i : Nat)
  | take (i : Nat)
  | loseAnswer (i : Nat)

/-- What becomes of two peers when a peer grants the other one services. -/
def grant (c : Couple) (p : Partner) (ids : List ServiceId) (descriptors : List Descriptor) :
    Couple :=
  match (c.directory p).grant (c.address p.other) ids descriptors with
  | .error _ => c
  | .ok (d, _) => c.setDirectory p d

/-- A peer sends what it grants the other one. -/
def ask (c : Couple) (p : Partner) : Couple :=
  match c.record? p with
  | none => c
  | some r => { c with requests := c.requests ++ [(p, r.exported)] }

/-- A request arrives. One that is refused is not answered with grants. -/
def answer (c : Couple) (i : Nat) : Couple :=
  match c.requests[i]? with
  | none => c
  | some (p, data) =>
    let c := { c with requests := c.requests.eraseIdx i }
    match (c.directory p.other).receiveExchange (c.address p) data with
    | .error _ => c
    | .ok (reply, d, _) =>
      { c.setDirectory p.other d with answers := c.answers ++ [(p, reply)] }

def take (c : Couple) (i : Nat) : Couple :=
  match c.answers[i]? with
  | none => c
  | some (p, reply) =>
    { c.setDirectory p ((c.directory p).exchanged (c.address p.other) reply).1 with
      answers := c.answers.eraseIdx i }

def step (c : Couple) : Move → Couple
  | .grant p ids descriptors => c.grant p ids descriptors
  | .ask p => c.ask p
  | .answer i => c.answer i
  | .loseRequest i => { c with requests := c.requests.eraseIdx i }
  | .take i => c.take i
  | .loseAnswer i => { c with answers := c.answers.eraseIdx i }

def play (c : Couple) (moves : List Move) : Couple := moves.foldl step c

/-! ## Each peer goes on knowing the other one -/

/-- Each peer has a record of the other one, under its address. -/
def Knows (c : Couple) : Prop :=
  ∀ p, ∃ r, c.record? p = some r ∧ r.address = c.address p.other

/-- Only what a peer knows of the other one changed. -/
structure Changed (c c' : Couple) (p : Partner) (r : PeerRecord) : Prop where
  address : c'.address = c.address
  here : c'.record? p = some r
  there : c'.record? p.other = c.record? p.other

section Moves

variable {c c' : Couple} {p : Partner} {r : PeerRecord}

theorem changed_setDirectory {d : Directory} (h : d.find? (c.address p.other) = some r) :
    Changed c (c.setDirectory p d) p r where
  address := rfl
  here := by simp only [record?, setDirectory, if_true, h]
  there := by simp only [record?, setDirectory, if_neg (Partner.other_ne p)]

theorem Knows.address_eq (h : c.Knows) (hr : c.record? p = some r) :
    r.address = c.address p.other := by
  obtain ⟨r', hr', hAddress⟩ := h p
  obtain rfl := Option.some.inj (hr.symm.trans hr')
  exact hAddress

theorem Knows.of_changed (h : c.Knows) (hChanged : Changed c c' p r)
    (hAddress : r.address = c.address p.other) : c'.Knows := by
  intro q
  rw [hChanged.address]
  rcases Partner.eq_or_eq_other p q with rfl | rfl
  · exact ⟨r, hChanged.here, hAddress⟩
  · rw [hChanged.there]
    exact h p.other

theorem Knows.grant_changed (h : c.Knows) (hr : c.record? p = some r) (ids : List ServiceId)
    (descriptors : List Descriptor) :
    Changed c (c.grant p ids descriptors) p (r.grant ids descriptors) := by
  obtain ⟨d, events, hGrant, hFind⟩ :=
    Directory.grant_of_known hr (h.address_eq hr) ids descriptors
  unfold grant
  rw [hGrant]
  exact changed_setDirectory hFind

/-- What a peer is answered that asks the owner of a record. -/
def replyOf (r : PeerRecord) : Option GrantSet := if r.pending then some r.exported else none

theorem Knows.answer_changed (h : c.Knows) {i : Nat} {data : GrantSet}
    (hRequest : c.requests[i]? = some (p, data)) (hr : c.record? p.other = some r) :
    Changed c (c.answer i) p.other (r.applyExchange data) ∧
      (c.answer i).answers = c.answers ++ [(p, replyOf r)] := by
  have hAddress := h.address_eq hr
  simp only [record?, Partner.other_other] at hr hAddress
  obtain ⟨d, events, hReceive, hFind⟩ := Directory.receiveExchange_of_known hr hAddress data
  unfold answer
  rw [hRequest]
  simp only [hReceive]
  refine ⟨⟨rfl, ?_, ?_⟩, rfl⟩
  · simp only [record?, setDirectory, if_true, Partner.other_other, hFind]
  · simp only [record?, setDirectory, Partner.other_other, if_neg (Partner.ne_other p)]

theorem Knows.take_changed (h : c.Knows) {i : Nat} {reply : Option GrantSet}
    (hAnswer : c.answers[i]? = some (p, reply)) (hr : c.record? p = some r) :
    Changed c (c.take i) p (Directory.answered r reply) := by
  have hFind := Directory.exchanged_of_known hr (h.address_eq hr) reply
  unfold take
  rw [hAnswer]
  exact ⟨rfl, (changed_setDirectory hFind).here, (changed_setDirectory hFind).there⟩

theorem Knows.ask (h : c.Knows) (p : Partner) : (c.ask p).Knows := by
  unfold Couple.ask
  split <;> exact h

theorem Knows.answer (h : c.Knows) (i : Nat) : (c.answer i).Knows := by
  cases hRequest : c.requests[i]? with
  | none =>
    unfold Couple.answer
    rw [hRequest]
    exact h
  | some request =>
    obtain ⟨r, hr, hAddress⟩ := h request.1.other
    exact h.of_changed (h.answer_changed hRequest hr).1 hAddress

theorem Knows.take (h : c.Knows) (i : Nat) : (c.take i).Knows := by
  cases hAnswer : c.answers[i]? with
  | none =>
    unfold Couple.take
    rw [hAnswer]
    exact h
  | some answer =>
    obtain ⟨r, hr, hAddress⟩ := h answer.1
    exact h.of_changed (h.take_changed hAnswer hr)
      ((Directory.answered_address r answer.2).trans hAddress)

theorem Knows.step (h : c.Knows) (move : Move) : (c.step move).Knows := by
  cases move with
  | grant p ids descriptors =>
    obtain ⟨r, hr, hAddress⟩ := h p
    exact h.of_changed (h.grant_changed hr ids descriptors) hAddress
  | ask p => exact h.ask p
  | answer i => exact h.answer i
  | loseRequest i => exact h
  | take i => exact h.take i
  | loseAnswer i => exact h

end Moves

theorem play_knows {c : Couple} (h : c.Knows) (moves : List Move) : (c.play moves).Knows := by
  induction moves generalizing c with
  | nil => exact h
  | cons move moves ih => exact ih (h.step move)

theorem introduce_record? (address : Partner → PeerAddress) (name : Partner → String)
    (known : Partner → Directory) (p : Partner) :
    (introduce address name known).record? p =
      some (.create (address p.other) (name p.other)) :=
  Directory.find?_store _ _

theorem introduce_knows (address : Partner → PeerAddress) (name : Partner → String)
    (known : Partner → Directory) : (introduce address name known).Knows :=
  fun p => ⟨_, introduce_record? address name known p, rfl⟩

/-! ## An exchange that runs alone -/

/-- A peer asks, is answered and takes the answer, and nothing else happens. -/
def exchange (c : Couple) (p : Partner) : Couple :=
  ((c.ask p).answer c.requests.length).take c.answers.length

theorem requests_ask {c : Couple} {p : Partner} {r : PeerRecord} (h : c.record? p = some r) :
    c.ask p = { c with requests := c.requests ++ [(p, r.exported)] } := by
  unfold ask
  rw [h]

theorem Knows.ask_answer {c : Couple} (h : c.Knows) {p : Partner} {mine theirs : PeerRecord}
    (hMine : c.record? p = some mine) (hTheirs : c.record? p.other = some theirs) :
    Changed c ((c.ask p).answer c.requests.length) p.other
        (theirs.applyExchange mine.exported) ∧
      ((c.ask p).answer c.requests.length).answers = c.answers ++ [(p, replyOf theirs)] := by
  rw [requests_ask hMine]
  have hAsked : Knows { c with requests := c.requests ++ [(p, mine.exported)] } := h
  have hRequest : (c.requests ++ [(p, mine.exported)])[c.requests.length]? =
      some (p, mine.exported) := by simp
  obtain ⟨hChanged, hAnswers⟩ := hAsked.answer_changed hRequest hTheirs
  exact ⟨⟨hChanged.address, hChanged.here, hChanged.there⟩, hAnswers⟩

theorem Knows.exchange_spec {c : Couple} (h : c.Knows) {p : Partner} {mine theirs : PeerRecord}
    (hMine : c.record? p = some mine) (hTheirs : c.record? p.other = some theirs) :
    (c.exchange p).record? p = some (Directory.answered mine (replyOf theirs)) ∧
      (c.exchange p).record? p.other = some (theirs.applyExchange mine.exported) := by
  obtain ⟨hAnswered, hAnswers⟩ := h.ask_answer hMine hTheirs
  have hThere : ((c.ask p).answer c.requests.length).record? p = some mine := by
    have := hAnswered.there
    rw [Partner.other_other] at this
    rw [this, hMine]
  have hKnows := (h.ask p).answer c.requests.length
  have hAnswer : ((c.ask p).answer c.requests.length).answers[c.answers.length]? =
      some (p, replyOf theirs) := by
    rw [hAnswers]
    simp
  have hTaken := hKnows.take_changed hAnswer hThere
  exact ⟨hTaken.here, hTaken.there.trans hAnswered.here⟩

/-- The other one's grants are still to be told, or were told. -/
def Told (c : Couple) (p : Partner) : Prop :=
  c.isPending p.other ∨ c.imported? p = c.exported? p.other

/-- Both peers know what they grant each other. -/
theorem Knows.exchange_synced {c : Couple} (h : c.Knows) (p : Partner) :
    (c.exchange p).imported? p.other = (c.exchange p).exported? p ∧
      ((c.exchange p).imported? p = (c.exchange p).exported? p.other ↔ c.Told p) := by
  obtain ⟨mine, hMine, -⟩ := h p
  obtain ⟨theirs, hTheirs, -⟩ := h p.other
  obtain ⟨hHere, hThere⟩ := h.exchange_spec hMine hTheirs
  simp only [Told, isPending, imported?, exported?, hHere, hThere, hMine, hTheirs, Option.map_some,
    Option.some.injEq, replyOf]
  cases hPending : theirs.pending <;>
    simp [Directory.answered, PeerRecord.applyExchange]

/-- An exchange does not change what is granted. -/
theorem Knows.exported?_exchange {c : Couple} (h : c.Knows) (p q : Partner) :
    ∃ granted, c.exported? q = some granted ∧ (c.exchange p).exported? q = some granted := by
  obtain ⟨mine, hMine, -⟩ := h p
  obtain ⟨theirs, hTheirs, -⟩ := h p.other
  obtain ⟨hHere, hThere⟩ := h.exchange_spec hMine hTheirs
  rcases Partner.eq_or_eq_other p q with rfl | rfl
  · refine ⟨mine.exported, by simp only [exported?, hMine, Option.map_some], ?_⟩
    simp only [exported?, hHere, Option.map_some, replyOf]
    split <;> rfl
  · refine ⟨theirs.exported, by simp only [exported?, hTheirs, Option.map_some], ?_⟩
    simp only [exported?, hThere, Option.map_some, PeerRecord.applyExchange]

/-! ## Histories in which no grants are lost -/

inductive Fate
  | requestLost
  /-- The other peer took the request over, and its answer is lost. -/
  | answerLost
  | complete
deriving DecidableEq, Repr

/-- What two peers do one after another. -/
inductive Deed
  | grant (p : Partner) (ids : List ServiceId) (descriptors : List Descriptor)
  | exchange (p : Partner) (fate : Fate)

def act (c : Couple) : Deed → Couple
  | .grant p ids descriptors => c.grant p ids descriptors
  | .exchange p .requestLost => (c.ask p).step (.loseRequest c.requests.length)
  | .exchange p .answerLost =>
    ((c.ask p).answer c.requests.length).step (.loseAnswer c.answers.length)
  | .exchange p .complete => c.exchange p

def acts (c : Couple) (deeds : List Deed) : Couple := deeds.foldl act c

/-- Answers are lost only if there are no grants in them. -/
def LosesNoGrants (c : Couple) : List Deed → Prop
  | [] => True
  | deed :: rest =>
    (∀ p, deed = .exchange p .answerLost → ¬c.isPending p.other) ∧ (c.act deed).LosesNoGrants rest

section Told

variable {c c' : Couple} {p : Partner} {mine theirs r : PeerRecord}

theorem told_iff (hMine : c.record? p = some mine) (hTheirs : c.record? p.other = some theirs) :
    c.Told p ↔ theirs.pending = true ∨ mine.imported = theirs.exported := by
  simp only [Told, isPending, imported?, exported?, hMine, hTheirs, Option.map_some,
    Option.some.injEq]

/-- Both peers were told, judged by the two records. -/
theorem all_told_iff (hMine : c.record? p = some mine) (hTheirs : c.record? p.other = some theirs) :
    (∀ q, c.Told q) ↔ (theirs.pending = true ∨ mine.imported = theirs.exported) ∧
      (mine.pending = true ∨ theirs.imported = mine.exported) := by
  have hBack : c.record? p.other.other = some mine := by rw [Partner.other_other, hMine]
  rw [← told_iff hMine hTheirs, ← told_iff hTheirs hBack]
  constructor
  · exact fun h => ⟨h p, h p.other⟩
  · rintro ⟨hp, hq⟩ q
    rcases Partner.eq_or_eq_other p q with rfl | rfl
    · exact hp
    · exact hq

theorem Knows.act (h : c.Knows) (deed : Deed) : (c.act deed).Knows := by
  cases deed with
  | grant p ids descriptors => exact h.step (.grant p ids descriptors)
  | exchange p fate =>
    cases fate with
    | requestLost => exact (h.ask p).step (.loseRequest _)
    | answerLost => exact ((h.ask p).answer _).step (.loseAnswer _)
    | complete => exact ((h.ask p).answer _).take _

/-- A deed that loses no grants leaves both peers told. -/
theorem Knows.act_told (h : c.Knows) (hTold : ∀ q, c.Told q) (deed : Deed)
    (hLoses : ∀ p, deed = .exchange p .answerLost → ¬c.isPending p.other) :
    ∀ q, (c.act deed).Told q := by
  cases deed with
  | grant p ids descriptors =>
    obtain ⟨mine, hMine, -⟩ := h p
    obtain ⟨theirs, hTheirs, -⟩ := h p.other
    have hChanged := h.grant_changed hMine ids descriptors
    obtain ⟨hForth, -⟩ := (all_told_iff hMine hTheirs).mp hTold
    exact (all_told_iff hChanged.here (hChanged.there.trans hTheirs)).mpr ⟨hForth, .inl rfl⟩
  | exchange p fate =>
    obtain ⟨mine, hMine, -⟩ := h p
    obtain ⟨theirs, hTheirs, -⟩ := h p.other
    obtain ⟨hForth, hBack⟩ := (all_told_iff hMine hTheirs).mp hTold
    cases fate with
    | requestLost =>
      have hAsked : (c.act (.exchange p .requestLost)).record? = c.record? := by
        simp only [Couple.act, requests_ask hMine]
        rfl
      exact (all_told_iff (hAsked ▸ hMine) (hAsked ▸ hTheirs)).mpr ⟨hForth, hBack⟩
    | answerLost =>
      obtain ⟨hChanged, -⟩ := h.ask_answer hMine hTheirs
      have hMine' : (c.act (.exchange p .answerLost)).record? p = some mine := by
        have hThere := hChanged.there
        rw [Partner.other_other, hMine] at hThere
        exact hThere
      refine (all_told_iff hMine' hChanged.here).mpr ⟨.inr ?_, .inr rfl⟩
      refine hForth.resolve_left fun hPending => hLoses p rfl ?_
      simp only [isPending, hTheirs, Option.map_some, hPending]
    | complete =>
      obtain ⟨hHere, hThere⟩ := h.exchange_spec hMine hTheirs
      refine (all_told_iff hHere hThere).mpr ⟨.inr ?_, .inr ?_⟩
      · unfold replyOf
        split
        · rfl
        next hPending => exact hForth.resolve_left hPending
      · unfold replyOf
        split <;> rfl

theorem acts_told (h : c.Knows) (hTold : ∀ q, c.Told q) (deeds : List Deed)
    (hLoses : c.LosesNoGrants deeds) : (c.acts deeds).Knows ∧ ∀ q, (c.acts deeds).Told q := by
  induction deeds generalizing c with
  | nil => exact ⟨h, hTold⟩
  | cons deed deeds ih =>
    exact ih (h.act deed) (h.act_told hTold deed hLoses.1) hLoses.2

end Told

/-- Whatever happened between two peers that were introduced, an exchange that runs alone is
answered, changes no grants and leaves the answering peer with the asking peer's grants; the asking
peer ends with the answering peer's exactly if those were pending or had been told. After a history
in which no grants are lost it always does. -/
theorem exchange_synchronises (address : Partner → PeerAddress) (name : Partner → String)
    (known : Partner → Directory) :
    (∀ (moves : List Move) (p : Partner),
      let before := (introduce address name known).play moves
      let after := before.exchange p
      (∃ reply, ((before.ask p).answer before.requests.length).answers =
        before.answers ++ [(p, reply)]) ∧
      (∀ q, ∃ granted, before.exported? q = some granted ∧ after.exported? q = some granted) ∧
      after.imported? p.other = after.exported? p ∧
      (after.imported? p = after.exported? p.other ↔ before.Told p)) ∧
    ∀ deeds : List Deed, (introduce address name known).LosesNoGrants deeds →
      ∀ p, let after := ((introduce address name known).acts deeds).exchange p
        after.imported? p.other = after.exported? p ∧
          after.imported? p = after.exported? p.other := by
  have hKnows := introduce_knows address name known
  refine ⟨fun moves p => ?_, fun deeds hLoses p => ?_⟩
  · have h := play_knows hKnows moves
    intro before after
    obtain ⟨mine, hMine, -⟩ := h p
    obtain ⟨theirs, hTheirs, -⟩ := h p.other
    exact ⟨⟨_, (h.ask_answer hMine hTheirs).2⟩, h.exported?_exchange p, h.exchange_synced p⟩
  · have hPending : ∀ q, (introduce address name known).Told q := fun q => .inl (by
      simp only [isPending, introduce_record?, Option.map_some, PeerRecord.create])
    obtain ⟨h, hTold⟩ := acts_told hKnows hPending deeds hLoses
    obtain ⟨hForth, hBack⟩ := h.exchange_synced p
    exact ⟨hForth, hBack.mpr (hTold p)⟩

/-! ## Grants that are lost for good -/

/-- Two peers that know nobody else. -/
def sample : Couple :=
  introduce (fun | .first => ⟨.ofPadded 20 [1]⟩ | .second => ⟨.ofPadded 20 [2]⟩)
    (fun | .first => "first" | .second => "second") fun _ => .empty

/-- A service that was granted before the first exchange is known to the other peer after it. -/
theorem sample_synchronises :
    sample.LosesNoGrants [.grant .second [⟨9⟩] []] ∧
      ((sample.acts [.grant .second [⟨9⟩] []]).exchange .first).imported? .first =
        ((sample.acts [.grant .second [⟨9⟩] []]).exchange .first).exported? .second := by
  have hLoses : sample.LosesNoGrants [.grant .second [⟨9⟩] []] :=
    ⟨fun _ h => (nomatch h), trivial⟩
  exact ⟨hLoses, ((exchange_synchronises _ _ _).2 _ hLoses .first).2⟩

/-- The answering peer tells its grants once. If that answer is lost, an exchange that is answered
later does not make up for it. -/
theorem sample_loses_grants :
    let before := sample.play [.grant .second [⟨9⟩] [], .ask .first, .answer 0, .loseAnswer 0]
    before.requests = [] ∧ before.answers = [] ∧
      (before.exchange .first).imported? .first ≠ (before.exchange .first).exported? .second := by
  decide +kernel

end Couple

end PeerServices
