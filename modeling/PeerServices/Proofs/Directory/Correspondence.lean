import PeerServices.Proofs.Directory.Lookup

/-!
# Grants that change while exchanges are under way

A peer exchanges grants with everyone it knows, and its owner grants and drops services meanwhile.
An exchange tells the grants of the moment at which it was begun; when it is complete, nothing waits
to be told any more, whatever was granted since.

* `Correspondence.record?_step`: what an event makes of every record.
* `Correspondence.isPending_run_iff`: grants wait to be told exactly until an exchange with their
  peer is complete, no matter when that exchange was begun.
* `Correspondence.step_current`: a peer that is not told what is granted has its record waiting,
  unless an exchange completes that was begun before, or a granted service is dropped.
* `Correspondence.pending_until_exchanged`: both over a whole run, from the introduction on.
-/

namespace PeerServices

/-! ## Records under their own addresses -/

namespace Directory

/-- Every record is kept under the address that it names. -/
def Keyed (d : Directory) : Prop := ∀ peer r, d.find? peer = some r → r.address = peer

/-- The records of peers that were introduced one after another. -/
def ofRecords (records : List PeerRecord) : Directory :=
  records.foldl (fun d r => (d.add r).1) .empty

variable {d : Directory}

theorem find?_add (d : Directory) (r : PeerRecord) (peer : PeerAddress) :
    (d.add r).1.find? peer = if peer = r.address then some r else d.find? peer := by
  split
  next h =>
    subst h
    exact find?_store d r
  next h => exact find?_store_of_ne h d

theorem Keyed.add (h : d.Keyed) (r : PeerRecord) : (d.add r).1.Keyed := by
  intro peer r' hFind
  rw [find?_add] at hFind
  split at hFind
  next hPeer =>
    rw [← Option.some.inj hFind]
    exact hPeer.symm
  · exact h peer r' hFind

/-- Every record after one was changed. -/
theorem Keyed.find?_changed {q : PeerAddress} {r : PeerRecord} (h : d.Keyed)
    (change : PeerRecord → PeerRecord) (hq : d.find? q = some r)
    (hAddress : (change r).address = r.address) (p : PeerAddress) :
    (d.store (change r)).find? p =
      (d.find? p).map fun r' => if q = p then change r' else r' := by
  have hKey : (change r).address = q := hAddress.trans (h q r hq)
  by_cases hp : q = p
  · subst hp
    rw [hq, Option.map_some, if_pos rfl, ← find?_store d (change r), hKey]
  · simp only [if_neg hp, Option.map_id']
    exact find?_store_of_ne (fun h => hp (hKey.symm.trans h.symm)) d

/-- A change of the record of a peer that is not known. -/
theorem find?_unknown {q : PeerAddress} (change : PeerRecord → PeerRecord)
    (hq : d.find? q = none) (p : PeerAddress) :
    d.find? p = (d.find? p).map fun r => if q = p then change r else r := by
  by_cases hp : q = p
  · subst hp
    rw [hq, Option.map_none]
  · simp only [if_neg hp, Option.map_id']

theorem ofRecords_keyed (records : List PeerRecord) : (ofRecords records).Keyed := by
  have hAll : ∀ (records : List PeerRecord) (d : Directory), d.Keyed →
      (records.foldl (fun d r => (d.add r).1) d).Keyed := by
    intro records
    induction records with
    | nil => exact fun _ h => h
    | cons r records ih => exact fun d h => ih _ (h.add r)
  exact hAll records .empty fun _ _ h => nomatch h

end Directory

/-! ## Exchanges under way -/

/-- A request that a peer sent and waits to be answered. -/
structure Inquiry where
  peer : PeerAddress
  sent : GrantSet
  /-- The other peer has it. -/
  reached : Bool

/-- What a peer knows of the others, and what is under way between it and them. -/
structure Correspondence where
  directory : Directory
  inquiries : List Inquiry
  /-- Grants in answers that the others wait for. -/
  replies : List (PeerAddress × GrantSet)

namespace Correspondence

/-- A peer that was introduced to others, and to one more, with nothing under way. -/
def start (known : List PeerRecord) (r : PeerRecord) : Correspondence where
  directory := ((Directory.ofRecords known).add r).1
  inquiries := []
  replies := []

inductive Event
  /-- The owner grants a peer exactly these services. -/
  | grant (q : PeerAddress) (ids : List ServiceId) (descriptors : List Descriptor)
  | drop (side : GrantSide) (service : ServiceAddress)
  | purge (service : ServiceAddress)
  | ask (q : PeerAddress)
  /-- A request reaches the peer to which it was sent. -/
  | reach (i : Nat)
  /-- An answer to a request arrives. -/
  | take (i : Nat) (reply : Option GrantSet)
  | fail (i : Nat)
  /-- A peer asks and is answered. -/
  | answer (q : PeerAddress) (data : GrantSet)
  | reachReply (i : Nat)
  | loseReply (i : Nat)

def ask (c : Correspondence) (q : PeerAddress) : Correspondence :=
  match c.directory.find? q with
  | none => c
  | some r => { c with inquiries := c.inquiries ++ [⟨q, r.exported, false⟩] }

def take (c : Correspondence) (i : Nat) (reply : Option GrantSet) : Correspondence :=
  match c.inquiries[i]? with
  | none => c
  | some inquiry =>
    if inquiry.reached then
      { c with
        directory := (c.directory.exchanged inquiry.peer reply).1
        inquiries := c.inquiries.eraseIdx i }
    else c

def answer (c : Correspondence) (q : PeerAddress) (data : GrantSet) : Correspondence :=
  match c.directory.receiveExchange q data with
  | .error _ => c
  | .ok (reply, d, _) =>
    { c with directory := d, replies := c.replies ++ reply.toList.map fun granted => (q, granted) }

def step (c : Correspondence) : Event → Correspondence
  | .grant q ids descriptors =>
    match c.directory.grant q ids descriptors with
    | .error _ => c
    | .ok (d, _) => { c with directory := d }
  | .drop side service => { c with directory := (c.directory.deleteService side service).1 }
  | .purge service => { c with directory := (c.directory.purge service).1 }
  | .ask q => c.ask q
  | .reach i =>
    { c with inquiries := c.inquiries.modify i fun inquiry => { inquiry with reached := true } }
  | .take i reply => c.take i reply
  | .fail i => { c with inquiries := c.inquiries.eraseIdx i }
  | .answer q data => c.answer q data
  | .reachReply i | .loseReply i => { c with replies := c.replies.eraseIdx i }

def run (c : Correspondence) (es : List Event) : Correspondence := es.foldl step c

/-! ## What is told and what is complete -/

def record? (c : Correspondence) (p : PeerAddress) : Option PeerRecord := c.directory.find? p

/-- Grants wait to be told to a peer. -/
def isPending (c : Correspondence) (p : PeerAddress) : Prop :=
  (c.record? p).map PeerRecord.pending = some true

def exported? (c : Correspondence) (p : PeerAddress) : Option GrantSet :=
  (c.record? p).map PeerRecord.exported

/-- The grants that a peer receives by an event, in a request or in an answer. -/
def received? (c : Correspondence) (p : PeerAddress) : Event → Option GrantSet
  | .reach i =>
    match c.inquiries[i]? with
    | none => none
    | some inquiry => if inquiry.peer = p ∧ ¬inquiry.reached then some inquiry.sent else none
  | .reachReply i =>
    match c.replies[i]? with
    | none => none
    | some (q, granted) => if q = p then some granted else none
  | _ => none

/-- The exchange with a peer that an event completes: the own grants that it carried, if any. -/
def completed? (c : Correspondence) (p : PeerAddress) : Event → Option (Option GrantSet)
  | .take i _ =>
    match c.inquiries[i]? with
    | none => none
    | some inquiry => if inquiry.peer = p ∧ inquiry.reached then some (some inquiry.sent) else none
  | .answer q data =>
    if q = p then
      match c.directory.receiveExchange q data with
      | .error _ => none
      | .ok (reply, _) => some reply
    else none
  | _ => none

/-- All that a peer receives, in the order in which it does. -/
def received (c : Correspondence) (p : PeerAddress) : List Event → List GrantSet
  | [] => []
  | e :: es => (c.received? p e).toList ++ (c.step e).received p es

/-- All grants that complete exchanges with a peer carried. -/
def carried (c : Correspondence) (p : PeerAddress) : List Event → List GrantSet
  | [] => []
  | e :: es => ((c.completed? p e).bind id).toList ++ (c.step e).carried p es

/-- A peer received other grants last than it has now, and no complete exchange carried these. -/
def Owes (c : Correspondence) (p : PeerAddress) (es : List Event) : Prop :=
  ∃ granted ∈ (c.run es).exported? p,
    (∃ last ∈ (c.received p es).getLast?, last ≠ granted) ∧
      ∀ data ∈ c.carried p es, data.version ≠ granted.version

def Grants (p : PeerAddress) : Event → Prop
  | .grant q _ _ => q = p
  | _ => False

/-- No exchange with the peer is completed. -/
def Unmet (c : Correspondence) (p : PeerAddress) : List Event → Prop
  | [] => True
  | e :: es => c.completed? p e = none ∧ (c.step e).Unmet p es

/-- Services are granted to the peer, and no exchange with it is completed after that. -/
def Waits (c : Correspondence) (p : PeerAddress) : List Event → Prop
  | [] => False
  | e :: es => (Grants p e ∧ (c.step e).Unmet p es) ∨ (c.step e).Waits p es

/-- An exchange is completed that carried other grants than the peer has by now. -/
def Stale (c : Correspondence) (p : PeerAddress) (e : Event) : Prop :=
  ∃ data ∈ (c.completed? p e).bind id, c.exported? p ≠ some data

/-- What a peer is granted changes, though nothing is granted to it. -/
def Forgets (c : Correspondence) (p : PeerAddress) (e : Event) : Prop :=
  ¬Grants p e ∧ (c.step e).exported? p ≠ c.exported? p

/-- A stale exchange is completed or a granted service is dropped, and nothing is granted to the
peer after that. -/
def Slips (c : Correspondence) (p : PeerAddress) : List Event → Prop
  | [] => False
  | e :: es =>
    ((c.Stale p e ∨ c.Forgets p e) ∧ ∀ later ∈ es, ¬Grants p later) ∨ (c.step e).Slips p es

instance (c : Correspondence) (p : PeerAddress) : Decidable (c.isPending p) :=
  inferInstanceAs (Decidable (_ = _))

instance (c : Correspondence) (p : PeerAddress) (es : List Event) : Decidable (c.Owes p es) :=
  inferInstanceAs (Decidable (∃ granted ∈ (c.run es).exported? p,
    (∃ last ∈ (c.received p es).getLast?, last ≠ granted) ∧
      ∀ data ∈ c.carried p es, data.version ≠ granted.version))

instance (p : PeerAddress) : DecidablePred (Grants p)
  | .grant q _ _ => inferInstanceAs (Decidable (q = p))
  | .drop .. | .purge _ | .ask _ | .reach _ | .take .. | .fail _ | .answer .. | .reachReply _
  | .loseReply _ => .isFalse id

instance (c : Correspondence) (p : PeerAddress) (e : Event) : Decidable (c.Stale p e) :=
  inferInstanceAs (Decidable (∃ data ∈ (c.completed? p e).bind id, c.exported? p ≠ some data))

instance (c : Correspondence) (p : PeerAddress) (e : Event) : Decidable (c.Forgets p e) :=
  inferInstanceAs (Decidable (¬Grants p e ∧ (c.step e).exported? p ≠ c.exported? p))

instance decidableSlips (p : PeerAddress) : (es : List Event) → (c : Correspondence) →
    Decidable (c.Slips p es)
  | [], _ => .isFalse id
  | e :: es, c =>
    have := decidableSlips p es (c.step e)
    inferInstanceAs (Decidable (((c.Stale p e ∨ c.Forgets p e) ∧
      ∀ later ∈ es, ¬Grants p later) ∨ (c.step e).Slips p es))

/-! ## What an event makes of a record -/

/-- What an event makes of the record of a peer. -/
def revised (c : Correspondence) (p : PeerAddress) (e : Event) (r : PeerRecord) : PeerRecord :=
  match e with
  | .grant q ids descriptors => if q = p then r.grant ids descriptors else r
  | .drop .imported service => (r.removeImported? service).getD r
  | .drop .exported service => (r.removeExported? service).getD r
  | .purge service => (r.removeService? service).getD r
  | .take i reply =>
    match c.inquiries[i]? with
    | none => r
    | some inquiry =>
      if inquiry.peer = p ∧ inquiry.reached then Directory.answered r reply else r
  | .answer q data => if q = p then r.applyExchange data else r
  | _ => r

section Steps

variable {c : Correspondence} {p : PeerAddress} {r : PeerRecord} {e : Event}

theorem revised_drop (c : Correspondence) (p : PeerAddress) (side : GrantSide)
    (service : ServiceAddress) (r : PeerRecord) :
    r.Dropped (c.revised p (.drop side service) r) := by
  cases side with
  | imported => exact .of_getD fun _ h => (PeerRecord.removeImported?_dropped h).1
  | exported => exact .of_getD fun _ h => (PeerRecord.removeExported?_dropped h).1

theorem revised_purge (c : Correspondence) (p : PeerAddress) (service : ServiceAddress)
    (r : PeerRecord) : r.Dropped (c.revised p (.purge service) r) :=
  .of_getD fun _ h => PeerRecord.removeService?_dropped h

theorem revised_address (c : Correspondence) (p : PeerAddress) (e : Event) (r : PeerRecord) :
    (c.revised p e r).address = r.address := by
  cases e with
  | drop side service => exact (revised_drop c p side service r).address
  | purge service => exact (revised_purge c p service r).address
  | ask q | reach i | fail i | reachReply i | loseReply i => rfl
  | grant q ids descriptors =>
    simp only [revised]
    split <;> rfl
  | answer q data =>
    simp only [revised]
    split <;> rfl
  | take i reply =>
    simp only [revised]
    split
    · rfl
    · split
      · exact Directory.answered_address r reply
      · rfl

/-- Grants wait to be told after an event if it is a grant, or if they did before and it completes
no exchange. -/
theorem revised_pending_iff (hr : c.record? p = some r) :
    (c.revised p e r).pending = true ↔
      Grants p e ∨ (r.pending = true ∧ c.completed? p e = none) := by
  cases e with
  | drop side service =>
    rw [(revised_drop c p side service r).pending]
    simp [Grants, completed?]
  | purge service =>
    rw [(revised_purge c p service r).pending]
    simp [Grants, completed?]
  | ask q | reach i | fail i | reachReply i | loseReply i => simp [revised, Grants, completed?]
  | grant q ids descriptors =>
    simp only [revised, Grants, completed?, and_true]
    split
    next hp => exact iff_of_true rfl (.inl hp)
    next hp => exact ⟨.inr, fun h => h.resolve_left hp⟩
  | take i reply =>
    simp only [revised, completed?, Grants, false_or]
    split
    · simp
    · split
      · cases reply <;> simp [Directory.answered, PeerRecord.applyExchange]
      · simp
  | answer q data =>
    simp only [revised, completed?, Grants, false_or]
    by_cases hp : q = p
    · subst hp
      have hFind : c.directory.find? q = some r := hr
      simp [PeerRecord.applyExchange, Directory.receiveExchange, hFind]
    · simp [hp]

/-- An event revises every record. -/
theorem record?_step (hKeyed : c.directory.Keyed) (p : PeerAddress) (e : Event) :
    (c.step e).record? p = (c.record? p).map (c.revised p e) := by
  cases e with
  | ask q =>
    simp only [step, ask]
    split <;> exact Option.map_id'.symm
  | reach i | fail i | reachReply i | loseReply i => exact Option.map_id'.symm
  | drop side service =>
    cases side <;> exact Directory.find?_changeAll c.directory _ p
  | purge service => exact Directory.find?_changeAll c.directory _ p
  | grant q ids descriptors =>
    simp only [step, Directory.grant]
    cases hq : c.directory.find? q with
    | none => exact Directory.find?_unknown (fun r => r.grant ids descriptors) hq p
    | some r₀ => exact hKeyed.find?_changed (fun r => r.grant ids descriptors) hq rfl p
  | take i reply =>
    simp only [step, take]
    have hRevised : ∀ r, c.revised p (.take i reply) r =
        match c.inquiries[i]? with
        | none => r
        | some inquiry =>
          if inquiry.peer = p ∧ inquiry.reached then Directory.answered r reply else r :=
      fun _ => rfl
    cases hInquiry : c.inquiries[i]? with
    | none =>
      simp only [funext hRevised, hInquiry]
      exact Option.map_id'.symm
    | some inquiry =>
      simp only [funext hRevised, hInquiry]
      cases hReached : inquiry.reached with
      | false => simp
      | true =>
        simp only [if_true, and_true, Directory.exchanged]
        cases hq : c.directory.find? inquiry.peer with
        | none => exact Directory.find?_unknown (fun r => Directory.answered r reply) hq p
        | some r₀ =>
          exact hKeyed.find?_changed (fun r => Directory.answered r reply) hq
            (Directory.answered_address r₀ reply) p
  | answer q data =>
    simp only [step, answer, Directory.receiveExchange]
    cases hq : c.directory.find? q with
    | none => exact Directory.find?_unknown (fun r => r.applyExchange data) hq p
    | some r₀ => exact hKeyed.find?_changed (fun r => r.applyExchange data) hq rfl p

/-- Records stay under their addresses, and one is that of the peer. -/
structure Follows (c : Correspondence) (p : PeerAddress) : Prop where
  keyed : c.directory.Keyed
  known : ∃ r, c.record? p = some r

theorem start_follows (known : List PeerRecord) (r : PeerRecord) :
    (start known r).Follows r.address where
  keyed := (Directory.ofRecords_keyed known).add r
  known := ⟨r, Directory.find?_store _ r⟩

theorem Follows.step (h : c.Follows p) (e : Event) : (c.step e).Follows p := by
  constructor
  case keyed =>
    intro q r' hFind
    obtain ⟨r, hr, rfl⟩ := Option.map_eq_some_iff.mp ((record?_step h.keyed q e).symm.trans hFind)
    exact (revised_address c q e r).trans (h.keyed q r hr)
  case known =>
    obtain ⟨r, hr⟩ := h.known
    exact ⟨c.revised p e r, by rw [record?_step h.keyed, hr, Option.map_some]⟩

/-! ## Until when grants wait -/

theorem isPending_of_record? (hr : c.record? p = some r) : c.isPending p ↔ r.pending = true := by
  rw [isPending, hr, Option.map_some, Option.some.injEq]

theorem exported?_of_record? (hr : c.record? p = some r) : c.exported? p = some r.exported := by
  rw [exported?, hr, Option.map_some]

theorem isPending_step_iff (h : c.Follows p) (e : Event) :
    (c.step e).isPending p ↔ Grants p e ∨ (c.isPending p ∧ c.completed? p e = none) := by
  obtain ⟨r, hr⟩ := h.known
  have hr' : (c.step e).record? p = some (c.revised p e r) := by
    rw [record?_step h.keyed, hr, Option.map_some]
  rw [isPending_of_record? hr', isPending_of_record? hr]
  exact revised_pending_iff hr

/-- Grants wait to be told until an exchange with their peer is completed, whenever it was begun. -/
theorem isPending_run_iff (h : c.Follows p) (es : List Event) :
    (c.run es).isPending p ↔ (c.isPending p ∧ c.Unmet p es) ∨ c.Waits p es := by
  induction es generalizing c with
  | nil => exact ⟨fun hp => .inl ⟨hp, trivial⟩, fun hp => hp.elim And.left False.elim⟩
  | cons e es ih =>
    have hRest := ih (h.step e)
    rw [isPending_step_iff h e] at hRest
    rw [run, List.foldl_cons, ← run, hRest, Unmet, Waits]
    constructor
    · rintro (⟨hGrants | ⟨hp, hNone⟩, hUnmet⟩ | hWaits)
      · exact .inr (.inl ⟨hGrants, hUnmet⟩)
      · exact .inl ⟨hp, hNone, hUnmet⟩
      · exact .inr (.inr hWaits)
    · rintro (⟨hp, hNone, hUnmet⟩ | ⟨hGrants, hUnmet⟩ | hWaits)
      · exact .inl ⟨.inr ⟨hp, hNone⟩, hUnmet⟩
      · exact .inl ⟨.inl hGrants, hUnmet⟩
      · exact .inr hWaits

/-- An exchange that ends the waiting for a peer carried grants. -/
theorem completed?_of_pending (hr : c.record? p = some r) (hPending : r.pending = true)
    {sent? : Option GrantSet} (h : c.completed? p e = some sent?) : ∃ data, sent? = some data := by
  unfold completed? at h
  split at h
  · split at h
    · cases h
    · split at h
      · exact ⟨_, (Option.some.inj h).symm⟩
      · cases h
  · split at h
    next hq =>
      subst hq
      have hFind : c.directory.find? _ = some r := hr
      simp only [Directory.receiveExchange, hFind, hPending, if_true, Option.some.injEq] at h
      exact ⟨_, h.symm⟩
    · cases h
  · cases h

/-! ## What the peer was told -/

/-- Everything that a peer received or that is under way to it is what it is granted. -/
structure Uniform (c : Correspondence) (p : PeerAddress) (granted : GrantSet)
    (received : List GrantSet) : Prop where
  sent : ∀ inquiry ∈ c.inquiries, inquiry.peer = p → inquiry.sent = granted
  replied : ∀ data, (p, data) ∈ c.replies → data = granted
  received : ∀ data ∈ received, data = granted

/-- Grants wait to be told to a peer, or a complete exchange carried them, or the peer never was
told others. -/
def Current (c : Correspondence) (p : PeerAddress) (received carried : List GrantSet) : Prop :=
  c.isPending p ∨ ∃ granted, c.exported? p = some granted ∧
    (granted ∈ carried ∨ c.Uniform p granted received)

theorem mem_modify {α : Type} {l : List α} {i : Nat} {f : α → α} {x : α}
    (h : x ∈ l.modify i f) : ∃ y ∈ l, x = y ∨ x = f y := by
  obtain ⟨j, hj⟩ := List.mem_iff_getElem?.mp h
  rw [List.getElem?_modify] at hj
  obtain ⟨y, hy, hx⟩ := Option.map_eq_some_iff.mp hj
  refine ⟨y, List.mem_of_getElem? hy, ?_⟩
  split at hx
  · exact .inr hx.symm
  · exact .inl hx.symm

/-- A request that is under way was before, or it carries what is granted by now. -/
theorem sent_step {inquiry : Inquiry} (h : inquiry ∈ (c.step e).inquiries) :
    (∃ before ∈ c.inquiries, inquiry.peer = before.peer ∧ inquiry.sent = before.sent) ∨
      c.exported? inquiry.peer = some inquiry.sent := by
  have hOld : inquiry ∈ c.inquiries →
      ∃ before ∈ c.inquiries, inquiry.peer = before.peer ∧ inquiry.sent = before.sent :=
    fun hMem => ⟨inquiry, hMem, rfl, rfl⟩
  cases e with
  | drop side service | purge service | reachReply i | loseReply i => exact .inl (hOld h)
  | grant q ids descriptors =>
    simp only [step] at h
    split at h <;> exact .inl (hOld h)
  | ask q =>
    simp only [step, ask] at h
    split at h
    · exact .inl (hOld h)
    next r hr =>
      rcases List.mem_append.mp h with hMem | hMem
      · exact .inl (hOld hMem)
      · rw [List.mem_singleton.mp hMem]
        exact .inr (exported?_of_record? hr)
  | reach i =>
    obtain ⟨before, hMem, rfl | rfl⟩ := mem_modify h
    · exact .inl (hOld hMem)
    · exact .inl ⟨before, hMem, rfl, rfl⟩
  | take i reply =>
    simp only [step, take] at h
    split at h
    · exact .inl (hOld h)
    · split at h
      · exact .inl (hOld (List.mem_of_mem_eraseIdx h))
      · exact .inl (hOld h)
  | fail i => exact .inl (hOld (List.mem_of_mem_eraseIdx h))
  | answer q data =>
    simp only [step, answer] at h
    split at h <;> exact .inl (hOld h)

/-- An answer that is under way was before, or it carries what is granted by now. -/
theorem replied_step {q : PeerAddress} {granted : GrantSet}
    (h : (q, granted) ∈ (c.step e).replies) :
    (q, granted) ∈ c.replies ∨ c.exported? q = some granted := by
  cases e with
  | drop side service | purge service | reach i | fail i => exact .inl h
  | reachReply i | loseReply i => exact .inl (List.mem_of_mem_eraseIdx h)
  | grant q ids descriptors =>
    simp only [step] at h
    split at h <;> exact .inl h
  | ask q =>
    simp only [step, ask] at h
    split at h <;> exact .inl h
  | take i reply =>
    simp only [step, take] at h
    split at h
    · exact .inl h
    · split at h <;> exact .inl h
  | answer p data =>
    simp only [step, answer, Directory.receiveExchange] at h
    cases hr : c.directory.find? p with
    | none =>
      rw [hr] at h
      exact .inl h
    | some r =>
      rw [hr] at h
      rcases List.mem_append.mp h with hMem | hMem
      · exact .inl hMem
      · obtain ⟨reply, hReply, hEq⟩ := List.mem_map.mp hMem
        obtain ⟨rfl, rfl⟩ := Prod.mk.inj hEq
        split at hReply
        · obtain rfl := List.mem_singleton.mp hReply
          exact .inr (exported?_of_record? hr)
        · cases hReply

/-- A peer receives what was under way to it. -/
theorem Uniform.received?_eq {granted data : GrantSet} {received : List GrantSet}
    (h : c.Uniform p granted received) (hReceived : c.received? p e = some data) :
    data = granted := by
  unfold received? at hReceived
  split at hReceived
  · split at hReceived
    · cases hReceived
    next hInquiry =>
      split at hReceived
      next hPeer =>
        rw [← Option.some.inj hReceived]
        exact h.sent _ (List.mem_of_getElem? hInquiry) hPeer.1
      · cases hReceived
  · split at hReceived
    · cases hReceived
    next hReply =>
      split at hReceived
      next hPeer =>
        rw [← Option.some.inj hReceived]
        exact h.replied _ (hPeer ▸ List.mem_of_getElem? hReply)
      · cases hReceived
  · cases hReceived

theorem Uniform.step {granted : GrantSet} {received : List GrantSet}
    (h : c.Uniform p granted received) (hExported : c.exported? p = some granted) (e : Event) :
    (c.step e).Uniform p granted (received ++ (c.received? p e).toList) := by
  constructor
  case sent =>
    rintro inquiry hMem rfl
    rcases sent_step hMem with ⟨before, hBefore, hPeer, hSent⟩ | hNow
    · rw [hSent]
      exact h.sent before hBefore hPeer.symm
    · exact Option.some.inj (hNow.symm.trans hExported)
  case replied =>
    intro data hMem
    rcases replied_step hMem with hBefore | hNow
    · exact h.replied data hBefore
    · exact Option.some.inj (hNow.symm.trans hExported)
  case received =>
    intro data hMem
    rcases List.mem_append.mp hMem with hMem | hMem
    · exact h.received data hMem
    · exact h.received?_eq (Option.mem_toList.mp hMem)

/-- Unless a stale exchange is completed or a granted service is dropped, grants wait to be told, or
were told. -/
theorem step_current {received carried : List GrantSet} (h : c.Follows p)
    (hCurrent : c.Current p received carried) (hStale : ¬c.Stale p e) (hForgets : ¬c.Forgets p e) :
    (c.step e).Current p (received ++ (c.received? p e).toList)
      (carried ++ ((c.completed? p e).bind id).toList) := by
  by_cases hGrants : Grants p e
  · exact .inl ((isPending_step_iff h e).mpr (.inl hGrants))
  have hExported : (c.step e).exported? p = c.exported? p :=
    Decidable.byContradiction fun hNe => hForgets ⟨hGrants, hNe⟩
  rw [Current, hExported]
  rcases hCurrent with hPending | ⟨granted, hGranted, hTold⟩
  · cases hCompleted : c.completed? p e with
    | none => exact .inl ((isPending_step_iff h e).mpr (.inr ⟨hPending, hCompleted⟩))
    | some sent? =>
      obtain ⟨r, hr⟩ := h.known
      obtain ⟨data, rfl⟩ :=
        completed?_of_pending hr ((isPending_of_record? hr).mp hPending) hCompleted
      have hData : c.exported? p = some data :=
        Decidable.byContradiction fun hNe => hStale ⟨data, by rw [hCompleted]; rfl, hNe⟩
      exact .inr ⟨data, hData, .inl (List.mem_append_right _ (List.mem_singleton_self data))⟩
  · refine .inr ⟨granted, hGranted, ?_⟩
    rcases hTold with hMem | hUniform
    · exact .inl (List.mem_append_left _ hMem)
    · exact .inr (hUniform.step hGranted e)

/-- What holds of the grants to a peer once something is granted to it, or if it does at first. -/
theorem run_current {received carried : List GrantSet} (h : c.Follows p) (es : List Event)
    (hStart : c.Current p received carried ∨ ∃ e ∈ es, Grants p e) :
    (c.run es).Current p (received ++ c.received p es) (carried ++ c.carried p es) ∨
      c.Slips p es := by
  induction es generalizing c received carried with
  | nil =>
    rcases hStart with hCurrent | ⟨e, hMem, -⟩
    · simp only [Correspondence.received, Correspondence.carried, List.append_nil]
      exact .inl hCurrent
    · cases hMem
  | cons e es ih =>
    have hRest : (c.step e).Current p (received ++ (c.received? p e).toList)
          (carried ++ ((c.completed? p e).bind id).toList) ∨ (∃ later ∈ es, Grants p later) →
        (c.run (e :: es)).Current p (received ++ c.received p (e :: es))
          (carried ++ c.carried p (e :: es)) ∨ c.Slips p (e :: es) := by
      intro hNext
      have hRun := ih (h.step e) hNext
      rw [List.append_assoc, List.append_assoc] at hRun
      exact hRun.imp_right .inr
    by_cases hLater : ∃ later ∈ es, Grants p later
    · exact hRest (.inr hLater)
    by_cases hGrants : Grants p e
    · exact hRest (.inl (.inl ((isPending_step_iff h e).mpr (.inl hGrants))))
    by_cases hSlips : c.Stale p e ∨ c.Forgets p e
    · exact .inr (.inl ⟨hSlips, fun later hMem hGrants => hLater ⟨later, hMem, hGrants⟩⟩)
    · have hCurrent : c.Current p received carried := by
        refine hStart.resolve_right ?_
        rintro ⟨granting, hMem, hGranting⟩
        rcases List.mem_cons.mp hMem with rfl | hMem
        · exact hGrants hGranting
        · exact hLater ⟨granting, hMem, hGranting⟩
      obtain ⟨hStale, hForgets⟩ := not_or.mp hSlips
      exact hRest (.inl (step_current h hCurrent hStale hForgets))

end Steps

/-- Whatever a peer's owner grants and drops while exchanges are under way: grants to another peer
wait to be told exactly until an exchange with it is completed. If that peer does not have what it
is granted, they wait, unless an exchange was completed that was begun before, or a granted service
was dropped, with nothing granted since. -/
theorem pending_until_exchanged (known : List PeerRecord) (r : PeerRecord) (es : List Event) :
    let c := start known r
    ((c.run es).isPending r.address ↔
      (r.pending = true ∧ c.Unmet r.address es) ∨ c.Waits r.address es) ∧
    (c.Owes r.address es → (c.run es).isPending r.address ∨ c.Slips r.address es) := by
  intro c
  have hFollows : c.Follows r.address := start_follows known r
  have hr : c.record? r.address = some r := Directory.find?_store _ r
  constructor
  · rw [← isPending_of_record? hr]
    exact isPending_run_iff hFollows es
  · rintro ⟨granted, hGranted, ⟨last, hLast, hNe⟩, hNone⟩
    have hStart : c.Current r.address [] [] :=
      .inr ⟨r.exported, exported?_of_record? hr, .inr (by constructor <;> simp [c, start])⟩
    rcases run_current hFollows es (.inl hStart) with (hPending | ⟨told, hTold, hKnown⟩) | hSlips
    · exact .inl hPending
    · obtain rfl := Option.some.inj (hGranted.symm.trans hTold)
      rcases hKnown with hMem | hUniform
      · exact absurd rfl (hNone granted hMem)
      · exact absurd (hUniform.received last (List.mem_of_getLast? hLast)) hNe
    · exact .inr hSlips

/-! ## Grants that are not told any more -/

def sampleAddress : PeerAddress := ⟨.ofPadded 20 [2]⟩

/-- A peer that was introduced to one other. -/
def sample : Correspondence := start [] (.create sampleAddress "other")

/-- Services are granted after an exchange, and wait for the next one. -/
theorem sample_waits :
    let es : List Event := [.ask sampleAddress, .reach 0, .take 0 none,
      .grant sampleAddress [⟨9⟩] []]
    sample.Owes sampleAddress es ∧ (sample.run es).isPending sampleAddress := by
  intro es
  have hOwes : sample.Owes sampleAddress es := by decide +kernel
  have hSlips : ¬sample.Slips sampleAddress es := by decide +kernel
  have hMain := (pending_until_exchanged [] (.create sampleAddress "other") es).2 hOwes
  exact ⟨hOwes, hMain.resolve_right hSlips⟩

/-- An exchange that was begun before a grant is completed after it, and the one that is begun then
fails; or a service is dropped after it was told. Either way the other peer does not have what it is
granted, and nothing waits to be told. -/
theorem sample_slips :
    let service : Descriptor := .basic ⟨⟨9⟩, sampleAddress⟩ "" 0
    let late : List Event := [.ask sampleAddress, .reach 0, .grant sampleAddress [⟨9⟩] [],
      .ask sampleAddress, .take 0 none, .fail 0]
    let dropped : List Event := [.grant sampleAddress [] [service], .ask sampleAddress, .reach 0,
      .take 0 none, .drop .exported service.address]
    ∀ es ∈ [late, dropped],
      sample.Owes sampleAddress es ∧ ¬(sample.run es).isPending sampleAddress := by
  decide +kernel

end Correspondence

end PeerServices
