import LeaveCli.Crypto.FramedGroup
import LeaveCli.Crypto.Proof.Browser
import LeaveCli.Crypto.Proof.Endpoints
import LeaveCli.Host.Conversation
import LeaveCli.Host.Proof.GroupAgreement
import LeaveCli.Host.Proof.Pairing

/-!
# What a host and a browser make of the relay

`Linked` ties a conversation to the same host asked in the clear: each side reads what the other
seals, and every frame under way carries what the link has in its place (`Flows`). Every turn keeps
it (`linked_turn`), so `conversation_faithful` holds of whole conversations.
-/

namespace LeaveCli.Host

open Lib Protocol Crypto Transport

variable {D : Platform} {Reads : D.mls.Reading} {Holds : D.mls.Provider → D.mls.KeyPackage → Prop}

/-- A device that manages no members revokes nobody. -/
theorem serveRevocation_refused {s : RouteService D} {x : Incoming} {opened : OpenedMessage}
    {target : Str} (h : managesMembers s.registry opened.senderDeviceId = false) :
    serveRevocation s x opened target = answerWith s x none
      (refusal (exchangeIdOf D.wire opened) 403 "only a workspace owner may revoke a device") := by
  rw [serveRevocation, revoke, h]
  rfl

/-! ## One direction -/

/-- The frames under way are what `g` sealed last for `p`, with these payloads; before them are the
ones that were lost. -/
structure Flows (Reads : D.mls.Reading) (g p : D.mls.Group) (lane : Lane) (payloads : List Bytes) :
    Prop where
  sealed : ∀ frame ∈ lane.queue, isPairingFrame frame = false
  length : payloads.length = lane.queue.length
  reads : ∃ passed : List (Bytes × Bytes), passed.length = lane.lost ∧
    Reads g p lane.arrived (passed ++ payloads.zip lane.queue)

section
variable (hD : D.mls.Delivers Reads Holds) {g g' p : D.mls.Group} {s : WorkspaceSession D.mls}
  {lane lane' : Lane} {payload frame : Bytes} {payloads : List Bytes}

theorem Flows.lose (h : Flows Reads g p lane payloads) :
    Flows Reads g p lane.lose payloads.tail := by
  obtain ⟨lost, queue, arrived⟩ := lane
  obtain ⟨hsealed, hlength, passed, hlost, hreads⟩ := h
  cases queue with
  | nil =>
    obtain rfl := List.length_eq_zero_iff.1 hlength
    exact ⟨hsealed, rfl, passed, hlost, hreads⟩
  | cons frame queue =>
    cases payloads with
    | nil => cases hlength
    | cons payload payloads =>
      refine ⟨(List.forall_mem_cons.1 hsealed).2, Nat.succ.inj hlength,
        passed ++ [(payload, frame)], ?_, ?_⟩
      · rw [List.length_append, hlost]
        rfl
      · rw [List.append_assoc]
        exact hreads

theorem Flows.eq_nil (h : Flows Reads g p lane payloads) (hnext : lane.next = none) :
    payloads = [] := by
  obtain ⟨lost, queue, arrived⟩ := lane
  cases queue with
  | nil => exact List.length_eq_zero_iff.1 h.length
  | cons frame queue => cases hnext

include hD

theorem Flows.heeds (h : Flows Reads g p lane payloads) (hg : Heeds g g') :
    Flows Reads g' p lane payloads := by
  obtain ⟨passed, hlost, hreads⟩ := h.reads
  exact ⟨h.sealed, h.length, passed, hlost, reads_heeds hD hreads hg⟩

theorem Flows.create (h : Flows Reads g p lane payloads) (payload : Bytes) :
    Flows Reads g (D.mls.createMessage p payload).1 lane payloads := by
  obtain ⟨passed, hlost, hreads⟩ := h.reads
  exact ⟨h.sealed, h.length, passed, hlost, hD.reads_create payload hreads⟩

/-- A frame that was sealed is on its way. -/
theorem Flows.seal (h : Flows Reads g p lane payloads) {message : D.mls.MessageOut}
    (hcreate : (D.mls.createMessage g payload).2 = .ok message)
    (hserialize : D.mls.serialize message = .ok frame) :
    Flows Reads (D.mls.createMessage g payload).1 p (lane.send [frame])
      (payloads ++ [payload]) := by
  obtain ⟨passed, hlost, hreads⟩ := h.reads
  refine ⟨fun frame' hframe => ?_, ?_, passed, hlost, ?_⟩
  · rcases List.mem_append.1 hframe with hframe | hframe
    · exact h.sealed frame' hframe
    · rw [List.mem_singleton.1 hframe]
      exact not_isPairingFrame (hD.framed hserialize)
  · simp only [Lane.send, List.length_append, h.length, List.length_singleton]
  · have hsealed := hD.reads_seal hreads hcreate hserialize
    rw [List.append_assoc] at hsealed
    simp only [Lane.send, List.zip_append h.length]
    exact hsealed

/-- The next frame opens. -/
theorem Flows.next (hM : D.mls.Lawful) (h : Flows Reads g s.group lane payloads) {d : Str}
    (hnamed : Named D.mls g d) (hnext : lane.next = some (frame, lane'))
    (hnear : lane.lost ≤ maximumForwardDistance) : ∃ payload rest, payloads = payload :: rest ∧
      isPairingFrame frame = false ∧ (s.openFrame frame).2 = .ok ⟨d, payload⟩ ∧
      Flows Reads g (s.openFrame frame).1.group lane' rest := by
  obtain ⟨lost, queue, arrived⟩ := lane
  obtain ⟨hsealed, hlength, passed, hlost, hreads⟩ := h
  cases queue with
  | nil => cases hnext
  | cons first queue =>
    cases hnext
    obtain ⟨hframe, hrest⟩ := List.forall_mem_cons.1 hsealed
    cases payloads with
    | nil => cases hlength
    | cons payload rest =>
      obtain ⟨hopened, hreads'⟩ := openFrame_ahead hD hM hnamed hreads (hlost.trans_le hnear)
      exact ⟨payload, rest, rfl, hframe, hopened, hrest, Nat.succ.inj hlength, [], rfl, hreads'⟩

/-- A frame that has arrived does not open again. -/
theorem Flows.again (h : Flows Reads g s.group lane payloads) (harrived : frame ∈ lane.arrived) :
    (∃ e, (s.openFrame frame).2 = .error e) ∧
      Flows Reads g (s.openFrame frame).1.group lane payloads := by
  obtain ⟨passed, hlost, hreads⟩ := h.reads
  obtain ⟨hfails, hreads'⟩ := openFrame_taken hD hreads harrived
  exact ⟨hfails, h.sealed, h.length, passed, hlost, hreads'⟩

end

/-! ## The link -/

/-- The conversation, as the link in the clear has it. -/
structure Linked (Reads : D.mls.Reading) (hostId deviceId : Str) (registry : DeviceRegistry)
    (c : Conversation D) (l : Exchange.Link D.Router Bytes Answer) : Prop where
  router : c.host.router = l.server
  registry : c.host.registry = registry
  pairing : c.host.pairing = none
  host : Named D.mls c.host.session.group hostId
  browser : Named D.mls c.browser.group deviceId
  toHost : Flows Reads c.browser.group c.host.session.group c.toHost l.requests
  toBrowser : ∃ payloads,
    List.Forall₂ (fun answer payload => D.wire.encode answer.2 = .ok payload) l.answers payloads ∧
      Flows Reads c.host.session.group c.browser.group c.toBrowser payloads

/-- What a turn shows is what the link shows in the clear. -/
structure Matches (D : Platform) (hostId : Str) (said : Said)
    (event : Exchange.Event Bytes Answer) : Prop where
  asked : said.asked = event.asked
  answered : (said.outcome.bind fun outcome => outcome.answer.map (outcome.dispatched, ·)) =
    event.served.map Prod.snd
  heard : Option.Rel (fun opened answer => opened.senderDeviceId = hostId ∧
    D.wire.encode answer.2 = .ok opened.plaintext) said.heard event.heard

/-- What the endpoints put up with: no more frames lost in a row than a ratchet bridges; and what
the relay hands over on its own is a pairing frame, no message of a group, or has arrived before. -/
def Tolerated (t : Transition (Conversation D) Turn Said) : Prop :=
  match t.input with
  | .ask payload => payload.length < vectorBound
  | .serve _ => t.before.toHost.lost ≤ maximumForwardDistance
  | .hear => t.before.toBrowser.lost ≤ maximumForwardDistance
  | .loseRequest => True
  | .loseAnswer => True
  | .intrude incoming => isPairingFrame incoming.frame = true ∨
      isProtocolMessage D.mls incoming.frame = false ∨ incoming.frame ∈ t.before.toHost.arrived
  | .mislead frame =>
    isProtocolMessage D.mls frame = false ∨ frame ∈ t.before.toBrowser.arrived

instance (t : Transition (Conversation D) Turn Said) : Decidable (Tolerated t) :=
  match t with
  | ⟨_, .ask _, _, _⟩ => inferInstanceAs (Decidable (_ < _))
  | ⟨_, .serve _, _, _⟩ => inferInstanceAs (Decidable (_ ≤ _))
  | ⟨_, .hear, _, _⟩ => inferInstanceAs (Decidable (_ ≤ _))
  | ⟨_, .loseRequest, _, _⟩ => inferInstanceAs (Decidable True)
  | ⟨_, .loseAnswer, _, _⟩ => inferInstanceAs (Decidable True)
  | ⟨_, .intrude _, _, _⟩ => inferInstanceAs (Decidable (_ ∨ _ ∨ _))
  | ⟨_, .mislead _, _, _⟩ => inferInstanceAs (Decidable (_ ∨ _))

section
variable (hM : D.mls.Lawful) (hD : D.mls.Delivers Reads Holds)
  {hostId deviceId : Str} {registry : DeviceRegistry} {c : Conversation D}
  {l : Exchange.Link D.Router Bytes Answer}
include hM hD

theorem linked_ask (h : Linked Reads hostId deviceId registry c l) {payload : Bytes}
    (hlength : payload.length < vectorBound) :
    Matches D hostId (c.turn (.ask payload)).1 { asked := some payload } ∧
      Linked Reads hostId deviceId registry (c.turn (.ask payload)).2
        { l with requests := l.requests ++ [payload] } := by
  obtain ⟨frame, hseal⟩ := sealFrame_ok hD h.browser hlength
  obtain ⟨message, hcreate, hserialize⟩ := sealFrame_eq_ok.1 hseal
  obtain ⟨payloads, hencoded, hflows⟩ := h.toBrowser
  obtain ⟨browser, hbrowser⟩ : ∃ browser, c.browser.sealFrame payload = (browser, .ok frame) :=
    ⟨_, Prod.ext rfl hseal⟩
  have hgroup : browser.group = (D.mls.createMessage c.browser.group payload).1 :=
    congrArg (fun sealed => sealed.1.group) hbrowser.symm
  rw [Conversation.turn, hbrowser]
  exact ⟨⟨rfl, rfl, .none⟩, { h with
    browser := by
      rw [hgroup]
      exact h.browser.evolves hM (.create _ _ .refl)
    toHost := by
      rw [hgroup]
      exact h.toHost.seal hD hcreate hserialize
    toBrowser := ⟨payloads, hencoded, by
      rw [hgroup]
      exact hflows.create hD payload⟩ }⟩

omit hM hD in
/-- The host answers a frame that opens as it answers the browser in the clear. -/
theorem serve_opened (h : Linked Reads hostId deviceId registry c l)
    (hmanages : managesMembers registry deviceId = false) {frame payload : Bytes}
    (hopened : (c.host.session.openFrame frame).2 = .ok ⟨deviceId, payload⟩)
    (hframe : isPairingFrame frame = false) (connected : Bool)
    (hgoes : (serveFrame c.host ⟨frame, connected⟩).1.failed = none) :
    let answer := answerDevice (D := D) registry deviceId l.server payload
    let served := serveFrame c.host ⟨frame, connected⟩
    served.1.dispatched = answer.2.1 ∧ served.1.answer = some answer.2.2 ∧
      served.2.router = answer.1 ∧ Quiet c.host served.2 ∧
      SealedIn (c.host.session.openFrame frame).1.group served.1 served.2 := by
  intro answer served
  obtain ⟨hopening, hidentity⟩ := openFrame_heeds c.host.session frame
  let s₁ : RouteService D := { c.host with session := (c.host.session.openFrame frame).1 }
  have hquiet : Quiet c.host s₁ := ⟨rfl, hidentity, hopening.evolves, rfl, rfl⟩
  have hpair : c.host.session.openFrame frame = (s₁.session, .ok ⟨deviceId, payload⟩) :=
    Prod.ext rfl hopened
  have hserve : served = answerWith { s₁ with router := answer.1 } ⟨frame, connected⟩
      answer.2.1 answer.2.2 := by
    have hframe' : isPairingFrame frame ≠ true := by simp [hframe]
    simp only [served, answer, serveFrame, if_neg hframe', hpair, answerDevice, ← h.router]
    cases htarget : revocationTarget D.wire ⟨deviceId, payload⟩ with
    | some target =>
      exact serveRevocation_refused (s := s₁) (h.registry ▸ hmanages)
    | none =>
      simp only [serveRequest, ← h.registry]
      rfl
  obtain ⟨hanswered, hrouter, hdispatched, hanswer, hsealed⟩ := answerWith_spec
    { s₁ with router := answer.1 } ⟨frame, connected⟩ answer.2.1 answer.2.2
  rw [← hserve] at hanswered hrouter hdispatched hanswer hsealed
  have hgroup : Quiet c.host served.2 := hquiet.trans
    ⟨hanswered.client, hanswered.identity, hanswered.group, hanswered.registry, hanswered.pairing⟩
  exact ⟨hdispatched, hanswer, hrouter, hgroup, hsealed hgoes⟩

/-- The host takes the next frame. -/
theorem linked_serve (h : Linked Reads hostId deviceId registry c l)
    (hmanages : managesMembers registry deviceId = false) {frame : Bytes} {toHost : Lane}
    (hnext : c.toHost.next = some (frame, toHost))
    (hnear : c.toHost.lost ≤ maximumForwardDistance) (connected : Bool)
    (hgoes : (serveFrame c.host ⟨frame, connected⟩).1.failed = none) :
    ∃ payload requests, l.requests = payload :: requests ∧
      let answer := answerDevice (D := D) registry deviceId l.server payload
      Matches D hostId ({ c with toHost }.take ⟨frame, connected⟩).1
          { served := some (payload, answer.2) } ∧
        Linked Reads hostId deviceId registry ({ c with toHost }.take ⟨frame, connected⟩).2
          ⟨answer.1, requests, l.answers ++ [answer.2]⟩ := by
  obtain ⟨payload, requests, hrequests, hframe, hopened, hflows⟩ :=
    h.toHost.next hD hM h.browser hnext hnear
  refine ⟨payload, requests, hrequests, ?_⟩
  intro answer
  obtain ⟨hdispatched, hanswer, hrouter, hquiet, response, payload', message, envelope, hresponse,
    hencode, hcreate, hserialize, hsent, hgroup⟩ :=
    serve_opened h hmanages hopened hframe connected hgoes
  cases hanswer.symm.trans hresponse
  obtain ⟨payloads, hencoded, hanswers⟩ := h.toBrowser
  have hsealed := (hanswers.heeds hD (openFrame_heeds c.host.session frame).1).seal hD hcreate
    hserialize
  refine ⟨⟨rfl, ?_, .none⟩, {
    router := hrouter
    registry := hquiet.registry.trans h.registry
    pairing := hquiet.pairing.trans h.pairing
    host := h.host.evolves hM hquiet.group
    browser := h.browser
    toHost := ?_
    toBrowser := ⟨payloads ++ [payload'], List.rel_append hencoded (.cons hencode .nil), ?_⟩ }⟩
  · show (serveFrame c.host ⟨frame, connected⟩).1.answer.map _ = _
    rw [hanswer, hdispatched]
    rfl
  · show Flows Reads _ (serveFrame c.host ⟨frame, connected⟩).2.session.group _ _
    rw [hgroup]
    exact hflows.create hD payload'
  · show Flows Reads (serveFrame c.host ⟨frame, connected⟩).2.session.group _
      (c.toBrowser.send ((serveFrame c.host ⟨frame, connected⟩).1.sent.toList.map _)) _
    rw [hgroup, hsent]
    exact hsealed

/-- The page opens the next frame. -/
theorem linked_hear (h : Linked Reads hostId deviceId registry c l) {frame : Bytes}
    {toBrowser : Lane} (hnext : c.toBrowser.next = some (frame, toBrowser))
    (hnear : c.toBrowser.lost ≤ maximumForwardDistance) :
    ∃ answer answers, l.answers = answer :: answers ∧
      Matches D hostId ({ c with toBrowser }.open_ frame).1 { heard := some answer } ∧
      Linked Reads hostId deviceId registry ({ c with toBrowser }.open_ frame).2
        { l with answers } := by
  obtain ⟨payloads, hencoded, hanswers⟩ := h.toBrowser
  obtain ⟨payload, payloads, rfl, -, hopened, hflows⟩ := hanswers.next hD hM h.host hnext hnear
  obtain ⟨hopening, -⟩ := openFrame_heeds c.browser frame
  cases hlist : l.answers with
  | nil =>
    rw [hlist] at hencoded
    cases hencoded
  | cons answer answers =>
    rw [hlist] at hencoded
    obtain ⟨hencode, hrest⟩ := List.forall₂_cons.1 hencoded
    refine ⟨answer, answers, rfl, ⟨rfl, rfl, ?_⟩, { h with
      browser := h.browser.evolves hM hopening.evolves
      toHost := h.toHost.heeds hD hopening
      toBrowser := ⟨payloads, hrest, hflows⟩ }⟩
    show Option.Rel _ (c.browser.openFrame frame).2.toOption _
    rw [hopened]
    exact .some ⟨rfl, hencode⟩

/-- What the relay hands the host on its own changes nothing that is shown. -/
theorem linked_intrude (h : Linked Reads hostId deviceId registry c l) {incoming : Incoming}
    (hforeign : isPairingFrame incoming.frame = true ∨
      isProtocolMessage D.mls incoming.frame = false ∨ incoming.frame ∈ c.toHost.arrived) :
    (c.take incoming).1 = { outcome := some {} } ∧
      Linked Reads hostId deviceId registry (c.take incoming).2 l := by
  have hlinked : ∀ session : WorkspaceSession D.mls,
      serveFrame c.host incoming = ({}, { c.host with session }) →
      Heeds c.host.session.group session.group →
      Flows Reads c.browser.group session.group c.toHost l.requests →
      (c.take incoming).1 = { outcome := some {} } ∧
        Linked Reads hostId deviceId registry (c.take incoming).2 l := by
    intro session hserve hheeds hflows
    obtain ⟨payloads, hencoded, hanswers⟩ := h.toBrowser
    have hsend : c.toBrowser.send [] = c.toBrowser := by simp [Lane.send]
    have htake : c.take incoming =
        ({ outcome := some {} }, { c with host := { c.host with session } }) := by
      simp only [Conversation.take, hserve, Option.toList_none, List.map_nil, hsend]
    rw [htake]
    exact ⟨rfl, { h with
      host := h.host.evolves hM hheeds.evolves
      toHost := hflows
      toBrowser := ⟨payloads, hencoded, hanswers.heeds hD hheeds⟩ }⟩
  by_cases hframe : isPairingFrame incoming.frame = true
  · refine hlinked c.host.session ?_ .refl h.toHost
    rw [serveFrame, if_pos hframe, servePairing, h.pairing]
  have hserve : ∀ e, (c.host.session.openFrame incoming.frame).2 = .error e →
      serveFrame c.host incoming =
        ({}, { c.host with session := (c.host.session.openFrame incoming.frame).1 }) := by
    intro e he
    have hpair : c.host.session.openFrame incoming.frame =
        ((c.host.session.openFrame incoming.frame).1, .error e) := Prod.ext rfl he
    rw [serveFrame, if_neg hframe, hpair]
  obtain ⟨hheeds, -⟩ := openFrame_heeds c.host.session incoming.frame
  rcases hforeign.resolve_left hframe with hnone | harrived
  · obtain ⟨e, he⟩ := openFrame_foreign c.host.session hnone
    refine hlinked _ (hserve e (congrArg Prod.snd he)) hheeds ?_
    rw [he]
    exact h.toHost
  · obtain ⟨⟨e, he⟩, hflows⟩ := h.toHost.again hD harrived
    exact hlinked _ (hserve e he) hheeds hflows

/-- What the relay hands the page on its own changes nothing that is shown. -/
theorem linked_mislead (h : Linked Reads hostId deviceId registry c l) {frame : Bytes}
    (hforeign : isProtocolMessage D.mls frame = false ∨ frame ∈ c.toBrowser.arrived) :
    (c.open_ frame).1 = {} ∧ Linked Reads hostId deviceId registry (c.open_ frame).2 l := by
  obtain ⟨payloads, hencoded, hanswers⟩ := h.toBrowser
  obtain ⟨hheeds, -⟩ := openFrame_heeds c.browser frame
  obtain ⟨⟨e, he⟩, hflows⟩ : (∃ e, (c.browser.openFrame frame).2 = .error e) ∧
      Flows Reads c.host.session.group (c.browser.openFrame frame).1.group c.toBrowser
        payloads := by
    rcases hforeign with hnone | harrived
    · obtain ⟨e, he⟩ := openFrame_foreign c.browser hnone
      rw [he]
      exact ⟨⟨e, rfl⟩, hanswers⟩
    · exact hanswers.again hD harrived
  refine ⟨?_, { h with
    browser := h.browser.evolves hM hheeds.evolves
    toHost := h.toHost.heeds hD hheeds
    toBrowser := ⟨payloads, hencoded, hflows⟩ }⟩
  simp only [Conversation.open_, he]
  rfl

/-- Every turn shows what the link shows, and keeps the two linked. -/
theorem linked_turn (h : Linked Reads hostId deviceId registry c l)
    (hmanages : managesMembers registry deviceId = false) (t : Turn)
    (htolerated : Tolerated ((Conversation.machine D).fire c t))
    (hgoes : (Conversation.machine D).halts (c.turn t).1 = false) :
    Matches D hostId (c.turn t).1 ((channel D registry deviceId).step l t.move).1 ∧
      Linked Reads hostId deviceId registry (c.turn t).2
        ((channel D registry deviceId).step l t.move).2 := by
  have hnothing : Matches D hostId {} {} := ⟨rfl, rfl, .none⟩
  have hidle : Matches D hostId { outcome := some {} } {} := ⟨rfl, rfl, .none⟩
  obtain ⟨server, requests, answers⟩ := l
  cases t with
  | ask payload => exact linked_ask hM hD h htolerated
  | serve connected =>
    cases hnext : c.toHost.next with
    | none =>
      obtain rfl : requests = [] := h.toHost.eq_nil hnext
      rw [Conversation.turn, hnext]
      exact ⟨hnothing, h⟩
    | some arriving =>
      obtain ⟨frame, toHost⟩ := arriving
      have hturn : c.turn (.serve connected) = { c with toHost }.take ⟨frame, connected⟩ := by
        rw [Conversation.turn, hnext]
      rw [hturn] at hgoes ⊢
      have hgoes' : (serveFrame c.host ⟨frame, connected⟩).1.failed = none := by
        simpa [Conversation.machine, Conversation.take] using hgoes
      obtain ⟨payload, requests, rfl, hserved⟩ :=
        linked_serve hM hD h hmanages hnext htolerated connected hgoes'
      exact hserved
  | hear =>
    cases hnext : c.toBrowser.next with
    | none =>
      obtain ⟨payloads, hencoded, hflows⟩ := h.toBrowser
      obtain rfl := hflows.eq_nil hnext
      cases hencoded
      rw [Conversation.turn, hnext]
      exact ⟨hnothing, h⟩
    | some arriving =>
      obtain ⟨frame, toBrowser⟩ := arriving
      have hturn : c.turn .hear = { c with toBrowser }.open_ frame := by
        rw [Conversation.turn, hnext]
      rw [hturn]
      obtain ⟨answer, answers, rfl, hheard⟩ := linked_hear hM hD h hnext htolerated
      exact hheard
  | loseRequest => exact ⟨hnothing, { h with toHost := h.toHost.lose }⟩
  | loseAnswer =>
    obtain ⟨payloads, hencoded, hflows⟩ := h.toBrowser
    refine ⟨hnothing, { h with toBrowser := ⟨payloads.tail, ?_, hflows.lose⟩ }⟩
    cases hencoded with
    | nil => exact .nil
    | cons _ hrest => exact hrest
  | intrude incoming =>
    obtain ⟨hsaid, hlinked⟩ := linked_intrude hM hD h htolerated
    rw [Conversation.turn, hsaid]
    exact ⟨hidle, hlinked⟩
  | mislead frame =>
    obtain ⟨hsaid, hlinked⟩ := linked_mislead hM hD h htolerated
    rw [Conversation.turn, hsaid]
    exact ⟨hnothing, hlinked⟩

end

/-! ## Whole conversations -/

/-- The answer the host gave in a turn, with the request its router got. -/
def Said.answered (said : Said) : Option Answer :=
  said.outcome.bind fun outcome => outcome.answer.map (outcome.dispatched, ·)

/-- What was said is a conversation of this host with this device, which served these requests and
heard these answers. -/
structure Faithful (D : Platform) (hostId deviceId : Str) (registry : DeviceRegistry)
    (router : D.Router) (spoken : List Said) (requests : List Bytes) (answers : List Answer) :
    Prop where
  /-- The host serves what the page asked, in that order and once at most. -/
  served : requests.Sublist (spoken.filterMap Said.asked)
  /-- It answers as a host that is asked the same in the clear. -/
  answered : spoken.filterMap Said.answered =
    Exchange.answersOf (answerDevice registry deviceId) router requests
  /-- The page hears what the host answered, in that order and once at most. -/
  reached : answers.Sublist (spoken.filterMap Said.answered)
  heard : List.Forall₂ (fun opened answer => opened.senderDeviceId = hostId ∧
    D.wire.encode answer.2 = .ok opened.plaintext) (spoken.filterMap Said.heard) answers

theorem filterMap_eq_of_forall₂ {α β γ : Type} {R : α → β → Prop} {f : α → Option γ}
    {g : β → Option γ} (hagree : ∀ a b, R a b → f a = g b) {as : List α} {bs : List β}
    (h : List.Forall₂ R as bs) : as.filterMap f = bs.filterMap g := by
  induction h with
  | nil => rfl
  | cons hfirst _ ih => rw [List.filterMap_cons, List.filterMap_cons, hagree _ _ hfirst, ih]

theorem conversation_faithful (hM : D.mls.Lawful) (hD : D.mls.Delivers Reads Holds)
    {hostId deviceId : Str} {registry : DeviceRegistry} {c : Conversation D} {router : D.Router}
    (h : Linked Reads hostId deviceId registry c ⟨router, [], []⟩)
    (hmanages : managesMembers registry deviceId = false) (turns : List Turn)
    (htolerated : ∀ t ∈ (Conversation.machine D).run c turns, Tolerated t) :
    ∃ requests answers, Faithful D hostId deviceId registry router
      ((Conversation.machine D).spoken c turns) requests answers := by
  obtain ⟨n, hsaid⟩ := Machine.simulates (N := channel D registry deviceId) Turn.move
    (fun _ => rfl) (fun c l t hlinked htolerated hgoes =>
      linked_turn hM hD hlinked hmanages t htolerated hgoes) h htolerated
  set spoken := (Conversation.machine D).spoken c turns
  set events := (channel D registry deviceId).outputs ⟨router, [], []⟩
    ((turns.take n).map Turn.move)
  have hasked : spoken.filterMap Said.asked = Exchange.asked events :=
    filterMap_eq_of_forall₂ (fun _ _ hmatches => hmatches.asked) hsaid
  have hanswered : spoken.filterMap Said.answered = (Exchange.served events).map Prod.snd := by
    rw [Exchange.served, List.map_filterMap]
    exact filterMap_eq_of_forall₂ (fun _ _ hmatches => hmatches.answered) hsaid
  refine ⟨(Exchange.served events).map Prod.fst, Exchange.heard events, {
    served := ?_, answered := ?_, reached := ?_
    heard := List.rel_filterMap (fun _ _ hmatches => Matches.heard hmatches) hsaid }⟩
  · rw [hasked]
    exact Exchange.served_sublist _ _
  · rw [hanswered]
    exact Exchange.answers_served _ _
  · rw [hanswered]
    exact Exchange.heard_sublist _ _

/-! ## Pairing first -/

/-- The newly paired rights are not an owner's. -/
theorem managesMembers_newlyPaired {registry : DeviceRegistry} {d : Str}
    (h : registry.get d = some .newlyPaired) : managesMembers registry d = false := by
  rw [managesMembers, h]
  decide

section
variable (hM : D.mls.Lawful) (hD : D.mls.Delivers Reads Holds) {K : Devices D.mls}
  (hK : K.Lawful Holds) {s : RouteService D} {secret : PairingSecret} {draw : K.Draw}
  {deviceId hostId : Str} {pending : PendingPairing D.mls} {request : Bytes}
  {connected : Bool} {envelope : RelayEnvelope}
include hM hD hK

omit hD hK in
/-- A request with the tag of the open code is answered with a welcome. -/
theorem serveFrame_paired {x : Incoming} {keyPackage : Bytes}
    (hrequests : Requests x.frame keyPackage (secret.tag D.hash keyPackage))
    (hopen : s.pairing = some secret) (hsent : (serveFrame s x).1.sent = some envelope) :
    ∃ invitation k, parseKeyPackage D.mls keyPackage = .ok k ∧
      s.session.addDevice keyPackage = ((serveFrame s x).2.session, .ok invitation) ∧
      Added s.session (serveFrame s x).2.session k ∧
      s.client.send x.connected (pairingWelcome invitation) = .ok envelope ∧
      (serveFrame s x).2 = { s with
        session := (serveFrame s x).2.session
        registry := registerPaired (serveFrame s x).2.session s.registry
        pairing := none } := by
  have hframe := hrequests.isPairingFrame
  have hstep := serveFrame_step hM s x
  cases hstep with
  | ignored ho =>
    rw [ho] at hsent
    cases hsent
  | unsent _ _ _ _ _ ho =>
    rw [ho] at hsent
    cases hsent
  | paired secret' keyPackage' k invitation envelope' hjoins hsend ho hs =>
    cases hopen.symm.trans hjoins.open_
    obtain ⟨rfl, -⟩ := hrequests.unique hjoins.requests
    have haccepted := (acceptPairing_of_requests hrequests).symm.trans hjoins.accepted
    rw [ho] at hsent
    cases hsent
    exact ⟨invitation, k, hjoins.parsed, haccepted, hjoins.added, hsend, hs⟩
  | revoked _ _ _ _ _ _ hopens => rw [hopens.frame] at hframe; cases hframe
  | refused _ _ _ hopens => rw [hopens.frame] at hframe; cases hframe
  | handled _ _ hopens => rw [hopens.frame] at hframe; cases hframe

/-- The browser that asked joins with the welcome the host sends, and is linked to it. -/
theorem pairing_links (hopen : s.pairing = some secret)
    (hnamed : Named D.mls s.session.group hostId) (hready : ReadyFor s deviceId)
    (hstart : startPairing K D.hash draw deviceId secret.bytes = .ok (pending, request))
    (hfits : request.length ≤ maxCiphertextBytes)
    (hsent : (serveFrame s ⟨request, connected⟩).1.sent = some envelope) :
    let host := (serveFrame s ⟨request, connected⟩).2
    ∃ browser, (pending.complete envelope.ciphertext).2 = .ok browser ∧
      GrantsExactly s host deviceId ∧
      Linked Reads hostId deviceId host.registry { host, browser } ⟨s.router, [], []⟩ := by
  intro host
  obtain ⟨provider, keyPackage, hprovider, hbuild, rfl, rfl⟩ := startPairing_eq_ok K hstart
  obtain ⟨k, hparsed, hcredential, hholds⟩ := hK.publishes hprovider hbuild
  have hid : identityOf (D.mls.credential k) = .ok deviceId := by
    rw [hcredential, identityOf_basic]
  have hsmall : maxCiphertextBytes < UInt32.size := by decide
  have hlength : (pairingRequest D.hash keyPackage secret).length ≤ maxCiphertextBytes := hfits
  have hrequests : Requests (pairingRequest D.hash keyPackage secret) keyPackage
      (secret.tag D.hash keyPackage) := by
    simp only [pairingRequest, putBytes, List.length_append] at hlength
    exact requests_pairingRequest (by omega) (by omega)
  obtain ⟨invitation, k', hparsed', hadd, hadded, hsend, hhost⟩ :=
    serveFrame_paired hM (x := ⟨pairingRequest D.hash keyPackage secret, connected⟩)
      hrequests hopen hsent
  cases hparsed.symm.trans hparsed'
  obtain ⟨p, hjoin, hjoined, hreads, hreads'⟩ := join_welcome hD hM
    ⟨deviceId, (K.buildKeyPackage draw ⟨deviceId, provider⟩).1⟩ hparsed hholds hid hadd
  obtain ⟨hcipher, -, hsize, -⟩ := RelayClient.send_eq_ok hsend
  have hwelcome : readPairingWelcome envelope.ciphertext = .ok invitation.welcome := by
    simp only [pairingWelcome, putBytes, List.length_append] at hsize
    rw [hcipher]
    exact readPairingWelcome_pairingWelcome (by omega)
  have hnewest : GrantsExactly s host deviceId := by
    refine (grantsExactly_registerPaired_iff hadded hid ?_).2 hready
    exact congrArg RouteService.registry hhost
  refine ⟨⟨⟨deviceId, (K.buildKeyPackage draw ⟨deviceId, provider⟩).1⟩, p⟩, ?_, hnewest, ?_⟩
  · exact complete_eq_ok.2 ⟨_, rfl, ⟨⟨invitation.welcome, hwelcome, hjoin⟩⟩⟩
  obtain ⟨own, hown, hownLeaf, hownId⟩ := hnamed
  obtain ⟨hown', hownLeaf'⟩ := hadded.isOwn ⟨hown, hownLeaf⟩
  have hnone : ∀ frame ∈ ([] : List Bytes), isPairingFrame frame = false :=
    List.forall_mem_nil _
  exact {
    router := (congrArg RouteService.router hhost :)
    registry := rfl
    pairing := (congrArg RouteService.pairing hhost :)
    host := ⟨own, hown', hownLeaf', hownId⟩
    browser := hjoined
    toHost := ⟨hnone, rfl, [], rfl, hreads'⟩
    toBrowser := ⟨[], .nil, hnone, rfl, [], rfl, hreads⟩ }

end

section
open SmallPlatform

/-- The host alone, with a code open. -/
def openHost : RouteService (ratcheted [statusRequest]) := ratchetedService _ [] [] (some secret)

def phonePending : PendingPairing (ratcheted [statusRequest]).mls := ⟨some ⟨"phone", ()⟩⟩

/-- The first answer of the host's, as it is sealed for the phone. -/
def firstAnswer : Bytes := FramedGroup.encode (.application 4 0 0 (jsonResponse
  { version := tunnelVersion, exchangeId := "1", status := 200, headers := ∅, body := [] }))

/-- The page asks for the status twice, and the first request is lost. The relay repeats what it
carried, and makes up a frame. -/
def talk : List Turn :=
  [.ask (jsonRequest statusRequest), .ask (jsonRequest statusRequest), .loseRequest,
    .intrude (pairingOf "phone"), .serve true, .intrude (sealedAt 4 1 1 statusRequest),
    .mislead [], .hear, .mislead firstAnswer]

end

end LeaveCli.Host
