import LeaveCli.Host.Proof.Revocation

/-!
# Who reads an answer

The tunnel authorizes the device that asks; the answer is sealed for the workspace's one group.
`answer_readers` says both of every answer the router gave: its asker was permitted when it was
sealed, and the other members open it exactly in the epoch it was sealed in, permitted or not.
-/

namespace LeaveCli.Host

open Lib Protocol Crypto Transport

variable {D : Platform} {Peer : D.mls.Group → D.mls.Group → Prop}

/-- The host is a member with a readable identity. -/
def OwnReadable {M : Mls} (session : WorkspaceSession M) : Prop :=
  ∃ own ∈ session.view.members, own.index = session.view.ownLeaf ∧
    ∃ d, identityOf own.credential = .ok d

theorem ownReadable_step (hM : D.mls.Lawful) (s : RouteService D) (x : Incoming)
    (h : OwnReadable s.session) : OwnReadable (serveFrame s x).2.session := by
  obtain ⟨own, hown, hleaf, hid⟩ := h
  obtain ⟨hown', hleaf'⟩ := isOwn_step hM s x ⟨hown, hleaf⟩
  exact ⟨own, hown', hleaf', hid⟩

/-- The frame asked for what the workspace router was given, and its sender may ask for it. -/
def AskedBy (t : RouteTransition D) (opened : OpenedMessage) (httpRequest : HttpRequest) : Prop :=
  OpenedAs t opened ∧ ∃ request, D.wire.decode opened.plaintext = .ok request ∧
    buildRequest D.http request = .ok httpRequest ∧
    permitted t.after.registry opened.senderDeviceId request.method request.path = true

/-- An endpoint that has not taken what is sealed next has not when a frame was processed. -/
theorem fansOut_heeds {M : Mls} {Peer : M.Group → M.Group → Prop} (hF : M.FansOut Peer)
    {g g' p : M.Group} (h : Peer g p) (hg : Heeds g g') : Peer g' p := by
  induction hg with
  | refl => exact h
  | process g' message _ ih => exact hF.peer_process message ih

/-- Every answer of the router was asked for by a device that is permitted what it asked when the
answer is sealed; another member opens it exactly when it is in the epoch it was sealed in. -/
theorem answer_readers (hM : D.mls.Lawful) (hF : D.mls.FansOut Peer) {s : RouteService D}
    (hown : OwnReadable s.session) {xs : List Incoming} {t : RouteTransition D}
    (ht : t ∈ (serveRoute D).run s xs) {httpRequest : HttpRequest} {envelope : RelayEnvelope}
    (hdispatched : t.output.dispatched = some httpRequest) (hsent : t.output.sent = some envelope) :
    (∃ opened, AskedBy t opened httpRequest) ∧
      ∀ device : WorkspaceSession D.mls, Peer t.before.session.group device.group →
        ((∃ opened, (device.openFrame envelope.ciphertext).2 = .ok opened) ↔
          D.mls.epoch device.group = D.mls.epoch t.before.session.group) := by
  have hreadable : OwnReadable t.before.session :=
    (Machine.run_invariant (P := fun s => OwnReadable s.session) (ownReadable_step hM) hown ht).1
  have hfire := Machine.eq_fire_of_mem_run ht
  obtain ⟨s₀, x, o, s'⟩ := t
  obtain ⟨rfl, rfl⟩ : o = (serveFrame s₀ x).1 ∧ s' = (serveFrame s₀ x).2 := by
    simp only [Machine.fire, Transition.mk.injEq, true_and] at hfire
    exact hfire
  dsimp only at hdispatched hsent hreadable ⊢
  have hstep := serveFrame_step hM s₀ x
  cases hstep with
  | ignored ho =>
    rw [ho] at hdispatched
    cases hdispatched
  | unsent secret keyPackage k invitation hjoins ho =>
    rw [ho] at hdispatched
    cases hdispatched
  | paired secret keyPackage k invitation envelope hjoins hsend ho =>
    rw [ho] at hdispatched
    cases hdispatched
  | revoked opened target m s₁ commit session hopen hexpels hremove hremoved ho =>
    rw [ho.1] at hdispatched
    cases hdispatched
  | refused opened target s₁ hopen htarget ho =>
    rw [ho.1] at hdispatched
    cases hdispatched
  | handled opened s₁ hopen htarget ho hq hr hsealed =>
    rw [ho.1] at hdispatched
    obtain ⟨request, hdecode, -, hpermitted, hbuild⟩ := handle_dispatched_iff.1 hdispatched
    have hasked : AskedBy ((serveRoute D).fire s₀ x) opened httpRequest := by
      refine ⟨hopen.openedAs, request, hdecode, hbuild, ?_⟩
      show permitted (serveFrame s₀ x).2.registry _ _ _ = true
      rw [hq.registry]
      exact hpermitted
    refine ⟨⟨opened, hasked⟩, fun device hpeer => ?_⟩
    have halive : (serveFrame s₀ x).1.failed = none := (alive_of_sent hsent).1
    obtain ⟨response, payload, message, envelope', -, -, hcreate, hserialize, hsent', -⟩ :=
      hsealed halive
    obtain rfl : envelope' = envelope := Option.some.inj (hsent'.symm.trans hsent)
    have hview : s₁.session.view = s₀.session.view := hopen.quiet.view hM
    have hepoch : D.mls.epoch s₁.session.group = D.mls.epoch s₀.session.group :=
      congrArg GroupView.epoch hview
    obtain ⟨received, protocol, hreceived, hprotocol, hsame, hother⟩ :=
      hF.opens (fansOut_heeds hF hpeer hopen.heeds) hcreate hserialize
    rw [← hepoch, WorkspaceSession.openFrame, process_eq device hreceived hprotocol]
    refine ⟨fun hopens => ?_, fun hsame' => ?_⟩
    · by_contra hepoch'
      obtain ⟨e, he⟩ := hother hepoch'
      obtain ⟨opened', hopened'⟩ := hopens
      rw [he] at hopened'
      cases hopened'
    · rw [OwnReadable, ← hview] at hreadable
      obtain ⟨own, hown, hleaf, d, hid⟩ := hreadable
      obtain ⟨own', hown', hleaf', hprocess⟩ := hsame hsame'
      obtain rfl : own' = own := hM.index_inj hown' hown (hleaf'.trans hleaf.symm)
      refine ⟨⟨d, payload⟩, ?_⟩
      simp only [hprocess, Except.mapError, hid]

section
open SmallPlatform

def terminalsRequest : TunnelRequest := request "GET" "/api/v1/local/terminals"

/-- The owner's laptop holds the terminal capability, and the phone does not. -/
def terminalService : RouteService (platform [terminalsRequest]) :=
  service _ (group ["laptop", "phone"])
    [("laptop", ⟨.owner, {.rawPty}⟩), ("phone", .newlyPaired)] none

/-- The phone's session, in the host's epoch. -/
def phoneSession : WorkspaceSession SmallGroup.mls := ⟨⟨"phone", ()⟩, .joined 3 2⟩

/-- The laptop asks for the terminals. -/
abbrev terminalRead : RouteTransition (platform [terminalsRequest]) :=
  (serveRoute _).fire terminalService (sealedBy 3 "laptop" terminalsRequest)

theorem ownReadable_terminalService : OwnReadable terminalService.session :=
  ⟨member 0 "host", List.mem_cons_self, rfl, "host", by decide⟩

/-- The router gets the request, and the phone opens its answer. -/
theorem terminalRead_answered : ∃ httpRequest envelope,
    buildRequest http terminalsRequest = .ok httpRequest ∧
      terminalRead.output.dispatched = some httpRequest ∧
      terminalRead.output.sent = some envelope ∧
      ∃ opened, (phoneSession.openFrame envelope.ciphertext).2 = .ok opened := by
  have hdispatched : terminalRead.output.dispatched.isSome = true := by decide +kernel
  have hbuilt : (buildRequest http terminalsRequest).toOption = terminalRead.output.dispatched := by
    decide +kernel
  have hsent : terminalRead.output.sent.any
      (fun envelope => (phoneSession.openFrame envelope.ciphertext).2.isOk) = true := by
    decide +kernel
  obtain ⟨httpRequest, hdispatched⟩ := Option.isSome_iff_exists.1 hdispatched
  obtain ⟨envelope, hsent, hopens⟩ := (Option.any_eq_true _ _).1 hsent
  rw [hdispatched] at hbuilt
  refine ⟨httpRequest, envelope, ?_, hdispatched, hsent, ?_⟩
  · cases hbuild : buildRequest http terminalsRequest with
    | error e =>
      rw [hbuild] at hbuilt
      cases hbuilt
    | ok built =>
      rw [hbuild] at hbuilt
      cases hbuilt
      rfl
  · cases hopen : (phoneSession.openFrame envelope.ciphertext).2 with
    | error e =>
      rw [hopen] at hopens
      cases hopens
    | ok opened => exact ⟨opened, rfl⟩

/-- The laptop asks, the router answers, and the phone opens the answer it has no capability to
ask for. -/
theorem phone_reads_terminals :
    ∃ t ∈ (serveRoute (platform [terminalsRequest])).run terminalService
        [sealedBy 3 "laptop" terminalsRequest], ∃ httpRequest envelope,
      buildRequest http terminalsRequest = .ok httpRequest ∧
        t.output.dispatched = some httpRequest ∧ t.output.sent = some envelope ∧
        member 2 "phone" ∈ t.before.session.view.members ∧
        (∃ opened, (phoneSession.openFrame envelope.ciphertext).2 = .ok opened) ∧
        permitted t.after.registry "phone" terminalsRequest.method terminalsRequest.path =
          false := by
  obtain ⟨httpRequest, envelope, hbuild, hdispatched, hsent, hopens⟩ := terminalRead_answered
  exact ⟨terminalRead, List.mem_cons_self, httpRequest, envelope, hbuild, hdispatched, hsent,
    by decide +kernel, hopens, by decide +kernel⟩

/-- The laptop was permitted, and the phone reads the answer exactly because it shares the epoch. -/
theorem answer_readers_terminals : ∃ httpRequest envelope,
    terminalRead.output.sent = some envelope ∧
      ((∃ opened, AskedBy terminalRead opened httpRequest) ∧
        ∀ device : WorkspaceSession SmallGroup.mls, True →
          ((∃ opened, (device.openFrame envelope.ciphertext).2 = .ok opened) ↔
            SmallGroup.mls.epoch device.group = 3)) := by
  obtain ⟨httpRequest, envelope, -, hdispatched, hsent, -⟩ := terminalRead_answered
  have hrun : terminalRead ∈ (serveRoute (platform [terminalsRequest])).run terminalService
    [sealedBy 3 "laptop" terminalsRequest] := List.mem_cons_self
  have hfansOut : (platform [terminalsRequest]).mls.FansOut fun _ _ => True := SmallGroup.fansOut
  exact ⟨httpRequest, envelope, hsent, answer_readers SmallGroup.lawful hfansOut
    ownReadable_terminalService hrun hdispatched hsent⟩

end

end LeaveCli.Host
