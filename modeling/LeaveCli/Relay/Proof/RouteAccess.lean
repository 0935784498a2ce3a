import LeaveCli.Lib.Standing
import LeaveCli.Relay.Proof.Steps

/-!
# Who the relay lets in

`Answers` says, of a request and the transitions before it, what the relay answers: whether a route
is open to a token is read off the registrations and revocations so far (`Holds`), and nothing else.
`answers_of_run` says that in every run the relay answers so; `Recorded` is what ties its state to
the transitions.
-/

namespace LeaveCli.Relay

open Lib Crypto Transport LeaveCli.Host LeaveCli.Core

namespace World

abbrev Step := Transition World Action Output

/-- The secret a registration presents. -/
def presentedSecret (headers : HeaderMap) : Str :=
  ((headers.get registrationHeader).bind headerToStr).getD []

/-- A browser of another origin. -/
def Foreign (publicOrigin : Bytes) (headers : HeaderMap) : Prop :=
  headers.any (fun header => header.1 = "origin") ∧ headers.get "origin" ≠ some publicOrigin

section
variable (hashToken : Str → Bytes)

/-- What a transition changes about the routes: the hash of a token is put under a route, or the
route is dropped. -/
def change (t : Step) : Option (Change Str Bytes) :=
  match t.output, t.input with
  | .registered route, _ => some (.put route.routeId (hashToken route.token))
  | .revoked _, .revoke routeId => some (.drop routeId)
  | _, _ => none

def changes (log : List Step) : List (Change Str Bytes) := log.filterMap (change hashToken)

/-- The route is open to the token the request presents. -/
def Holds (log : List Step) (routeId : Str) (headers : HeaderMap) : Prop :=
  Standing (changes hashToken log) routeId (hashToken (presentedToken headers))

end

/-- A revocation of the route was authorized. -/
def authorizes (routeId : Str) (t : Step) : Bool :=
  match t.input with
  | .authorizeRevoke other _ => other = routeId ∧ t.output = .quiet
  | _ => false

/-- A revocation of the route was carried out. -/
def revokes (routeId : Str) (t : Step) : Bool :=
  match t.input with
  | .revoke other => other = routeId ∧ t.output ≠ .quiet
  | _ => false

/-- Some authorized revocation of the route is still to be carried out. -/
def Pending (log : List Step) (routeId : Str) : Prop :=
  log.countP (revokes routeId) < log.countP (authorizes routeId)

/-- Nothing that a handler answers. -/
def Output.IsTraffic (output : Output) : Prop :=
  output = .quiet ∨ output = .waits ∨ ∃ position frame, output = .delivered position frame

/-- What the relay answers to a request, going by the transitions before it. -/
def Answers (hashToken : Str → Bytes) (registrationSecret : Option Str) (publicOrigin : Bytes)
    (log : List Step) (t : Step) : Prop :=
  match t.input with
  | .register drawn headers =>
    (registrationSecret = some (presentedSecret headers) ∧ t.output = .registered drawn) ∨
      (registrationSecret ≠ some (presentedSecret headers) ∧ t.output = .refused 401)
  | .authorizeRevoke routeId headers =>
    (Holds hashToken log routeId headers ∧ t.output = .quiet) ∨
      (¬ Holds hashToken log routeId headers ∧ t.output = .refused 401)
  | .revoke routeId =>
    (Pending log routeId ∧ ∃ found, t.output = .revoked found ∧
        (found = true ↔ ∃ hash, Standing (changes hashToken log) routeId hash)) ∨
      (¬ Pending log routeId ∧ t.output = .quiet)
  | .websocket routeId headers =>
    ((routeId = [] ∨ routeId.utf8.length > 128) ∧ t.output = .refused 400) ∨
      (¬ (routeId = [] ∨ routeId.utf8.length > 128) ∧
        ((¬ Holds hashToken log routeId headers ∧ t.output = .refused 401) ∨
          (Holds hashToken log routeId headers ∧
            ((Foreign publicOrigin headers ∧ t.output = .refused 403) ∨
              (¬ Foreign publicOrigin headers ∧ ∃ id, t.output = .attached id)))))
  | _ => t.output.IsTraffic

variable {W : EnvelopeWire} {hashToken : Str → Bytes} {registrationSecret : Option Str}
  {publicOrigin : Bytes}

/-- What ties the relay's state to the transitions before. -/
structure Recorded (hashToken : Str → Bytes) (registrationSecret : Option Str)
    (publicOrigin : Bytes) (log : List Step) (s : World) : Prop where
  secret : s.registrationSecret = registrationSecret
  origin : s.publicOrigin = publicOrigin
  tracks : Tracks (fun routeId => (s.table.routes.lookup routeId).map (·.tokenHash))
    (changes hashToken log)
  revoking : ∀ routeId,
    s.revoking.count routeId + log.countP (revokes routeId) = log.countP (authorizes routeId)

variable {s : World} {log : List Step}

/-! ## Work on a connection -/

/-- A step that has nothing to do with routes and their tokens. -/
structure Works (s : World) (done : Output × World) : Prop where
  traffic : done.1.IsTraffic
  secret : done.2.registrationSecret = s.registrationSecret
  origin : done.2.publicOrigin = s.publicOrigin
  table : done.2.table = s.table
  revoking : done.2.revoking = s.revoking

theorem works_quiet {s' : World} (hsecret : s'.registrationSecret = s.registrationSecret)
    (horigin : s'.publicOrigin = s.publicOrigin) (htable : s'.table = s.table)
    (hrevoking : s'.revoking = s.revoking) : Works s (.quiet, s') :=
  ⟨.inl rfl, hsecret, horigin, htable, hrevoking⟩

theorem works_self : Works s (.quiet, s) := works_quiet rfl rfl rfl rfl

theorem works_withConnection (id : Nat) (c : Connection) :
    Works s (.quiet, s.withConnection id c) :=
  works_quiet rfl rfl rfl rfl

theorem works_onConnection {id : Nat} {f : Connection → Output × World}
    (h : ∀ c, Works s (f c)) : Works s (s.onConnection id f) := by
  unfold onConnection
  cases s.connections id with
  | none => exact works_self
  | some c => exact h c

theorem works_read (id endpointId now : Nat) (c : Connection) (message : WsMessage)
    (rest : List WsMessage) : Works s (.quiet, s.read W id endpointId now c message rest) := by
  unfold read
  split
  · dsimp only
    split
    · exact works_withConnection id _
    · exact works_quiet rfl rfl rfl rfl
  all_goals exact works_withConnection id _

theorem works_write (id endpointId : Nat) (c : Connection) : Works s (s.write id endpointId c) := by
  unfold write
  split
  · split
    · exact works_withConnection id _
    · exact ⟨.inr (.inr ⟨_, _, rfl⟩), rfl, rfl, rfl, rfl⟩
  · exact works_withConnection id _
  · split
    · exact ⟨.inr (.inl rfl), rfl, rfl, rfl, rfl⟩
    · exact works_withConnection id _

/-- Which actions are requests about routes. -/
def Action.isRequest : Action → Bool
  | .register .. => true
  | .authorizeRevoke .. => true
  | .revoke .. => true
  | .websocket .. => true
  | _ => false

theorem works_step (s : World) {action : Action} (h : action.isRequest = false) :
    Works s (step W hashToken s action) := by
  cases action with
  | register drawn headers => cases h
  | authorizeRevoke routeId headers => cases h
  | revoke routeId => cases h
  | websocket routeId headers => cases h
  | upgrade id now =>
    refine works_onConnection fun c => ?_
    unfold upgrade
    split
    · exact works_quiet rfl rfl rfl rfl
    · exact works_self
  | send id messageId ciphertext =>
    refine works_onConnection fun c => ?_
    unfold send
    cases (RelayClient.publish W ⟨c.routeId⟩ messageId ciphertext).toOption with
    | none => exact works_self
    | some message => exact works_quiet rfl rfl rfl rfl
  | close id => exact works_onConnection fun c => works_withConnection id _
  | pong id => exact works_onConnection fun c => works_withConnection id _
  | read id now =>
    refine works_onConnection fun c => ?_
    split
    · split
      · exact works_read id _ now c _ _
      · exact works_self
    · exact works_self
  | hangUp id => exact works_onConnection fun c => works_withConnection id _
  | write id =>
    refine works_onConnection fun c => ?_
    cases c.endpointId with
    | none => exact works_self
    | some endpointId =>
      show Works s (if c.writing then s.write id endpointId c else (.quiet, s))
      split
      · exact works_write id endpointId c
      · exact works_self
  | heartbeat id =>
    refine works_onConnection fun c => ?_
    split
    · exact works_withConnection id _
    · exact works_self
  | writerFails id => exact works_onConnection fun c => works_withConnection id _
  | recv id =>
    refine works_onConnection fun c => ?_
    split
    · split
      · exact works_withConnection id _
      · exact works_self
    · exact works_self

/-! ## Requests about routes -/

namespace Recorded

variable (h : Recorded hashToken registrationSecret publicOrigin log s)
include h

/-- A token is let in exactly when it is the one that stands for the route. -/
theorem authorize_isSome_iff (routeId : Str) (headers : HeaderMap) :
    (s.table.authorize hashToken routeId (presentedToken headers)).isSome = true ↔
      Holds hashToken log routeId headers := by
  rw [Holds, ← h.tracks, RouteTable.authorize]
  show _ ↔ (s.table.routes.lookup routeId).map (·.tokenHash) = _
  cases s.table.routes.lookup routeId with
  | none => simp
  | some route => simp [Option.isSome_filter, subtleEq_iff]

theorem pending_iff (routeId : Str) : routeId ∈ s.revoking ↔ Pending log routeId := by
  have hcount := h.revoking routeId
  rw [← List.count_pos_iff, Pending]
  omega

theorem registerRoute (drawn : RegisteredRoute) (headers : HeaderMap) :
    (registrationSecret = some (presentedSecret headers) ∧
        s.registerRoute hashToken drawn headers = (.registered drawn, { s with
          table := s.table.register hashToken drawn s.registered.length
          registered := s.registered ++ [drawn] })) ∨
      (registrationSecret ≠ some (presentedSecret headers) ∧
        s.registerRoute hashToken drawn headers = (.refused 401, s)) := by
  rw [World.registerRoute, h.secret]
  cases registrationSecret with
  | none => exact .inr ⟨fun hnone => (nomatch hnone), rfl⟩
  | some expected =>
    have hsame : subtleEq expected.utf8 (presentedSecret headers).utf8 = true ↔
        some expected = some (presentedSecret headers) := by
      rw [subtleEq_iff, Str.utf8_injective.eq_iff, Option.some.injEq]
    show (_ ∧ (if !subtleEq expected.utf8 (presentedSecret headers).utf8 then _ else _) = _) ∨
      (_ ∧ (if !subtleEq expected.utf8 (presentedSecret headers).utf8 then _ else _) = _)
    by_cases heq : some expected = some (presentedSecret headers)
    · exact .inl ⟨heq, by rw [hsame.2 heq]; rfl⟩
    · exact .inr ⟨heq, by rw [Bool.eq_false_iff.2 fun htrue => heq (hsame.1 htrue)]; rfl⟩

theorem authorizeRevoke (routeId : Str) (headers : HeaderMap) :
    (Holds hashToken log routeId headers ∧ s.authorizeRevoke hashToken routeId headers =
        (.quiet, { s with revoking := routeId :: s.revoking })) ∨
      (¬ Holds hashToken log routeId headers ∧
        s.authorizeRevoke hashToken routeId headers = (.refused 401, s)) := by
  rw [← h.authorize_isSome_iff, World.authorizeRevoke]
  cases s.table.authorize hashToken routeId (presentedToken headers) with
  | none => exact .inr ⟨Bool.false_ne_true, rfl⟩
  | some route => exact .inl ⟨rfl, rfl⟩

theorem revokeRoute (routeId : Str) :
    (Pending log routeId ∧ ∃ found, s.revokeRoute routeId = (.revoked found, { s with
        table := (s.table.revoke routeId).1, revoking := s.revoking.erase routeId }) ∧
        (found = true ↔ ∃ hash, Standing (changes hashToken log) routeId hash)) ∨
      (¬ Pending log routeId ∧ s.revokeRoute routeId = (.quiet, s)) := by
  rw [World.revokeRoute, ← h.pending_iff]
  split
  · rename_i hrevoking
    refine .inl ⟨hrevoking, _, rfl, ?_⟩
    rw [← h.tracks.isSome_iff, Option.isSome_map]
    rfl
  · rename_i hrevoking
    exact .inr ⟨hrevoking, rfl⟩

theorem websocket (routeId : Str) (headers : HeaderMap) :
    ((routeId = [] ∨ routeId.utf8.length > 128) ∧
        s.websocket hashToken routeId headers = (.refused 400, s)) ∨
      (¬ (routeId = [] ∨ routeId.utf8.length > 128) ∧
        ((¬ Holds hashToken log routeId headers ∧
            s.websocket hashToken routeId headers = (.refused 401, s)) ∨
          (Holds hashToken log routeId headers ∧
            ((Foreign publicOrigin headers ∧
                s.websocket hashToken routeId headers = (.refused 403, s)) ∨
              (¬ Foreign publicOrigin headers ∧
                ∃ route, s.websocket hashToken routeId headers = (.attached s.opened, { s with
                  opened := s.opened + 1
                  connections := Function.update s.connections s.opened
                    (some (s.subscribe routeId (presentedToken headers) route)) })))))) := by
  rw [← h.authorize_isSome_iff, ← h.origin, World.websocket]
  by_cases hlength : routeId = [] ∨ routeId.utf8.length > 128
  · exact .inl ⟨hlength, if_pos hlength⟩
  refine .inr ⟨hlength, ?_⟩
  rw [if_neg hlength]
  dsimp only
  cases s.table.authorize hashToken routeId (presentedToken headers) with
  | none => exact .inl ⟨Bool.false_ne_true, rfl⟩
  | some route =>
    refine .inr ⟨rfl, ?_⟩
    by_cases hforeign : Foreign s.publicOrigin headers
    · exact .inl ⟨hforeign, if_pos hforeign⟩
    · exact .inr ⟨hforeign, route, if_neg hforeign⟩

/-- What the relay answers to any request. -/
theorem answers (action : Action) :
    Answers hashToken registrationSecret publicOrigin log
      ((machine W hashToken).fire s action) := by
  cases action with
  | register drawn headers =>
    refine (h.registerRoute drawn headers).imp ?_ ?_
    · exact fun hcase => ⟨hcase.1, congrArg Prod.fst hcase.2⟩
    · exact fun hcase => ⟨hcase.1, congrArg Prod.fst hcase.2⟩
  | authorizeRevoke routeId headers =>
    refine (h.authorizeRevoke routeId headers).imp ?_ ?_
    · exact fun hcase => ⟨hcase.1, congrArg Prod.fst hcase.2⟩
    · exact fun hcase => ⟨hcase.1, congrArg Prod.fst hcase.2⟩
  | revoke routeId =>
    refine (h.revokeRoute routeId).imp ?_ ?_
    · rintro ⟨hpending, found, heq, hfound⟩
      exact ⟨hpending, found, congrArg Prod.fst heq, hfound⟩
    · exact fun hcase => ⟨hcase.1, congrArg Prod.fst hcase.2⟩
  | websocket routeId headers =>
    rcases h.websocket routeId headers with ⟨hlength, heq⟩ | ⟨hlength, ⟨hholds, heq⟩ |
      ⟨hholds, ⟨hforeign, heq⟩ | ⟨hforeign, route, heq⟩⟩⟩
    · exact .inl ⟨hlength, congrArg Prod.fst heq⟩
    · exact .inr ⟨hlength, .inl ⟨hholds, congrArg Prod.fst heq⟩⟩
    · exact .inr ⟨hlength, .inr ⟨hholds, .inl ⟨hforeign, congrArg Prod.fst heq⟩⟩⟩
    · exact .inr ⟨hlength, .inr ⟨hholds, .inr ⟨hforeign, _, congrArg Prod.fst heq⟩⟩⟩
  | _ => exact (works_step s rfl).traffic

end Recorded

theorem changes_append (log : List Step) (t : Step) : changes hashToken (log ++ [t]) =
    changes hashToken log ++ (change hashToken t).toList := by
  rw [changes, List.filterMap_append, changes]
  cases hchange : change hashToken t with
  | none => simp [hchange]
  | some c => simp [hchange]

theorem countP_append (log : List Step) (t : Step) (p : Step → Bool) :
    (log ++ [t]).countP p = log.countP p + if p t then 1 else 0 := by
  rw [List.countP_append, List.countP_singleton]

/-- A transition that changes no route and authorizes and revokes nothing. -/
theorem Recorded.keep (h : Recorded hashToken registrationSecret publicOrigin log s) {t : Step}
    {s' : World} (hchange : change hashToken t = none)
    (hauthorizes : ∀ routeId, authorizes routeId t = false)
    (hrevokes : ∀ routeId, revokes routeId t = false)
    (hsecret : s'.registrationSecret = s.registrationSecret)
    (horigin : s'.publicOrigin = s.publicOrigin) (htable : s'.table = s.table)
    (hrevoking : s'.revoking = s.revoking) :
    Recorded hashToken registrationSecret publicOrigin (log ++ [t]) s' := by
  refine ⟨hsecret.trans h.secret, horigin.trans h.origin, ?_, fun routeId => ?_⟩
  · rw [changes_append, hchange, htable]
    simpa using h.tracks
  · rw [countP_append, countP_append, hauthorizes, hrevokes, hrevoking]
    exact h.revoking routeId

/-- A transition that answers nothing but a refusal, or only works on a connection. -/
theorem Recorded.works (h : Recorded hashToken registrationSecret publicOrigin log s)
    {action : Action} (hrequest : action.isRequest = false) {output : Output} {s' : World}
    (hworks : Works s (output, s')) :
    Recorded hashToken registrationSecret publicOrigin (log ++ [⟨s, action, output, s'⟩]) s' := by
  refine h.keep ?_ (fun routeId => ?_) (fun routeId => ?_) hworks.secret hworks.origin hworks.table
    hworks.revoking
  · obtain rfl | rfl | ⟨position, frame, rfl⟩ := hworks.traffic <;> rfl
  · cases action <;> first | rfl | cases hrequest
  · cases action <;> first | rfl | cases hrequest

theorem Recorded.refused (h : Recorded hashToken registrationSecret publicOrigin log s)
    (action : Action) (status : Nat) (hrevoke : ∀ routeId, action ≠ .revoke routeId) :
    Recorded hashToken registrationSecret publicOrigin
      (log ++ [⟨s, action, .refused status, s⟩]) s := by
  refine h.keep rfl (fun routeId => ?_) (fun routeId => ?_) rfl rfl rfl rfl
  · cases action with
    | authorizeRevoke other headers => simp [authorizes]
    | _ => rfl
  · cases action with
    | revoke other => exact absurd rfl (hrevoke other)
    | _ => rfl

/-- A transition that changes a route. -/
theorem Recorded.changed (h : Recorded hashToken registrationSecret publicOrigin log s) {t : Step}
    (c : Change Str Bytes) (hchange : change hashToken t = some c) {table : RouteTable}
    (hself : (table.routes.lookup c.key).map (·.tokenHash) = c.value)
    (hothers : ∀ routeId, routeId ≠ c.key →
      table.routes.lookup routeId = s.table.routes.lookup routeId) :
    Tracks (fun routeId => (table.routes.lookup routeId).map (·.tokenHash))
      (changes hashToken (log ++ [t])) := by
  rw [changes_append, hchange]
  exact h.tracks.append hself fun routeId hne =>
    congrArg (Option.map (·.tokenHash)) (hothers routeId hne)

theorem Recorded.after (h : Recorded hashToken registrationSecret publicOrigin log s)
    {action : Action} {output : Output} {s' : World}
    (hstep : World.step W hashToken s action = (output, s')) :
    Recorded hashToken registrationSecret publicOrigin (log ++ [⟨s, action, output, s'⟩]) s' := by
  cases action with
  | register drawn headers =>
    rcases h.registerRoute drawn headers with ⟨-, heq⟩ | ⟨-, heq⟩
    · cases hstep.symm.trans heq
      refine ⟨h.secret, h.origin, ?_, fun routeId => ?_⟩
      · refine h.changed (.put drawn.routeId (hashToken drawn.token)) rfl ?_
          fun routeId hne => AList.lookup_insert_ne hne
        rw [RouteTable.register, Change.key, AList.lookup_insert]
        rfl
      · rw [countP_append, countP_append]
        exact h.revoking routeId
    · cases hstep.symm.trans heq
      exact h.refused _ 401 fun _ => Action.noConfusion
  | authorizeRevoke routeId headers =>
    rcases h.authorizeRevoke routeId headers with ⟨-, heq⟩ | ⟨-, heq⟩
    · cases hstep.symm.trans heq
      refine ⟨h.secret, h.origin, ?_, fun other => ?_⟩
      · rw [changes_append]
        simpa [change] using h.tracks
      · rw [countP_append, countP_append]
        have hold := h.revoking other
        by_cases hother : routeId = other
        · subst hother
          simp [authorizes, revokes]
          omega
        · simp [authorizes, revokes, hother]
          omega
    · cases hstep.symm.trans heq
      exact h.refused _ 401 fun _ => Action.noConfusion
  | revoke routeId =>
    rcases h.revokeRoute routeId with ⟨hpending, found, heq, -⟩ | ⟨-, heq⟩
    · cases hstep.symm.trans heq
      refine ⟨h.secret, h.origin, ?_, fun other => ?_⟩
      · refine h.changed (.drop routeId) rfl ?_ fun other hne => AList.lookup_erase_ne hne
        rw [RouteTable.revoke, Change.key, AList.lookup_erase]
        rfl
      · have hold := h.revoking other
        rw [countP_append, countP_append]
        by_cases hother : routeId = other
        · subst hother
          have hmem : 0 < s.revoking.count routeId :=
            List.count_pos_iff.2 ((h.pending_iff routeId).2 hpending)
          simp [authorizes, revokes, List.count_erase_self]
          omega
        · simp [authorizes, revokes, hother, List.count_erase_of_ne (Ne.symm hother)]
          omega
    · cases hstep.symm.trans heq
      refine h.keep rfl (fun other => rfl) (fun other => ?_) rfl rfl rfl rfl
      simp [revokes]
  | websocket routeId headers =>
    rcases h.websocket routeId headers with ⟨-, heq⟩ | ⟨-, ⟨-, heq⟩ | ⟨-, ⟨-, heq⟩ |
      ⟨-, route, heq⟩⟩⟩
    · cases hstep.symm.trans heq
      exact h.refused _ 400 fun _ => Action.noConfusion
    · cases hstep.symm.trans heq
      exact h.refused _ 401 fun _ => Action.noConfusion
    · cases hstep.symm.trans heq
      exact h.refused _ 403 fun _ => Action.noConfusion
    · cases hstep.symm.trans heq
      exact h.keep rfl (fun _ => rfl) (fun _ => rfl) rfl rfl rfl rfl
  | _ => exact h.works rfl (hstep ▸ works_step s rfl)

/-! ## Every run -/

theorem recorded_start (hashToken : Str → Bytes) (registrationSecret : Option Str)
    (publicOrigin : Bytes) : Recorded hashToken registrationSecret publicOrigin []
      (start registrationSecret publicOrigin) :=
  ⟨rfl, rfl, tracks_nil, fun _ => rfl⟩

/-- In every run of a relay, each answer follows from the registrations and revocations before it:
a registration takes the secret; a route is open, to attach and to revoke, exactly to the token of
its last registration as long as no revocation was carried out since; and no more revocations of a
route are carried out than were authorized. -/
theorem answers_of_run (W : EnvelopeWire) (hashToken : Str → Bytes)
    (registrationSecret : Option Str) (publicOrigin : Bytes) (actions : List Action)
    (action : Action) :
    Answers hashToken registrationSecret publicOrigin
      ((machine W hashToken).run (start registrationSecret publicOrigin) actions)
      ((machine W hashToken).fire
        ((machine W hashToken).final (start registrationSecret publicOrigin) actions) action) := by
  have hrecorded := Machine.history_final (M := machine W hashToken)
    (I := Recorded hashToken registrationSecret publicOrigin)
    (fun log s action h => h.after rfl)
    (recorded_start hashToken registrationSecret publicOrigin) actions
  rw [List.nil_append] at hrecorded
  exact hrecorded.answers action

end World

end LeaveCli.Relay
