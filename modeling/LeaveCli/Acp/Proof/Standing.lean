import LeaveCli.Acp.Permissions

/-!
# One permission request

`h.standing r` is what the state holds of request `r`: its handler, its entry in the map, and what
those who took the entry are about to send. A step of the machine is a `Change` of each standing,
or a `Mishap` of one: `step_standing`. So an invariant that speaks of one request is argued from
`Change` alone, whatever the other requests and calls do.
-/

namespace LeaveCli.Acp.Permissions

open Lib LeaveCli.Core

/-! ## The outputs about a request -/

/-- The answers to the agent. -/
def Output.response (r : Uuid) : Output → List Outcome
  | .respond requestId outcome => if requestId = r then [outcome] else []
  | _ => []

/-- The decisions for which `decide_permission` returned `Ok`. -/
def Output.accepted (r : Uuid) : Output → List (Option Str)
  | .decided requestId optionId (.ok ()) => if requestId = r then [optionId] else []
  | _ => []

/-- Nothing in the output is about `r`. -/
def Quiet (r : Uuid) (o : Output) : Prop := o.response r = [] ∧ o.accepted r = []

theorem quiet_none (r : Uuid) : Quiet r .none := ⟨rfl, rfl⟩

theorem quiet_broadcast (r : Uuid) (sessionId : Str) (payload : Payload) :
    Quiet r (.broadcast sessionId payload) := ⟨rfl, rfl⟩

theorem quiet_cancelled (r : Uuid) (sessionId : Str) (result : Except Str Unit) :
    Quiet r (.cancelled sessionId result) := ⟨rfl, rfl⟩

theorem quiet_error (r requestId : Uuid) (optionId : Option Str) (error : Str) :
    Quiet r (.decided requestId optionId (.error error)) := ⟨rfl, rfl⟩

theorem quiet_respond {r requestId : Uuid} (hne : requestId ≠ r) (outcome : Outcome) :
    Quiet r (.respond requestId outcome) := ⟨if_neg hne, rfl⟩

theorem quiet_decided {r requestId : Uuid} (hne : requestId ≠ r) (optionId : Option Str)
    (result : Except Str Unit) : Quiet r (.decided requestId optionId result) := by
  refine ⟨rfl, ?_⟩
  cases result with
  | error => rfl
  | ok => exact if_neg hne

/-! ## Standings -/

structure Standing where
  handling : Option Handling
  entry : Option PendingPermission
  /-- What the callers who took the entry are about to send. -/
  held : Multiset (Option Str)

def Cancel.held (r : Uuid) (c : Cancel) : Multiset (Option Str) :=
  match c.stage with
  | .sending requestId _ => if requestId = r then {none} else 0
  | _ => 0

def callsOf (r : Uuid) (calls : Multiset (Uuid × Option Str)) : Multiset (Option Str) :=
  (calls.filter fun call => call.1 = r).map Prod.snd

def held (h : Permissions) (r : Uuid) : Multiset (Option Str) :=
  callsOf r h.deciding + h.cancelling.elim 0 (Cancel.held r)

def standing (h : Permissions) (r : Uuid) : Standing :=
  ⟨h.requests.lookup r, h.pending.lookup r, h.held r⟩

theorem callsOf_cons (r : Uuid) (optionId : Option Str) (calls : Multiset (Uuid × Option Str)) :
    callsOf r ((r, optionId) ::ₘ calls) = optionId ::ₘ callsOf r calls := by
  simp [callsOf]

theorem callsOf_cons_ne {r requestId : Uuid} (hne : requestId ≠ r) (optionId : Option Str)
    (calls : Multiset (Uuid × Option Str)) :
    callsOf r ((requestId, optionId) ::ₘ calls) = callsOf r calls := by
  simp [callsOf, hne]

theorem mem_held {h : Permissions} {r : Uuid} {optionId : Option Str}
    (hcall : (r, optionId) ∈ h.deciding) : optionId ∈ h.held r := by
  simp only [held, callsOf, Multiset.mem_add, Multiset.mem_map, Multiset.mem_filter]
  exact .inl ⟨(r, optionId), ⟨hcall, rfl⟩, rfl⟩

theorem standing_set (h : Permissions) (r : Uuid) (a : Handling) :
    (h.set r a).standing r = { h.standing r with handling := some a } := by
  simp [standing, set, held, Finmap.lookup_insert]

theorem standing_set_ne {h : Permissions} {r requestId : Uuid} (hne : requestId ≠ r)
    (a : Handling) : (h.set requestId a).standing r = h.standing r := by
  simp [standing, set, held, Finmap.lookup_insert_of_ne _ (Ne.symm hne)]

theorem standing_pending (h : Permissions) (r : Uuid)
    (pending : Finmap fun _ : Uuid => PendingPermission) :
    { h with pending }.standing r = { h.standing r with entry := pending.lookup r } := rfl

/-! ## Changes -/

/-- One step, seen from request `r`. -/
inductive Change (r : Uuid) : Standing → Output → Standing → Prop
  | stay {s o} : Quiet r o → Change r s o s
  | ask {entry held} (request : PermissionRequest) :
      Change r ⟨none, entry, held⟩ .none ⟨some ⟨request, .publishing, .empty⟩, entry, held⟩
  | refuse {entry held} (request : PermissionRequest) :
      Change r ⟨none, entry, held⟩ .none ⟨some ⟨request, .denying, .empty⟩, entry, held⟩
  | publish {a entry held} (payload : Payload) : a.phase = .publishing →
      Change r ⟨some a, entry, held⟩ (.broadcast a.request.sessionId payload)
        ⟨some { a with phase := .registering }, entry, held⟩
  | deny {a entry held} : a.phase = .publishing →
      Change r ⟨some a, entry, held⟩ .none ⟨some { a with phase := .denying }, entry, held⟩
  | reject {a entry held} : a.phase = .denying →
      Change r ⟨some a, entry, held⟩ (.respond r .cancelled) ⟨some a.ended, entry, held⟩
  | register {a entry held} : a.phase = .registering →
      Change r ⟨some a, entry, held⟩ .none ⟨some { a with phase := .spawning },
        some ⟨a.request.sessionId, a.request.optionIds⟩, held⟩
  | spawn {a entry held} : a.phase = .spawning →
      Change r ⟨some a, entry, held⟩ .none ⟨some { a with phase := .waiting }, entry, held⟩
  | receive {a entry held} (decision : Option Str) :
      a.phase = .waiting → a.channel = .sent decision →
      Change r ⟨some a, entry, held⟩ .none
        ⟨some { a with phase := .removing decision, channel := .closed }, entry, held⟩
  | elapse {a entry held} : a.phase = .waiting → (∀ d, a.channel ≠ .sent d) →
      Change r ⟨some a, entry, held⟩ .none ⟨some { a with phase := .elapsed }, entry, held⟩
  | drop {a entry held} : a.phase = .elapsed →
      Change r ⟨some a, entry, held⟩ .none
        ⟨some { a with phase := .removing none, channel := .closed }, entry, held⟩
  | remove {a entry held} (selected : Option Str) : a.phase = .removing selected →
      Change r ⟨some a, entry, held⟩ .none
        ⟨some { a with phase := .responding selected }, none, held⟩
  | respond {a entry held} (selected : Option Str) : a.phase = .responding selected →
      Change r ⟨some a, entry, held⟩ (.respond r (outcome selected))
        ⟨some { a with phase := .recording selected }, entry, held⟩
  | record {a entry held o} (selected : Option Str) : a.phase = .recording selected → Quiet r o →
      Change r ⟨some a, entry, held⟩ o ⟨some a.ended, entry, held⟩
  /-- A client or the cancel takes the entry. -/
  | take {handling held} (pending : PendingPermission) (decision : Option Str) :
      (∀ optionId, decision = some optionId → optionId ∈ pending.optionIds) →
      Change r ⟨handling, some pending, held⟩ .none ⟨handling, none, decision ::ₘ held⟩
  /-- A client's decision goes into the channel. -/
  | send {a entry held} (decision : Option Str) :
      a.channel = .empty → (a.phase = .elapsed → decision = none) →
      Change r ⟨some a, entry, decision ::ₘ held⟩ (.decided r decision (.ok ()))
        ⟨some { a with channel := .sent decision }, entry, held⟩
  /-- The `None` of the cancel goes into the channel. -/
  | cancel {a entry held} : a.channel = .empty →
      Change r ⟨some a, entry, none ::ₘ held⟩ .none
        ⟨some { a with channel := .sent none }, entry, held⟩
  /-- The channel does not take what is sent. -/
  | fail {handling entry held o} (decision : Option Str) :
      (∀ a, handling = some a → a.channel ≠ .empty) → Quiet r o →
      Change r ⟨handling, entry, decision ::ₘ held⟩ o ⟨handling, entry, held⟩

/-- The next step of the handler or the task needs the connection, and ends with it. -/
def Phase.connects (phase : Phase) : Prop :=
  phase = .denying ∨ phase = .spawning ∨ ∃ selected, phase = .responding selected

/-- What goes wrong with request `r`. -/
inductive Mishap (r : Uuid) : Standing → Output → Standing → Prop
  /-- An option is sent to a task that has given up and still listens. -/
  | late {a entry held} (optionId : Str) : a.phase = .elapsed → a.channel = .empty →
      Mishap r ⟨some a, entry, some optionId ::ₘ held⟩ (.decided r (some optionId) (.ok ()))
        ⟨some { a with channel := .sent (some optionId) }, entry, held⟩
  /-- The connection does not take the task or the answer. -/
  | cut {a entry held} : a.phase.connects →
      Mishap r ⟨some a, entry, held⟩ .none ⟨some a.ended, entry, held⟩

/-- A client sends an option when a poll has found the time of the request run out. -/
def LateSend (t : Transition Permissions Action Output) : Prop :=
  ∃ r optionId a, t.input = .send r (some optionId) ∧ (r, some optionId) ∈ t.before.deciding ∧
    t.before.requests.lookup r = some a ∧ a.phase = .elapsed

/-- The connection is closed to a task or to an answer. -/
def CutOff (t : Transition Permissions Action Output) : Prop :=
  ∃ r elapsed error a, t.input = .proceed r elapsed (some error) ∧
    t.before.requests.lookup r = some a ∧ a.phase.connects

/-! ## Steps -/

section
variable {h : Permissions} {r requestId : Uuid}

theorem standing_of_lookup {a : Handling} (ha : h.requests.lookup r = some a) :
    h.standing r = ⟨some a, h.pending.lookup r, h.held r⟩ := by
  rw [standing, ha]

theorem Change.of_ne {o : Output} {h' : Permissions} (hquiet : Quiet r o)
    (hsame : h'.standing r = h.standing r) : Change r (h.standing r) o (h'.standing r) := by
  rw [hsame]
  exact .stay hquiet

theorem ask_standing (request : PermissionRequest) (fault : Option Str) :
    Change r (h.standing r) (h.ask requestId request fault).1
      ((h.ask requestId request fault).2.standing r) := by
  unfold ask
  split
  · exact .stay (quiet_none r)
  rename_i hnew
  by_cases hr : requestId = r
  · subst hr
    have hnone : h.requests.lookup requestId = none := Finmap.lookup_eq_none.2 hnew
    cases fault with
    | some error =>
      simp only [standing_set]
      simp only [standing, hnone]
      exact .refuse request
    | none =>
      simp only [standing_set]
      simp only [standing, hnone]
      exact .ask request
  · cases fault with
    | some error => exact .of_ne (quiet_none r) (standing_set_ne hr _)
    | none => exact .of_ne (quiet_none r) (standing_set_ne hr _)

theorem advance_standing_ne (hne : requestId ≠ r) (a : Handling) (elapsed : Bool)
    (fault : Option Str) :
    Quiet r (h.advance requestId a elapsed fault).1 ∧
      (h.advance requestId a elapsed fault).2.standing r = h.standing r := by
  have hset := fun a => standing_set_ne (h := h) hne a
  unfold advance
  split
  · cases fault with
    | some error => exact ⟨quiet_none r, hset _⟩
    | none => exact ⟨quiet_broadcast .., hset _⟩
  · refine ⟨?_, hset _⟩
    split
    · exact quiet_none r
    · exact quiet_respond hne _
  · refine ⟨quiet_none r, ?_⟩
    rw [standing_pending, hset, Finmap.lookup_insert_of_ne _ (Ne.symm hne)]
    rfl
  · cases fault with
    | some error => exact ⟨quiet_none r, hset _⟩
    | none => exact ⟨quiet_none r, hset _⟩
  · split
    · exact ⟨quiet_none r, hset _⟩
    · split
      · exact ⟨quiet_none r, hset _⟩
      · exact ⟨quiet_none r, rfl⟩
  · exact ⟨quiet_none r, hset _⟩
  · refine ⟨quiet_none r, ?_⟩
    rw [standing_pending, hset, Finmap.lookup_erase_ne (Ne.symm hne)]
    rfl
  · cases fault with
    | some error => exact ⟨quiet_none r, hset _⟩
    | none => exact ⟨quiet_respond hne _, hset _⟩
  · refine ⟨?_, hset _⟩
    split
    · exact quiet_none r
    · exact quiet_broadcast ..
  · exact ⟨quiet_none r, rfl⟩

/-- A step of the handler or the task of a request. -/
theorem advance_standing {a : Handling} (ha : h.requests.lookup r = some a) (elapsed : Bool)
    (fault : Option Str) :
    Change r (h.standing r) (h.advance r a elapsed fault).1
        ((h.advance r a elapsed fault).2.standing r) ∨
      (Mishap r (h.standing r) (h.advance r a elapsed fault).1
          ((h.advance r a elapsed fault).2.standing r) ∧
        fault.isSome ∧ a.phase.connects) := by
  have hset := fun a => standing_set h r a
  have hstanding := standing_of_lookup ha
  unfold advance
  split
  · rename_i hphase
    refine .inl ?_
    cases fault with
    | some error =>
      simp only [hset, hstanding]
      exact .deny hphase
    | none =>
      simp only [hset, hstanding]
      exact .publish _ hphase
  · rename_i hphase
    cases fault with
    | some error =>
      refine .inr ⟨?_, rfl, .inl hphase⟩
      simp only [hset, hstanding]
      exact .cut (.inl hphase)
    | none =>
      refine .inl ?_
      simp only [hset, hstanding]
      exact .reject hphase
  · rename_i hphase
    refine .inl ?_
    simp only [standing_pending, hset, hstanding, Finmap.lookup_insert]
    exact .register hphase
  · rename_i hphase
    cases fault with
    | some error =>
      refine .inr ⟨?_, rfl, .inr (.inl hphase)⟩
      simp only [hset, hstanding]
      exact .cut (.inr (.inl hphase))
    | none =>
      refine .inl ?_
      simp only [hset, hstanding]
      exact .spawn hphase
  · rename_i hphase
    refine .inl ?_
    split
    · rename_i decision hchannel
      simp only [hset, hstanding]
      exact .receive decision hphase hchannel
    · rename_i hempty
      split
      · simp only [hset, hstanding]
        exact .elapse hphase hempty
      · exact .stay (quiet_none r)
  · rename_i hphase
    refine .inl ?_
    simp only [hset, hstanding]
    exact .drop hphase
  · rename_i selected hphase
    refine .inl ?_
    simp only [standing_pending, hset, hstanding, Finmap.lookup_erase]
    exact .remove selected hphase
  · rename_i selected hphase
    cases fault with
    | some error =>
      refine .inr ⟨?_, rfl, .inr (.inr ⟨selected, hphase⟩)⟩
      simp only [hset, hstanding]
      exact .cut (.inr (.inr ⟨selected, hphase⟩))
    | none =>
      refine .inl ?_
      simp only [hset, hstanding]
      exact .respond selected hphase
  · rename_i selected hphase
    refine .inl ?_
    simp only [hset, hstanding]
    refine .record selected hphase ?_
    split
    · exact quiet_none r
    · exact quiet_broadcast ..
  · exact .inl (.stay (quiet_none r))

/-- The connection takes neither the task nor the answer. -/
theorem advance_cut {a : Handling} (ha : h.requests.lookup r = some a)
    (hphase : a.phase.connects) (elapsed : Bool) (error : Str) :
    Mishap r (h.standing r) (h.advance r a elapsed (some error)).1
      ((h.advance r a elapsed (some error)).2.standing r) := by
  have hadvance : h.advance r a elapsed (some error) = (.none, h.set r a.ended) := by
    rcases hphase with hphase | hphase | ⟨selected, hphase⟩ <;> simp [advance, hphase]
  rw [hadvance, standing_of_lookup ha]
  simp only [standing_set, standing_of_lookup ha]
  exact .cut hphase

/-- Who takes an entry holds its sender. -/
theorem take_standing {pending : PendingPermission} (decision : Option Str)
    (hentry : h.pending.lookup requestId = some pending)
    (hvalid : ∀ optionId, decision = some optionId → optionId ∈ pending.optionIds)
    {h' : Permissions} (hrequests : h'.requests = h.requests)
    (hpending : h'.pending = h.pending.erase requestId)
    (hheld : h'.held r = if requestId = r then decision ::ₘ h.held r else h.held r) :
    Change r (h.standing r) .none (h'.standing r) := by
  by_cases hr : requestId = r
  · subst hr
    simp only [standing, hrequests, hpending, hheld, hentry, Finmap.lookup_erase, if_pos]
    exact .take pending decision hvalid
  · have hsame : h'.standing r = h.standing r := by
      simp only [standing, hrequests, hpending, hheld, if_neg hr]
      rw [Finmap.lookup_erase_ne (Ne.symm hr)]
    exact .of_ne (quiet_none r) hsame

theorem decide_standing (optionId : Option Str) :
    Change r (h.standing r) (h.decide requestId optionId).1
      ((h.decide requestId optionId).2.standing r) := by
  unfold decide
  split
  · exact .stay (quiet_error ..)
  rename_i pending hentry
  split
  · exact .stay (quiet_error ..)
  rename_i hvalid
  refine take_standing optionId hentry ?_ rfl rfl ?_
  · intro o heq
    subst heq
    simpa using hvalid
  · by_cases hr : requestId = r
    · subst hr
      simp [held, callsOf_cons]
    · simp [held, callsOf_cons_ne hr, hr]

theorem deliver_cases (h : Permissions) (requestId : Uuid) (decision : Option Str) :
    (∃ a, h.requests.lookup requestId = some a ∧ a.channel = .empty ∧
      h.deliver requestId decision =
        (true, h.set requestId { a with channel := .sent decision })) ∨
    ((∀ a, h.requests.lookup requestId = some a → a.channel ≠ .empty) ∧
      h.deliver requestId decision = (false, h)) := by
  unfold deliver
  cases ha : h.requests.lookup requestId with
  | none => exact .inr ⟨nofun, rfl⟩
  | some a =>
    cases hchannel : a.channel with
    | empty => exact .inl ⟨a, rfl, hchannel, by simp [hchannel]⟩
    | sent d => exact .inr ⟨by rintro _ ⟨⟩; simp [hchannel], by simp [hchannel]⟩
    | closed => exact .inr ⟨by rintro _ ⟨⟩; simp [hchannel], by simp [hchannel]⟩

/-- A call that sends while the channel is empty returns `Ok`. -/
theorem send_empty {optionId : Option Str} {a : Handling} (hcall : (r, optionId) ∈ h.deciding)
    (ha : h.requests.lookup r = some a) (hempty : a.channel = .empty) :
    ∃ held, h.standing r = ⟨some a, h.pending.lookup r, optionId ::ₘ held⟩ ∧
      (h.send r optionId).1 = .decided r optionId (.ok ()) ∧
      (h.send r optionId).2.standing r =
        ⟨some { a with channel := .sent optionId }, h.pending.lookup r, held⟩ := by
  obtain ⟨rest, hrest⟩ := Multiset.exists_cons_of_mem hcall
  have herase : h.deciding.erase (r, optionId) = rest := by
    rw [hrest, Multiset.erase_cons_head]
  have hdeliver : { h with deciding := rest }.deliver r optionId =
      (true, { h with deciding := rest }.set r { a with channel := .sent optionId }) := by
    simp [deliver, ha, hempty]
  refine ⟨{ h with deciding := rest }.held r, ?_, ?_, ?_⟩
  · simp [standing, held, ha, hrest, callsOf_cons]
  · rw [send, if_pos hcall, herase, hdeliver]
  · rw [send, if_pos hcall, herase, hdeliver]
    simp only [standing_set]
    rfl

/-- A call that sends while the channel is not empty fails. -/
theorem send_full {optionId : Option Str} (hcall : (r, optionId) ∈ h.deciding)
    (hfull : ∀ a, h.requests.lookup r = some a → a.channel ≠ .empty) :
    Change r (h.standing r) (h.send r optionId).1 ((h.send r optionId).2.standing r) := by
  obtain ⟨rest, hrest⟩ := Multiset.exists_cons_of_mem hcall
  have herase : h.deciding.erase (r, optionId) = rest := by
    rw [hrest, Multiset.erase_cons_head]
  have hheld : h.standing r = ⟨h.requests.lookup r, h.pending.lookup r,
      optionId ::ₘ { h with deciding := rest }.held r⟩ := by
    simp [standing, held, hrest, callsOf_cons]
  rw [send, if_pos hcall, herase, hheld]
  rcases deliver_cases { h with deciding := rest } r optionId with
    ⟨a, ha, hempty, -⟩ | ⟨-, hdeliver⟩
  · exact absurd hempty (hfull a ha)
  · rw [hdeliver]
    exact .fail optionId hfull (quiet_error ..)

theorem send_standing_ne (hne : requestId ≠ r) (optionId : Option Str) :
    Change r (h.standing r) (h.send requestId optionId).1
      ((h.send requestId optionId).2.standing r) := by
  unfold send
  split
  swap
  · exact .stay (quiet_none r)
  rename_i hcall
  obtain ⟨rest, hrest⟩ := Multiset.exists_cons_of_mem hcall
  have hheld : { h with deciding := rest }.standing r = h.standing r := by
    simp [standing, held, hrest, callsOf_cons_ne hne]
  rw [hrest, Multiset.erase_cons_head]
  rcases deliver_cases { h with deciding := rest } requestId optionId with
    ⟨a, -, -, hdeliver⟩ | ⟨-, hdeliver⟩
  · rw [hdeliver]
    exact .of_ne (quiet_decided hne ..) ((standing_set_ne hne _).trans hheld)
  · rw [hdeliver]
    exact .of_ne (quiet_error ..) hheld

/-- A call of `decide_permission` sends. -/
theorem send_standing (optionId : Option Str) :
    Change r (h.standing r) (h.send requestId optionId).1
        ((h.send requestId optionId).2.standing r) ∨
      (Mishap r (h.standing r) (h.send requestId optionId).1
          ((h.send requestId optionId).2.standing r) ∧
        LateSend (permissions.fire h (.send requestId optionId))) := by
  by_cases hr : requestId = r
  swap
  · exact .inl (send_standing_ne hr optionId)
  subst hr
  by_cases hcall : (requestId, optionId) ∈ h.deciding
  swap
  · rw [send, if_neg hcall]
    exact .inl (.stay (quiet_none requestId))
  by_cases hfull : ∀ a, h.requests.lookup requestId = some a → a.channel ≠ .empty
  · exact .inl (send_full hcall hfull)
  push Not at hfull
  obtain ⟨a, ha, hempty⟩ := hfull
  obtain ⟨held, hbefore, hoks, hafter⟩ := send_empty hcall ha hempty
  rw [hbefore, hoks, hafter]
  by_cases hlate : a.phase = .elapsed ∧ optionId ≠ none
  · obtain ⟨hphase, hsome⟩ := hlate
    obtain ⟨o, rfl⟩ := Option.ne_none_iff_exists'.1 hsome
    exact .inr ⟨.late o hphase hempty, requestId, o, a, rfl, hcall, ha, hphase⟩
  · refine .inl (.send optionId hempty fun hphase => ?_)
    by_contra hsome
    exact hlate ⟨hphase, hsome⟩

/-- The cancel holds no sender of `r` before the step, and none after it. -/
theorem standing_cancelling {c : Cancel} (hc : h.cancelling = some c) (hbefore : c.held r = 0)
    {cancelling : Option Cancel} (hafter : cancelling.elim 0 (Cancel.held r) = 0) :
    { h with cancelling }.standing r = h.standing r := by
  simp [standing, held, hc, hbefore, hafter]

/-- The cancel sends `None`, or finds that nobody listens. -/
theorem cancel_sending {sessionId : Str} {requestIds : List Uuid}
    (hc : h.cancelling = some ⟨sessionId, .sending requestId requestIds⟩) :
    Change r (h.standing r) .none
      (((h.toStage ⟨sessionId, .sending requestId requestIds⟩ (.removing requestIds)).deliver
        requestId none).2.standing r) := by
  by_cases hr : requestId = r
  · subst hr
    have hheld : h.standing requestId = ⟨h.requests.lookup requestId, h.pending.lookup requestId,
        none ::ₘ (h.toStage ⟨sessionId, .sending requestId requestIds⟩
          (.removing requestIds)).held requestId⟩ := by
      simp [standing, held, hc, Cancel.held, toStage, Multiset.add_comm]
    rw [hheld]
    rcases deliver_cases (h.toStage ⟨sessionId, .sending requestId requestIds⟩
      (.removing requestIds)) requestId none with ⟨a, ha, hempty, hdeliver⟩ | ⟨hfull, hdeliver⟩
    · rw [hdeliver]
      simp only [standing_set]
      rw [show h.requests.lookup requestId = some a from ha]
      exact .cancel hempty
    · rw [hdeliver]
      exact .fail none hfull (quiet_none _)
  · have hheld : (h.toStage ⟨sessionId, .sending requestId requestIds⟩
        (.removing requestIds)).standing r = h.standing r := by
      simp [standing, held, hc, Cancel.held, toStage, hr]
    rcases deliver_cases (h.toStage ⟨sessionId, .sending requestId requestIds⟩
      (.removing requestIds)) requestId none with ⟨a, ha, hempty, hdeliver⟩ | ⟨hfull, hdeliver⟩
    · rw [hdeliver]
      exact .of_ne (quiet_none r) ((standing_set_ne hr _).trans hheld)
    · rw [hdeliver]
      exact .of_ne (quiet_none r) hheld

theorem cancelSession_standing {c : Cancel} (hc : h.cancelling = some c) (requestIds : List Uuid)
    (fault : Option Str) :
    Change r (h.standing r) (h.cancelSession c requestIds fault).1
      ((h.cancelSession c requestIds fault).2.standing r) := by
  obtain ⟨sessionId, stage⟩ := c
  cases stage with
  | notifying =>
    cases fault with
    | some error => exact .of_ne (quiet_cancelled ..) (standing_cancelling hc rfl rfl)
    | none => exact .of_ne (quiet_none r) (standing_cancelling hc rfl rfl)
  | collecting =>
    simp only [cancelSession]
    split
    · exact .of_ne (quiet_none r) (standing_cancelling hc rfl rfl)
    · exact .stay (quiet_none r)
  | removing ids =>
    cases ids with
    | nil => exact .of_ne (quiet_none r) (standing_cancelling hc rfl rfl)
    | cons requestId ids =>
      simp only [cancelSession]
      split
      · rename_i hmem
        obtain ⟨pending, hentry⟩ := Finmap.mem_iff.1 hmem
        refine take_standing none hentry nofun rfl rfl ?_
        by_cases hr : requestId = r
        · simp [held, toStage, hc, Cancel.held, hr, Multiset.add_comm]
        · simp [held, toStage, hc, Cancel.held, hr]
      · exact .of_ne (quiet_none r) (standing_cancelling hc rfl rfl)
  | sending requestId ids => exact cancel_sending hc
  | updating =>
    cases fault with
    | some error => exact .of_ne (quiet_cancelled ..) (standing_cancelling hc rfl rfl)
    | none => exact .of_ne (quiet_none r) (standing_cancelling hc rfl rfl)
  | recording =>
    cases fault with
    | some error => exact .of_ne (quiet_cancelled ..) (standing_cancelling hc rfl rfl)
    | none => exact .of_ne (quiet_broadcast ..) (standing_cancelling hc rfl rfl)
  | replying => exact .of_ne (quiet_cancelled ..) (standing_cancelling hc rfl rfl)

/-- Every step is a change of each request, up to the mishaps. -/
theorem step_standing (h : Permissions) (x : Action) (r : Uuid) :
    Change r (h.standing r) (h.step x).1 ((h.step x).2.standing r) ∨
      (Mishap r (h.standing r) (h.step x).1 ((h.step x).2.standing r) ∧
        (LateSend (permissions.fire h x) ∨ CutOff (permissions.fire h x))) := by
  cases x with
  | request requestId request fault => exact .inl (ask_standing request fault)
  | proceed requestId elapsed fault =>
    simp only [step]
    split
    · rename_i a ha
      by_cases hr : requestId = r
      · subst hr
        rcases advance_standing ha elapsed fault with hchange | ⟨hmishap, hfault, hphase⟩
        · exact .inl hchange
        · obtain ⟨error, rfl⟩ := Option.isSome_iff_exists.1 hfault
          exact .inr ⟨hmishap, .inr ⟨requestId, elapsed, error, a, rfl, ha, hphase⟩⟩
      · obtain ⟨hquiet, hsame⟩ := advance_standing_ne hr a elapsed fault
        exact .inl (.of_ne hquiet hsame)
    · exact .inl (.stay (quiet_none r))
  | decide requestId optionId => exact .inl (decide_standing optionId)
  | send requestId optionId =>
    rcases send_standing optionId with hchange | ⟨hmishap, hlate⟩
    · exact .inl hchange
    · exact .inr ⟨hmishap, .inl hlate⟩
  | cancel sessionId =>
    simp only [step]
    split
    · rename_i hnone
      refine .inl (.of_ne (quiet_none r) ?_)
      simp [standing, held, hnone, Cancel.held]
    · exact .inl (.stay (quiet_none r))
  | pursue requestIds fault =>
    simp only [step]
    split
    · rename_i c hc
      exact .inl (cancelSession_standing hc requestIds fault)
    · exact .inl (.stay (quiet_none r))

end

end LeaveCli.Acp.Permissions
