import LeaveCli.Acp.Proof.Standing

/-!
# A permission request is resolved once, and as it was decided

`Kept given told s`: how far a request has come, in the answers given to the agent, the decisions
that clients were told were taken, and its standing `s`. The steps of a run keep it up to the first
mishap, and after a mishap the request is `Spoiled`: it ends without an answer, or is cancelled
although a client was told that its option was taken.
-/

namespace LeaveCli.Acp.Permissions

open Lib LeaveCli.Core

def responses (r : Uuid) (log : List Output) : List Outcome := log.flatMap (Output.response r)

def accepted (r : Uuid) (log : List Output) : List (Option Str) := log.flatMap (Output.accepted r)

@[simp] theorem responses_concat (r : Uuid) (log : List Output) (o : Output) :
    responses r (log ++ [o]) = responses r log ++ o.response r := by
  simp [responses]

@[simp] theorem accepted_concat (r : Uuid) (log : List Output) (o : Output) :
    accepted r (log ++ [o]) = accepted r log ++ o.accepted r := by
  simp [accepted]

/-- What a request is owed, given the answers to the agent and the decisions that clients were told
were taken: one answer once its task is over, one decision at most, and an option for an answer just
when it is one of those on offer and a client was told that it was taken. -/
structure Resolved (a : Handling) (given : List Outcome) (told : List (Option Str)) : Prop where
  once : given.length ≤ 1
  answered : a.phase = .over → given.length = 1
  decidedOnce : told.length ≤ 1
  faithful : ∀ outcome ∈ given, ∀ optionId,
    outcome = .selected optionId ↔ optionId ∈ a.request.optionIds ∧ some optionId ∈ told

/-! ## The invariant -/

/-- The clients were told that `decision` was taken if it is an option. -/
structure Accounts (decision : Option Str) (a : Handling) (accepted : List (Option Str)) :
    Prop where
  iff : ∀ optionId, some optionId ∈ accepted ↔ decision = some optionId
  offered : ∀ optionId, decision = some optionId → optionId ∈ a.request.optionIds

def Handling.entry (a : Handling) : PendingPermission :=
  ⟨a.request.sessionId, a.request.optionIds⟩

/-- The request has no entry and no task yet. -/
def Phase.unregistered (phase : Phase) : Prop :=
  phase = .publishing ∨ phase = .registering ∨ phase = .denying

/-- `decision_rx` is there, and the task will read it or has just given up. -/
def Phase.listens (phase : Phase) : Prop :=
  phase = .spawning ∨ phase = .waiting ∨ phase = .elapsed

/-- Someone listens to the channel of the request: its sender is in the map, with whoever took it,
or has sent. -/
inductive Live (a : Handling) :
    List (Option Str) → Option PendingPermission → Multiset (Option Str) → Prop
  | pending : a.channel = .empty → Live a [] (some a.entry) 0
  | taken (decision : Option Str) : a.channel = .empty →
      (∀ optionId, decision = some optionId → optionId ∈ a.request.optionIds) →
      Live a [] none {decision}
  | decided (decision : Option Str) (told : List (Option Str)) : a.channel = .sent decision →
      (a.phase = .elapsed → decision = none) → Accounts decision a told → told.length ≤ 1 →
      Live a told none 0

inductive Kept : List Outcome → List (Option Str) → Standing → Prop
  | unasked : Kept [] [] ⟨none, none, 0⟩
  | unregistered (a : Handling) :
      a.phase.unregistered → a.channel = .empty → Kept [] [] ⟨some a, none, 0⟩
  | listening (a : Handling) {told : List (Option Str)} {entry : Option PendingPermission}
      {held : Multiset (Option Str)} :
      a.phase.listens → Live a told entry held → Kept [] told ⟨some a, entry, held⟩
  | settled (a : Handling) (selected : Option Str) {told : List (Option Str)}
      {entry : Option PendingPermission} {held : Multiset (Option Str)} :
      a.phase = .removing selected ∨ a.phase = .responding selected → a.channel = .closed →
      Accounts selected a told → told.length + entry.toList.length + held.card ≤ 1 →
      Kept [] told ⟨some a, entry, held⟩
  | answered (a : Handling) (selected : Option Str) {told : List (Option Str)}
      {entry : Option PendingPermission} {held : Multiset (Option Str)} :
      a.phase = .recording selected ∨ a.phase = .over → a.channel = .closed →
      Accounts selected a told → told.length + entry.toList.length + held.card ≤ 1 →
      Kept [outcome selected] told ⟨some a, entry, held⟩

theorem outcome_eq_selected {selected : Option Str} {optionId : Str} :
    outcome selected = .selected optionId ↔ selected = some optionId := by
  cases selected with
  | none => simp [outcome]
  | some o => simp [outcome]

theorem Accounts.nil (a : Handling) : Accounts none a [] := ⟨by simp, nofun⟩

theorem Accounts.single {decision : Option Str} {a : Handling}
    (hvalid : ∀ optionId, decision = some optionId → optionId ∈ a.request.optionIds) :
    Accounts decision a [decision] := by
  refine ⟨fun optionId => ?_, hvalid⟩
  rw [List.mem_singleton]
  exact eq_comm

theorem Live.length_told {a : Handling} {told : List (Option Str)}
    {entry : Option PendingPermission} {held : Multiset (Option Str)}
    (h : Live a told entry held) : told.length ≤ 1 := by
  cases h with
  | pending => simp
  | taken => simp
  | decided _ _ _ _ _ htold => exact htold

theorem Kept.resolved {given : List Outcome} {told : List (Option Str)} {s : Standing}
    {a : Handling} (h : Kept given told s) (ha : s.handling = some a) : Resolved a given told := by
  cases h with
  | unasked => cases ha
  | unregistered a hphase =>
    cases ha
    rcases hphase with hphase | hphase | hphase <;>
      exact ⟨by simp, by simp [hphase], by simp, by simp⟩
  | listening a hphase hlive =>
    cases ha
    have htold := hlive.length_told
    rcases hphase with hphase | hphase | hphase <;>
      exact ⟨by simp, by simp [hphase], htold, by simp⟩
  | settled a selected hphase _ _ htold =>
    cases ha
    refine ⟨by simp, ?_, by omega, by simp⟩
    rcases hphase with hphase | hphase <;> simp [hphase]
  | answered a selected _ _ haccounts htold =>
    cases ha
    refine ⟨by simp, by simp, by omega, ?_⟩
    intro answer hanswer optionId
    obtain rfl : answer = outcome selected := by simpa using hanswer
    rw [outcome_eq_selected, haccounts.iff]
    exact ⟨fun hselected => ⟨haccounts.offered _ hselected, hselected⟩, fun h => h.2⟩

/-! ## Steps -/

section
variable {given : List Outcome} {told : List (Option Str)} {a : Handling}
  {entry : Option PendingPermission} {held : Multiset (Option Str)}

theorem Kept.of_unregistered (h : Kept given told ⟨some a, entry, held⟩)
    (hphase : a.phase.unregistered) :
    given = [] ∧ told = [] ∧ entry = none ∧ held = 0 ∧ a.channel = .empty := by
  cases h with
  | unregistered _ _ hempty => exact ⟨rfl, rfl, rfl, rfl, hempty⟩
  | listening _ hother => rcases hphase with h | h | h <;> simp [Phase.listens, h] at hother
  | settled _ _ hother => rcases hphase with h | h | h <;> simp [h] at hother
  | answered _ _ hother => rcases hphase with h | h | h <;> simp [h] at hother

theorem Kept.of_listening (h : Kept given told ⟨some a, entry, held⟩) (hphase : a.phase.listens) :
    given = [] ∧ Live a told entry held := by
  cases h with
  | unregistered _ hother => rcases hphase with h | h | h <;> simp [Phase.unregistered, h] at hother
  | listening _ _ hlive => exact ⟨rfl, hlive⟩
  | settled _ _ hother => rcases hphase with h | h | h <;> simp [h] at hother
  | answered _ _ hother => rcases hphase with h | h | h <;> simp [h] at hother

theorem Kept.of_settled (h : Kept given told ⟨some a, entry, held⟩) {selected : Option Str}
    (hphase : a.phase = .removing selected ∨ a.phase = .responding selected) :
    given = [] ∧ a.channel = .closed ∧ Accounts selected a told ∧
      told.length + entry.toList.length + held.card ≤ 1 := by
  cases h with
  | unregistered _ hother => rcases hphase with h | h <;> simp [Phase.unregistered, h] at hother
  | listening _ hother => rcases hphase with h | h <;> simp [Phase.listens, h] at hother
  | settled _ other hother hclosed haccounts hsenders =>
    have hsame : other = selected := by
      rcases hphase with h | h <;> simpa [h, eq_comm] using hother
    subst hsame
    exact ⟨rfl, hclosed, haccounts, hsenders⟩
  | answered _ _ hother => rcases hphase with h | h <;> simp [h] at hother

theorem Kept.of_recording (h : Kept given told ⟨some a, entry, held⟩) {selected : Option Str}
    (hphase : a.phase = .recording selected) :
    given = [outcome selected] ∧ a.channel = .closed ∧ Accounts selected a told ∧
      told.length + entry.toList.length + held.card ≤ 1 := by
  cases h with
  | unregistered _ hother => simp [Phase.unregistered, hphase] at hother
  | listening _ hother => simp [Phase.listens, hphase] at hother
  | settled _ _ hother => simp [hphase] at hother
  | answered _ other hother hclosed haccounts hsenders =>
    have hsame : other = selected := by simpa [hphase, eq_comm] using hother
    subst hsame
    exact ⟨rfl, hclosed, haccounts, hsenders⟩

/-- A channel that takes a decision: a listening task, and one sender. -/
theorem Kept.of_sender {decision : Option Str} {senders : Multiset (Option Str)}
    (h : Kept given told ⟨some a, entry, senders⟩) (hsenders : senders = decision ::ₘ held)
    (hempty : a.channel = .empty) :
    a.phase.listens ∧ given = [] ∧ told = [] ∧ entry = none ∧ held = 0 ∧
      ∀ optionId, decision = some optionId → optionId ∈ a.request.optionIds := by
  cases h with
  | unregistered => exact absurd hsenders (Multiset.zero_ne_cons)
  | listening _ hphase hlive =>
    cases hlive with
    | pending => exact absurd hsenders (Multiset.zero_ne_cons)
    | taken other _ hvalid =>
      obtain ⟨rfl, rfl⟩ := (Multiset.singleton_eq_cons_iff _).1 hsenders
      exact ⟨hphase, rfl, rfl, rfl, rfl, hvalid⟩
    | decided => exact absurd hsenders (Multiset.zero_ne_cons)
  | settled _ _ _ hclosed => simp [hempty] at hclosed
  | answered _ _ _ hclosed => simp [hempty] at hclosed

/-- A sender that finds nobody listening is spent. -/
theorem Kept.spent {handling : Option Handling} {decision : Option Str}
    {senders : Multiset (Option Str)} (h : Kept given told ⟨handling, entry, senders⟩)
    (hsenders : senders = decision ::ₘ held)
    (hfull : ∀ a, handling = some a → a.channel ≠ .empty) :
    Kept given told ⟨handling, entry, held⟩ := by
  cases h with
  | unasked => exact absurd hsenders Multiset.zero_ne_cons
  | unregistered => exact absurd hsenders Multiset.zero_ne_cons
  | listening a hphase hlive =>
    cases hlive with
    | pending hempty => exact absurd hempty (hfull a rfl)
    | taken other hempty => exact absurd hempty (hfull a rfl)
    | decided => exact absurd hsenders Multiset.zero_ne_cons
  | settled a selected hphase hclosed haccounts hle =>
    subst hsenders
    rw [Multiset.card_cons] at hle
    exact .settled a selected hphase hclosed haccounts (by omega)
  | answered a selected hphase hclosed haccounts hle =>
    subst hsenders
    rw [Multiset.card_cons] at hle
    exact .answered a selected hphase hclosed haccounts (by omega)

theorem Live.empty_of_mem (h : Live a told entry held) {decision : Option Str}
    (hmem : decision ∈ held) : a.channel = .empty := by
  cases h with
  | pending hempty => exact hempty
  | taken _ hempty => exact hempty
  | decided => simp at hmem

theorem Live.proceed (h : Live a told entry held) {phase : Phase}
    (hphase : phase ≠ .elapsed) : Live { a with phase } told entry held := by
  cases h with
  | pending hempty => exact .pending hempty
  | taken d hempty hvalid => exact .taken d hempty hvalid
  | decided d told hsent _ haccounts htold =>
    exact .decided d told hsent (fun h => absurd h hphase) ⟨haccounts.iff, haccounts.offered⟩ htold

end

theorem Kept.step {r : Uuid} {given : List Outcome} {told : List (Option Str)} {s s' : Standing}
    {o : Output} (h : Kept given told s) (hchange : Change r s o s') :
    Kept (given ++ o.response r) (told ++ o.accepted r) s' := by
  cases hchange with
  | stay hquiet =>
    rw [hquiet.1, hquiet.2, List.append_nil, List.append_nil]
    exact h
  | ask request =>
    cases h with
    | unasked => exact .unregistered _ (.inl rfl) rfl
  | refuse request =>
    cases h with
    | unasked => exact .unregistered _ (.inr (.inr rfl)) rfl
  | publish payload hphase =>
    obtain ⟨rfl, rfl, rfl, rfl, hempty⟩ := h.of_unregistered (.inl hphase)
    exact .unregistered _ (.inr (.inl rfl)) hempty
  | deny hphase =>
    obtain ⟨rfl, rfl, rfl, rfl, hempty⟩ := h.of_unregistered (.inl hphase)
    exact .unregistered _ (.inr (.inr rfl)) hempty
  | reject hphase =>
    obtain ⟨rfl, rfl, rfl, rfl, -⟩ := h.of_unregistered (.inr (.inr hphase))
    simp only [Output.response, Output.accepted, if_pos, List.append_nil, List.nil_append]
    exact .answered _ none (.inr rfl) rfl (.nil _) (by simp)
  | register hphase =>
    obtain ⟨rfl, rfl, rfl, rfl, hempty⟩ := h.of_unregistered (.inr (.inl hphase))
    exact .listening _ (.inl rfl) (.pending hempty)
  | spawn hphase =>
    obtain ⟨rfl, hlive⟩ := h.of_listening (.inl hphase)
    simp only [Output.response, Output.accepted, List.append_nil]
    exact .listening _ (.inr (.inl rfl)) (hlive.proceed nofun)
  | receive decision hphase hchannel =>
    obtain ⟨rfl, hlive⟩ := h.of_listening (.inr (.inl hphase))
    simp only [Output.response, Output.accepted, List.append_nil]
    cases hlive with
    | pending hempty => simp [hchannel] at hempty
    | taken _ hempty => simp [hchannel] at hempty
    | decided d _ hsent _ haccounts htold =>
      obtain rfl : decision = d := by simpa [hchannel] using hsent
      exact .settled _ decision (.inl rfl) rfl ⟨haccounts.iff, haccounts.offered⟩ (by simpa)
  | elapse hphase hempty =>
    obtain ⟨rfl, hlive⟩ := h.of_listening (.inr (.inl hphase))
    simp only [Output.response, Output.accepted, List.append_nil]
    refine .listening _ (.inr (.inr rfl)) ?_
    cases hlive with
    | pending hempty => exact .pending hempty
    | taken d hempty hvalid => exact .taken d hempty hvalid
    | decided d _ hsent => exact absurd hsent (hempty d)
  | drop hphase =>
    obtain ⟨rfl, hlive⟩ := h.of_listening (.inr (.inr hphase))
    simp only [Output.response, Output.accepted, List.append_nil]
    cases hlive with
    | pending => exact .settled _ none (.inl rfl) rfl (.nil _) (by simp)
    | taken => exact .settled _ none (.inl rfl) rfl (.nil _) (by simp)
    | decided d _ _ hintime haccounts htold =>
      obtain rfl := hintime hphase
      exact .settled _ none (.inl rfl) rfl ⟨haccounts.iff, haccounts.offered⟩ (by simpa)
  | remove selected hphase =>
    obtain ⟨rfl, hclosed, haccounts, hsenders⟩ := h.of_settled (.inl hphase)
    simp only [Output.response, Output.accepted, List.append_nil]
    exact .settled _ selected (.inr rfl) hclosed ⟨haccounts.iff, haccounts.offered⟩
      (by simp only [Option.toList_none, List.length_nil]; omega)
  | respond selected hphase =>
    obtain ⟨rfl, hclosed, haccounts, hsenders⟩ := h.of_settled (.inr hphase)
    simp only [Output.response, Output.accepted, if_pos, List.append_nil, List.nil_append]
    exact .answered _ selected (.inl rfl) hclosed ⟨haccounts.iff, haccounts.offered⟩ hsenders
  | record selected hphase hquiet =>
    obtain ⟨rfl, hclosed, haccounts, hsenders⟩ := h.of_recording hphase
    rw [hquiet.1, hquiet.2, List.append_nil, List.append_nil]
    exact .answered _ selected (.inr rfl) rfl ⟨haccounts.iff, haccounts.offered⟩ hsenders
  | take pending decision hvalid =>
    simp only [Output.response, Output.accepted, List.append_nil]
    cases h with
    | listening a hphase hlive =>
      cases hlive with
      | pending hempty => exact .listening a hphase (.taken decision hempty hvalid)
    | settled a selected hphase hclosed haccounts hsenders =>
      refine .settled a selected hphase hclosed haccounts ?_
      simp only [Option.toList_some, List.length_singleton, Option.toList_none, List.length_nil,
        Multiset.card_cons] at hsenders ⊢
      omega
    | answered a selected hphase hclosed haccounts hsenders =>
      refine .answered a selected hphase hclosed haccounts ?_
      simp only [Option.toList_some, List.length_singleton, Option.toList_none, List.length_nil,
        Multiset.card_cons] at hsenders ⊢
      omega
  | send decision hempty hintime =>
    obtain ⟨hphase, rfl, rfl, rfl, rfl, hvalid⟩ := h.of_sender rfl hempty
    simp only [Output.response, Output.accepted, if_pos, List.append_nil, List.nil_append]
    exact .listening _ hphase (.decided decision _ rfl hintime (.single hvalid) (by simp))
  | cancel hempty =>
    obtain ⟨hphase, rfl, rfl, rfl, rfl, -⟩ := h.of_sender rfl hempty
    exact .listening _ hphase (.decided none [] rfl (fun _ => rfl) (.nil _) (by simp))
  | fail decision hfull hquiet =>
    rw [hquiet.1, hquiet.2, List.append_nil, List.append_nil]
    exact h.spent rfl hfull

/-! ## After a mishap -/

/-- The task that will answer, or has answered, with `Cancelled`. -/
def Handling.lapsed (a : Handling) : Prop :=
  a.phase = .elapsed ∨ a.phase = .removing none ∨ a.phase = .responding none ∨
    a.phase = .recording none ∨ a.phase = .over

/-- The task is over and never answered, or answers `Cancelled` although a client was told that its
option was taken. -/
inductive Spoiled (given : List Outcome) (told : List (Option Str)) (s : Standing) : Prop
  | silent (a : Handling) : s.handling = some a → a.phase = .over → given = [] →
      Spoiled given told s
  | betrayed (a : Handling) (optionId : Str) : s.handling = some a → a.lapsed →
      optionId ∈ a.request.optionIds → some optionId ∈ told →
      (∀ outcome ∈ given, outcome = .cancelled) → Spoiled given told s

theorem Spoiled.not_resolved {given : List Outcome} {told : List (Option Str)} {s : Standing}
    (h : Spoiled given told s) (hover : ∀ a, s.handling = some a → a.phase = .over) :
    ∃ a, s.handling = some a ∧ ¬ Resolved a given told := by
  cases h with
  | silent a ha hphase hgiven =>
    refine ⟨a, ha, fun hresolved => ?_⟩
    have hone := hresolved.answered hphase
    simp [hgiven] at hone
  | betrayed a optionId ha hlapsed hoffered htold hgiven =>
    refine ⟨a, ha, fun hresolved => ?_⟩
    obtain ⟨outcome, hone⟩ := List.length_eq_one_iff.1 (hresolved.answered (hover a ha))
    have hcancelled := hgiven outcome (by simp [hone])
    have hselected := (hresolved.faithful outcome (by simp [hone]) optionId).2 ⟨hoffered, htold⟩
    simp [hcancelled] at hselected

theorem Kept.spoiled {r : Uuid} {given : List Outcome} {told : List (Option Str)} {s s' : Standing}
    {o : Output} (h : Kept given told s) (hmishap : Mishap r s o s') :
    Spoiled (given ++ o.response r) (told ++ o.accepted r) s' := by
  cases hmishap with
  | late optionId hphase hempty =>
    obtain ⟨-, rfl, rfl, rfl, rfl, hvalid⟩ := h.of_sender rfl hempty
    exact .betrayed _ optionId rfl (.inl hphase) (hvalid optionId rfl)
      (by simp [Output.accepted]) (by simp [Output.response])
  | cut hphase =>
    rcases hphase with hphase | hphase | ⟨selected, hphase⟩
    · obtain ⟨rfl, -⟩ := h.of_unregistered (.inr (.inr hphase))
      exact .silent _ rfl rfl rfl
    · obtain ⟨rfl, -⟩ := h.of_listening (.inl hphase)
      exact .silent _ rfl rfl rfl
    · obtain ⟨rfl, -⟩ := h.of_settled (.inr hphase)
      exact .silent _ rfl rfl rfl

/-- A task that is over stays over and answers nothing. -/
theorem over_step {r : Uuid} {s s' : Standing} {o : Output} {a : Handling}
    (hstep : Change r s o s' ∨ Mishap r s o s') (ha : s.handling = some a)
    (hover : a.phase = .over) :
    (∃ a', s'.handling = some a' ∧ a'.phase = .over) ∧ o.response r = [] := by
  rcases hstep with hchange | hmishap
  · cases hchange with
    | stay hquiet => exact ⟨⟨a, ha, hover⟩, hquiet.1⟩
    | take => exact ⟨⟨a, ha, hover⟩, rfl⟩
    | fail _ _ hquiet => exact ⟨⟨a, ha, hover⟩, hquiet.1⟩
    | send => cases ha; exact ⟨⟨_, rfl, hover⟩, rfl⟩
    | cancel => cases ha; exact ⟨⟨_, rfl, hover⟩, rfl⟩
    | _ => cases ha <;> simp_all
  · cases hmishap <;> cases ha <;> simp_all [Phase.connects]

/-- A task that has given up goes on to answer `Cancelled`. -/
theorem lapsed_step {r : Uuid} {s s' : Standing} {o : Output} {a : Handling}
    (hstep : Change r s o s' ∨ Mishap r s o s') (ha : s.handling = some a) (hlapsed : a.lapsed) :
    (∃ a', s'.handling = some a' ∧ a'.lapsed ∧ a'.request = a.request) ∧
      ∀ outcome ∈ o.response r, outcome = .cancelled := by
  rcases hstep with hchange | hmishap
  · cases hchange with
    | stay hquiet => exact ⟨⟨a, ha, hlapsed, rfl⟩, by simp [hquiet.1]⟩
    | take => exact ⟨⟨a, ha, hlapsed, rfl⟩, by simp [Output.response]⟩
    | fail _ _ hquiet => exact ⟨⟨a, ha, hlapsed, rfl⟩, by simp [hquiet.1]⟩
    | send => cases ha; exact ⟨⟨_, rfl, hlapsed, rfl⟩, by simp [Output.response]⟩
    | cancel => cases ha; exact ⟨⟨_, rfl, hlapsed, rfl⟩, by simp [Output.response]⟩
    | drop => cases ha; exact ⟨⟨_, rfl, .inr (.inl rfl), rfl⟩, by simp [Output.response]⟩
    | remove selected hphase =>
      cases ha
      obtain rfl : selected = none := by simpa [Handling.lapsed, hphase] using hlapsed
      exact ⟨⟨_, rfl, .inr (.inr (.inl rfl)), rfl⟩, by simp [Output.response]⟩
    | respond selected hphase =>
      cases ha
      obtain rfl : selected = none := by simpa [Handling.lapsed, hphase] using hlapsed
      exact ⟨⟨_, rfl, .inr (.inr (.inr (.inl rfl))), rfl⟩, by simp [Output.response, outcome]⟩
    | record selected hphase hquiet =>
      cases ha
      exact ⟨⟨_, rfl, .inr (.inr (.inr (.inr rfl))), rfl⟩, by simp [hquiet.1]⟩
    | _ => cases ha <;> simp_all [Handling.lapsed]
  · cases hmishap with
    | late => cases ha; exact ⟨⟨_, rfl, hlapsed, rfl⟩, by simp [Output.response]⟩
    | cut =>
      cases ha
      exact ⟨⟨_, rfl, .inr (.inr (.inr (.inr rfl))), rfl⟩, by simp [Output.response]⟩

theorem Spoiled.step {r : Uuid} {given : List Outcome} {told : List (Option Str)}
    {s s' : Standing} {o : Output} (h : Spoiled given told s)
    (hstep : Change r s o s' ∨ Mishap r s o s') :
    Spoiled (given ++ o.response r) (told ++ o.accepted r) s' := by
  cases h with
  | silent a ha hover hgiven =>
    obtain ⟨⟨a', ha', hover'⟩, hquiet⟩ := over_step hstep ha hover
    exact .silent a' ha' hover' (by simp [hgiven, hquiet])
  | betrayed a optionId ha hlapsed hoffered htold hgiven =>
    obtain ⟨⟨a', ha', hlapsed', hrequest⟩, hcancelled⟩ := lapsed_step hstep ha hlapsed
    refine .betrayed a' optionId ha' hlapsed' (hrequest ▸ hoffered) (by simp [htold]) ?_
    intro outcome houtcome
    rcases List.mem_append.1 houtcome with houtcome | houtcome
    · exact hgiven outcome houtcome
    · exact hcancelled outcome houtcome

/-! ## Runs -/

/-- No option is sent to a request after its time, and the connection stays open to the tasks. -/
def Timely (t : Transition Permissions Action Output) : Prop := ¬ LateSend t ∧ ¬ CutOff t

/-- Every request stands as the outputs so far say. -/
def AllKept (log : List Output) (h : Permissions) : Prop :=
  ∀ r, Kept (responses r log) (accepted r log) (h.standing r)

theorem allKept_step (log : List Output) (h : Permissions) (x : Action) (hI : AllKept log h)
    (htimely : Timely (permissions.fire h x)) :
    AllKept (log ++ [(h.step x).1]) (h.step x).2 := by
  intro r
  rw [responses_concat, accepted_concat]
  rcases step_standing h x r with hchange | ⟨-, hlate | hcut⟩
  · exact (hI r).step hchange
  · exact absurd hlate htimely.1
  · exact absurd hcut htimely.2

/-- A late send or a closed connection is a mishap of some request. -/
theorem exists_mishap {log : List Output} {h : Permissions} {x : Action} (hI : AllKept log h)
    (huntimely : ¬ Timely (permissions.fire h x)) :
    ∃ r, Mishap r (h.standing r) (h.step x).1 ((h.step x).2.standing r) := by
  rw [Timely, not_and_or, not_not, not_not] at huntimely
  rcases huntimely with ⟨r, optionId, a, rfl, hcall, ha, hphase⟩ |
    ⟨r, elapsed, error, a, rfl, ha, hphase⟩
  · change (r, some optionId) ∈ h.deciding at hcall
    change h.requests.lookup r = some a at ha
    have hempty : a.channel = .empty := by
      have hkept := hI r
      rw [standing_of_lookup ha] at hkept
      exact (hkept.of_listening (.inr (.inr hphase))).2.empty_of_mem (mem_held hcall)
    obtain ⟨held, hbefore, hoks, hafter⟩ := send_empty hcall ha hempty
    refine ⟨r, ?_⟩
    show Mishap r _ (h.send r (some optionId)).1 ((h.send r (some optionId)).2.standing r)
    rw [hbefore, hoks, hafter]
    exact .late optionId hphase hempty
  · change h.requests.lookup r = some a at ha
    refine ⟨r, ?_⟩
    simp only [step, ha]
    exact advance_cut ha hphase elapsed error

/-- A run in which every step is timely keeps every request; one in which a step is not spoils a
request. -/
theorem run_kept_or_spoiled (actions : List Action) :
    ((∀ t ∈ permissions.run fresh actions, Timely t) ∧
      AllKept (permissions.outputs fresh actions) (permissions.final fresh actions)) ∨
    ((¬ ∀ t ∈ permissions.run fresh actions, Timely t) ∧
      ∃ r, Spoiled (responses r (permissions.outputs fresh actions))
        (accepted r (permissions.outputs fresh actions))
        ((permissions.final fresh actions).standing r)) := by
  have hfresh : AllKept [] fresh := fun r => .unasked
  refine Machine.history_cases
    (B := fun log h => ∃ r, Spoiled (responses r log) (accepted r log) (h.standing r))
    allKept_step ?_ ?_ hfresh actions
  · intro log h x hI huntimely
    obtain ⟨r, hmishap⟩ := exists_mishap hI huntimely
    refine ⟨r, ?_⟩
    rw [responses_concat, accepted_concat]
    exact (hI r).spoiled hmishap
  · intro log h x hcase
    obtain ⟨r, hspoiled⟩ := hcase
    refine ⟨r, ?_⟩
    rw [responses_concat, accepted_concat]
    exact hspoiled.step ((step_standing h x r).imp_right And.left)

/-! ## Every request is answered -/

/-- How many steps a request is from its end. -/
def Phase.rank : Phase → Nat
  | .publishing => 8
  | .denying => 1
  | .registering => 7
  | .spawning => 6
  | .waiting => 5
  | .elapsed => 4
  | .removing _ => 3
  | .responding _ => 2
  | .recording _ => 1
  | .over => 0

/-- The handler or the task of `r` runs, when the timer has run out. -/
def Action.schedules (r : Uuid) : Action → Bool
  | .proceed requestId elapsed _ => requestId = r && elapsed
  | _ => false

theorem rank_eq_zero {phase : Phase} (h : phase.rank = 0) : phase = .over := by
  cases phase <;> first | rfl | cases h

/-- No step takes a request back, or changes what was asked. -/
theorem handling_step {r : Uuid} {s s' : Standing} {o : Output} {a : Handling}
    (hstep : Change r s o s' ∨ Mishap r s o s') (ha : s.handling = some a) :
    ∃ a', s'.handling = some a' ∧ a'.request = a.request ∧ a'.phase.rank ≤ a.phase.rank := by
  rcases hstep with hchange | hmishap
  · cases hchange with
    | stay => exact ⟨a, ha, rfl, le_rfl⟩
    | take => exact ⟨a, ha, rfl, le_rfl⟩
    | fail => exact ⟨a, ha, rfl, le_rfl⟩
    | ask => cases ha
    | refuse => cases ha
    | send => cases ha; exact ⟨_, rfl, rfl, le_rfl⟩
    | cancel => cases ha; exact ⟨_, rfl, rfl, le_rfl⟩
    | reject => cases ha; exact ⟨_, rfl, rfl, Nat.zero_le _⟩
    | record => cases ha; exact ⟨_, rfl, rfl, Nat.zero_le _⟩
    | _ =>
      rename_i hphase _
      cases ha
      exact ⟨_, rfl, rfl, by simp [Phase.rank, *]⟩
  · cases hmishap with
    | late => cases ha; exact ⟨_, rfl, rfl, le_rfl⟩
    | cut => cases ha; exact ⟨_, rfl, rfl, Nat.zero_le _⟩

theorem rank_step {r : Uuid} {s s' : Standing} {o : Output} {a : Handling}
    (hstep : Change r s o s' ∨ Mishap r s o s') (ha : s.handling = some a) :
    ∃ a', s'.handling = some a' ∧ a'.phase.rank ≤ a.phase.rank := by
  obtain ⟨a', ha', -, hle⟩ := handling_step hstep ha
  exact ⟨a', ha', hle⟩

/-- A handler or a task that runs when the timer has run out takes its request further. -/
theorem rank_advance {h : Permissions} {r : Uuid} {a : Handling}
    (ha : h.requests.lookup r = some a) (fault : Option Str) :
    ∃ a', (h.advance r a true fault).2.requests.lookup r = some a' ∧
      a'.phase.rank ≤ a.phase.rank - 1 := by
  have hset : ∀ (h : Permissions) (a : Handling), (h.set r a).requests.lookup r = some a :=
    fun h a => Finmap.lookup_insert _
  unfold advance
  split
  · rename_i hphase
    cases fault <;> exact ⟨_, hset _ _, by simp [Phase.rank, hphase]⟩
  · exact ⟨_, hset _ _, by simp [Phase.rank, Handling.ended]⟩
  · rename_i hphase
    exact ⟨_, hset _ _, by simp [Phase.rank, hphase]⟩
  · rename_i hphase
    cases fault <;> exact ⟨_, hset _ _, by simp [Phase.rank, hphase, Handling.ended]⟩
  · rename_i hphase
    split
    · exact ⟨_, hset _ _, by simp [Phase.rank, hphase]⟩
    · exact ⟨_, hset _ _, by simp [Phase.rank, hphase]⟩
  · rename_i hphase
    exact ⟨_, hset _ _, by simp [Phase.rank, hphase]⟩
  · rename_i hphase
    exact ⟨_, hset _ _, by simp [Phase.rank, hphase]⟩
  · rename_i hphase
    cases fault <;> exact ⟨_, hset _ _, by simp [Phase.rank, hphase, Handling.ended]⟩
  · exact ⟨_, hset _ _, by simp [Phase.rank, Handling.ended]⟩
  · rename_i hphase
    exact ⟨a, ha, by simp [Phase.rank, hphase]⟩

/-- A request that is scheduled often enough comes to its end, whatever else happens. -/
theorem over_of_scheduled {h : Permissions} {r : Uuid} {a : Handling}
    (ha : h.requests.lookup r = some a) (actions : List Action)
    (hcount : a.phase.rank ≤ actions.countP (Action.schedules r)) :
    ∃ a', (permissions.final h actions).requests.lookup r = some a' ∧ a'.phase = .over := by
  induction actions generalizing h a with
  | nil => exact ⟨a, ha, rank_eq_zero (by simpa using hcount)⟩
  | cons x actions ih =>
    show ∃ a', (permissions.final (h.step x).2 actions).requests.lookup r = some a' ∧ _
    rw [List.countP_cons] at hcount
    by_cases hscheduled : x.schedules r
    · obtain ⟨a', ha', hrank⟩ : ∃ a', (h.step x).2.requests.lookup r = some a' ∧
          a'.phase.rank ≤ a.phase.rank - 1 := by
        cases x with
        | proceed requestId elapsed fault =>
          simp only [Action.schedules, Bool.and_eq_true, decide_eq_true_eq] at hscheduled
          obtain ⟨rfl, rfl⟩ := hscheduled
          simpa only [step, ha] using rank_advance ha fault
        | _ => simp [Action.schedules] at hscheduled
      rw [if_pos hscheduled] at hcount
      exact ih ha' (by omega)
    · obtain ⟨a', ha', hrank⟩ := rank_step ((step_standing h x r).imp_right And.left) ha
      rw [if_neg hscheduled] at hcount
      exact ih ha' (by omega)

/-- In every run whose steps are all timely, every request gets one answer at most and the one its
decisions call for, and gets it once its handler and task have run often enough; a run that leaves
no request open and does right by all of them has only timely steps. -/
theorem permissions_resolved (actions : List Action) :
    ((∀ t ∈ permissions.run fresh actions, Timely t) →
      ∀ r a, (permissions.final fresh actions).requests.lookup r = some a →
        Resolved a (responses r (permissions.outputs fresh actions))
          (accepted r (permissions.outputs fresh actions)) ∧
        ∀ more, 8 ≤ more.countP (Action.schedules r) → ∃ a',
          (permissions.final (permissions.final fresh actions) more).requests.lookup r = some a' ∧
            a'.phase = .over) ∧
    ((∀ r a, (permissions.final fresh actions).requests.lookup r = some a → a.phase = .over) →
      (∀ r a, (permissions.final fresh actions).requests.lookup r = some a →
        Resolved a (responses r (permissions.outputs fresh actions))
          (accepted r (permissions.outputs fresh actions))) →
      ∀ t ∈ permissions.run fresh actions, Timely t) := by
  rcases run_kept_or_spoiled actions with ⟨htimely, hkept⟩ | ⟨huntimely, r, hspoiled⟩
  · refine ⟨fun _ r a ha => ⟨(hkept r).resolved ha, fun more hmore => ?_⟩, fun _ _ => htimely⟩
    have hrank : a.phase.rank ≤ 8 := by cases a.phase <;> simp [Phase.rank]
    exact over_of_scheduled ha more (hrank.trans hmore)
  · refine ⟨fun htimely => absurd htimely huntimely, fun hover hresolved => ?_⟩
    obtain ⟨a, ha, hnot⟩ := hspoiled.not_resolved (hover r)
    exact absurd (hresolved r a ha) hnot

def allow : Str := "allow"

/-- A client allows the request when a poll has found its time run out, and the task, which drops
its receiver only then, cancels it. -/
def lateDecision : List Action :=
  [.request 1 ⟨"session", [allow]⟩ none, .proceed 1 false none, .proceed 1 false none,
    .proceed 1 false none, .proceed 1 true none, .decide 1 (some allow),
    .send 1 (some allow), .proceed 1 true none, .proceed 1 true none, .proceed 1 true none,
    .proceed 1 true none]

theorem late_decision_cancelled :
    accepted 1 (permissions.outputs fresh lateDecision) = [some allow] ∧
    responses 1 (permissions.outputs fresh lateDecision) = [.cancelled] ∧
    ¬ ∀ r a, (permissions.final fresh lateDecision).requests.lookup r = some a →
      Resolved a (responses r (permissions.outputs fresh lateDecision))
        (accepted r (permissions.outputs fresh lateDecision)) := by
  have htold : accepted 1 (permissions.outputs fresh lateDecision) = [some allow] := by decide
  have hgiven : responses 1 (permissions.outputs fresh lateDecision) = [.cancelled] := by decide
  have hover : (permissions.final fresh lateDecision).requests.lookup 1 =
      some ⟨⟨"session", [allow]⟩, .over, .closed⟩ := by decide
  refine ⟨htold, hgiven, fun hresolved => ?_⟩
  have hfaithful := (hresolved 1 _ hover).faithful .cancelled (by rw [hgiven]; simp) allow
  rw [htold] at hfaithful
  simp at hfaithful

end LeaveCli.Acp.Permissions
