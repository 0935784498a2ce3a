import LeaveCli.Core.Database

/-!
# What a statement for one workspace does to another

`SameFor workspaceId` says that nothing a reader of that workspace can ask for has changed. The
reads of a workspace only look at its own rows (`SameFor.of_rows`), and all statements but one only
write rows of the workspace they are for. The exception is `upsertSession`: sessions are keyed by
the identifier alone, so the row it updates may belong to another workspace, which then loses it.
-/

namespace LeaveCli.Core.Tables

open Lib

/-- The reads of a workspace return the same in both databases. -/
structure SameFor (workspaceId : Uuid) (t t' : Tables) : Prop where
  listSessions : t'.listSessions workspaceId = t.listSessions workspaceId
  getSession : ∀ sessionId, t'.getSession workspaceId sessionId = t.getSession workspaceId sessionId
  eventsAfter : ∀ after limit,
    t'.eventsAfter workspaceId after limit = t.eventsAfter workspaceId after limit
  sessionEventsAfter : ∀ sessionId after limit,
    t'.sessionEventsAfter workspaceId sessionId after limit =
      t.sessionEventsAfter workspaceId sessionId after limit
  workspace : t'.workspace workspaceId = t.workspace workspaceId

/-- The workspace a statement is for; the other two take no workspace. -/
def Statement.workspaceId : Statement → Option Uuid
  | .upsertWorkspace workspace => some workspace.id
  | .removeWorkspace id => some id
  | .upsertSession session => some session.workspaceId
  | .updateSessionState _ _ _ => none
  | .markWorkspaceSessionsOffline workspaceId => some workspaceId
  | .claimCommand _ _ => none
  | .appendEvent _ _ workspaceId _ _ _ => some workspaceId

/-- The statement writes a session of a registered workspace whose identifier is already that of a
session of `workspaceId`. -/
def Statement.Takes (t : Tables) (workspaceId : Uuid) : Statement → Prop
  | .upsertSession session => t.registered session.workspaceId ∧
      ∃ row ∈ t.sessions, row.sessionId = session.sessionId ∧ row.workspaceId = workspaceId
  | _ => False

variable {t t' : Tables} {workspaceId : Uuid}

/-- The reads of a workspace look at its own rows only. -/
theorem SameFor.of_rows
    (hsessions : t'.sessions.filter (fun row => row.workspaceId = workspaceId) =
      t.sessions.filter fun row => row.workspaceId = workspaceId)
    (hevents : t'.events.filter (fun row => row.workspaceId = workspaceId) =
      t.events.filter fun row => row.workspaceId = workspaceId)
    (hworkspaces : t'.workspaces.filter (fun row => row.id = workspaceId) =
      t.workspaces.filter fun row => row.id = workspaceId) : SameFor workspaceId t t' := by
  have hgroup : ∀ (t : Tables) (p : EventRow → Bool),
      t.events.filter (fun row => row.workspaceId = workspaceId ∧ p row) =
        (t.events.filter fun row => row.workspaceId = workspaceId).filter p := by
    intro t p
    rw [List.filter_filter]
    exact List.filter_congr fun row _ => by simp [Bool.and_comm]
  constructor
  · rw [Tables.listSessions, hsessions, Tables.listSessions]
  · intro sessionId
    have hfind : ∀ t : Tables, t.getSession workspaceId sessionId =
        (t.sessions.filter fun row => row.workspaceId = workspaceId).find?
          fun row => row.sessionId = sessionId := by
      intro t
      simp [Tables.getSession, List.find?_filter]
    rw [hfind, hsessions, ← hfind]
  · intro after limit
    have hcut : ∀ t : Tables, t.eventsAfter workspaceId after limit =
        page limit ((t.events.filter fun row => row.workspaceId = workspaceId).filter
          fun row => after < row.sequence) := by
      intro t
      rw [← hgroup]
      simp [Tables.eventsAfter]
    rw [hcut, hevents, ← hcut]
  · intro sessionId after limit
    have hcut : ∀ t : Tables, t.sessionEventsAfter workspaceId sessionId after limit =
        page limit ((t.events.filter fun row => row.workspaceId = workspaceId).filter
          fun row => row.sessionId = some sessionId ∧ after < row.sequence) := by
      intro t
      rw [← hgroup]
      simp [Tables.sessionEventsAfter]
    rw [hcut, hevents, ← hcut]
  · rw [Tables.workspace, Tables.workspace, ← List.head?_filter, hworkspaces, List.head?_filter]

theorem SameFor.refl (workspaceId : Uuid) (t : Tables) : SameFor workspaceId t t :=
  .of_rows rfl rfl rfl

/-- A statement that does not take a session of another workspace leaves that workspace alone. -/
theorem sameFor_of_not_takes {statement : Statement} {w : Uuid}
    (hw : statement.workspaceId = some w) (hne : w ≠ workspaceId)
    (htakes : ¬ statement.Takes t workspaceId) : SameFor workspaceId t (t.run statement) := by
  cases statement with
  | upsertWorkspace workspace =>
    obtain rfl : workspace.id = w := Option.some.inj hw
    simp only [run]
    unfold Tables.upsertWorkspace
    split
    · exact .refl workspaceId t
    · refine .of_rows rfl rfl (Table.filter_upsert (decide_eq_false hne) ?_)
      intro row _ hid
      exact ⟨by simpa [hid] using hne, by simpa using hne⟩
  | removeWorkspace id =>
    obtain rfl : id = w := Option.some.inj hw
    have hkept : ∀ {α : Type} (key : α → Uuid) (rows : List α),
        (rows.filter fun row => key row ≠ id).filter (fun row => key row = workspaceId) =
          rows.filter fun row => key row = workspaceId := by
      intro α key rows
      rw [List.filter_filter]
      refine List.filter_congr fun row _ => ?_
      by_cases hkey : key row = workspaceId
      · simp [hkey, hne.symm]
      · simp [hkey]
    exact .of_rows (hkept _ _) (hkept _ _) (hkept _ _)
  | upsertSession session =>
    obtain rfl : session.workspaceId = w := Option.some.inj hw
    simp only [run]
    unfold Tables.upsertSession
    split
    · rename_i hreg
      refine .of_rows (Table.filter_upsert (decide_eq_false hne) ?_) rfl rfl
      intro row hrow hid
      have hkeeps : row.workspaceId ≠ workspaceId := fun h => htakes ⟨hreg, row, hrow, hid, h⟩
      exact ⟨by simpa using hkeeps, decide_eq_false hne⟩
    · exact .refl workspaceId t
  | updateSessionState sessionId state now => cases hw
  | markWorkspaceSessionsOffline workspace =>
    obtain rfl : workspace = w := Option.some.inj hw
    refine .of_rows (Table.filter_map_of_fixed ?_ ?_) rfl rfl
    · intro row _
      split <;> rfl
    · intro row _ hrow
      apply if_neg
      intro h
      exact hne (h.symm.trans (by simpa using hrow))
  | claimCommand commandId now => cases hw
  | appendEvent eventId now workspace sessionId kind payload =>
    obtain rfl : workspace = w := Option.some.inj hw
    simp only [run]
    unfold Tables.appendEvent
    repeat' split
    · exact .refl workspaceId t
    · exact .refl workspaceId t
    · refine .of_rows rfl ?_ rfl
      show (t.events ++ [_]).filter _ = _
      rw [List.filter_append, List.filter_singleton]
      simp [hne]
    · exact .refl workspaceId t

/-- A session another workspace takes can no longer be found. -/
theorem not_sameFor_of_takes {statement : Statement} {w : Uuid}
    (hw : statement.workspaceId = some w) (hne : w ≠ workspaceId)
    (htakes : statement.Takes t workspaceId) : ¬ SameFor workspaceId t (t.run statement) := by
  cases statement with
  | upsertSession session =>
    obtain rfl : session.workspaceId = w := Option.some.inj hw
    obtain ⟨hreg, row, hrow, hid, hworkspace⟩ := htakes
    intro hsame
    have hbefore : (t.getSession workspaceId session.sessionId).isSome := by
      rw [Tables.getSession, List.find?_isSome]
      exact ⟨row, hrow, by simp [hid, hworkspace]⟩
    rw [← hsame.getSession, Tables.getSession, List.find?_isSome] at hbefore
    obtain ⟨after, hafter, hfound⟩ := hbefore
    rw [decide_eq_true_eq] at hfound
    obtain ⟨hmine, hkey⟩ := hfound
    simp only [run, Tables.upsertSession, if_pos hreg] at hafter
    have hany : t.sessions.any (fun r => r.sessionId = session.sessionId) = true :=
      List.any_eq_true.2 ⟨row, hrow, by simpa using hid⟩
    replace hafter : after ∈ Table.upsert SessionRow.sessionId (excludedSession session) session
        t.sessions := hafter
    rw [Table.upsert, if_pos hany] at hafter
    obtain ⟨old, -, rfl⟩ := List.mem_map.1 hafter
    by_cases hold : old.sessionId = session.sessionId
    · rw [if_pos hold] at hmine
      exact hne hmine
    · rw [if_neg hold] at hkey
      exact hold hkey
  | _ => exact htakes.elim

/-- A statement for one workspace changes nothing another workspace can read, unless it writes a
session under an identifier the other workspace has. -/
theorem workspace_isolated_iff {statement : Statement} {w : Uuid}
    (hw : statement.workspaceId = some w) (hne : w ≠ workspaceId) :
    SameFor workspaceId t (t.run statement) ↔ ¬ statement.Takes t workspaceId := by
  constructor
  · intro hsame htakes
    exact not_sameFor_of_takes hw hne htakes hsame
  · exact sameFor_of_not_takes hw hne

/-- Two workspaces; the agent of the second has issued the session `one`. -/
def sharedAgent : Tables where
  workspaces := [⟨1, "laptop", "/src/laptop", false, true, false⟩,
    ⟨2, "desk", "/src/desk", false, true, false⟩]
  commands := []
  events := []
  sessions := [⟨"one", 2, "Desk session", "idle", 10, 10⟩]
  lastSequence := 0

/-- The agent of the first workspace issues `one` again. -/
def reissued : Statement := .upsertSession ⟨"one", 1, "Laptop session", "idle", 20, 20⟩

theorem workspace_isolated_iff_laptop :
    SameFor 2 sharedAgent (sharedAgent.run (.markWorkspaceSessionsOffline 1)) ↔
      ¬ Statement.Takes sharedAgent 2 (.markWorkspaceSessionsOffline 1) :=
  workspace_isolated_iff rfl (by decide)

/-- The session leaves the list of the workspace that registered it. -/
theorem reissued_session_taken : reissued.workspaceId = some 1 ∧ sharedAgent.Valid ∧
    ¬ SameFor 2 sharedAgent (sharedAgent.run reissued) := by
  refine ⟨rfl, ?_, ?_⟩
  · constructor <;> decide
  · intro hsame
    exact absurd (hsame.getSession "one") (by decide)

end LeaveCli.Core.Tables
