import LeaveCli.Core.Database

/-!
# The statements keep the schema's constraints

Each operation that can fail has an inversion lemma for its success (`upsertWorkspace_eq_ok`,
`upsertSession_eq_ok`, `appendEvent_eq_ok`); `valid_run` says that every statement keeps `Valid`.
`page_of_increasing` is what `ORDER BY sequence LIMIT` reads off a log whose sequences increase.
-/

namespace LeaveCli.Core.Tables

open Lib

variable {t : Tables}

theorem registered_iff {id : Uuid} :
    t.registered id = true ↔ ∃ row ∈ t.workspaces, row.id = id := by
  simp [registered]

theorem upsertWorkspace_eq_ok {workspace : WorkspaceRecord} {t' : Tables} :
    t.upsertWorkspace workspace = .ok t' ↔
      (∀ row ∈ t.workspaces, row.id ≠ workspace.id →
        row.canonicalPath ≠ workspace.canonicalPath) ∧
      t' = { t with
        workspaces :=
          Table.upsert WorkspaceRecord.id (fun _ => workspace) workspace t.workspaces } := by
  unfold upsertWorkspace
  split
  · rename_i hclash
    simp only [List.any_eq_true, decide_eq_true_eq] at hclash
    obtain ⟨row, hrow, hid, hpath⟩ := hclash
    constructor
    · intro h
      cases h
    · intro h
      exact absurd hpath (h.1 row hrow hid)
  · rename_i hfree
    have hpaths : ∀ row ∈ t.workspaces, row.id ≠ workspace.id →
        row.canonicalPath ≠ workspace.canonicalPath := by
      intro row hrow hid hpath
      exact hfree (List.any_eq_true.2 ⟨row, hrow, by simp [hid, hpath]⟩)
    simp only [Except.ok.injEq]
    constructor
    · intro heq
      subst heq
      exact ⟨hpaths, rfl⟩
    · intro hcase
      obtain ⟨-, rfl⟩ := hcase
      rfl

theorem upsertSession_eq_ok {session : SessionRow} {t' : Tables} :
    t.upsertSession session = .ok t' ↔ t.registered session.workspaceId = true ∧
      t' = { t with
        sessions :=
          Table.upsert SessionRow.sessionId (excludedSession session) session t.sessions } := by
  unfold upsertSession
  split
  · rename_i hreg
    simp only [Except.ok.injEq, hreg, true_and]
    exact eq_comm
  · rename_i hreg
    simp [hreg]

theorem appendEvent_eq_ok {eventId workspaceId : Uuid} {now : Int} {sessionId : Option Str}
    {kind : Str} {payload : Bytes} {t' : Tables} {row : EventRow} :
    t.appendEvent eventId now workspaceId sessionId kind payload = .ok (t', row) ↔
      t.lastSequence ≠ maxSequence ∧ (∀ e ∈ t.events, e.eventId ≠ eventId) ∧
        t.registered workspaceId = true ∧
        row = ⟨t.lastSequence + 1, eventId, workspaceId, sessionId, kind, now, payload⟩ ∧
        t' = { t with events := t.events ++ [row], lastSequence := row.sequence } := by
  unfold appendEvent
  split
  · rename_i hfull
    simp [hfull]
  split
  · rename_i hfull hused
    simp only [List.any_eq_true, decide_eq_true_eq] at hused
    obtain ⟨e, he, hid⟩ := hused
    constructor
    · intro h
      cases h
    · intro h
      exact absurd hid (h.2.1 e he)
  split
  · rename_i hfull hnew hreg
    have hfresh : ∀ e ∈ t.events, e.eventId ≠ eventId := by
      intro e he hid
      exact hnew (List.any_eq_true.2 ⟨e, he, by simp [hid]⟩)
    simp only [Except.ok.injEq, Prod.mk.injEq]
    constructor
    · intro hcase
      obtain ⟨rfl, rfl⟩ := hcase
      exact ⟨hfull, hfresh, hreg, rfl, rfl⟩
    · intro hcase
      obtain ⟨-, -, -, rfl, rfl⟩ := hcase
      exact ⟨rfl, rfl⟩
  · rename_i hreg
    simp [hreg]

/-! ## Valid tables -/

theorem registered_eq_true {id : Uuid} :
    t.registered id = true ↔ id ∈ t.workspaces.map WorkspaceRecord.id := by
  simp [registered]

theorem Valid.upsertWorkspace (h : t.Valid) {workspace : WorkspaceRecord} {t' : Tables}
    (hok : t.upsertWorkspace workspace = .ok t') : t'.Valid := by
  obtain ⟨hpaths, rfl⟩ := upsertWorkspace_eq_ok.1 hok
  have hids : ∀ row : WorkspaceRecord, row.id = workspace.id → workspace.id = workspace.id :=
    fun _ _ => rfl
  have hreg : ∀ id, t.registered id = true →
      registered { t with
        workspaces :=
          Table.upsert WorkspaceRecord.id (fun _ => workspace) workspace t.workspaces } id := by
    intro id hid
    rw [registered_eq_true] at hid ⊢
    exact (Table.mem_key_upsert hids).2 (.inr hid)
  exact { h with
    ids := Table.nodup_upsert hids h.ids
    paths := Table.nodup_map_upsert h.ids h.paths hpaths
    eventWorkspace := fun row hrow => hreg _ (h.eventWorkspace row hrow)
    sessionWorkspace := fun row hrow => hreg _ (h.sessionWorkspace row hrow) }

theorem Valid.removeWorkspace (h : t.Valid) (id : Uuid) : (t.removeWorkspace id).1.Valid := by
  have hreg : ∀ id', id' ≠ id → t.registered id' = true →
      (t.removeWorkspace id).1.registered id' = true := by
    intro id' hne hid'
    rw [registered_iff] at hid' ⊢
    obtain ⟨row, hrow, rfl⟩ := hid'
    exact ⟨row, List.mem_filter.2 ⟨hrow, by simpa using hne⟩, rfl⟩
  constructor
  · exact (List.filter_sublist.map _).nodup h.ids
  · exact (List.filter_sublist.map _).nodup h.paths
  · exact h.commandIds
  · exact (List.filter_sublist.map _).nodup h.sessionIds
  · exact (List.filter_sublist.map _).nodup h.eventIds
  · exact h.increasing.sublist List.filter_sublist
  · exact fun row hrow => h.positive row (List.mem_of_mem_filter hrow)
  · exact fun row hrow => h.bounded row (List.mem_of_mem_filter hrow)
  · exact h.counted
  · intro row hrow
    have hne := (List.mem_filter.1 hrow).2
    exact hreg _ (by simpa using hne) (h.eventWorkspace row (List.mem_of_mem_filter hrow))
  · intro row hrow
    have hne := (List.mem_filter.1 hrow).2
    exact hreg _ (by simpa using hne) (h.sessionWorkspace row (List.mem_of_mem_filter hrow))

theorem Valid.upsertSession (h : t.Valid) {session : SessionRow} {t' : Tables}
    (hok : t.upsertSession session = .ok t') : t'.Valid := by
  obtain ⟨hreg, rfl⟩ := upsertSession_eq_ok.1 hok
  exact { h with
    sessionIds := Table.nodup_upsert (fun _ _ => rfl) h.sessionIds
    sessionWorkspace := by
      intro row hrow
      rcases Table.mem_upsert hrow with rfl | hold | ⟨old, -, -, rfl⟩
      · exact hreg
      · exact h.sessionWorkspace row hold
      · exact hreg }

/-- An `UPDATE` of columns that are neither a session's key nor its workspace. -/
theorem Valid.updateSessions (h : t.Valid) {f : SessionRow → SessionRow}
    (hkey : ∀ row, (f row).sessionId = row.sessionId)
    (hworkspace : ∀ row, (f row).workspaceId = row.workspaceId) :
    Valid { t with sessions := t.sessions.map f } := by
  have hkeys : SessionRow.sessionId ∘ f = SessionRow.sessionId := funext hkey
  exact { h with
    sessionIds := by
      rw [List.map_map, hkeys]
      exact h.sessionIds
    sessionWorkspace := by
      intro row hrow
      obtain ⟨old, hold, rfl⟩ := List.mem_map.1 hrow
      rw [hworkspace]
      exact h.sessionWorkspace old hold }

theorem Valid.updateSessionState (h : t.Valid) (sessionId state : Str) (now : Int) :
    (t.updateSessionState sessionId state now).1.Valid := by
  apply h.updateSessions
  · intro row
    split <;> rfl
  · intro row
    split <;> rfl

theorem Valid.markWorkspaceSessionsOffline (h : t.Valid) (workspaceId : Uuid) :
    (t.markWorkspaceSessionsOffline workspaceId).1.Valid := by
  apply h.updateSessions
  · intro row
    split <;> rfl
  · intro row
    split <;> rfl

theorem Valid.claimCommand (h : t.Valid) (commandId : Uuid) (now : Int) :
    (t.claimCommand commandId now).1.Valid := by
  unfold Tables.claimCommand
  split
  · exact h
  · rename_i hnew
    exact { h with
      commandIds := by
        rw [List.map_append, List.nodup_append]
        refine ⟨h.commandIds, List.nodup_singleton _, ?_⟩
        intro k hk k' hk' heq
        subst heq
        obtain ⟨row, hrow, rfl⟩ := List.mem_map.1 hk
        exact hnew (List.any_eq_true.2 ⟨row, hrow, by simpa using hk'⟩) }

theorem Valid.appendEvent (h : t.Valid) {eventId workspaceId : Uuid} {now : Int}
    {sessionId : Option Str} {kind : Str} {payload : Bytes} {t' : Tables} {row : EventRow}
    (hok : t.appendEvent eventId now workspaceId sessionId kind payload = .ok (t', row)) :
    t'.Valid := by
  obtain ⟨-, hfresh, hreg, hrow, rfl⟩ := appendEvent_eq_ok.1 hok
  have hsequence : row.sequence = t.lastSequence + 1 := by rw [hrow]
  have hcounted := h.counted
  exact { h with
    eventIds := by
      rw [List.map_append, List.nodup_append]
      refine ⟨h.eventIds, List.nodup_singleton _, ?_⟩
      intro k hk k' hk' heq
      subst heq
      obtain ⟨e, he, rfl⟩ := List.mem_map.1 hk
      apply hfresh e he
      rw [List.map_singleton, List.mem_singleton, hrow] at hk'
      exact hk'
    increasing := by
      rw [List.pairwise_append]
      refine ⟨h.increasing, List.pairwise_singleton _ _, ?_⟩
      intro a ha b hb
      have hbound := h.bounded a ha
      rw [List.mem_singleton.1 hb]
      omega
    positive := by
      intro e he
      rcases List.mem_append.1 he with hold | hnew
      · exact h.positive e hold
      · rw [List.mem_singleton.1 hnew]
        omega
    bounded := by
      intro e he
      show e.sequence ≤ row.sequence
      rcases List.mem_append.1 he with hold | hnew
      · have hbound := h.bounded e hold
        omega
      · rw [List.mem_singleton.1 hnew]
    counted := by
      show 0 ≤ row.sequence
      omega
    eventWorkspace := by
      intro e he
      rcases List.mem_append.1 he with hold | hnew
      · exact h.eventWorkspace e hold
      · rw [List.mem_singleton.1 hnew, hrow]
        exact hreg }

/-- A statement keeps the constraints. -/
theorem valid_run (h : t.Valid) (statement : Statement) : (t.run statement).Valid := by
  cases statement with
  | upsertWorkspace workspace =>
    simp only [run]
    cases hok : t.upsertWorkspace workspace with
    | error e => exact h
    | ok t' => exact h.upsertWorkspace hok
  | removeWorkspace id => exact h.removeWorkspace id
  | upsertSession session =>
    simp only [run]
    cases hok : t.upsertSession session with
    | error e => exact h
    | ok t' => exact h.upsertSession hok
  | updateSessionState sessionId state now => exact h.updateSessionState sessionId state now
  | markWorkspaceSessionsOffline workspaceId => exact h.markWorkspaceSessionsOffline workspaceId
  | claimCommand commandId now => exact h.claimCommand commandId now
  | appendEvent eventId now workspaceId sessionId kind payload =>
    simp only [run]
    cases hok : t.appendEvent eventId now workspaceId sessionId kind payload with
    | error e => exact h
    | ok result => exact h.appendEvent hok

/-! ## Pages -/

theorem page_of_increasing {rows : List EventRow} (limit : Nat)
    (h : rows.Pairwise fun a b => a.sequence < b.sequence) :
    page limit rows = rows.take (min limit 1000) := by
  rw [page, List.Pairwise.insertionSort_eq]
  exact h.imp fun hlt => le_of_lt hlt

end LeaveCli.Core.Tables
