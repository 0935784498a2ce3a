import LeaveCli.Host.LiveStream
import LeaveCli.Host.Proof.Paging

/-!
# The live stream is in order as long as no task overtakes another

As long as events are sent in the order of their sequences (`Orderly`), the log is what it was at
the start, then what the channel has sent, then what is unsent (`Ordered`), and a socket that was
not told it lagged holds a segment of the sent events from its subscription on (`Follows`). From
both: what a device received increases, and what it missed since it subscribed has a higher
sequence than its last event, so that a replay from there brings it (`replay_eq_after`).
-/

namespace LeaveCli.Host

open Lib LeaveCli.Core

namespace LiveStream

/-- The workspace's log. -/
abbrev log (server : EventServer) : List LocalEvent := EventScope.workspace.log server

/-- What the claim of the stream is for one device: events in order, and after a disconnect a replay
from the last of them completes what was appended since it subscribed. -/
structure Complete (server : EventServer) (socket : EventSocket) : Prop where
  increasing : Log.Increasing LocalEvent.sequence socket.events
  replayed : ∀ last, socket.events.getLast? = some last →
    ∀ limit requests, 1 ≤ limit → (log server).length ≤ requests →
      ∀ event ∈ log server, socket.since < event.sequence →
        event ∈ socket.events ∨ event ∈ replay server limit requests last.sequence

/-- Sending this sequence now overtakes an event with a lower sequence that is not sent yet. -/
def Overtakes (s : LiveStream) (sequence : Int) : Prop :=
  sequence ∉ s.dropped ∧ (∃ row ∈ s.unsent, row.sequence = sequence) ∧
    ∃ row ∈ s.unsent, row.sequence < sequence

instance (s : LiveStream) (sequence : Int) : Decidable (s.Overtakes sequence) :=
  inferInstanceAs (Decidable (_ ∧ _))

/-- The sequence an action sends. -/
def Action.sends : Action → Option Int
  | .send sequence => some sequence
  | _ => none

/-- The step overtakes nothing. -/
def Orderly (t : Transition LiveStream Action Unit) : Prop :=
  ∀ sequence ∈ t.input.sends, ¬ t.before.Overtakes sequence

instance (t : Transition LiveStream Action Unit) : Decidable (Orderly t) :=
  inferInstanceAs (Decidable (∀ sequence ∈ t.input.sends, ¬ t.before.Overtakes sequence))

/-! ## Replaying -/

/-- Enough requests bring the whole log after the cursor. -/
theorem replay_eq_after {server : EventServer} (h : server.store.Valid) {limit : Nat}
    (hlimit : 1 ≤ limit) {requests : Nat} {cursor : Int} (hcursor : 0 ≤ cursor)
    (henough : (Log.after LocalEvent.sequence cursor (log server)).length ≤ requests) :
    replay server limit requests cursor = Log.after LocalEvent.sequence cursor (log server) := by
  have hincreasing : Log.Increasing LocalEvent.sequence (log server) := log_increasing h
  induction requests generalizing cursor with
  | zero => exact (List.eq_nil_of_length_eq_zero (Nat.le_zero.1 henough)).symm
  | succ requests ih =>
    have hexists : ∃ page, EventScope.workspace.events server ⟨cursor, limit⟩ = .ok page :=
      exists_page h hcursor limit trivial
    obtain ⟨page, hpage⟩ := hexists
    obtain ⟨-, hevents, -⟩ := (events_eq_ok h hcursor).1 hpage
    have hread : (server.workspaceEvents ⟨cursor, limit⟩).toOption.elim [] EventPage.events =
        page.events := by
      rw [show server.workspaceEvents ⟨cursor, limit⟩ = .ok page from hpage]
      rfl
    simp only [replay, hread]
    cases hlast : page.events.getLast? with
    | none =>
      rw [List.getLast?_eq_none_iff.1 hlast, eq_comm, List.take_eq_nil_iff] at hevents
      rcases hevents with hzero | hempty
      · omega
      · exact hempty.symm
    | some last =>
      have hmem := List.mem_of_getLast? hlast
      rw [hevents] at hmem
      have hlt := (Log.mem_after.1 (List.mem_of_mem_take hmem)).2
      have hpart : page.events =
          Log.between LocalEvent.sequence cursor last.sequence (log server) :=
        hevents.trans (Log.take_eq_between hincreasing (hevents ▸ hlast))
      have hjoin := Log.between_append_after hincreasing hlt.le
      have hlong := congrArg List.length hjoin
      rw [← hpart, List.length_append] at hlong
      have hsome : 0 < page.events.length := List.length_pos_of_mem (List.mem_of_getLast? hlast)
      rw [Option.elim_some, ih (hcursor.trans hlt.le) (by omega), hpart, hjoin]

/-! ## What an orderly stream keeps -/

/-- How a socket's device stands: unless it was told that it lagged, it holds the events sent from
`first` on up to its receiver; what was sent before `first` is older than its subscription. -/
structure Follows (base sent : List LocalEvent) (socket : EventSocket) (first : Nat) : Prop where
  reads : first ≤ socket.next
  bounded : socket.next ≤ sent.length
  older : ∀ event ∈ base ++ sent.take first, event.sequence ≤ socket.since
  holds : ¬ socket.Lagged → socket.events = Broadcast.segment first socket.next sent

/-- The log is what it was at the start, then what was sent, then what is still to be sent. -/
structure Ordered (base : List LocalEvent) (s : LiveStream) : Prop where
  valid : s.server.store.Valid
  log : log s.server = base ++ s.channel.sent ++ s.unsent.map LocalEvent.fromRecord
  sockets : ∀ id socket, s.sockets id = some socket →
    ∃ first, Follows base s.channel.sent socket first

theorem Follows.complete {base : List LocalEvent} {s : LiveStream} {socket : EventSocket}
    {first : Nat} (hs : s.Ordered base) (h : Follows base s.channel.sent socket first)
    (hlagged : ¬ socket.Lagged) : Complete s.server socket := by
  have hincreasing : Log.Increasing LocalEvent.sequence (log s.server) := log_increasing hs.valid
  have hsplit := hincreasing
  rw [hs.log, List.append_assoc, Log.Increasing, List.pairwise_append] at hsplit
  obtain ⟨-, hlater, -⟩ := hsplit
  obtain ⟨hsent, -, hunsent⟩ := List.pairwise_append.1 hlater
  have hevents := h.holds hlagged
  constructor
  · rw [hevents]
    exact hsent.sublist ((List.drop_sublist _ _).trans (List.take_sublist _ _))
  · intro last hlast limit requests hlimit henough event hevent hsince
    have hmem : last ∈ socket.events := List.mem_of_getLast? hlast
    have hsegment : last ∈ Broadcast.segment first socket.next s.channel.sent := hevents ▸ hmem
    have hpositive : 0 ≤ last.sequence := by
      have hin : last ∈ log s.server := by
        rw [hs.log]
        simp [Broadcast.mem_segment hsegment]
      obtain ⟨row, hrow, rfl⟩ := List.mem_map.1 hin
      exact (hs.valid.positive row (List.mem_of_mem_filter hrow)).le
    rw [replay_eq_after hs.valid hlimit hpositive
      ((List.length_filter_le _ _).trans henough), Log.mem_after]
    by_cases hle : event.sequence ≤ last.sequence
    · left
      rw [hevents]
      have htaken : last ∈ s.channel.sent.take socket.next := by
        rw [Broadcast.take_eq_append_segment h.reads]
        exact List.mem_append_right _ hsegment
      rw [← List.take_append_drop socket.next s.channel.sent, List.pairwise_append] at hsent
      rw [hs.log, List.mem_append, List.mem_append] at hevent
      rcases hevent with (hbase | hin) | hlate
      · exact absurd hsince (not_lt.2 (h.older event (List.mem_append_left _ hbase)))
      · rw [← List.take_append_drop socket.next s.channel.sent, List.mem_append,
          Broadcast.take_eq_append_segment h.reads, List.mem_append] at hin
        rcases hin with (hold | hread) | hpending
        · exact absurd hsince (not_lt.2 (h.older event (List.mem_append_right _ hold)))
        · exact hread
        · exact absurd (hsent.2.2 last htaken event hpending) (not_lt.2 hle)
      · have hbefore := hunsent last (Broadcast.mem_segment hsegment) event hlate
        exact absurd hbefore (not_lt.2 hle)
    · exact .inr ⟨hevent, not_le.1 hle⟩

/-! ## Steps -/

theorem Follows.receiveNext {base : List LocalEvent} {channel : Broadcast LocalEvent}
    {socket : EventSocket} {first : Nat} (h : Follows base channel.sent socket first) :
    Follows base channel.sent (LiveStream.receiveNext channel socket) first := by
  unfold LiveStream.receiveNext
  split
  · rename_i event next hrecv
    obtain ⟨hget, rfl⟩ := Broadcast.recv_value hrecv
    refine ⟨h.reads.trans (Nat.le_succ _), (List.getElem?_eq_some_iff.1 hget).1, h.older, ?_⟩
    intro hlagged
    have hold : ¬ socket.Lagged := by
      intro hcase
      obtain ⟨skipped, hskipped⟩ := hcase
      exact hlagged ⟨skipped, List.mem_append_left _ hskipped⟩
    show (socket.messages ++ [SocketMessage.event event]).filterMap _ = _
    rw [List.filterMap_append, Broadcast.segment_succ h.reads hget, ← h.holds hold]
    rfl
  · rename_i skipped next hrecv
    have hforth := Broadcast.le_recv channel socket.next
    have hend := Broadcast.recv_le h.bounded
    rw [hrecv] at hforth hend
    refine ⟨h.reads.trans hforth, hend, h.older, ?_⟩
    intro hlagged
    exact absurd ⟨skipped, List.mem_append_right _ (List.mem_singleton_self _)⟩ hlagged
  · exact h

theorem Follows.send {base sent : List LocalEvent} {socket : EventSocket} {first : Nat}
    (h : Follows base sent socket first) (new : List LocalEvent) :
    Follows base (sent ++ new) socket first := by
  refine ⟨h.reads, h.bounded.trans ?_, ?_, ?_⟩
  · rw [List.length_append]
    exact Nat.le_add_right _ _
  · rw [List.take_append_of_le_length (h.reads.trans h.bounded)]
    exact h.older
  · rw [Broadcast.segment_append h.bounded]
    exact h.holds

/-- A row with the lowest sequence is the first of rows with increasing sequences. -/
theorem eq_head_of_lowest {rows : List EventRow} {row : EventRow}
    (hrows : rows.Pairwise fun a b => a.sequence < b.sequence) (hrow : row ∈ rows)
    (hlowest : ∀ row' ∈ rows, row.sequence ≤ row'.sequence) : rows = row :: rows.erase row := by
  cases rows with
  | nil => cases hrow
  | cons first rest =>
    have hfirst : row = first := by
      rcases List.mem_cons.1 hrow with rfl | hrest
      · rfl
      · have hlt := (List.pairwise_cons.1 hrows).1 row hrest
        have hle := hlowest first List.mem_cons_self
        omega
    rw [hfirst, List.erase_cons_head]

/-- Whatever a socket is replaced by, the other sockets stay. -/
theorem Ordered.withSocket {base : List LocalEvent} {s : LiveStream} (h : s.Ordered base) (id : Nat)
    {socket : EventSocket} (hsocket : ∃ first, Follows base s.channel.sent socket first) :
    (s.withSocket id (some socket)).Ordered base := by
  refine ⟨h.valid, h.log, ?_⟩
  intro id' socket' hget
  simp only [LiveStream.withSocket, Function.update_apply] at hget
  split at hget
  · cases hget
    exact hsocket
  · exact h.sockets id' socket' hget

theorem ordered_append {base : List LocalEvent} {s : LiveStream} (h : s.Ordered base)
    (eventId : Uuid) (now : Int) (sessionId : Option Str) (kind : Str) (payload : Bytes) :
    (s.step (.append eventId now sessionId kind payload)).Ordered base := by
  simp only [step]
  cases hok : s.server.store.appendEvent eventId now s.server.workspaceId sessionId kind
      payload with
  | error e => exact h
  | ok result =>
    obtain ⟨store, row⟩ := result
    have hvalid := h.valid.appendEvent hok
    obtain ⟨-, -, -, hrow, rfl⟩ := Tables.appendEvent_eq_ok.1 hok
    have hmine : row.workspaceId = s.server.workspaceId := by rw [hrow]
    have hkept : [row].filter (EventScope.workspace.includes s.server.workspaceId) = [row] := by
      simp [EventScope.includes, hmine]
    have hlog := h.log
    refine ⟨hvalid, ?_, h.sockets⟩
    show ((s.server.store.events ++ [row]).filter
      (EventScope.workspace.includes s.server.workspaceId)).map LocalEvent.fromRecord =
        base ++ s.channel.sent ++ (s.unsent ++ [row]).map LocalEvent.fromRecord
    rw [List.filter_append, hkept, List.map_append, List.map_append, ← List.append_assoc, ← hlog]
    rfl

/-- An event of another workspace is not in the log. -/
theorem log_appendElsewhere (server : EventServer) (eventId : Uuid) (now : Int) {workspaceId : Uuid}
    (sessionId : Option Str) (kind : Str) (payload : Bytes)
    (hother : workspaceId ≠ server.workspaceId) : log { server with
      store := server.store.run (.appendEvent eventId now workspaceId sessionId kind payload) } =
        log server := by
  simp only [Tables.run]
  cases hok : server.store.appendEvent eventId now workspaceId sessionId kind payload with
  | error e => rfl
  | ok result =>
    obtain ⟨store, row⟩ := result
    obtain ⟨-, -, -, hrow, rfl⟩ := Tables.appendEvent_eq_ok.1 hok
    have hgone : [row].filter (EventScope.workspace.includes server.workspaceId) = [] := by
      simp [EventScope.includes, hrow, hother]
    show ((server.store.events ++ [row]).filter
      (EventScope.workspace.includes server.workspaceId)).map LocalEvent.fromRecord = _
    rw [List.filter_append, hgone, List.append_nil]
    rfl

theorem ordered_step {base : List LocalEvent} {s : LiveStream} (h : s.Ordered base)
    {action : Action} (horderly : Orderly (machine.fire s action)) :
    (s.step action).Ordered base := by
  cases action with
  | append eventId now sessionId kind payload =>
    exact ordered_append h eventId now sessionId kind payload
  | appendElsewhere eventId now workspaceId sessionId kind payload =>
    simp only [step]
    split
    · exact h
    · rename_i hother
      have hvalid := Tables.valid_run h.valid
        (.appendEvent eventId now workspaceId sessionId kind payload)
      exact ⟨hvalid, (log_appendElsewhere s.server eventId now sessionId kind payload hother).trans
        h.log, h.sockets⟩
  | send sequence =>
    simp only [step]
    split
    · exact h
    · rename_i hdropped
      cases hfind : s.unsent.find? (fun row => row.sequence = sequence) with
      | none => exact h
      | some row =>
        have hrow := List.mem_of_find?_eq_some hfind
        have hsequence : row.sequence = sequence := by simpa using List.find?_some hfind
        have hlowest : ∀ row' ∈ s.unsent, row.sequence ≤ row'.sequence := by
          intro row' hrow'
          by_contra hlt
          exact horderly sequence rfl ⟨hdropped, ⟨row, hrow, hsequence⟩, row', hrow', by omega⟩
        have hunsent : s.unsent.Pairwise fun a b => a.sequence < b.sequence := by
          have hincreasing : Log.Increasing LocalEvent.sequence (log s.server) :=
            log_increasing h.valid
          rw [h.log, Log.Increasing, List.pairwise_append] at hincreasing
          have hmapped := hincreasing.2.1
          rwa [List.pairwise_map] at hmapped
        have hhead := eq_head_of_lowest hunsent hrow hlowest
        refine ⟨h.valid, ?_, ?_⟩
        · have hlog := h.log
          rw [hhead, List.map_cons] at hlog
          show log s.server = base ++ (s.channel.sent ++ [LocalEvent.fromRecord row]) ++ _
          rw [hlog]
          simp
        · intro id socket hsocket
          obtain ⟨first, hfollows⟩ := h.sockets id socket hsocket
          exact ⟨first, hfollows.send [LocalEvent.fromRecord row]⟩
  | drop sequence => exact ⟨h.valid, h.log, h.sockets⟩
  | subscribe id =>
    simp only [step]
    cases hsocket : s.sockets id with
    | some socket => exact h
    | none =>
      refine h.withSocket id ⟨s.channel.sent.length, le_refl _, le_refl _, ?_, ?_⟩
      · intro event hevent
        rw [List.take_length] at hevent
        have hin : event ∈ log s.server := by
          rw [h.log]
          exact List.mem_append_left _ hevent
        obtain ⟨row, hrow, rfl⟩ := List.mem_map.1 hin
        exact h.valid.bounded row (List.mem_of_mem_filter hrow)
      · intro _
        exact (Broadcast.segment_self _ _).symm
  | receive id =>
    simp only [step]
    cases hsocket : s.sockets id with
    | none => exact h
    | some socket =>
      simp only [Option.elim_some]
      split
      · obtain ⟨first, hfollows⟩ := h.sockets id socket hsocket
        exact h.withSocket id ⟨first, hfollows.receiveNext⟩
      · exact h
  | disconnect id =>
    simp only [step]
    cases hsocket : s.sockets id with
    | none => exact h
    | some socket =>
      obtain ⟨first, hfollows⟩ := h.sockets id socket hsocket
      exact h.withSocket id ⟨first, hfollows.reads, hfollows.bounded, hfollows.older,
        hfollows.holds⟩

/-- In a run whose sends never overtake an event with a lower sequence, what a device receives is
in order, and a replay from its last event completes what was appended since it subscribed. -/
theorem live_stream_ordered {server : EventServer} (hvalid : server.store.Valid)
    {actions : List Action} (horderly : ∀ t ∈ machine.run (start server) actions, Orderly t) :
    ∀ t ∈ machine.run (start server) actions, ∀ id socket, t.after.sockets id = some socket →
      ¬ socket.Lagged → Complete t.after.server socket := by
  intro t ht id socket hsocket hlagged
  have hstart : (start server).Ordered (log server) := by
    refine ⟨hvalid, ?_, ?_⟩
    · simp [start, Broadcast.new]
    · intro id socket hnone
      cases hnone
  have hordered := (Machine.run_invariant_of (P := fun s => s.Ordered (log server))
    (C := Orderly) (fun s action hs hstep => ordered_step hs hstep) hstart horderly ht).2
  obtain ⟨first, hfollows⟩ := hordered.sockets id socket hsocket
  exact hfollows.complete hordered hlagged

/-- A workspace in which nothing has happened yet. -/
def quietServer : EventServer where
  store :=
    { workspaces := [⟨7, "laptop", "/src/laptop", false, true, false⟩]
      commands := []
      events := []
      sessions := []
      lastSequence := 0 }
  workspaceId := 7

theorem quietServer_valid : quietServer.store.Valid := by
  constructor <;> decide

/-- A device gets one event and disconnects, and then a second event is appended. -/
def oneReceived : List Action :=
  [.subscribe 0, .append 11 1 none "acp_ready" [], .send 1, .receive 0, .disconnect 0,
    .append 12 2 none "host_error" []]

theorem live_stream_ordered_quiet :
    ∃ t ∈ machine.run (start quietServer) oneReceived, ∃ socket,
      t.after.sockets 0 = some socket ∧ socket.events.map (·.sequence) = [1] ∧
        Complete t.after.server socket := by
  let t := machine.fire (machine.final (start quietServer) (oneReceived.take 5))
    (.append 12 2 none "host_error" [])
  have ht : t ∈ machine.run (start quietServer) oneReceived :=
    List.mem_of_getElem? (show (machine.run (start quietServer) oneReceived)[5]? = some t from rfl)
  obtain ⟨socket, hsocket, hevents, hmessages⟩ : ∃ socket, t.after.sockets 0 = some socket ∧
      socket.events.map (·.sequence) = [1] ∧ ∀ message ∈ socket.messages, message.event?.isSome :=
    ⟨_, rfl, by decide, by decide⟩
  refine ⟨t, ht, socket, hsocket, hevents, ?_⟩
  apply live_stream_ordered quietServer_valid (by decide) t ht 0 socket hsocket
  intro hlagged
  obtain ⟨skipped, hskipped⟩ := hlagged
  exact Bool.false_ne_true (hmessages _ hskipped)

/-- Two tasks append, and the second sends first: the device that disconnects after event 2 never
gets event 1, which was appended after it subscribed. -/
def overtaken : List Action :=
  [.subscribe 0, .append 11 1 none "session_update" [], .append 12 2 none "session_update" [],
    .send 2, .receive 0, .disconnect 0, .send 1]

theorem overtaken_event_lost :
    ∃ socket, (machine.final (start quietServer) overtaken).sockets 0 = some socket ∧
      ¬ socket.Lagged ∧
      ¬ Complete (machine.final (start quietServer) overtaken).server socket := by
  refine ⟨_, rfl, ?_, ?_⟩
  · intro hcase
    obtain ⟨skipped, hskipped⟩ := hcase
    cases List.mem_singleton.1 hskipped
  · intro hcomplete
    have hreplayed := hcomplete.replayed ⟨2, 12, 7, none, "session_update", 2, []⟩ rfl 1000 2
      (by decide) (by decide) ⟨1, 11, 7, none, "session_update", 1, []⟩ (by decide) (by decide)
    exact absurd hreplayed (by decide)

end LiveStream

end LeaveCli.Host
