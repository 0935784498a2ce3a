import LeaveCli.Core.Proof.Database
import LeaveCli.Host.Events
import LeaveCli.Lib.Log
import LeaveCli.Lib.Run

/-!
# Following a log by `nextCursor`

A page read at cursor `c` `Covers` the log if its cursor does not lie before `c` and it holds
exactly the events in between. `events_eq_ok` says what a page holds, `covers_iff` that it covers
the log unless it is empty at a cursor above zero: `event_page` then answers with cursor 0, which
sends the client back to the start of the log. `Follower` is a client that keeps polling while
events are appended. `paging_complete_iff` is the result for every run of it.
-/

namespace LeaveCli.Host

open Lib LeaveCli.Core

/-- The page read at cursor `c` is the part of the log it says it is. -/
structure EventPage.Covers (page : EventPage) (log : List LocalEvent) (c : Int) : Prop where
  forward : c ≤ page.nextCursor
  exact : page.events = Log.between LocalEvent.sequence c page.nextCursor log
  /-- A page moves on as long as there is something to read. -/
  advances : (∃ event ∈ log, c < event.sequence) → c < page.nextCursor

/-! ## One page -/

variable {scope : EventScope} {state : EventServer}

theorem log_increasing (h : state.store.Valid) :
    Log.Increasing LocalEvent.sequence (scope.log state) := by
  rw [Log.Increasing, EventScope.log, List.pairwise_map]
  exact h.increasing.filter _

theorem after_log (c : Int) : Log.after LocalEvent.sequence c (scope.log state) =
    ((state.store.events.filter fun row => scope.includes state.workspaceId row ∧
      c < row.sequence).map LocalEvent.fromRecord) := by
  rw [Log.after, EventScope.log, List.filter_map, List.filter_filter]
  refine congrArg _ (List.filter_congr fun row _ => ?_)
  rw [Bool.decide_and, Bool.decide_eq_true, Bool.and_comm]
  rfl

variable (scope) in
/-- The rows of a page, read as the client gets them. -/
theorem page_eq_take (h : state.store.Valid) (c : Int) (limit : Nat) :
    (Tables.page limit (state.store.events.filter fun row =>
      scope.includes state.workspaceId row ∧ c < row.sequence)).map LocalEvent.fromRecord =
        (Log.after LocalEvent.sequence c (scope.log state)).take (min limit 1000) := by
  rw [Tables.page_of_increasing limit (h.increasing.filter _), List.map_take, after_log]

/-- A page holds the first events after the cursor. -/
theorem events_eq_ok (h : state.store.Valid) {c : Int} (hc : 0 ≤ c) {limit : Nat}
    {page : EventPage} : scope.events state ⟨c, limit⟩ = .ok page ↔ scope.Known state ∧
      page.events = (Log.after LocalEvent.sequence c (scope.log state)).take (min limit 1000) ∧
      page.nextCursor = page.events.getLast?.elim 0 LocalEvent.sequence := by
  have hpage : ∀ rows : List EventRow, rows.map LocalEvent.fromRecord =
      (Log.after LocalEvent.sequence c (scope.log state)).take (min limit 1000) →
      ((.ok (eventPage rows) : Except ApiError EventPage) = .ok page ↔
        page.events = (Log.after LocalEvent.sequence c (scope.log state)).take (min limit 1000) ∧
        page.nextCursor = page.events.getLast?.elim 0 LocalEvent.sequence) := by
    intro rows hrows
    rw [Except.ok.injEq, eventPage, hrows]
    constructor
    · intro heq
      subst heq
      exact ⟨rfl, rfl⟩
    · intro hcase
      obtain ⟨hevents, hcursor⟩ := hcase
      cases page
      simp only at hevents hcursor
      rw [hcursor, hevents]
  have htake := page_eq_take scope h c limit
  have hmax : max c 0 = c := max_eq_left hc
  cases scope with
  | workspace =>
    have hrows := hpage (state.store.eventsAfter state.workspaceId c limit) (by
      rw [← htake, Tables.eventsAfter]
      simp [EventScope.includes])
    simpa [EventScope.events, EventServer.workspaceEvents, hmax, EventScope.Known] using hrows
  | session sessionId =>
    have hrows := hpage (state.store.sessionEventsAfter state.workspaceId sessionId c limit) (by
      rw [← htake, Tables.sessionEventsAfter]
      simp [EventScope.includes, and_assoc])
    simp only [EventScope.events, EventServer.sessionEvents, EventServer.requireSession, hmax,
      EventScope.Known]
    cases state.store.getSession state.workspaceId sessionId with
    | none => simp [bind, Except.bind]
    | some session => simpa [bind, Except.bind] using hrows

theorem exists_page (h : state.store.Valid) {c : Int} (hc : 0 ≤ c) (limit : Nat)
    (hknown : scope.Known state) : ∃ page, scope.events state ⟨c, limit⟩ = .ok page := by
  let events := (Log.after LocalEvent.sequence c (scope.log state)).take (min limit 1000)
  exact ⟨⟨events, events.getLast?.elim 0 LocalEvent.sequence⟩,
    (events_eq_ok h hc).2 ⟨hknown, rfl, rfl⟩⟩

/-- The log holds an event of the scope after `c`, or `c` is where the log starts. -/
def EventScope.Unread (scope : EventScope) (state : EventServer) (c : Int) : Prop :=
  c = 0 ∨ ∃ event ∈ scope.log state, c < event.sequence

/-- A page covers the log unless it is empty at a cursor above zero. -/
theorem covers_iff (h : state.store.Valid) {c : Int} (hc : 0 ≤ c) {limit : Nat}
    (hlimit : 1 ≤ limit) {page : EventPage} (hpage : scope.events state ⟨c, limit⟩ = .ok page) :
    page.Covers (scope.log state) c ↔ scope.Unread state c := by
  obtain ⟨-, hevents, hcursor⟩ := (events_eq_ok h hc).1 hpage
  cases hlast : page.events.getLast? with
  | none =>
    have hnone : page.events = [] := List.getLast?_eq_none_iff.1 hlast
    have hafter : ∀ event ∈ scope.log state, ¬ c < event.sequence := by
      intro event hmem hlt
      rw [hnone, eq_comm, List.take_eq_nil_iff] at hevents
      rcases hevents with hzero | hempty
      · omega
      · have hin : event ∈ Log.after LocalEvent.sequence c (scope.log state) :=
          Log.mem_after.2 ⟨hmem, hlt⟩
        rw [hempty] at hin
        cases hin
    have hzero : page.nextCursor = 0 := by rw [hcursor, hlast]; rfl
    constructor
    · intro hcovers
      have hforward := hcovers.forward
      exact .inl (by omega)
    · intro hunread
      rcases hunread with rfl | ⟨event, hmem, hlt⟩
      · refine ⟨hzero.ge, ?_, fun ⟨event, hmem, hlt⟩ => absurd hlt (hafter event hmem)⟩
        rw [hnone, hzero, Log.between_self]
      · exact absurd hlt (hafter event hmem)
  | some last =>
    have hnext : page.nextCursor = last.sequence := by rw [hcursor, hlast]; rfl
    have hmem : last ∈ Log.after LocalEvent.sequence c (scope.log state) :=
      List.mem_of_mem_take (hevents ▸ List.mem_of_getLast? hlast)
    obtain ⟨hin, hlt⟩ := Log.mem_after.1 hmem
    rw [← hnext] at hlt
    refine iff_of_true ⟨hlt.le, ?_, fun _ => hlt⟩ (.inr ⟨last, hin, hnext ▸ hlt⟩)
    rw [hevents, hnext]
    exact Log.take_eq_between (log_increasing h) (hevents ▸ hlast)

/-! ## A client that keeps polling -/

/-- A client, the server it polls, and what it has received. -/
structure Follower where
  server : EventServer
  cursor : Int
  received : List LocalEvent

inductive Follower.Input
  /-- Some event is appended to the store. -/
  | append (eventId : Uuid) (now : Int) (workspaceId : Uuid) (sessionId : Option Str) (kind : Str)
      (payload : Bytes)
  /-- The client asks for the events after its cursor. -/
  | poll (limit : Nat)

/-- What the server does with an input, and what the client makes of the page it gets. -/
def follow (scope : EventScope) : Machine Follower Follower.Input (Option EventPage) where
  step s
    | .append eventId now workspaceId sessionId kind payload =>
      (none, { s with
        server := { s.server with
          store := s.server.store.run
            (.appendEvent eventId now workspaceId sessionId kind payload) } })
    | .poll limit =>
      (scope.events s.server ⟨s.cursor, limit⟩).toOption.elim (none, s) fun page =>
        (some page, { s with cursor := page.nextCursor, received := s.received ++ page.events })
  halts _ := false

/-- The client has every event between where it started and its cursor, once and in order. -/
def Follower.Exact (scope : EventScope) (start : Int) (s : Follower) : Prop :=
  s.received = Log.between LocalEvent.sequence start s.cursor (scope.log s.server)

/-- The step went well: a page it returned covers the log, and the client has what it should. -/
structure Follower.Served (scope : EventScope) (start : Int)
    (t : Transition Follower Follower.Input (Option EventPage)) : Prop where
  covers : ∀ page, t.output = some page →
    page.Covers (scope.log t.before.server) t.before.cursor
  exact : t.after.Exact scope start

/-- A poll that finds nothing is one at the start of the log. -/
def Follower.PollsUnread (scope : EventScope)
    (t : Transition Follower Follower.Input (Option EventPage)) : Prop :=
  ∀ limit, t.input = .poll limit → scope.Known t.before.server →
    scope.Unread t.before.server t.before.cursor

/-- What holds of a follower as long as it is served. -/
structure Follower.Following (scope : EventScope) (start : Int) (s : Follower) : Prop where
  valid : s.server.store.Valid
  nonneg : 0 ≤ start
  forward : start ≤ s.cursor
  past : s.cursor = start ∨ s.cursor ≤ s.server.store.lastSequence
  exact : s.Exact scope start

/-- An append puts at most one event at the end of a log, after all sequences given out. -/
theorem log_append (scope : EventScope) (server : EventServer) (eventId : Uuid) (now : Int)
    (workspaceId : Uuid) (sessionId : Option Str) (kind : Str) (payload : Bytes) :
    ∃ new, scope.log { server with
      store := server.store.run (.appendEvent eventId now workspaceId sessionId kind payload) } =
        scope.log server ++ new ∧ (∀ event ∈ new, server.store.lastSequence < event.sequence) ∧
      server.store.lastSequence ≤ (server.store.run
        (.appendEvent eventId now workspaceId sessionId kind payload)).lastSequence := by
  simp only [Tables.run]
  cases hok : server.store.appendEvent eventId now workspaceId sessionId kind payload with
  | error e => exact ⟨[], (List.append_nil _).symm, by simp, le_refl _⟩
  | ok result =>
    obtain ⟨store, row⟩ := result
    obtain ⟨-, -, -, hrow, rfl⟩ := Tables.appendEvent_eq_ok.1 hok
    have hsequence : row.sequence = server.store.lastSequence + 1 := by rw [hrow]
    refine ⟨([row].filter (scope.includes server.workspaceId)).map LocalEvent.fromRecord, ?_, ?_,
      ?_⟩
    · show ((server.store.events ++ [row]).filter _).map _ = _
      rw [List.filter_append, List.map_append]
      rfl
    · intro event hevent
      obtain ⟨row', hrow', rfl⟩ := List.mem_map.1 hevent
      obtain rfl := List.mem_singleton.1 (List.mem_of_mem_filter hrow')
      show _ < row'.sequence
      omega
    · show _ ≤ row.sequence
      omega

theorem Follower.Following.append {start : Int} {s : Follower} (h : s.Following scope start)
    (eventId : Uuid) (now : Int) (workspaceId : Uuid) (sessionId : Option Str) (kind : Str)
    (payload : Bytes) : ((follow scope).step s
      (.append eventId now workspaceId sessionId kind payload)).2.Following scope start := by
  obtain ⟨new, hlog, hnew, hgrows⟩ :=
    log_append scope s.server eventId now workspaceId sessionId kind payload
  have hvalid := Tables.valid_run h.valid
    (.appendEvent eventId now workspaceId sessionId kind payload)
  refine ⟨hvalid, h.nonneg, h.forward, h.past.imp_right fun hle => hle.trans hgrows, ?_⟩
  · show s.received = Log.between LocalEvent.sequence start s.cursor (scope.log { s.server with
      store := s.server.store.run (.appendEvent eventId now workspaceId sessionId kind payload) })
    rw [hlog, h.exact]
    rcases h.past with hstart | hpast
    · rw [hstart, Log.between_self, Log.between_self]
    · exact (Log.between_append fun event hevent => hpast.trans_lt (hnew event hevent)).symm

/-- A page that covers the log leaves the client with all of it up to the new cursor. -/
theorem Follower.Following.poll {start : Int} {s : Follower} (h : s.Following scope start)
    {limit : Nat} {page : EventPage} (hpage : scope.events s.server ⟨s.cursor, limit⟩ = .ok page)
    (hcovers : page.Covers (scope.log s.server) s.cursor) :
    ((follow scope).step s (.poll limit)).2.Following scope start := by
  have hstep : (follow scope).step s (.poll limit) = (some page,
      { s with cursor := page.nextCursor, received := s.received ++ page.events }) := by
    simp [follow, hpage, Except.toOption]
  have hcursor : 0 ≤ s.cursor := h.nonneg.trans h.forward
  obtain ⟨-, hevents, hnext⟩ := (events_eq_ok h.valid hcursor).1 hpage
  rw [hstep]
  refine ⟨h.valid, h.nonneg, h.forward.trans hcovers.forward, ?_, ?_⟩
  · -- the cursor is still where it was, or at an event of the log
    cases hlast : page.events.getLast? with
    | none =>
      have hzero : page.nextCursor = 0 := by rw [hnext, hlast]; rfl
      have hforward := hcovers.forward
      have hstart := h.forward
      have hnonneg := h.nonneg
      left
      show page.nextCursor = start
      omega
    | some last =>
      right
      show page.nextCursor ≤ _
      have hmem := List.mem_of_getLast? hlast
      rw [hcovers.exact, Log.mem_between] at hmem
      obtain ⟨row, hrow, rfl⟩ := List.mem_map.1 hmem.1
      rw [hnext, hlast]
      exact h.valid.bounded row (List.mem_of_mem_filter hrow)
  · show s.received ++ page.events = _
    rw [h.exact, hcovers.exact]
    exact Log.between_append_between (log_increasing h.valid) h.forward hcovers.forward

theorem Follower.served_iff {start : Int} {s : Follower} (h : s.Following scope start)
    {input : Follower.Input} (hlimit : ∀ limit, input = .poll limit → 1 ≤ limit) :
    Served scope start ((follow scope).fire s input) ↔
      PollsUnread scope ((follow scope).fire s input) := by
  cases input with
  | append eventId now workspaceId sessionId kind payload =>
    refine iff_of_true ⟨?_, (h.append eventId now workspaceId sessionId kind payload).exact⟩ ?_
    · intro page hpage
      cases hpage
    · intro limit hinput
      cases hinput
  | poll limit =>
    cases hpage : scope.events s.server ⟨s.cursor, limit⟩ with
    | error e =>
      have hstep : (follow scope).step s (.poll limit) = (none, s) := by
        simp [follow, hpage, Except.toOption]
      refine iff_of_true ⟨?_, ?_⟩ ?_
      · intro page houtput
        rw [Machine.output_fire, hstep] at houtput
        cases houtput
      · show ((follow scope).step s (.poll limit)).2.Exact scope start
        rw [hstep]
        exact h.exact
      · intro limit' _ hknown
        obtain ⟨page, hok⟩ := exists_page h.valid (h.nonneg.trans h.forward) limit hknown
        rw [hpage] at hok
        cases hok
    | ok page =>
      have hcovers := covers_iff h.valid (h.nonneg.trans h.forward) (hlimit limit rfl) hpage
      have hknown := ((events_eq_ok h.valid (h.nonneg.trans h.forward)).1 hpage).1
      have houtput : ((follow scope).fire s (.poll limit)).output = some page := by
        simp [Machine.fire, follow, hpage, Except.toOption]
      constructor
      · intro hserved limit' hinput _
        exact hcovers.1 (hserved.covers page houtput)
      · intro hunread
        have hgood := hcovers.2 (hunread limit rfl hknown)
        refine ⟨?_, (h.poll hpage hgood).exact⟩
        intro page' hpage'
        rw [houtput] at hpage'
        exact Option.some.inj hpage' ▸ hgood

/-- A page covers the log unless it is empty at a cursor above zero, and a client that keeps
polling, with any appends in between, gets every event once and in order just as long as no poll
above zero comes back empty. -/
theorem paging_complete_iff {server : EventServer} (hvalid : server.store.Valid) {c : Int}
    (hc : 0 ≤ c) {inputs : List Follower.Input}
    (hlimits : ∀ limit, .poll limit ∈ inputs → 1 ≤ limit) :
    (∀ limit page, 1 ≤ limit → scope.events server ⟨c, limit⟩ = .ok page →
      (page.Covers (scope.log server) c ↔ scope.Unread server c)) ∧
    ((∀ t ∈ (follow scope).run ⟨server, c, []⟩ inputs, Follower.Served scope c t) ↔
      ∀ t ∈ (follow scope).run ⟨server, c, []⟩ inputs, Follower.PollsUnread scope t) := by
  refine ⟨fun limit page hlimit hpage => covers_iff hvalid hc hlimit hpage, ?_⟩
  have hstart : Follower.Following scope c ⟨server, c, []⟩ :=
    ⟨hvalid, hc, le_refl c, .inl rfl, Log.between_self.symm⟩
  refine Machine.forall_run_iff (I := fun s => s.Following scope c)
    (J := fun input => ∀ limit, input = .poll limit → 1 ≤ limit) ?_ ?_ hstart ?_
  · intro s input hs hinput
    exact Follower.served_iff hs hinput
  · intro s input hs hinput hunread _
    cases input with
    | append eventId now workspaceId sessionId kind payload =>
      exact hs.append eventId now workspaceId sessionId kind payload
    | poll limit =>
      cases hpage : scope.events s.server ⟨s.cursor, limit⟩ with
      | error e => simpa [follow, hpage, Except.toOption] using hs
      | ok page =>
        have hcursor := hs.nonneg.trans hs.forward
        have hknown := ((events_eq_ok hs.valid hcursor).1 hpage).1
        exact hs.poll hpage
          ((covers_iff hs.valid hcursor (hinput limit rfl) hpage).2 (hunread limit rfl hknown))
  · intro input hin limit heq
    exact hlimits limit (heq ▸ hin)

/-- A workspace with one session and one event of it. -/
def oneEvent : EventServer where
  store :=
    { workspaces := [⟨7, "laptop", "/src/laptop", false, true, false⟩]
      commands := []
      events := [⟨1, 11, 7, some "one", "session_created", 5, []⟩]
      sessions := [⟨"one", 7, "First session", "idle", 5, 5⟩]
      lastSequence := 1 }
  workspaceId := 7

theorem oneEvent_valid : oneEvent.store.Valid := by
  constructor <;> decide

theorem paging_complete_iff_session :
    (∀ limit page, 1 ≤ limit →
      (EventScope.session "one").events oneEvent ⟨0, limit⟩ = .ok page →
      (page.Covers ((EventScope.session "one").log oneEvent) 0 ↔
        (EventScope.session "one").Unread oneEvent 0)) ∧
    ((∀ t ∈ (follow (.session "one")).run ⟨oneEvent, 0, []⟩ [.poll 500, .poll 500],
      Follower.Served (.session "one") 0 t) ↔
      ∀ t ∈ (follow (.session "one")).run ⟨oneEvent, 0, []⟩ [.poll 500, .poll 500],
        Follower.PollsUnread (.session "one") t) :=
  paging_complete_iff oneEvent_valid (by decide) (by simp)

/-- A client that is up to date asks again: the answer sends it back to the start, and the poll
after it delivers the event a second time. -/
theorem up_to_date_page_rewinds :
    (EventScope.session "one").events oneEvent ⟨1, 500⟩ = .ok ⟨[], 0⟩ ∧
      ¬ EventPage.Covers ⟨[], 0⟩ ((EventScope.session "one").log oneEvent) 1 ∧
      ((follow (.session "one")).final ⟨oneEvent, 0, []⟩
        [.poll 500, .poll 500, .poll 500]).received =
          [⟨1, 11, 7, some "one", "session_created", 5, []⟩,
            ⟨1, 11, 7, some "one", "session_created", 5, []⟩] := by
  refine ⟨by decide, fun hcovers => ?_, by decide⟩
  exact absurd hcovers.forward (by decide)

end LeaveCli.Host
