import LeaveCli.Host.Proof.Paging
import LeaveCli.Web.SessionView
import Mathlib.Data.Fintype.Defs

/-!
# The session page has no gaps

A page is `Whole` when it holds every event of the session up to its cursor. An answer to the
history request is (`Whole.of_answer`), and stays so while events are appended; a live event keeps
a page whole exactly when it does not skip an event of the session (`appendLiveEvent_whole_iff`).
`Joins` asks for that where no request is under way that makes up for it: `session_page_whole_iff`
says that these are the runs in which the page is whole whenever the history query has resolved.
-/

namespace LeaveCli.Web

open Lib LeaveCli.Core LeaveCli.Host

/-- The durable events of a session. -/
def sessionLog (sessionId : Str) (server : EventServer) : List LocalEvent :=
  (EventScope.session sessionId).log server

/-- A page has no gap below its cursor. -/
def Whole (log : List LocalEvent) (page : EventPage) : Prop :=
  ∀ event ∈ log, event.sequence ≤ page.nextCursor → event ∈ page.events

/-- A page holds events of the log, up to its cursor. -/
structure Within (log : List LocalEvent) (last : Int) (page : EventPage) : Prop where
  events : ∀ event ∈ page.events, event ∈ log ∧ event.sequence ≤ page.nextCursor
  cursor : page.nextCursor ≤ last

/-! ## One page -/

section Page

variable {log new : List LocalEvent} {page : EventPage} {last last' : Int}

theorem Within.append (h : Within log last page) (hlast : last ≤ last') :
    Within (log ++ new) last' page := by
  refine ⟨fun event hevent => ?_, h.cursor.trans hlast⟩
  obtain ⟨hlog, hle⟩ := h.events event hevent
  exact ⟨List.mem_append_left _ hlog, hle⟩

/-- What is appended lies above the cursor. -/
theorem whole_append_iff (hpage : Within log last page)
    (hnew : ∀ event ∈ new, last < event.sequence) :
    Whole (log ++ new) page ↔ Whole log page := by
  constructor
  · intro h event hevent hle
    exact h event (List.mem_append_left _ hevent) hle
  · intro h event hevent hle
    rcases List.mem_append.1 hevent with hold | hfresh
    · exact h event hold hle
    · have hlt := hnew event hfresh
      have hcursor := hpage.cursor
      omega

variable {event : LocalEvent}

theorem mem_appendLiveEvent (hnew : ¬ page.events.any fun existing =>
    existing.eventId = event.eventId) {other : LocalEvent} :
    other ∈ (appendLiveEvent (some page) event).events ↔ other ∈ page.events ∨ other = event := by
  rw [appendLiveEvent, Option.elim_some, if_neg hnew, List.mem_insertionSort, List.mem_append,
    List.mem_singleton]

theorem nextCursor_appendLiveEvent (hnew : ¬ page.events.any fun existing =>
    existing.eventId = event.eventId) :
    (appendLiveEvent (some page) event).nextCursor = max page.nextCursor event.sequence := by
  rw [appendLiveEvent, Option.elim_some, if_neg hnew]

theorem Within.appendLiveEvent (hevent : event ∈ log) (hle : event.sequence ≤ last)
    {data : Option EventPage} (hdata : ∀ page, data = some page → Within log last page) :
    Within log last (Web.appendLiveEvent data event) := by
  cases data with
  | none =>
    refine ⟨fun other hother => ?_, hle⟩
    rw [List.mem_singleton.1 hother]
    exact ⟨hevent, le_refl _⟩
  | some page =>
    have hpage := hdata page rfl
    by_cases hknown : page.events.any fun existing => existing.eventId = event.eventId
    · rw [Web.appendLiveEvent, Option.elim_some, if_pos hknown]
      exact hpage
    · refine ⟨fun other hother => ?_, ?_⟩
      · rw [nextCursor_appendLiveEvent hknown]
        rcases (mem_appendLiveEvent hknown).1 hother with hold | rfl
        · obtain ⟨hlog, hbelow⟩ := hpage.events other hold
          exact ⟨hlog, hbelow.trans (le_max_left _ _)⟩
        · exact ⟨hevent, le_max_right _ _⟩
      · rw [nextCursor_appendLiveEvent hknown]
        exact max_le hpage.cursor hle

/-- A live event leaves a page whole exactly when there is no event of the session between the
page's cursor and it. -/
theorem appendLiveEvent_whole_iff (hlog : Log.Increasing LocalEvent.sequence log)
    (hids : (log.map LocalEvent.eventId).Nodup) (hpage : Within log last page)
    (hwhole : Whole log page) (hevent : event ∈ log) :
    Whole log (appendLiveEvent (some page) event) ↔
      ∀ other ∈ log, ¬ (page.nextCursor < other.sequence ∧ other.sequence < event.sequence) := by
  by_cases hknown : page.events.any fun existing => existing.eventId = event.eventId
  · rw [appendLiveEvent, Option.elim_some, if_pos hknown]
    refine iff_of_true hwhole fun other _ hskipped => ?_
    obtain ⟨existing, hexisting, hid⟩ := List.any_eq_true.1 hknown
    obtain ⟨hin, hbelow⟩ := hpage.events existing hexisting
    rw [decide_eq_true_eq] at hid
    rw [List.inj_on_of_nodup_map hids hin hevent hid] at hbelow
    omega
  · constructor
    · intro h other hother hskipped
      have hle : other.sequence ≤ (appendLiveEvent (some page) event).nextCursor := by
        rw [nextCursor_appendLiveEvent hknown]
        exact hskipped.2.le.trans (le_max_right _ _)
      rcases (mem_appendLiveEvent hknown).1 (h other hother hle) with hold | rfl
      · have hbelow := (hpage.events other hold).2
        omega
      · omega
    · intro h other hother hle
      rw [nextCursor_appendLiveEvent hknown] at hle
      rw [mem_appendLiveEvent hknown]
      by_cases hbelow : other.sequence ≤ page.nextCursor
      · exact .inl (hwhole other hother hbelow)
      · right
        have hskipped := h other hother
        apply hlog.eq_of_key_eq hother hevent
        omega

end Page

/-! ## The answer of the host -/

variable {sessionId : Str} {server : EventServer}

/-- What the host answers is whole. -/
theorem Whole.of_answer (hvalid : server.store.Valid) {page : EventPage}
    (h : getSessionEvents server sessionId 0 = .ok page) :
    Whole (sessionLog sessionId server) page ∧
      Within (sessionLog sessionId server) server.store.lastSequence page := by
  have hpage : (EventScope.session sessionId).events server ⟨0, 1000⟩ = .ok page := h
  have hcovers := (covers_iff hvalid (le_refl 0) (by decide) hpage).2 (.inl rfl)
  obtain ⟨-, -, hcursor⟩ := (events_eq_ok hvalid (le_refl 0)).1 hpage
  have hmem : ∀ event, event ∈ page.events ↔ event ∈ sessionLog sessionId server ∧
      0 < event.sequence ∧ event.sequence ≤ page.nextCursor := by
    intro event
    rw [hcovers.exact, Log.mem_between]
    rfl
  have hrow : ∀ event ∈ sessionLog sessionId server,
      0 < event.sequence ∧ event.sequence ≤ server.store.lastSequence := by
    intro event hevent
    obtain ⟨row, hrow, rfl⟩ := List.mem_map.1 hevent
    have hstored := List.mem_of_mem_filter hrow
    exact ⟨hvalid.positive row hstored, hvalid.bounded row hstored⟩
  refine ⟨fun event hevent hle => (hmem event).2 ⟨hevent, (hrow event hevent).1, hle⟩,
    fun event hevent => ?_, ?_⟩
  · obtain ⟨hlog, -, hle⟩ := (hmem event).1 hevent
    exact ⟨hlog, hle⟩
  · rw [hcursor]
    cases hlast : page.events.getLast? with
    | none => exact hvalid.counted
    | some last =>
      exact (hrow last ((hmem last).1 (List.mem_of_getLast? hlast)).1).2

theorem eventIds_nodup (hvalid : server.store.Valid) :
    ((sessionLog sessionId server).map LocalEvent.eventId).Nodup := by
  rw [sessionLog, EventScope.log, List.map_map]
  exact hvalid.eventIds.sublist (List.filter_sublist.map _)

/-! ## The screen -/

namespace SessionView

/-- The history query has resolved, and no request is under way. -/
def Settled (view : SessionView) : Prop :=
  view.query.resolved = true ∧ view.query.request = .idle

instance (view : SessionView) : Decidable view.Settled :=
  inferInstanceAs (Decidable (_ ∧ _))

instance (log : List LocalEvent) (page : EventPage) : Decidable (Whole log page) :=
  inferInstanceAs (Decidable (∀ event ∈ log, _))

/-- Besides, the socket is open and nothing is in flight. -/
structure Quiet (view : SessionView) : Prop where
  settled : view.Settled
  opened : view.socket.state = .open_
  subscribed : view.socket.subscribed = true
  wire : view.socket.wire = []

/-- The page has no gap below its cursor. -/
def PageWhole (sessionId : Str) (view : SessionView) : Prop :=
  ∀ page ∈ view.query.data, Whole (sessionLog sessionId view.server) page

instance (sessionId : Str) (view : SessionView) : Decidable (PageWhole sessionId view) :=
  inferInstanceAs (Decidable (∀ page ∈ view.query.data, _))

/-- A live event that reaches the page of a settled query does not skip an event of the session, and
the query does not give up a request while the page has a gap. -/
def Joins (sessionId : Str) (view : SessionView) : ViewAction → Prop
  | .receive => view.Settled → view.socket.state = .open_ →
    ∀ message ∈ view.socket.wire.head?, ∀ event ∈ message.event?, event.sessionId = some sessionId →
      ∀ page ∈ view.query.data, ∀ other ∈ sessionLog sessionId view.server,
        ¬ (page.nextCursor < other.sequence ∧ other.sequence < event.sequence)
  | .giveUp => view.query.resolved = true → PageWhole sessionId view
  | .append _ _ _ _ _ => True
  | .answer => True
  | .arrive => True
  | .invalidate => True
  | .refetch => True
  | .connect => True
  | .subscribe => True
  | .opened => True
  | .lag _ _ => True
  | .close => True

instance (sessionId : Str) (view : SessionView) (action : ViewAction) :
    Decidable (Joins sessionId view action) := by
  cases action <;> unfold Joins <;> infer_instance

/-- What holds of the screen whatever its page has missed. -/
structure Sound (sessionId : Str) (view : SessionView) : Prop where
  valid : view.server.store.Valid
  data : ∀ page, view.query.data = some page →
    Within (sessionLog sessionId view.server) view.server.store.lastSequence page
  answered : ∀ page, view.query.request = .answered page →
    Whole (sessionLog sessionId view.server) page ∧
      Within (sessionLog sessionId view.server) view.server.store.lastSequence page
  wire : ∀ event, .event event ∈ view.socket.wire →
    event.sequence ≤ view.server.store.lastSequence ∧
      (event.sessionId = some sessionId → event ∈ sessionLog sessionId view.server)
  resolved : view.query.resolved = true → view.query.data.isSome = true

variable {cancels : HistoryQuery → Bool} {view : SessionView}

theorem sound_start (hvalid : server.store.Valid) : Sound sessionId (start server) := by
  refine ⟨hvalid, ?_, ?_, ?_, ?_⟩ <;> simp [start, HistoryQuery.mounted, EventsSocket.connecting]

theorem Sound.invalidate (h : Sound sessionId view) (cancels : HistoryQuery → Bool) :
    Sound sessionId { view with query := view.query.invalidate cancels } := by
  refine ⟨h.valid, ?_, ?_, h.wire, ?_⟩
  all_goals unfold HistoryQuery.invalidate HistoryQuery.refetch
  · split
    · exact h.data
    · split <;> exact h.data
  · split
    · intro page hpage
      cases hpage
    · split
      · intro page hpage
        cases hpage
      · exact h.answered
  · split
    · exact h.resolved
    · split <;> exact h.resolved

/-- An append puts at most one event at the end of the session's log, above everything else. -/
theorem step_append (cancels : HistoryQuery → Bool) (h : Sound sessionId view) (eventId : Uuid)
    (now : Int) (session : Option Str) (kind : Str) (payload : Bytes) :
    ∃ store socket new,
      view.step cancels sessionId (.append eventId now session kind payload) =
        ⟨{ view.server with store }, view.query, socket⟩ ∧
      store.Valid ∧ view.server.store.lastSequence ≤ store.lastSequence ∧
      sessionLog sessionId { view.server with store } = sessionLog sessionId view.server ++ new ∧
      (∀ event ∈ new, view.server.store.lastSequence < event.sequence) ∧
      ∀ event, .event event ∈ socket.wire → .event event ∈ view.socket.wire ∨
        event.sequence ≤ store.lastSequence ∧ (event.sessionId = some sessionId → event ∈ new) := by
  obtain ⟨new, hlog, hnew, hlast⟩ := log_append (.session sessionId) view.server eventId now
    view.server.workspaceId session kind payload
  simp only [step]
  cases hok : view.server.store.appendEvent eventId now view.server.workspaceId session kind
      payload with
  | error error =>
    refine ⟨view.server.store, view.socket, [], rfl, h.valid, le_refl _,
      (List.append_nil _).symm, by simp, fun event hevent => .inl hevent⟩
  | ok result =>
    obtain ⟨store, row⟩ := result
    have hvalid := h.valid.appendEvent hok
    simp only [Tables.run, hok] at hlog hlast
    refine ⟨store, view.socket.broadcast (.fromRecord row), new, rfl, hvalid, hlast, hlog, hnew, ?_⟩
    intro event hevent
    unfold EventsSocket.broadcast at hevent
    split at hevent
    · rcases List.mem_append.1 hevent with hold | hsent
      · exact .inl hold
      · right
        obtain rfl : event = .fromRecord row := by simpa using hsent
        obtain ⟨-, -, -, hrow, rfl⟩ := Tables.appendEvent_eq_ok.1 hok
        refine ⟨le_refl row.sequence, fun hsession => ?_⟩
        have hin : LocalEvent.fromRecord row ∈ (EventScope.session sessionId).log
            { view.server with store := { view.server.store with
              events := view.server.store.events ++ [row]
              lastSequence := row.sequence } } := by
          refine List.mem_map_of_mem (List.mem_filter.2 ⟨by simp, ?_⟩)
          have hmine : row.workspaceId = view.server.workspaceId := by rw [hrow]
          have hours : row.sessionId = some sessionId := hsession
          simp [EventScope.includes, hmine, hours]
        have hsplit : LocalEvent.fromRecord row ∈
            (EventScope.session sessionId).log view.server ++ new := hlog ▸ hin
        rcases List.mem_append.1 hsplit with hold | hfresh
        · obtain ⟨old, hstored, heq⟩ := List.mem_map.1 hold
          have hbound := h.valid.bounded old (List.mem_of_mem_filter hstored)
          have hsame : old.sequence = row.sequence := congrArg LocalEvent.sequence heq
          have hnext : row.sequence = view.server.store.lastSequence + 1 := by rw [hrow]
          omega
        · exact hfresh
    · exact .inl hevent

theorem sound_append (h : Sound sessionId view) (eventId : Uuid) (now : Int)
    (session : Option Str) (kind : Str) (payload : Bytes) :
    Sound sessionId (view.step cancels sessionId (.append eventId now session kind payload)) := by
  obtain ⟨store, socket, new, hstep, hvalid, hlast, hlog, hnew, hwire⟩ :=
    step_append cancels h eventId now session kind payload
  rw [hstep]
  refine ⟨hvalid, ?_, ?_, ?_, h.resolved⟩
  · intro page hpage
    rw [hlog]
    exact (h.data page hpage).append hlast
  · intro page hpage
    obtain ⟨hwhole, hwithin⟩ := h.answered page hpage
    rw [hlog]
    exact ⟨(whole_append_iff hwithin hnew).2 hwhole, hwithin.append hlast⟩
  · intro event hevent
    rw [hlog]
    rcases hwire event hevent with hold | ⟨hle, hin⟩
    · obtain ⟨hle, hin⟩ := h.wire event hold
      exact ⟨hle.trans hlast, fun hsession => List.mem_append_left _ (hin hsession)⟩
    · exact ⟨hle, fun hsession => List.mem_append_right _ (hin hsession)⟩

theorem sound_receive (h : Sound sessionId view) :
    Sound sessionId (view.receive cancels sessionId) := by
  unfold receive
  split
  · cases hwire : view.socket.wire with
    | nil => exact h
    | cons message rest =>
      have hrest : Sound sessionId
          { view with socket := { view.socket with wire := view.socket.wire.tail } } := by
        refine ⟨h.valid, h.data, h.answered, ?_, h.resolved⟩
        intro event hevent
        exact h.wire event (List.mem_of_mem_tail hevent)
      rw [hwire] at hrest
      cases message with
      | replayRequired skipped => exact hrest.invalidate cancels
      | event event =>
        show Sound sessionId (onEvent sessionId _ event)
        unfold onEvent
        split
        · exact hrest
        · rename_i hsession
          obtain ⟨hle, hin⟩ := h.wire event (by rw [hwire]; exact List.mem_cons_self)
          refine ⟨h.valid, ?_, h.answered, hrest.wire, fun _ => rfl⟩
          intro page hpage
          rw [← Option.some.inj hpage]
          exact .appendLiveEvent (hin (not_not.1 hsession)) hle h.data
  · exact h

theorem sound_step (h : Sound sessionId view) (action : ViewAction) :
    Sound sessionId (view.step cancels sessionId action) := by
  cases action with
  | append eventId now session kind payload => exact sound_append h eventId now session kind payload
  | answer =>
    refine ⟨h.valid, ?_, ?_, h.wire, ?_⟩ <;> simp only [step, HistoryQuery.answer] <;> split
    · exact h.data
    · exact h.data
    · intro page hpage
      cases hanswer : getSessionEvents view.server sessionId 0 with
      | error error =>
        rw [hanswer] at hpage
        cases hpage
      | ok answer =>
        rw [hanswer] at hpage
        cases hpage
        exact Whole.of_answer h.valid hanswer
    · exact h.answered
    · exact h.resolved
    · exact h.resolved
  | arrive =>
    simp only [step, HistoryQuery.arrive]
    cases hrequest : view.query.request with
    | answered answer =>
      refine ⟨h.valid, ?_, ?_, h.wire, fun _ => rfl⟩
      · intro page hpage
        rw [← Option.some.inj hpage]
        exact (h.answered answer hrequest).2
      · intro page hpage
        cases hpage
    | _ => exact h
  | giveUp =>
    refine ⟨h.valid, h.data, ?_, h.wire, h.resolved⟩
    intro page hpage
    cases hpage
  | invalidate => exact h.invalidate cancels
  | refetch => exact h.invalidate fun _ => false
  | connect =>
    simp only [step]
    split
    · exact { h with wire := fun event hevent => absurd hevent (by simp [EventsSocket.connecting]) }
    · exact h
  | subscribe =>
    simp only [step]
    split
    · exact h
    · exact { h with wire := h.wire }
  | opened =>
    simp only [step]
    split
    · exact { h with wire := h.wire }
    · exact h
  | lag sent skipped =>
    refine { h with wire := ?_ }
    intro event hevent
    simp only [step, EventsSocket.lag] at hevent
    split at hevent
    · apply h.wire event
      rcases List.mem_append.1 hevent with hold | hlater
      · exact List.mem_of_mem_take hold
      · rcases List.mem_cons.1 hlater with hnone | hlater
        · cases hnone
        · exact List.mem_of_mem_drop hlater
    · exact h.wire event hevent
  | receive => exact sound_receive h
  | close =>
    exact { h with wire := fun event hevent => absurd hevent (by simp [step, EventsSocket.closed]) }

/-! ## Runs -/

/-- Once the query has settled, its page is whole. -/
def Kept (sessionId : Str) (view : SessionView) : Prop := view.Settled → PageWhole sessionId view

theorem Kept.invalidate (h : Kept sessionId view) (cancels : HistoryQuery → Bool) :
    Kept sessionId { view with query := view.query.invalidate cancels } := by
  unfold HistoryQuery.invalidate HistoryQuery.refetch
  split
  · intro hsettled
    cases hsettled.2
  · split
    · intro hsettled
      cases hsettled.2
    · exact h

/-- The page stays whole when a message is taken exactly when it joins on. -/
theorem receive_kept_iff (h : Sound sessionId view) (hkept : Kept sessionId view) :
    Joins sessionId view .receive ↔ Kept sessionId (view.receive cancels sessionId) := by
  unfold receive
  split
  · rename_i hopen
    cases hwire : view.socket.wire with
    | nil =>
      refine iff_of_true (fun _ _ message hmessage => ?_) hkept
      rw [hwire] at hmessage
      cases hmessage
    | cons message rest =>
      cases message with
      | replayRequired skipped =>
        refine iff_of_true (fun _ _ message hmessage event hevent => ?_) ?_
        · rw [hwire] at hmessage
          cases hmessage
          cases hevent
        · have hrest : Kept sessionId
              { view with socket := { view.socket with wire := view.socket.wire.tail } } := hkept
          rw [hwire] at hrest
          exact hrest.invalidate cancels
      | event event =>
        have hjoins : Joins sessionId view .receive ↔
            (view.Settled → event.sessionId = some sessionId → ∀ page ∈ view.query.data,
              ∀ other ∈ sessionLog sessionId view.server,
                ¬ (page.nextCursor < other.sequence ∧ other.sequence < event.sequence)) := by
          have hhead : view.socket.wire.head? = some (.event event) := by rw [hwire]; rfl
          constructor
          · intro hj hsettled
            exact hj hsettled hopen _ hhead event rfl
          · intro hj hsettled _ message hmessage event' hevent
            rw [hhead] at hmessage
            cases hmessage
            cases hevent
            exact hj hsettled
        rw [hjoins]
        show _ ↔ Kept sessionId (onEvent sessionId _ event)
        unfold onEvent
        split
        · rename_i hother
          exact iff_of_true (fun _ hsession => absurd hsession hother) hkept
        · rename_i hsession
          rw [not_not] at hsession
          obtain ⟨-, hin⟩ := h.wire event (by rw [hwire]; exact List.mem_cons_self)
          refine forall_congr' fun hsettled => ?_
          obtain ⟨page, hpage⟩ := Option.isSome_iff_exists.1 (h.resolved hsettled.1)
          have happend := appendLiveEvent_whole_iff (log_increasing h.valid)
            (eventIds_nodup h.valid) (h.data page hpage) (hkept hsettled page hpage) (hin hsession)
          constructor
          · intro hj page' hpage'
            obtain rfl : appendLiveEvent view.query.data event = page' := Option.some.inj hpage'
            rw [hpage]
            exact happend.2 (hj hsession page hpage)
          · intro hwhole _ page' hpage'
            obtain rfl : page = page' := Option.some.inj (hpage.symm.trans hpage')
            apply happend.1
            have hafter := hwhole (appendLiveEvent view.query.data event) rfl
            rwa [hpage] at hafter
  · rename_i hclosed
    exact iff_of_true (fun _ hopen => absurd hopen hclosed) hkept

theorem joins_iff (h : Sound sessionId view) (hkept : Kept sessionId view) (action : ViewAction) :
    Joins sessionId view action ↔ Kept sessionId (view.step cancels sessionId action) := by
  cases action with
  | append eventId now session kind payload =>
    obtain ⟨store, socket, new, hstep, -, -, hlog, hnew, -⟩ :=
      step_append cancels h eventId now session kind payload
    rw [hstep]
    refine iff_of_true trivial fun hsettled page hpage => ?_
    show Whole (sessionLog sessionId { view.server with store }) page
    rw [hlog]
    exact (whole_append_iff (h.data page hpage) hnew).2 (hkept hsettled page hpage)
  | answer =>
    refine iff_of_true trivial ?_
    simp only [step, HistoryQuery.answer]
    split
    · intro hsettled
      cases hanswer : getSessionEvents view.server sessionId 0 with
      | error error =>
        rw [hanswer] at hsettled
        cases hsettled.2
      | ok answer =>
        rw [hanswer] at hsettled
        cases hsettled.2
    · exact hkept
  | arrive =>
    refine iff_of_true trivial ?_
    simp only [step, HistoryQuery.arrive]
    cases hrequest : view.query.request with
    | answered answer =>
      intro _ page hpage
      rw [← Option.some.inj hpage]
      exact (h.answered answer hrequest).1
    | _ => exact hkept
  | giveUp =>
    constructor
    · intro hj hsettled
      exact hj hsettled.1
    · intro hafter hresolved
      exact hafter ⟨hresolved, rfl⟩
  | invalidate => exact iff_of_true trivial (hkept.invalidate cancels)
  | refetch => exact iff_of_true trivial (hkept.invalidate fun _ => false)
  | connect =>
    refine iff_of_true trivial ?_
    simp only [step]
    split <;> exact hkept
  | subscribe =>
    refine iff_of_true trivial ?_
    simp only [step]
    split <;> exact hkept
  | opened =>
    refine iff_of_true trivial ?_
    simp only [step]
    split <;> exact hkept
  | lag sent skipped => exact iff_of_true trivial hkept
  | receive => exact receive_kept_iff h hkept
  | close => exact iff_of_true trivial hkept

/-- In the runs whose live events join on, and only in these, the page is whole whenever the history
query has resolved and no request is under way; so it is when the screen is quiet. -/
theorem session_page_whole_iff (cancels : HistoryQuery → Bool) (sessionId : Str)
    (server : EventServer) (hvalid : server.store.Valid) (actions : List ViewAction) :
    ((∀ t ∈ (machine cancels sessionId).run (start server) actions,
        Joins sessionId t.before t.input) ↔
      ∀ t ∈ (machine cancels sessionId).run (start server) actions,
        t.after.Settled → PageWhole sessionId t.after) ∧
    ((∀ t ∈ (machine cancels sessionId).run (start server) actions,
        Joins sessionId t.before t.input) →
      ∀ t ∈ (machine cancels sessionId).run (start server) actions,
        t.after.Quiet → PageWhole sessionId t.after) := by
  have hiff : (∀ t ∈ (machine cancels sessionId).run (start server) actions,
      Joins sessionId t.before t.input) ↔
      ∀ t ∈ (machine cancels sessionId).run (start server) actions, Kept sessionId t.after := by
    apply Machine.forall_run_iff (I := fun view => Sound sessionId view ∧ Kept sessionId view)
      (J := fun _ => True)
    · exact fun view action h _ => joins_iff h.1 h.2 action
    · exact fun view action h _ hafter _ => ⟨sound_step h.1 action, hafter⟩
    · refine ⟨sound_start hvalid, fun hsettled => ?_⟩
      cases hsettled.1
    · exact fun _ _ => trivial
  exact ⟨hiff, fun hjoins t ht hquiet => hiff.1 hjoins t ht hquiet.settled⟩

/-- The socket is open before the history arrives, and an event is appended then. -/
def joined : List ViewAction :=
  [.answer, .subscribe, .opened, .arrive, .append 12 6 (some "one") "session_update" [], .receive]

theorem session_page_whole_iff_joined :
    ∃ t ∈ (machine (fun _ => true) "one").run (start oneEvent) joined, t.after.Quiet ∧
      PageWhole "one" t.after ∧ t.after.query.data.map EventPage.nextCursor = some 2 := by
  let t := (machine (fun _ => true) "one").fire
    ((machine (fun _ => true) "one").final (start oneEvent) (joined.take 5)) .receive
  have ht : t ∈ (machine (fun _ => true) "one").run (start oneEvent) joined :=
    List.mem_of_getElem? (show ((machine (fun _ => true) "one").run (start oneEvent) joined)[5]? =
      some t from rfl)
  have hquiet : t.after.Quiet := ⟨by decide, by decide, by decide, by decide⟩
  exact ⟨t, ht, hquiet, (session_page_whole_iff (fun _ => true) "one" oneEvent oneEvent_valid
    joined).2 (by decide) t ht hquiet, by decide⟩

/-- The socket is closed and open again, and what was appended in between is missing. -/
def reconnected : List ViewAction :=
  [.answer, .subscribe, .opened, .arrive, .close,
    .append 12 6 (some "one") "session_update" [], .connect, .subscribe, .opened,
    .append 13 7 (some "one") "prompt_completed" [], .receive]

theorem reconnected_page_has_gap :
    ((machine (fun _ => true) "one").final (start oneEvent) reconnected).Quiet ∧
      ¬ PageWhole "one" ((machine (fun _ => true) "one").final (start oneEvent) reconnected) ∧
        ((machine (fun _ => true) "one").final (start oneEvent) reconnected).query.data.map
          (fun page => (page.events.map LocalEvent.sequence, page.nextCursor)) =
            some ([1, 3], 3) :=
  ⟨⟨by decide, by decide, by decide, by decide⟩, by decide, by decide⟩

end SessionView

end LeaveCli.Web
