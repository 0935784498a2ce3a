import LeaveCli.Web.Proof.EventsConnection
import LeaveCli.Web.Proof.LivePage

/-!
# The page that is shown

Whatever a page has missed, it lists events of the session in the order of the host's log, each
once and none above its cursor: the host answers so (`Ordered.of_answer`), and live events leave it
so because they are the host's (`Sound`). `inOrder_step` says it of the screen with one socket, and
`page_of_run` of the screen with all of them.
-/

namespace LeaveCli.Web

open Lib LeaveCli.Core LeaveCli.Host

variable {sessionId : Str} {server : EventServer}

theorem Ordered.of_log (hvalid : server.store.Valid) {page : EventPage}
    (hsequences : Log.Increasing LocalEvent.sequence page.events)
    (hwithin : Within (sessionLog sessionId server) server.store.lastSequence page) :
    Ordered page := by
  have hlog : ∀ event ∈ page.events, event ∈ sessionLog sessionId server :=
    fun event hevent => (hwithin.events event hevent).1
  have hidentified := SessionView.identified_of_log hvalid hlog
  refine ⟨hsequences, ?_, fun event hevent => (hwithin.events event hevent).2⟩
  exact eventIds_of_increasing (SessionView.consistent_of_identified hidentified) hsequences

theorem Ordered.of_answer (hvalid : server.store.Valid) {page : EventPage}
    (h : getSessionEvents server sessionId 0 = .ok page) : Ordered page := by
  have hpage : (EventScope.session sessionId).events server ⟨0, 1000⟩ = .ok page := h
  obtain ⟨-, hevents, -⟩ := (events_eq_ok hvalid (le_refl 0)).1 hpage
  refine .of_log hvalid ?_ (Whole.of_answer hvalid h).2
  rw [hevents]
  exact (log_increasing hvalid).sublist ((List.take_sublist _ _).trans List.filter_sublist)

/-! ## The query -/

/-- The page and the answer that is under way are in order. -/
structure HistoryQuery.InOrder (query : HistoryQuery) : Prop where
  data : ∀ page ∈ query.data, Ordered page
  answered : ∀ page, query.request = .answered page → Ordered page

namespace HistoryQuery.InOrder

variable {query : HistoryQuery}

theorem refetch (h : query.InOrder) : query.refetch.InOrder := by
  unfold HistoryQuery.refetch
  split
  · exact ⟨h.data, by simp⟩
  · exact h

theorem invalidate (h : query.InOrder) (cancels : HistoryQuery → Bool) :
    (query.invalidate cancels).InOrder := by
  unfold HistoryQuery.invalidate
  split
  · exact ⟨h.data, by simp⟩
  · exact h.refetch

theorem answer (h : query.InOrder) {result : Except ApiError EventPage}
    (hresult : ∀ page, result = .ok page → Ordered page) : (query.answer result).InOrder := by
  unfold HistoryQuery.answer
  split
  · cases result with
    | error error => exact ⟨h.data, by simp [Except.toOption]⟩
    | ok page =>
      refine ⟨h.data, fun other hother => ?_⟩
      obtain rfl : page = other := by simpa [Except.toOption] using hother
      exact hresult page rfl
  · exact h

theorem arrive (h : query.InOrder) : query.arrive.InOrder := by
  unfold HistoryQuery.arrive
  cases hrequest : query.request with
  | idle => exact h
  | asked => exact h
  | answered page =>
    refine ⟨fun other hother => ?_, by simp⟩
    obtain rfl : page = other := by simpa using hother
    exact h.answered page hrequest

/-- A live event of the session. -/
theorem live (h : query.InOrder) (hvalid : server.store.Valid) {last : Int}
    (hdata : ∀ page, query.data = some page → Within (sessionLog sessionId server) last page)
    {event : LocalEvent} (hevent : event ∈ sessionLog sessionId server) :
    (query.setQueryData fun page => appendLiveEvent page event).InOrder := by
  have hlog : ∀ other ∈ pageEvents query.data ++ [event], other ∈ sessionLog sessionId server := by
    intro other hother
    rcases List.mem_append.1 hother with hold | hnew
    · cases hpage : query.data with
      | none => simp [pageEvents, hpage] at hold
      | some page =>
        rw [hpage] at hold
        exact ((hdata page hpage).events other hold).1
    · exact List.mem_singleton.1 hnew ▸ hevent
  have hconsistent :=
    SessionView.consistent_of_identified (SessionView.identified_of_log hvalid hlog)
  refine ⟨fun page hpage => ?_, h.answered⟩
  obtain rfl := Option.some.inj hpage
  exact ordered_appendLiveEvent h.data hconsistent

end HistoryQuery.InOrder

/-! ## The screen with one socket -/

namespace SessionView

variable {cancels : HistoryQuery → Bool} {view : SessionView}

theorem inOrder_receive (hsound : Sound sessionId view) (h : view.query.InOrder) :
    (view.receive cancels sessionId).query.InOrder := by
  unfold receive
  split
  · cases hwire : view.socket.wire with
    | nil => exact h
    | cons message rest =>
      cases message with
      | replayRequired skipped => exact h.invalidate cancels
      | event event =>
        show (onEvent sessionId _ event).query.InOrder
        unfold onEvent
        split
        · exact h
        · rename_i hsession
          obtain ⟨-, hin⟩ := hsound.wire event (by simp [hwire])
          exact h.live hsound.valid hsound.data (hin (not_not.1 hsession))
  · exact h

theorem inOrder_step (h : Sound sessionId view ∧ view.query.InOrder) (action : ViewAction) :
    Sound sessionId (view.step cancels sessionId action) ∧
      (view.step cancels sessionId action).query.InOrder := by
  obtain ⟨hsound, h⟩ := h
  refine ⟨sound_step hsound action, ?_⟩
  cases action with
  | append eventId now session kind payload =>
    rw [step]
    cases (view.server.store.appendEvent eventId now view.server.workspaceId session kind
      payload).toOption with
    | none => exact h
    | some result => exact h
  | answer => exact h.answer fun page hpage => .of_answer hsound.valid hpage
  | arrive => exact h.arrive
  | giveUp => exact ⟨h.data, by simp [step, HistoryQuery.giveUp]⟩
  | invalidate => exact h.invalidate cancels
  | refetch => exact h.refetch
  | connect => rw [step]; split <;> exact h
  | subscribe => rw [step]; split <;> exact h
  | opened => rw [step]; split <;> exact h
  | lag sent skipped => exact h
  | receive => exact inOrder_receive hsound h
  | close => exact h

end SessionView

/-! ## The screen -/

namespace LiveScreen

/-- However often the connection was lost, the page lists events of the session that the host has,
in the order of its log, each once and up to the cursor. -/
theorem page_of_run (cancels : HistoryQuery → Bool) (sessionId : Str) (server : EventServer)
    (hvalid : server.store.Valid) (actions : List ScreenAction) :
    let s := (machine cancels sessionId).final (start server) actions
    ∀ page ∈ s.query.data, Ordered page ∧
      Within (sessionLog sessionId s.server) s.server.store.lastSequence page := by
  have hstart : SessionView.Sound sessionId (SessionView.start server) ∧
      (SessionView.start server).query.InOrder := by
    refine ⟨SessionView.sound_start hvalid, ?_, ?_⟩ <;>
      simp [SessionView.start, HistoryQuery.mounted]
  have hrun := Machine.final_view_invariant (M := machine cancels sessionId)
    (N := SessionView.machine cancels sessionId)
    (P := fun s => ∃ old current, Settled s old current)
    (Q := fun view => SessionView.Sound sessionId view ∧ view.query.InOrder) view shown
    (fun _ => rfl) (fun _ action h => settled_step h action)
    (fun _ action h => SessionView.inOrder_step h action) ⟨[], .new, settled_start server⟩ hstart
    actions
  intro s page hpage
  exact ⟨hrun.2.data page hpage, hrun.1.data page hpage⟩

/-- The connection is lost after the history arrived, and made again. -/
def lost : List ScreenAction :=
  [.answer, .subscribe 0, .opened 0, .arrive, .closed 0,
    .append 12 6 (some "one") "session_update" [], .timeout 0, .subscribe 1, .opened 1,
    .append 13 7 (some "one") "prompt_completed" [], .message 1]

theorem page_of_run_lost :
    ∃ page, ((machine (fun _ => true) "one").final (start oneEvent) lost).query.data = some page ∧
      page.nextCursor = 3 ∧ Ordered page := by
  have hcursor : ((machine (fun _ => true) "one").final (start oneEvent) lost).query.data.map
      EventPage.nextCursor = some 3 := by decide
  obtain ⟨page, hpage, hnext⟩ := Option.map_eq_some_iff.1 hcursor
  exact ⟨page, hpage, hnext,
    (page_of_run (fun _ => true) "one" oneEvent oneEvent_valid lost page hpage).1⟩

end LiveScreen

end LeaveCli.Web
