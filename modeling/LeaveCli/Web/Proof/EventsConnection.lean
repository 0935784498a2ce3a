import LeaveCli.Lib.Refinement
import LeaveCli.Web.EventsConnection

/-!
# One connection at a time

`Settled` is what `connectLocalEvents` keeps up: every socket but the last is closed, and until the
screen is left either the last one lives and no timer runs, or it is closed and one timer runs, with
the delay that is due (`failures`). `connected_of_run` says so of every run, and `left_of_run` what
remains when the screen has been left: nothing. With that the screen sees one socket that opens and
closes again and again: `screen_refines` maps every run of `LiveScreen` to one of `SessionView`.
-/

namespace LeaveCli.Web

open Lib LeaveCli.Core LeaveCli.Host

/-! ## Sockets -/

namespace WebSocket

/-- A socket as the screen sees it. -/
def seen (socket : WebSocket) : EventsSocket :=
  match socket.readyState with
  | .connecting => ⟨.connecting, socket.subscribed, socket.wire⟩
  | .open_ => ⟨.open_, socket.subscribed, socket.wire⟩
  | .closing => .closed
  | .closed => .closed

/-- What the browser knows of it. -/
def ends (socket : WebSocket) : ReadyState × Bool := (socket.readyState, socket.opened)

variable {socket : WebSocket}

theorem seen_of_not_live (h : socket.live = false) : socket.seen = .closed := by
  cases hstate : socket.readyState <;> simp_all [live, seen]

theorem live_of_connecting (h : socket.readyState = .connecting) : socket.live = true := by
  simp [live, h]

theorem live_of_open (h : socket.readyState = .open_) : socket.live = true := by
  simp [live, h]

theorem not_live_of_closed (h : socket.readyState = .closed) : socket.live = false := by
  simp [live, h]

theorem seen_of_live (h : socket.live = true) : socket.seen.state ≠ .closed := by
  obtain ⟨readyState, opened, subscribed, wire⟩ := socket
  cases readyState with
  | connecting => simp [seen]
  | open_ => simp [seen]
  | closing => cases h
  | closed => cases h

/-- A turn at the host's end is seen while the socket lives. -/
theorem seen_atHost {turn : EventsSocket → EventsSocket}
    (hturn : ∀ state events, turn { events with state := state } =
      { turn events with state := state }) (h : socket.live = true) :
    (socket.atHost turn).seen = turn socket.seen := by
  obtain ⟨readyState, opened, subscribed, wire⟩ := socket
  cases readyState with
  | connecting => exact (hturn .connecting ⟨.open_, subscribed, wire⟩).symm
  | open_ => exact (hturn .open_ ⟨.open_, subscribed, wire⟩).symm
  | closing => cases h
  | closed => cases h

end WebSocket

theorem EventsSocket.broadcast_state (event : LocalEvent) (state : SocketState)
    (events : EventsSocket) : ({ events with state := state }).broadcast event =
      { events.broadcast event with state := state } := by
  unfold EventsSocket.broadcast
  split <;> rfl

theorem EventsSocket.lag_state (sent skipped : Nat) (state : SocketState)
    (events : EventsSocket) : ({ events with state := state }).lag sent skipped =
      { events.lag sent skipped with state := state } := by
  unfold EventsSocket.lag
  split <;> rfl

section Lists

variable {α β : Type} {f : α → β} {g : α → α}

theorem map_modify_of_fixed (h : ∀ a, f (g a) = f a) (l : List α) (i : Nat) :
    (l.modify i g).map f = l.map f := by
  induction l generalizing i with
  | nil => simp
  | cons a l ih =>
    cases i with
    | zero => simp [h]
    | succ i => simp [ih]

theorem modify_concat (l : List α) (last : α) (i : Nat) : (l ++ [last]).modify i g =
    if i = l.length then l ++ [g last] else l.modify i g ++ [last] := by
  induction l generalizing i with
  | nil => cases i <;> simp
  | cons a l ih =>
    cases i with
    | zero => simp
    | succ i =>
      simp only [List.cons_append, List.modify_succ_cons, ih, List.length_cons,
        Nat.add_right_cancel_iff]
      split <;> rfl

end Lists

/-! ## What is kept up -/

/-- How often a connection failed since one last opened, of the sockets' `opened`, newest first. -/
def failures : List Bool → Nat
  | [] => 0
  | opened :: older => if opened then 1 else failures older + 1

namespace LiveScreen

/-- Where the connection stands, with the sockets before the last one and that one. -/
inductive Phase (s : LiveScreen) (old : List WebSocket) (current : WebSocket) : Prop
  | connecting (running : s.connection.stopped = false)
      (state : current.readyState = .connecting) (unopened : current.opened = false)
      (timers : s.timers = []) (told : s.socketState = .connecting)
      (count : s.connection.retryCount = failures (old.map (·.opened)).reverse)
  | open_ (running : s.connection.stopped = false) (state : current.readyState = .open_)
      (opened : current.opened = true) (timers : s.timers = []) (told : s.socketState = .open_)
      (count : s.connection.retryCount = 0)
  | waiting (running : s.connection.stopped = false) (state : current.readyState = .closed)
      (timer : Timer) (timers : s.timers = [timer])
      (retryTimer : s.connection.retryTimer = some timer.id)
      (delay : timer.delay =
        retryDelay (failures (current.opened :: (old.map (·.opened)).reverse) - 1))
      (told : s.socketState = .closed)
      (count : s.connection.retryCount =
        failures (current.opened :: (old.map (·.opened)).reverse))
  | left (stopped : s.connection.stopped = true) (state : current.live = false)
      (timers : s.timers = [])

structure Settled (s : LiveScreen) (old : List WebSocket) (current : WebSocket) : Prop where
  sockets : s.sockets = old ++ [current]
  latest : s.connection.socket = some old.length
  closed : ∀ socket ∈ old, socket.readyState = .closed
  phase : Phase s old current

variable {s : LiveScreen} {old : List WebSocket} {current : WebSocket}

namespace Settled

theorem getElem?_latest (h : Settled s old current) : s.sockets[old.length]? = some current := by
  simp [h.sockets]

/-- Nothing happens to a socket that is closed. -/
theorem turned {α : Type} (h : Settled s old current) {turn : WebSocket → Option α}
    (hturn : ∀ socket, socket.readyState = .closed → turn socket = none) (i : Nat) :
    s.sockets[i]?.bind turn = if i = old.length then turn current else none := by
  split
  · rename_i hi
    rw [hi, h.getElem?_latest, Option.bind_some]
  · rename_i hi
    rcases Nat.lt_or_gt_of_ne hi with hlt | hgt
    · rw [h.sockets, List.getElem?_append_left hlt, List.getElem?_eq_getElem hlt, Option.bind_some]
      exact hturn _ (h.closed _ (List.getElem_mem hlt))
    · rw [List.getElem?_eq_none (by simp [h.sockets]; omega), Option.bind_none]

theorem set_latest (h : Settled s old current) (socket : WebSocket) :
    s.sockets.set old.length socket = old ++ [socket] := by
  simp [h.sockets]

/-- Whatever leaves the browser's part as it is. -/
theorem congr (h : Settled s old current) {s' : LiveScreen} {old' : List WebSocket}
    {current' : WebSocket} (hsockets : s'.sockets = old' ++ [current'])
    (hconnection : s'.connection = s.connection) (htimers : s'.timers = s.timers)
    (htold : s'.socketState = s.socketState)
    (hold : old'.map WebSocket.ends = old.map WebSocket.ends)
    (hcurrent : current'.ends = current.ends) : Settled s' old' current' := by
  have hflags : old'.map (·.opened) = old.map (·.opened) := by
    simpa [Function.comp_def, WebSocket.ends] using congrArg (List.map Prod.snd) hold
  have hstate : current'.readyState = current.readyState := congrArg Prod.fst hcurrent
  have hopened : current'.opened = current.opened := congrArg Prod.snd hcurrent
  have hlength : old'.length = old.length := by simpa using congrArg List.length hold
  refine ⟨hsockets, ?_, fun socket hmem => ?_, ?_⟩
  · rw [hconnection, hlength]
    exact h.latest
  · obtain ⟨other, hother, hends⟩ := List.mem_map.1 (hold ▸ List.mem_map_of_mem hmem)
    exact (congrArg Prod.fst hends).symm.trans (h.closed other hother)
  · cases h.phase with
    | connecting running state unopened timers told count =>
      exact .connecting (hconnection ▸ running) (hstate.trans state) (hopened.trans unopened)
        (htimers.trans timers) (htold.trans told) (by rw [hconnection, hflags, count])
    | open_ running state opened timers told count =>
      exact .open_ (hconnection ▸ running) (hstate.trans state) (hopened.trans opened)
        (htimers.trans timers) (htold.trans told) (hconnection ▸ count)
    | waiting running state timer timers retryTimer delay told count =>
      exact .waiting (hconnection ▸ running) (hstate.trans state) timer (htimers.trans timers)
        (hconnection ▸ retryTimer) (by rw [hopened, hflags, delay]) (htold.trans told)
        (by rw [hconnection, hopened, hflags, count])
    | left stopped state timers =>
      exact .left (hconnection ▸ stopped) (by simpa [WebSocket.live, hstate] using state)
        (htimers.trans timers)

end Settled

/-! ## What the screen sees -/

/-- The screen with the last socket only. -/
def view (s : LiveScreen) : SessionView :=
  ⟨s.server, s.query, (s.connection.socket.bind (s.sockets[·]?)).elim .closed WebSocket.seen⟩

/-- What happens to the last socket while it lives. -/
def onLatest (s : LiveScreen) (socket : Nat) (action : ViewAction) : List ViewAction :=
  if s.connection.socket = some socket ∧ s.sockets[socket]?.any WebSocket.live then [action] else []

/-- What the screen sees of an action. -/
def shown (s : LiveScreen) : ScreenAction → List ViewAction
  | .append eventId now session kind payload => [.append eventId now session kind payload]
  | .answer => [.answer]
  | .arrive => [.arrive]
  | .giveUp => [.giveUp]
  | .invalidate => [.invalidate]
  | .refetch => [.refetch]
  | .subscribe socket => s.onLatest socket .subscribe
  | .lag socket sent skipped => s.onLatest socket (.lag sent skipped)
  | .opened socket => s.onLatest socket .opened
  | .message socket => s.onLatest socket .receive
  | .closed socket => s.onLatest socket .close
  | .timeout timer => if s.timers.any fun other => other.id = timer then [.connect] else []
  | .leave => [.close]

theorem Settled.view_eq (h : Settled s old current) :
    s.view = ⟨s.server, s.query, current.seen⟩ := by
  simp [view, h.latest, h.getElem?_latest]

theorem Settled.onLatest_eq (h : Settled s old current) (i : Nat) (action : ViewAction) :
    s.onLatest i action = if i = old.length ∧ current.live = true then [action] else [] := by
  by_cases hi : i = old.length
  · simp [onLatest, h.latest, hi, h.getElem?_latest]
  · simp [onLatest, h.latest, hi, Ne.symm hi]

section Step

variable {cancels : HistoryQuery → Bool} {sessionId : Str}

/-- The screen goes on from `s` to `s'` as `SessionView` does over `actions`. -/
def Matches (cancels : HistoryQuery → Bool) (sessionId : Str) (s s' : LiveScreen)
    (actions : List ViewAction) : Prop :=
  (∃ old current, Settled s' old current) ∧
    (SessionView.machine cancels sessionId).final s.view actions = s'.view

theorem Settled.matches (h : Settled s old current) {s' : LiveScreen} {old' : List WebSocket}
    {current' : WebSocket} (h' : Settled s' old' current') {actions : List ViewAction}
    (hview : (SessionView.machine cancels sessionId).final ⟨s.server, s.query, current.seen⟩
      actions = ⟨s'.server, s'.query, current'.seen⟩) :
    Matches cancels sessionId s s' actions :=
  ⟨⟨old', current', h'⟩, by rw [h.view_eq, h'.view_eq, hview]⟩

/-- Nothing happens. -/
theorem Settled.still (h : Settled s old current) : Matches cancels sessionId s s [] :=
  h.matches h rfl

/-- A turn of the host's end of one socket. -/
theorem Settled.hostTurn (h : Settled s old current) (i : Nat)
    {turn : EventsSocket → EventsSocket} {action : ViewAction}
    (hturn : ∀ state events, turn { events with state := state } =
      { turn events with state := state })
    (hview : ∀ view : SessionView, view.socket.state ≠ .closed →
      view.step cancels sessionId action = { view with socket := turn view.socket }) :
    Matches cancels sessionId s { s with sockets := s.sockets.modify i (·.atHost turn) }
      (s.onLatest i action) := by
  have hmodify := modify_concat (g := (·.atHost turn)) old current i
  rw [← h.sockets] at hmodify
  rw [h.onLatest_eq]
  by_cases hi : i = old.length
  · rw [if_pos hi] at hmodify
    have hnext : Settled { s with sockets := s.sockets.modify i (·.atHost turn) } old
        (current.atHost turn) := h.congr hmodify rfl rfl rfl rfl rfl
    refine h.matches hnext ?_
    by_cases hlive : current.live = true
    · rw [if_pos ⟨hi, hlive⟩]
      have hstep := hview ⟨s.server, s.query, current.seen⟩ (WebSocket.seen_of_live hlive)
      rw [WebSocket.seen_atHost hturn hlive]
      exact hstep
    · rw [if_neg (fun hboth => hlive hboth.2)]
      have hdead : current.live = false := by simpa using hlive
      have hturned : (current.atHost turn).live = false := hdead
      rw [WebSocket.seen_of_not_live hturned, ← WebSocket.seen_of_not_live hdead]
      rfl
  · rw [if_neg hi] at hmodify
    rw [if_neg (fun hboth => hi hboth.1)]
    have hends : ∀ socket : WebSocket, (socket.atHost turn).ends = socket.ends := fun _ => rfl
    have hnext : Settled { s with sockets := s.sockets.modify i (·.atHost turn) }
        (old.modify i (·.atHost turn)) current :=
      h.congr hmodify rfl rfl rfl (map_modify_of_fixed hends old i) rfl
    refine h.matches hnext ?_
    rfl

/-- What changes the host and the query only. -/
theorem Settled.elsewhere (h : Settled s old current) (server : EventServer)
    (query : HistoryQuery) {action : ViewAction}
    (hview : SessionView.step cancels sessionId ⟨s.server, s.query, current.seen⟩ action =
      ⟨server, query, current.seen⟩) :
    Matches cancels sessionId s { s with server, query } [action] := by
  have hnext : Settled { s with server, query } old current :=
    h.congr h.sockets rfl rfl rfl rfl rfl
  refine h.matches hnext ?_
  exact hview

theorem step_append (h : Settled s old current) (eventId : Uuid) (now : Int)
    (session : Option Str) (kind : Str) (payload : Bytes) :
    Matches cancels sessionId s
      (s.step cancels sessionId (.append eventId now session kind payload))
      [.append eventId now session kind payload] := by
  cases hresult : s.server.store.appendEvent eventId now s.server.workspaceId session kind
      payload with
  | error e =>
    have hstep : s.step cancels sessionId (.append eventId now session kind payload) = s := by
      rw [step, hresult]
      rfl
    rw [hstep]
    refine h.matches h ?_
    rw [Machine.final_cons]
    simp [SessionView.machine, SessionView.step, hresult, Machine.final_nil, Except.toOption]
  | ok result =>
    have hstep : s.step cancels sessionId (.append eventId now session kind payload) =
        { s with
          server := { s.server with store := result.1 }
          sockets := s.sockets.map (·.atHost (·.broadcast (.fromRecord result.2))) } := by
      rw [step, hresult]
      rfl
    have hsockets : s.sockets.map (·.atHost (·.broadcast (.fromRecord result.2))) =
        old.map (·.atHost (·.broadcast (.fromRecord result.2))) ++
          [current.atHost (·.broadcast (.fromRecord result.2))] := by
      rw [h.sockets, List.map_append, List.map_singleton]
    have hends : (old.map (·.atHost (·.broadcast (.fromRecord result.2)))).map WebSocket.ends =
        old.map WebSocket.ends := by
      rw [List.map_map]
      rfl
    have hseen : (current.atHost (·.broadcast (.fromRecord result.2))).seen =
        current.seen.broadcast (.fromRecord result.2) := by
      cases hlive : current.live with
      | true => exact WebSocket.seen_atHost (EventsSocket.broadcast_state _) hlive
      | false =>
        rw [WebSocket.seen_of_not_live hlive]
        exact WebSocket.seen_of_not_live hlive
    have hnext : Settled (s.step cancels sessionId (.append eventId now session kind payload))
        (old.map (·.atHost (·.broadcast (.fromRecord result.2))))
        (current.atHost (·.broadcast (.fromRecord result.2))) := by
      rw [hstep]
      exact h.congr hsockets rfl rfl rfl hends rfl
    refine h.matches hnext ?_
    rw [hstep, hseen, Machine.final_cons]
    simp [SessionView.machine, SessionView.step, hresult, Machine.final_nil, Except.toOption]

/-! ## The browser -/

theorem opens_of_closed (socket : WebSocket) (h : socket.readyState = .closed) :
    socket.opens = none := by
  simp [WebSocket.opens, h]

theorem closes_of_closed (socket : WebSocket) (h : socket.readyState = .closed) :
    socket.closes = none := by
  simp [WebSocket.closes, h]

theorem next_of_closed (socket : WebSocket) (h : socket.readyState = .closed) :
    socket.next = none := by
  simp [WebSocket.next, h]

/-- What the browser does to a socket is shown of the last one, while it lives. -/
theorem Settled.dispatched {α : Type} (h : Settled s old current) {turn : WebSocket → Option α}
    (hturn : ∀ socket, socket.readyState = .closed → turn socket = none)
    (listener : Nat → α → LiveScreen) {action : ViewAction}
    (hlast : Matches cancels sessionId s ((turn current).elim s (listener old.length))
      (if current.live then [action] else [])) (i : Nat) :
    Matches cancels sessionId s ((s.sockets[i]?.bind turn).elim s (listener i))
      (s.onLatest i action) := by
  rw [h.turned hturn, h.onLatest_eq]
  by_cases hi : i = old.length
  · subst hi
    simpa using hlast
  · rw [if_neg hi, Option.elim_none, if_neg (fun hboth => hi hboth.1)]
    exact h.still

theorem step_opened (h : Settled s old current) (i : Nat) :
    Matches cancels sessionId s (s.step cancels sessionId (.opened i))
      (s.onLatest i .opened) := by
  rw [step, dispatch]
  refine h.dispatched opens_of_closed
    (fun i turned => onOpen { s with sockets := s.sockets.set i turned }) ?_ i
  cases h.phase with
  | connecting running state unopened timers told count =>
    have hopens : current.opens = some { current with readyState := .open_, opened := true } := by
      simp [WebSocket.opens, state]
    rw [hopens, Option.elim_some, h.set_latest, if_pos (WebSocket.live_of_connecting state)]
    have hnext : Settled (onOpen { s with
        sockets := old ++ [{ current with readyState := .open_, opened := true }] }) old
        { current with readyState := .open_, opened := true } :=
      ⟨rfl, h.latest, h.closed, .open_ running rfl rfl timers rfl rfl⟩
    refine h.matches hnext ?_
    simp [SessionView.machine, Machine.final, SessionView.step, WebSocket.seen, state, onOpen]
  | open_ running state opened timers told count =>
    have hopens : current.opens = none := by simp [WebSocket.opens, state]
    rw [hopens, Option.elim_none, if_pos (WebSocket.live_of_open state)]
    refine h.matches h ?_
    simp [SessionView.machine, Machine.final, SessionView.step, WebSocket.seen, state]
  | waiting running state =>
    rw [opens_of_closed _ state, Option.elim_none,
      if_neg (by simp [WebSocket.not_live_of_closed state])]
    exact h.still
  | left stopped state timers =>
    have hopens : current.opens = none := by
      cases hstate : current.readyState <;> simp_all [WebSocket.live, WebSocket.opens]
    rw [hopens, Option.elim_none, if_neg (by simp [state])]
    exact h.still

/-- A message changes the query only. -/
theorem onMessage_eq (view : SessionView) (message : SocketMessage) :
    view.onMessage cancels sessionId message = { view with
      query := (SessionView.onMessage cancels sessionId ⟨view.server, view.query, .closed⟩
        message).query } := by
  cases message with
  | event event =>
    simp only [SessionView.onMessage, SessionView.onEvent]
    split <;> rfl
  | replayRequired skipped => rfl

theorem Settled.receives (h : Settled s old current) (cancels : HistoryQuery → Bool)
    (sessionId : Str) (message : SocketMessage) (wire : List SocketMessage) :
    Settled ({ s with sockets := old ++ [{ current with wire }] }.onMessage cancels sessionId
      message) old { current with wire } :=
  h.congr rfl rfl rfl rfl rfl rfl

theorem step_message (h : Settled s old current) (i : Nat) :
    Matches cancels sessionId s (s.step cancels sessionId (.message i))
      (s.onLatest i .receive) := by
  rw [step]
  refine h.dispatched next_of_closed (fun i received =>
    { s with sockets := s.sockets.set i received.2 }.onMessage cancels sessionId received.1) ?_ i
  by_cases hopen : current.readyState = .open_
  · have hseen : current.seen = ⟨.open_, current.subscribed, current.wire⟩ := by
      simp [WebSocket.seen, hopen]
    rw [if_pos (WebSocket.live_of_open hopen)]
    cases hwire : current.wire with
    | nil =>
      have hnext : current.next = none := by simp [WebSocket.next, hwire]
      rw [hnext, Option.elim_none]
      refine h.matches h ?_
      simp [SessionView.machine, Machine.final, SessionView.step, SessionView.receive, hseen, hwire]
    | cons message wire =>
      have hnext : current.next = some (message, { current with wire }) := by
        simp [WebSocket.next, hopen, hwire]
      rw [hnext, Option.elim_some, h.set_latest]
      refine h.matches (h.receives cancels sessionId message wire) ?_
      have hturned : WebSocket.seen { current with wire } =
          ⟨.open_, current.subscribed, wire⟩ := by
        simp [WebSocket.seen, hopen]
      show SessionView.receive _ _ _ = _
      simp only [SessionView.receive, hseen, hwire, hturned, if_true, List.head?_cons,
        Option.elim_some, List.tail_cons]
      exact onMessage_eq _ message
  · have hnext : current.next = none := by simp [WebSocket.next, hopen]
    rw [hnext, Option.elim_none]
    refine h.matches h ?_
    split
    · have hseen : current.seen.state ≠ .open_ := by
        cases hstate : current.readyState <;> simp_all [WebSocket.seen, EventsSocket.closed]
      simp [SessionView.machine, Machine.final, SessionView.step, SessionView.receive, hseen]
    · rfl

/-- The last socket closes, and the screen is not left. -/
theorem Settled.loses (h : Settled s old current) (running : s.connection.stopped = false)
    (timers : s.timers = []) (count : s.connection.retryCount + 1 =
      failures (current.opened :: (old.map (·.opened)).reverse)) :
    Matches cancels sessionId s
      (onClose { s with sockets := old ++ [{ current with readyState := .closed }] }) [.close] := by
  have hclosed : onClose { s with sockets := old ++ [{ current with readyState := .closed }] } =
      { s with
        socketState := .closed
        sockets := old ++ [{ current with readyState := .closed }]
        timers := [⟨s.timersSet, retryDelay s.connection.retryCount⟩]
        timersSet := s.timersSet + 1
        connection := { s.connection with
          retryCount := s.connection.retryCount + 1
          retryTimer := some s.timersSet } } := by
    simp [onClose, running, timers]
  have hnext : Settled (onClose { s with
      sockets := old ++ [{ current with readyState := .closed }] }) old
      { current with readyState := .closed } := by
    rw [hclosed]
    refine ⟨rfl, h.latest, h.closed, .waiting running rfl _ rfl rfl ?_ rfl count⟩
    rw [← count, Nat.add_sub_cancel]
  refine h.matches hnext ?_
  rw [hclosed]
  rfl

/-- The last socket closes after the screen was left. -/
theorem Settled.ends (h : Settled s old current) (stopped : s.connection.stopped = true)
    (timers : s.timers = []) (state : current.live = false) :
    Matches cancels sessionId s
      (onClose { s with sockets := old ++ [{ current with readyState := .closed }] }) [] := by
  have hclosed : onClose { s with sockets := old ++ [{ current with readyState := .closed }] } =
      { s with
        socketState := .closed
        sockets := old ++ [{ current with readyState := .closed }] } := by
    simp [onClose, stopped]
  have hnext : Settled (onClose { s with
      sockets := old ++ [{ current with readyState := .closed }] }) old
      { current with readyState := .closed } := by
    rw [hclosed]
    exact ⟨rfl, h.latest, h.closed, .left stopped rfl timers⟩
  refine h.matches hnext ?_
  rw [hclosed, WebSocket.seen_of_not_live state]
  rfl

theorem step_closed (h : Settled s old current) (i : Nat) :
    Matches cancels sessionId s (s.step cancels sessionId (.closed i))
      (s.onLatest i .close) := by
  rw [step, dispatch]
  refine h.dispatched closes_of_closed
    (fun i turned => onClose { s with sockets := s.sockets.set i turned }) ?_ i
  have hcloses : current.readyState ≠ .closed →
      current.closes = some { current with readyState := .closed } := fun hne => by
    simp [WebSocket.closes, hne]
  cases h.phase with
  | connecting running state unopened timers told count =>
    rw [hcloses (by simp [state]), Option.elim_some, h.set_latest,
      if_pos (WebSocket.live_of_connecting state)]
    exact h.loses running timers (by simp [failures, unopened, count])
  | open_ running state opened timers told count =>
    rw [hcloses (by simp [state]), Option.elim_some, h.set_latest,
      if_pos (WebSocket.live_of_open state)]
    exact h.loses running timers (by simp [failures, opened, count])
  | waiting running state =>
    rw [closes_of_closed _ state, Option.elim_none,
      if_neg (by simp [WebSocket.not_live_of_closed state])]
    exact h.still
  | left stopped state timers =>
    rw [if_neg (by simp [state])]
    by_cases hstate : current.readyState = .closed
    · rw [closes_of_closed _ hstate, Option.elim_none]
      exact h.still
    · rw [hcloses hstate, Option.elim_some, h.set_latest]
      exact h.ends stopped timers state

/-- A timer goes off. -/
theorem step_timeout (h : Settled s old current) (timer : Nat) :
    Matches cancels sessionId s (s.step cancels sessionId (.timeout timer))
      (s.shown (.timeout timer)) := by
  rw [step, shown]
  split
  · rename_i hruns
    cases h.phase with
    | waiting running state other timers retryTimer delay told count =>
      have hconnect : connect { s with timers := s.timers.filter fun other => other.id ≠ timer } =
          { s with
            timers := []
            socketState := .connecting
            sockets := old ++ [current] ++ [.new]
            connection := { s.connection with socket := some (old ++ [current]).length } } := by
        have hid : other.id = timer := by simpa [timers] using hruns
        simp [connect, running, timers, hid, h.sockets]
      have hnext : Settled
          (connect { s with timers := s.timers.filter fun other => other.id ≠ timer })
          (old ++ [current]) .new := by
        rw [hconnect]
        refine ⟨rfl, rfl, fun socket hmem => ?_, .connecting running rfl rfl rfl rfl ?_⟩
        · rcases List.mem_append.1 hmem with hmem | hmem
          · exact h.closed socket hmem
          · exact List.mem_singleton.1 hmem ▸ state
        · simpa using count
      refine h.matches hnext ?_
      rw [hconnect]
      simp [SessionView.machine, Machine.final, SessionView.step, WebSocket.seen, state,
          EventsSocket.closed, WebSocket.new, EventsSocket.connecting]
    | connecting _ _ _ timers => simp [timers] at hruns
    | open_ _ _ _ timers => simp [timers] at hruns
    | left _ _ timers => simp [timers] at hruns
  · exact h.still

theorem step_leave (h : Settled s old current) :
    Matches cancels sessionId s (s.step cancels sessionId .leave) [.close] := by
  have htimers : (s.connection.retryTimer.elim s.timers fun timer =>
      s.timers.filter fun other => other.id ≠ timer) = [] := by
    cases h.phase with
    | waiting _ _ timer timers retryTimer => simp [timers, retryTimer]
    | connecting _ _ _ timers => cases s.connection.retryTimer <;> simp [timers]
    | open_ _ _ _ timers => cases s.connection.retryTimer <;> simp [timers]
    | left _ _ timers => cases s.connection.retryTimer <;> simp [timers]
  have hsockets : (s.connection.socket.elim s.sockets fun socket =>
      s.sockets.modify socket .close) = old ++ [current.close] := by
    rw [h.latest, Option.elim_some, h.sockets, modify_concat, if_pos rfl]
  have hlive : current.close.live = false := by
    cases hstate : current.readyState <;> simp [WebSocket.close, WebSocket.live, hstate]
  have hstep : s.step cancels sessionId .leave = { s with
      connection := { s.connection with stopped := true }
      timers := []
      sockets := old ++ [current.close] } := by
    rw [step, stop]
    simp only [htimers, hsockets]
  have hnext : Settled (s.step cancels sessionId .leave) old current.close := by
    rw [hstep]
    exact ⟨rfl, h.latest, h.closed, .left rfl hlive rfl⟩
  refine h.matches hnext ?_
  rw [hstep, WebSocket.seen_of_not_live hlive]
  rfl

/-! ## Runs -/

theorem settled_step (h : ∃ old current, Settled s old current) (action : ScreenAction) :
    Matches cancels sessionId s (s.step cancels sessionId action) (s.shown action) := by
  obtain ⟨old, current, h⟩ := h
  cases action with
  | append eventId now session kind payload => exact step_append h eventId now session kind payload
  | answer => exact h.elsewhere s.server _ rfl
  | arrive => exact h.elsewhere s.server _ rfl
  | giveUp => exact h.elsewhere s.server _ rfl
  | invalidate => exact h.elsewhere s.server _ rfl
  | refetch => exact h.elsewhere s.server _ rfl
  | subscribe socket =>
    exact h.hostTurn socket (fun _ _ => rfl) fun view hopen => if_neg hopen
  | lag socket sent skipped =>
    exact h.hostTurn socket (EventsSocket.lag_state sent skipped) fun _ _ => rfl
  | opened socket => exact step_opened h socket
  | message socket => exact step_message h socket
  | closed socket => exact step_closed h socket
  | timeout timer => exact step_timeout h timer
  | leave => exact step_leave h

theorem settled_start (server : EventServer) : Settled (start server) [] .new :=
  ⟨rfl, rfl, by simp, .connecting rfl rfl rfl rfl rfl rfl⟩

theorem settled_final (cancels : HistoryQuery → Bool) (sessionId : Str) (server : EventServer)
    (actions : List ScreenAction) :
    ∃ old current,
      Settled ((machine cancels sessionId).final (start server) actions) old current :=
  Machine.final_invariant (P := fun s => ∃ old current, Settled s old current)
    (fun _ action h => (settled_step h action).1) ⟨[], .new, settled_start server⟩ actions

/-- The screen sees one socket, whichever sockets there are. -/
theorem screen_refines (cancels : HistoryQuery → Bool) (sessionId : Str) (server : EventServer)
    (actions : List ScreenAction) :
    (SessionView.machine cancels sessionId).final (.start server)
        (Machine.matched shown ((machine cancels sessionId).run (start server) actions)) =
      ((machine cancels sessionId).final (start server) actions).view := by
  have hrun := Machine.refines_of_view (M := machine cancels sessionId)
    (N := SessionView.machine cancels sessionId)
    (P := fun s => ∃ old current, Settled s old current) view shown (fun _ => rfl)
    (fun _ action h => settled_step h action) ⟨[], .new, settled_start server⟩ actions
  exact hrun.2

end Step

/-! ## How many there are -/

theorem Settled.counted (h : Settled s old current) :
    s.sockets.countP WebSocket.live + s.timers.length =
      if s.connection.stopped then 0 else 1 := by
  have hold : old.countP WebSocket.live = 0 := by
    refine List.countP_eq_zero.2 fun socket hmem => ?_
    simp [WebSocket.not_live_of_closed (h.closed socket hmem)]
  rw [h.sockets, List.countP_append, hold, List.countP_singleton]
  cases h.phase with
  | connecting running state _ timers => simp [running, timers, WebSocket.live, state]
  | open_ running state _ timers => simp [running, timers, WebSocket.live, state]
  | waiting running state _ timers => simp [running, timers, WebSocket.live, state]
  | left stopped state timers => simp [stopped, timers, state]

theorem Settled.delayed (h : Settled s old current) {timer : Timer} (hmem : timer ∈ s.timers) :
    timer.delay = retryDelay (failures (s.sockets.map (·.opened)).reverse - 1) := by
  cases h.phase with
  | waiting _ _ timer' timers _ delay =>
    rw [timers, List.mem_singleton] at hmem
    simp [hmem, h.sockets, delay]
  | connecting _ _ _ timers => simp [timers] at hmem
  | open_ _ _ _ timers => simp [timers] at hmem
  | left _ _ timers => simp [timers] at hmem

theorem Settled.told (h : Settled s old current) (running : s.connection.stopped = false) :
    s.socketState = s.view.socket.state := by
  rw [h.view_eq]
  cases h.phase with
  | connecting _ state _ _ told => simp [told, WebSocket.seen, state]
  | open_ _ state _ _ told => simp [told, WebSocket.seen, state]
  | waiting _ state _ _ _ _ told => simp [told, WebSocket.seen, state, EventsSocket.closed]
  | left stopped => rw [running] at stopped; cases stopped

/-- Until the screen is left there is one socket that lives or one timer, never more; the timer's
delay is due to the failures since a socket last opened, and the screen shows the state it is in. -/
theorem connected_of_run (cancels : HistoryQuery → Bool) (sessionId : Str) (server : EventServer)
    (actions : List ScreenAction) :
    let s := (machine cancels sessionId).final (start server) actions
    s.sockets.countP WebSocket.live + s.timers.length =
        (if s.connection.stopped then 0 else 1) ∧
      (∀ timer ∈ s.timers,
        timer.delay = retryDelay (failures (s.sockets.map (·.opened)).reverse - 1)) ∧
      (s.connection.stopped = false → s.socketState = s.view.socket.state) := by
  obtain ⟨old, current, h⟩ := settled_final cancels sessionId server actions
  exact ⟨h.counted, fun timer hmem => h.delayed hmem, h.told⟩

/-! ## After the screen is left -/

section Left

variable {cancels : HistoryQuery → Bool} {sessionId : Str}

theorem dispatch_left {turn : WebSocket → Option WebSocket} {listener : LiveScreen → LiveScreen}
    (hlistener : ∀ s, s.connection.stopped = true →
      (listener s).connection.stopped = true ∧ (listener s).sockets = s.sockets)
    (h : s.connection.stopped = true) (i : Nat) :
    (s.dispatch i turn listener).connection.stopped = true ∧
      (s.dispatch i turn listener).sockets.length = s.sockets.length := by
  unfold dispatch
  cases s.sockets[i]?.bind turn with
  | none => exact ⟨h, rfl⟩
  | some turned =>
    obtain ⟨hstopped, hsockets⟩ := hlistener { s with sockets := s.sockets.set i turned } h
    refine ⟨hstopped, ?_⟩
    rw [Option.elim_some, hsockets, List.length_set]

theorem stop_left (s : LiveScreen) :
    s.stop.connection.stopped = true ∧ s.stop.sockets.length = s.sockets.length := by
  refine ⟨rfl, ?_⟩
  rw [stop]
  cases s.connection.socket with
  | none => rfl
  | some socket => exact List.length_modify ..

/-- No socket is made after the screen is left. -/
theorem step_left (h : s.connection.stopped = true) (action : ScreenAction) :
    (s.step cancels sessionId action).connection.stopped = true ∧
      (s.step cancels sessionId action).sockets.length = s.sockets.length := by
  cases action with
  | append eventId now session kind payload =>
    rw [step]
    cases (s.server.store.appendEvent eventId now s.server.workspaceId session kind
      payload).toOption with
    | none => exact ⟨h, rfl⟩
    | some result => exact ⟨h, List.length_map _⟩
  | answer => exact ⟨h, rfl⟩
  | arrive => exact ⟨h, rfl⟩
  | giveUp => exact ⟨h, rfl⟩
  | invalidate => exact ⟨h, rfl⟩
  | refetch => exact ⟨h, rfl⟩
  | subscribe socket => exact ⟨h, List.length_modify ..⟩
  | lag socket sent skipped => exact ⟨h, List.length_modify ..⟩
  | opened socket =>
    have hopen : ∀ s : LiveScreen, s.connection.stopped = true →
        s.onOpen.connection.stopped = true ∧ s.onOpen.sockets = s.sockets := fun _ hs => ⟨hs, rfl⟩
    exact dispatch_left hopen h socket
  | message socket =>
    rw [step]
    cases s.sockets[socket]?.bind WebSocket.next with
    | none => exact ⟨h, rfl⟩
    | some received => exact ⟨h, List.length_set ..⟩
  | closed socket =>
    refine dispatch_left (fun s hs => ?_) h socket
    simp [onClose, hs]
  | timeout timer =>
    rw [step]
    split
    · simp [connect, h]
    · exact ⟨h, rfl⟩
  | leave => exact stop_left s

/-- When the screen has been left, nothing lives, no timer runs and no socket is made any more. -/
theorem left_of_run (cancels : HistoryQuery → Bool) (sessionId : Str) (server : EventServer)
    (earlier later : List ScreenAction) :
    let s := (machine cancels sessionId).final (start server) (earlier ++ .leave :: later)
    s.timers = [] ∧ (∀ socket ∈ s.sockets, socket.live = false) ∧
      s.sockets.length =
        ((machine cancels sessionId).final (start server) earlier).sockets.length := by
  intro s
  have hleft : s.connection.stopped = true ∧ s.sockets.length =
      ((machine cancels sessionId).final (start server) earlier).sockets.length := by
    have hs : s = (machine cancels sessionId).final
        ((machine cancels sessionId).final (start server) earlier).stop later :=
      Machine.final_append (fun _ => rfl) (start server) earlier (.leave :: later)
    rw [hs]
    exact Machine.final_invariant (M := machine cancels sessionId)
      (P := fun t => t.connection.stopped = true ∧ t.sockets.length =
        ((machine cancels sessionId).final (start server) earlier).sockets.length)
      (fun t action ht => ⟨(step_left ht.1 action).1, (step_left ht.1 action).2.trans ht.2⟩)
      (stop_left _) later
  obtain ⟨old, current, h⟩ := settled_final cancels sessionId server (earlier ++ .leave :: later)
  have hcount : s.sockets.countP WebSocket.live + s.timers.length = 0 := by
    rw [h.counted, if_pos hleft.1]
  refine ⟨List.length_eq_zero_iff.1 (by omega), fun socket hmem => ?_, hleft.2⟩
  have hnone := List.countP_eq_zero.1 (by omega : s.sockets.countP WebSocket.live = 0) socket hmem
  simpa using hnone

end Left

end LiveScreen

end LeaveCli.Web
