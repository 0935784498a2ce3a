import LeaveCli.Lib.FixedWindow
import LeaveCli.Relay.Server
import LeaveCli.Transport.Wire

/-!
# The frame budget of a connection

`FrameWindow.allow` counts as a `FixedWindow` does (`count_allow`), and a connection whose client
sends valid frames forwards those that the window takes and is closed at the first that it does not
(`readAll_sent`). So a second has at most twice `maxFramesPerSecond` forwarded frames, and a client
that stays within the budget in every second is never closed (`frameBudget_bounds`).
-/

namespace LeaveCli.Relay

open Lib Crypto Transport LeaveCli.Host LeaveCli.Core

/-- `MAX_FRAMES_PER_SECOND` in windows of a second, in nanoseconds. -/
def frameBudget : FixedWindow := ⟨maxFramesPerSecond, 1000000000⟩

def FrameWindow.toCount (window : FrameWindow) : WindowCount := ⟨window.started, window.frames⟩

theorem FrameWindow.count_allow {window : FrameWindow} (h : window.frames ≤ maxFramesPerSecond)
    (now : Nat) : (window.allow now).1.toCount = frameBudget.hit window.toCount now ∧
      ((window.allow now).2 = true ↔
        (frameBudget.hit window.toCount now).count ≤ frameBudget.limit) := by
  have hsmall : window.frames + 1 ≤ 4294967295 := by
    unfold maxFramesPerSecond at h
    omega
  unfold allow FixedWindow.hit frameBudget toCount
  by_cases hnext : 1000000000 ≤ now - window.started
  · simp [hnext]
  · simp [hnext, hsmall]

namespace World

variable {W : EnvelopeWire} {hashToken : Str → Bytes} {s : World} {id endpointId : Nat}
  {c : Connection}

/-- The loop of `route_socket` takes the next messages of a connection at these times. -/
def readAll (W : EnvelopeWire) (hashToken : Str → Bytes) (s : World) (id : Nat)
    (nows : List Nat) : World :=
  nows.foldl (fun s now => (step W hashToken s (.read id now)).2) s

/-- A frame that passes every check but the budget. -/
def ValidFrame (W : EnvelopeWire) (routeId : Str) (frame : Bytes) : Prop :=
  frame.length ≤ Protocol.maxCiphertextBytes + 1024 ∧ routable W routeId frame = true

instance (W : EnvelopeWire) (routeId : Str) (frame : Bytes) :
    Decidable (ValidFrame W routeId frame) := inferInstanceAs (Decidable (_ ∧ _))

theorem readAll_cons (now : Nat) (nows : List Nat) : readAll W hashToken s id (now :: nows) =
    readAll W hashToken (step W hashToken s (.read id now)).2 id nows := rfl

theorem step_read_closed (hc : s.connections id = some c) (hclosed : c.reading = false)
    (now : Nat) : (step W hashToken s (.read id now)).2 = s := by
  simp only [step, onConnection, hc, Option.elim_some, hclosed]
  split <;> rfl

theorem readAll_closed (hc : s.connections id = some c) (hclosed : c.reading = false)
    (nows : List Nat) : readAll W hashToken s id nows = s := by
  induction nows with
  | nil => rfl
  | cons now nows ih =>
    rw [readAll, List.foldl_cons, step_read_closed hc hclosed]
    exact ih

/-- The relay once it has forwarded a frame. -/
def forwarded (s : World) (id endpointId : Nat) (c : Connection) (window : FrameWindow)
    (frame : Bytes) (rest : List WsMessage) : World :=
  { s with
    channels := Function.update s.channels c.sender
      ((s.channels c.sender).send ⟨endpointId, frame⟩)
    connections := Function.update s.connections id (some { c with window, outgoing := rest }) }

theorem sent_forwarded {window : FrameWindow} {frame : Bytes} {rest : List WsMessage} :
    ((s.forwarded id endpointId c window frame rest).channels c.sender).sent =
      (s.channels c.sender).sent ++ [⟨endpointId, frame⟩] := by
  show (Function.update s.channels c.sender _ c.sender).sent = _
  rw [Function.update_self, Broadcast.send_sent]

/-- A valid frame is forwarded, or ends the connection when it is over the budget. -/
theorem step_read_valid (hashToken : Str → Bytes) (hc : s.connections id = some c)
    (hendpoint : c.endpointId = some endpointId) (hreading : c.reading = true) {frame : Bytes}
    {rest : List WsMessage} (houtgoing : c.outgoing = .binary frame :: rest)
    (hvalid : ValidFrame W c.routeId frame) (now : Nat) : (step W hashToken s (.read id now)).2 =
      if (c.window.allow now).2 then
        s.forwarded id endpointId c (c.window.allow now).1 frame rest
      else s.withConnection id c.hungUp := by
  obtain ⟨hsize, hroutable⟩ := hvalid
  have hread : (step W hashToken s (.read id now)).2 =
      s.read W id endpointId now c (.binary frame) rest := by
    simp only [step, onConnection, hc, Option.elim_some, hendpoint, houtgoing, hreading, if_true]
  have hlimit : (frame.length > Protocol.maxCiphertextBytes + 1024 ∨
      (!(c.window.allow now).2) = true ∨ (!routable W c.routeId frame) = true) ↔
      ¬ (c.window.allow now).2 = true := by
    rw [hroutable, or_iff_right (Nat.not_lt.2 hsize)]
    simp
  rw [hread]
  by_cases hallow : (c.window.allow now).2 = true
  · rw [if_pos hallow]
    exact if_neg fun h => hlimit.1 h hallow
  · rw [if_neg hallow]
    exact if_pos (hlimit.2 hallow)

/-- What a connection that reads valid frames forwards: the frames that its window takes. -/
theorem readAll_valid (hashToken : Str → Bytes) (hc : s.connections id = some c)
    (hendpoint : c.endpointId = some endpointId) (hreading : c.reading = true)
    (hcount : c.window.frames ≤ maxFramesPerSecond) {frames : List Bytes}
    (houtgoing : c.outgoing = frames.map .binary)
    (hvalid : ∀ frame ∈ frames, ValidFrame W c.routeId frame) {nows : List Nat}
    (hlength : frames.length = nows.length) :
    ((readAll W hashToken s id nows).channels c.sender).sent = (s.channels c.sender).sent ++
      (frames.take (frameBudget.admitted c.window.toCount nows).length).map (⟨endpointId, ·⟩) ∧
    ∃ c', (readAll W hashToken s id nows).connections id = some c' ∧
      (c'.reading = true ↔ frameBudget.admitted c.window.toCount nows = nows) := by
  induction nows generalizing s c frames with
  | nil => exact ⟨by simp [readAll, FixedWindow.admitted], c, hc, by simp [hreading,
      FixedWindow.admitted]⟩
  | cons now nows ih =>
    obtain ⟨frame, frames, rfl⟩ := List.exists_cons_of_length_eq_add_one hlength
    obtain ⟨hframe, hvalid⟩ := List.forall_mem_cons.1 hvalid
    obtain ⟨hhit, hallow⟩ := FrameWindow.count_allow hcount now
    have hstep := step_read_valid hashToken hc hendpoint hreading houtgoing hframe now
    rw [readAll_cons, hstep, FixedWindow.admitted]
    by_cases hlimit : (c.window.allow now).2 = true
    · rw [if_pos hlimit, if_pos (hallow.1 hlimit)]
      have hwithin := hallow.1 hlimit
      rw [← hhit] at hwithin
      have hnext : (s.forwarded id endpointId c (c.window.allow now).1 frame
          (frames.map .binary)).connections id =
          some { c with window := (c.window.allow now).1, outgoing := frames.map .binary } :=
        Function.update_self ..
      obtain ⟨hsent, c', hc', hopen⟩ :=
        ih hnext hendpoint hreading hwithin rfl hvalid (Nat.succ.inj hlength)
      rw [hhit] at hsent hopen
      refine ⟨(hsent.trans (congrArg (· ++ _) sent_forwarded)).trans ?_, c', hc', hopen.trans ?_⟩
      · exact List.append_assoc ..
      · rw [List.cons.injEq, and_iff_right rfl]
    · rw [if_neg hlimit, if_neg fun h => hlimit (hallow.2 h)]
      have hclosed : (s.withConnection id c.hungUp).connections id = some c.hungUp :=
        Function.update_self ..
      rw [readAll_closed hclosed rfl]
      exact ⟨by simp [withConnection], c.hungUp, hclosed, by simp [Connection.hungUp]⟩

/-- From its upgrade on, a connection whose client sends valid frames forwards the first `k` of
them: at most twice the budget in any second, and all of them, without being closed, when no second
has more arrivals than the budget. -/
theorem frameBudget_bounds (W : EnvelopeWire) (hashToken : Str → Bytes) (s : World) {id : Nat}
    {c : Connection} {endpointId opened : Nat} (hc : s.connections id = some c)
    (hendpoint : c.endpointId = some endpointId) (hreading : c.reading = true)
    (hwindow : c.window = ⟨opened, 0⟩) {frames : List Bytes}
    (houtgoing : c.outgoing = frames.map .binary)
    (hvalid : ∀ frame ∈ frames, ValidFrame W c.routeId frame) {nows : List Nat}
    (hlength : frames.length = nows.length) (hopened : ∀ now ∈ nows, opened ≤ now)
    (hsorted : nows.Pairwise (· ≤ ·)) :
    ∃ k ≤ nows.length, ((readAll W hashToken s id nows).channels c.sender).sent =
        (s.channels c.sender).sent ++ (frames.take k).map (⟨endpointId, ·⟩) ∧
      (∀ a, frameBudget.within a (nows.take k) ≤ 2 * maxFramesPerSecond) ∧
      ((∀ a, frameBudget.within a nows ≤ maxFramesPerSecond) → k = nows.length ∧
        ∃ c', (readAll W hashToken s id nows).connections id = some c' ∧ c'.reading = true) := by
  have hfresh : c.window.frames ≤ maxFramesPerSecond := by
    rw [hwindow]
    exact Nat.zero_le _
  have hstarted : ∀ now ∈ nows, c.window.toCount.started ≤ now := by
    rw [hwindow]
    exact hopened
  obtain ⟨hsent, c', hc', hopen⟩ := readAll_valid hashToken hc hendpoint hreading
    hfresh houtgoing hvalid hlength
  have hprefix := frameBudget.admitted_prefix c.window.toCount nows
  refine ⟨(frameBudget.admitted c.window.toCount nows).length, hprefix.length_le, hsent,
    fun a => ?_, fun hwithin => ?_⟩
  · rw [← List.prefix_iff_eq_take.1 hprefix]
    exact FixedWindow.within_admitted_le hfresh hstarted hsorted a
  · have hall : frameBudget.admitted c.window.toCount nows = nows :=
      FixedWindow.admitted_eq_self (by decide) hstarted hsorted (by rw [hwindow]; rfl) hwithin
    exact ⟨congrArg List.length hall, c', hc', hopen.2 hall⟩

/-- An endpoint that was attached five nanoseconds after the start, with two frames on their way. -/
def twoFrames : World := (machine wire Str.utf8).final (start (some "secret") []) [
  .register ⟨"route", "token"⟩ [(registrationHeader, Str.utf8 "secret")],
  .websocket "route" [(routeTokenHeader, Str.utf8 "token")], .upgrade 0 5, .send 0 7 [1, 2, 3],
  .send 0 8 [4]]

def twoCiphertexts : List Bytes :=
  [wire.encode ⟨1, "route", wire.uuidText 7, [1, 2, 3]⟩,
    wire.encode ⟨1, "route", wire.uuidText 8, [4]⟩]

theorem frameBudget_bounds_two : ∃ c, twoFrames.connections 0 = some c ∧
    ∃ k ≤ 2, ((readAll wire Str.utf8 twoFrames 0 [6, 7]).channels c.sender).sent =
        (twoFrames.channels c.sender).sent ++ (twoCiphertexts.take k).map (⟨1, ·⟩) ∧
      (∀ a, frameBudget.within a ([6, 7].take k) ≤ 2 * maxFramesPerSecond) ∧
      ((∀ a, frameBudget.within a [6, 7] ≤ maxFramesPerSecond) → k = 2 ∧
        ∃ c', (readAll wire Str.utf8 twoFrames 0 [6, 7]).connections 0 = some c' ∧
          c'.reading = true) := by
  obtain ⟨c, hc, hendpoint, hreading, hstarted, hframes, houtgoing, hvalid⟩ :
      ∃ c ∈ twoFrames.connections 0, c.endpointId = some 1 ∧ c.reading = true ∧
        c.window.started = 5 ∧ c.window.frames = 0 ∧ c.outgoing = twoCiphertexts.map .binary ∧
        ∀ frame ∈ twoCiphertexts, ValidFrame wire c.routeId frame := by
    decide +kernel
  have hwindow : c.window = ⟨5, 0⟩ := by
    rw [← hstarted, ← hframes]
  have hopened : ∀ now ∈ [6, 7], 5 ≤ now := by decide
  have hsorted : [6, 7].Pairwise (· ≤ ·) := by decide
  exact ⟨c, hc, frameBudget_bounds wire Str.utf8 twoFrames hc hendpoint hreading hwindow houtgoing
    hvalid rfl hopened hsorted⟩

end World

/-- The whole budget just before a window ends, and once more when the next one starts. -/
def twoBursts : List Nat := List.replicate 100 900000000 ++ List.replicate 100 1000000000

/-- Both are forwarded, within a second. -/
theorem twoBursts_over : ¬ ∀ (window : FrameWindow) (nows : List Nat), window.frames = 0 →
    (∀ now ∈ nows, window.started ≤ now) → nows.Pairwise (· ≤ ·) →
    ∀ a, frameBudget.within a (frameBudget.admitted window.toCount nows) ≤
      maxFramesPerSecond := by
  intro h
  exact absurd (h ⟨0, 0⟩ twoBursts rfl (fun now _ => Nat.zero_le now) (by decide +kernel) 900000000)
    (by decide +kernel)

end LeaveCli.Relay
