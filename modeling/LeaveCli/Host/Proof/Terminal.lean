import LeaveCli.Host.Terminal
import LeaveCli.Lib.Registry

/-!
# A terminal's output and input

`attached_of_run`: in every state of every run, what a device has got from a terminal follows what
the terminal had printed when the device connected, with nothing left out and nothing twice, and
what it typed has reached that terminal, in order (`Attached`). `granted_of_run`: there are
terminals only when the owner granted them, of acceptable sizes, and each takes its input from the
frames of its own sockets, of at most 64 KiB (`Typed`).

`Sound` is what every step preserves (`sound_step`).
-/

namespace LeaveCli.Host

open Lib LeaveCli.Core

variable {ν : Type} {asU64 : ν → Option Nat}

/-! ## One terminal -/

/-- Whatever `SHELL` says, the shell is named by an absolute path. -/
theorem defaultShell_absolute (shell : Option Str) (isFile : Str → Bool) :
    (defaultShell shell isFile).head? = some '/' := by
  unfold defaultShell
  cases hshell : shell.filter fun shell => shell.head? = some '/' && isFile shell with
  | none => rfl
  | some path =>
    obtain ⟨-, hpath⟩ := Option.filter_eq_some_iff.1 hshell
    rw [Bool.and_eq_true] at hpath
    exact of_decide_eq_true hpath.1

namespace TerminalSession

/-- What a socket has written to the terminal. -/
def from_ (session : TerminalSession) (id : Nat) : Bytes :=
  (session.input.filter fun entry => entry.1 = id).flatMap (·.2)

structure Sound (session : TerminalSession) : Prop where
  size : session.size.acceptable = true
  shell : session.shell.head? = some '/'
  output : session.output.sent.flatten = session.printed

variable {session : TerminalSession}

theorem from_write_self (session : TerminalSession) (id : Nat) (bytes : Bytes) :
    from_ { session with input := session.input ++ [(id, bytes)] } id =
      session.from_ id ++ bytes := by
  simp [from_]

theorem from_write_of_ne (session : TerminalSession) {id other : Nat} (hother : other ≠ id)
    (bytes : Bytes) : from_ { session with input := session.input ++ [(id, bytes)] } other =
      session.from_ other := by
  simp [from_, Ne.symm hother]

theorem Sound.print (h : session.Sound) (chunk : Bytes) : Sound { session with
    printed := session.printed ++ chunk, output := session.output.send chunk } := by
  refine ⟨h.size, h.shell, ?_⟩
  rw [Broadcast.send_sent, List.flatten_append, h.output, List.flatten_singleton]

end TerminalSession

namespace TerminalSocket

/-- What was written is the front of a frame of at most 64 KiB that the socket's device typed. -/
def Typed (socket : TerminalSocket) (written : Bytes) : Prop :=
  ∃ frame ∈ socket.typed, frame.length ≤ 64 * 1024 ∧ written <+: frame

/-- How a socket stands to its terminal: what its device got, what is still to be received, and what
was written of what the device typed. -/
structure Attached (socket : TerminalSocket) (id : Nat) (session : TerminalSession) : Prop where
  shown : socket.since ++ socket.output.got.flatten <+: session.printed
  pending : socket.connected = true → socket.since ++ socket.output.got.flatten ++
    (session.output.sent.drop socket.output.next).flatten = session.printed
  written : session.from_ id <+: socket.typed.flatten
  all : socket.connected = true → session.from_ id = socket.typed.flatten

/-- The same in the terms of the channel. -/
structure Stands (socket : TerminalSocket) (id : Nat) (session : TerminalSession) : Prop where
  bounded : socket.output.first ≤ session.output.sent.length
  since : (session.output.sent.take socket.output.first).flatten = socket.since
  got : socket.output.got <+: session.output.sent.drop socket.output.first
  follows : socket.connected = true →
    socket.output.Follows session.output ∧ socket.output.lagged = false
  written : session.from_ id <+: socket.typed.flatten
  all : socket.connected = true → session.from_ id = socket.typed.flatten

variable {socket : TerminalSocket} {id : Nat} {session : TerminalSession}

theorem Typed.mono {written : Bytes} (h : socket.Typed written) {socket' : TerminalSocket}
    (htyped : socket.typed <+: socket'.typed) : socket'.Typed written := by
  obtain ⟨frame, hframe, hwritten⟩ := h
  exact ⟨frame, htyped.subset hframe, hwritten⟩

theorem Stands.attached (h : socket.Stands id session) (hsession : session.Sound) :
    socket.Attached id session := by
  refine ⟨?_, fun hconnected => ?_, h.written, h.all⟩
  · obtain ⟨rest, hrest⟩ := h.got
    refine ⟨rest.flatten, ?_⟩
    rw [← h.since, ← List.flatten_append, ← List.flatten_append, List.append_assoc, hrest,
      List.take_append_drop, hsession.output]
  · obtain ⟨hfollows, hlagged⟩ := h.follows hconnected
    rw [← h.since, hfollows.whole hlagged, ← List.flatten_append,
      ← Broadcast.take_eq_append_segment hfollows.reads, ← List.flatten_append,
      List.take_append_drop, hsession.output]

theorem Stands.disconnect (h : socket.Stands id session) :
    Stands { socket with connected := false } id session :=
  ⟨h.bounded, h.since, h.got, fun hopen => (nomatch hopen), h.written, fun hopen => nomatch hopen⟩

/-- A terminal that only changes in what sockets do not see. -/
theorem Stands.of_same (h : socket.Stands id session) {session' : TerminalSession}
    (houtput : session'.output = session.output) (hinput : session'.from_ id = session.from_ id) :
    socket.Stands id session' := by
  constructor
  · exact houtput ▸ h.bounded
  · exact houtput ▸ h.since
  · exact houtput ▸ h.got
  · exact houtput ▸ h.follows
  · exact hinput ▸ h.written
  · exact hinput ▸ h.all

theorem Stands.print (h : socket.Stands id session) (chunk : Bytes) :
    socket.Stands id { session with
      printed := session.printed ++ chunk, output := session.output.send chunk } := by
  refine ⟨?_, ?_, ?_, fun hconnected => ?_, h.written, h.all⟩
  · rw [Broadcast.send_sent, List.length_append]
    exact h.bounded.trans (Nat.le_add_right _ _)
  · rw [Broadcast.send_sent, List.take_append_of_le_length h.bounded, h.since]
  · rw [Broadcast.send_sent, List.drop_append_of_le_length h.bounded]
    exact h.got.trans (List.prefix_append _ _)
  · obtain ⟨hfollows, hlagged⟩ := h.follows hconnected
    exact ⟨hfollows.send chunk, hlagged⟩

/-- A receiver that lags gets nothing. -/
theorem got_receive_of_lagged {channel : Broadcast Bytes} {output : Subscriber Bytes}
    (hbefore : output.lagged = false) (hafter : (output.receive channel).lagged = true) :
    (output.receive channel).got = output.got := by
  unfold Subscriber.receive at hafter ⊢
  split
  · rename_i a next hrecv
    rw [hrecv] at hafter
    exact absurd (hbefore.symm.trans hafter) Bool.false_ne_true
  · rfl
  · rfl

theorem first_receive (channel : Broadcast Bytes) (output : Subscriber Bytes) :
    (output.receive channel).first = output.first := by
  unfold Subscriber.receive
  split <;> rfl

theorem Stands.receive (h : socket.Stands id session) (hconnected : socket.connected = true) :
    Stands { socket with
      output := socket.output.receive session.output
      connected := !(socket.output.receive session.output).lagged } id session := by
  obtain ⟨hfollows, hlagged⟩ := h.follows hconnected
  have hnext := hfollows.receive
  have hfirst := first_receive session.output socket.output
  refine ⟨?_, ?_, ?_, fun hopen => ⟨hnext, by simpa using hopen⟩, h.written,
    fun _ => h.all hconnected⟩
  · exact hfirst ▸ h.bounded
  · exact hfirst ▸ h.since
  · cases hlags : (socket.output.receive session.output).lagged with
    | false => exact hnext.got_isPrefix hlags
    | true =>
      show (socket.output.receive session.output).got <+: _
      rw [got_receive_of_lagged hlagged hlags, hfirst]
      exact h.got

/-- The device types, and what of it was written is in the terminal's input. -/
theorem Stands.type (h : socket.Stands id session) (hconnected : socket.connected = true)
    {bytes written : Bytes} (hwritten : written <+: bytes) (ok : Bool)
    (hok : ok = true → written = bytes) :
    Stands { socket with typed := socket.typed ++ [bytes], connected := ok } id
      { session with input := session.input ++ [(id, written)] } := by
  refine ⟨h.bounded, h.since, h.got, fun _ => h.follows hconnected, ?_, fun hopen => ?_⟩
  · rw [TerminalSession.from_write_self, h.all hconnected, List.flatten_append,
      List.flatten_singleton, List.prefix_append_right_inj]
    exact hwritten
  · rw [TerminalSession.from_write_self, h.all hconnected, List.flatten_append,
      List.flatten_singleton, hok hopen]

/-- The device types what is not written, and its socket is closed. -/
theorem Stands.refuse (h : socket.Stands id session) (bytes : Bytes) :
    Stands { socket with typed := socket.typed ++ [bytes], connected := false } id session := by
  refine ⟨h.bounded, h.since, h.got, fun hopen => (nomatch hopen), ?_, fun hopen => nomatch hopen⟩
  rw [List.flatten_append]
  exact h.written.trans (List.prefix_append _ _)

end TerminalSocket

/-! ## All terminals -/

namespace Terminals

/-- What holds of a manager between two steps. -/
structure Sound (root : Str) (enabled : Bool) (s : Terminals) : Prop where
  owner : s.root = root ∧ s.enabled = enabled
  sessions : Registry.All s.sessions fun _ session =>
    session.Sound ∧ session.cwd = root ∧ enabled = true
  sockets : Registry.All s.sockets fun id socket => ∃ session,
    s.sessions socket.terminalId = some session ∧ socket.Stands id session
  sources : Registry.All s.sessions fun terminalId session => ∀ entry ∈ session.input,
    ∃ socket, s.sockets entry.1 = some socket ∧ socket.terminalId = terminalId ∧
      socket.Typed entry.2

variable {s : Terminals} {root : Str} {enabled : Bool}

theorem sound_new (root : Str) (enabled : Bool) : (new root enabled).Sound root enabled :=
  ⟨⟨rfl, rfl⟩, Registry.all_empty, Registry.all_empty, Registry.all_empty⟩

/-- A terminal changes, and its sockets still stand to it as they should. -/
theorem Sound.withSession (h : s.Sound root enabled) {terminalId : Uuid}
    {session : TerminalSession}
    (hsession : session.Sound ∧ session.cwd = root ∧ enabled = true)
    (hsockets : ∀ old, s.sessions terminalId = some old → ∀ id (socket : TerminalSocket),
      socket.Stands id old → socket.Stands id session)
    (hinput : ∀ entry ∈ session.input, ∃ socket, s.sockets entry.1 = some socket ∧
      socket.terminalId = terminalId ∧ socket.Typed entry.2) :
    (s.withSession terminalId session).Sound root enabled := by
  refine ⟨h.owner, h.sessions.update terminalId hsession, ?_, h.sources.update terminalId hinput⟩
  refine h.sockets.mono fun id socket hsocket => ?_
  obtain ⟨old, hold, hstands⟩ := hsocket
  by_cases hid : socket.terminalId = terminalId
  · exact ⟨session, Registry.update_eq_some.2 (.inl ⟨hid, rfl⟩),
      hsockets old (hid ▸ hold) id socket hstands⟩
  · exact ⟨old, Registry.update_eq_some.2 (.inr ⟨hid, hold⟩), hstands⟩

/-- A socket changes, or is new, and stands to its terminal as it should. -/
theorem Sound.withSocket (h : s.Sound root enabled) {id : Nat} {socket : TerminalSocket}
    (hold : ∀ old, s.sockets id = some old →
      socket.terminalId = old.terminalId ∧ old.typed <+: socket.typed)
    (hsocket : ∃ session, s.sessions socket.terminalId = some session ∧
      socket.Stands id session) : (s.withSocket id socket).Sound root enabled := by
  refine ⟨h.owner, h.sessions, h.sockets.update id hsocket, ?_⟩
  refine h.sources.mono fun terminalId session hsources entry hentry => ?_
  obtain ⟨source, hsource, hterminal, htyped⟩ := hsources entry hentry
  by_cases hid : entry.1 = id
  · obtain ⟨hsame, hlonger⟩ := hold source (hid ▸ hsource)
    exact ⟨socket, Registry.update_eq_some.2 (.inl ⟨hid, rfl⟩), hsame.trans hterminal,
      htyped.mono hlonger⟩
  · exact ⟨source, Registry.update_eq_some.2 (.inr ⟨hid, hsource⟩), hterminal, htyped⟩

theorem Sound.create (h : s.Sound root enabled) {terminalId : Uuid}
    (hnew : s.sessions terminalId = none) (size : PtySize) (shell : Option Str)
    (isFile : Str → Bool) (spawn : Except Str Unit) :
    (s.create terminalId size shell isFile spawn).2.Sound root enabled := by
  unfold Terminals.create
  split
  · exact h
  · rename_i henabled
    split
    · exact h
    · rename_i hsize
      split
      · exact h
      · refine h.withSession ⟨⟨by simpa using hsize, defaultShell_absolute shell isFile, rfl⟩,
          h.owner.1, h.owner.2 ▸ by simpa using henabled⟩ (fun old hold => ?_)
          fun _ hentry => nomatch hentry
        rw [hnew] at hold
        cases hold

theorem Sound.subscribe (h : s.Sound root enabled) {id : Nat} (hnew : s.sockets id = none)
    (terminalId : Uuid) (headers : HeaderMap) :
    (s.subscribe id terminalId headers).2.Sound root enabled := by
  unfold Terminals.subscribe
  split
  · exact h
  · split
    · exact h
    · rename_i session hsession
      have hnone : session.from_ id = [] := by
        have hno : session.input.filter (fun entry => entry.1 = id) = [] := by
          refine List.filter_eq_nil_iff.2 fun entry hentry hid => ?_
          obtain ⟨socket, hsocket, -⟩ := h.sources terminalId session hsession entry hentry
          rw [of_decide_eq_true hid, hnew] at hsocket
          cases hsocket
        rw [TerminalSession.from_, hno, List.flatMap_nil]
      refine h.withSocket (fun old hold => ?_) ⟨session, hsession, ?_⟩
      · rw [hnew] at hold
        cases hold
      · refine ⟨Nat.le_refl _, ?_, List.nil_prefix,
          fun _ => ⟨Subscriber.follows_subscribe _, rfl⟩, ?_, fun _ => hnone⟩
        · show (session.output.sent.take session.output.sent.length).flatten = session.printed
          rw [List.take_length, (h.sessions terminalId session hsession).1.output]
        · rw [hnone]
          exact List.nil_prefix

theorem Sound.disconnect (h : s.Sound root enabled) (id : Nat) :
    (s.disconnect id).Sound root enabled := by
  unfold Terminals.disconnect
  cases hsocket : s.sockets id with
  | none => exact h
  | some socket =>
    obtain ⟨session, hsession, hstands⟩ := h.sockets id socket hsocket
    refine h.withSocket (fun old hold => ?_) ⟨session, hsession, hstands.disconnect⟩
    rw [hsocket, Option.some.injEq] at hold
    rw [hold]
    exact ⟨rfl, List.prefix_refl _⟩

theorem Sound.resize (h : s.Sound root enabled) (terminalId : Uuid) (size : PtySize)
    (fails : Option Nat) : (s.resize terminalId size fails).Sound root enabled := by
  unfold Terminals.resize
  split
  · exact h
  · rename_i hsize
    cases hsession : s.sessions terminalId with
    | none => exact h
    | some session =>
      rw [Option.elim_some]
      split
      · exact h
      · obtain ⟨hsound, howner⟩ := h.sessions terminalId session hsession
        refine h.withSession ⟨⟨by simpa using hsize, hsound.shell, hsound.output⟩, howner⟩
          (fun old hold id socket hstands => ?_) (h.sources terminalId session hsession)
        rw [hsession, Option.some.injEq] at hold
        subst hold
        exact hstands.of_same rfl rfl

theorem Sound.read (h : s.Sound root enabled) (terminalId : Uuid) (chunk : Bytes) :
    (s.read terminalId chunk).Sound root enabled := by
  unfold Terminals.read
  cases hsession : s.sessions terminalId with
  | none => exact h
  | some session =>
    obtain ⟨hsound, howner⟩ := h.sessions terminalId session hsession
    have hsources := h.sources terminalId session hsession
    rw [Option.elim_some]
    split
    · split
      · refine h.withSession ⟨⟨hsound.size, hsound.shell, hsound.output⟩, howner⟩
          (fun old hold id socket hstands => ?_) hsources
        rw [hsession, Option.some.injEq] at hold
        subst hold
        exact hstands.of_same rfl rfl
      · refine h.withSession ⟨hsound.print chunk, howner⟩ (fun old hold id socket hstands => ?_)
          hsources
        rw [hsession, Option.some.injEq] at hold
        subst hold
        exact hstands.print chunk
    · exact h

theorem Sound.takeOutput (h : s.Sound root enabled) {id : Nat} {socket : TerminalSocket}
    (hsocket : s.sockets id = some socket) (hconnected : socket.connected = true) :
    (s.takeOutput id socket).Sound root enabled := by
  obtain ⟨session, hsession, hstands⟩ := h.sockets id socket hsocket
  rw [Terminals.takeOutput, hsession, Option.elim_some]
  refine h.withSocket (fun old hold => ?_) ⟨session, hsession, hstands.receive hconnected⟩
  rw [hsocket, Option.some.injEq] at hold
  rw [hold]
  exact ⟨rfl, List.prefix_refl _⟩

/-- A socket's task writes what its device typed. -/
theorem Sound.type (h : s.Sound root enabled) {id : Nat} {socket : TerminalSocket}
    (hsocket : s.sockets id = some socket) (hconnected : socket.connected = true)
    {session : TerminalSession} (hsession : s.sessions socket.terminalId = some session)
    {bytes written : Bytes} (hbytes : bytes.length ≤ 64 * 1024) (hwritten : written <+: bytes)
    {ok : Bool} (hok : ok = true → written = bytes) :
    ((s.withSession socket.terminalId
      { session with input := session.input ++ [(id, written)] }).withSocket id
        { socket with typed := socket.typed ++ [bytes], connected := ok }).Sound root enabled := by
  obtain ⟨hsound, howner⟩ := h.sessions socket.terminalId session hsession
  have hmine : socket.Stands id session := by
    obtain ⟨found, hfound, hstands⟩ := h.sockets id socket hsocket
    rw [hsession, Option.some.injEq] at hfound
    exact hfound ▸ hstands
  have hthere : ∀ (terminalId : Uuid) (entry : Nat × Bytes), (∃ source,
      s.sockets entry.1 = some source ∧ source.terminalId = terminalId ∧ source.Typed entry.2) →
      ∃ source, Function.update s.sockets id (some
        { socket with typed := socket.typed ++ [bytes], connected := ok }) entry.1 = some source ∧
          source.terminalId = terminalId ∧ source.Typed entry.2 := by
    intro terminalId entry hother
    obtain ⟨source, hsource, hterminal, htyped⟩ := hother
    by_cases hid : entry.1 = id
    · rw [hid, hsocket, Option.some.injEq] at hsource
      subst hsource
      exact ⟨_, Registry.update_eq_some.2 (.inl ⟨hid, rfl⟩), hterminal,
        htyped.mono (List.prefix_append _ _)⟩
    · exact ⟨source, Registry.update_eq_some.2 (.inr ⟨hid, hsource⟩), hterminal, htyped⟩
  refine ⟨h.owner, h.sessions.update _ ⟨⟨hsound.size, hsound.shell, hsound.output⟩, howner⟩,
    ?_, ?_⟩
  · refine Registry.All.update_of id ?_ fun other source hother hsource => ?_
    · exact ⟨_, Registry.update_eq_some.2 (.inl ⟨rfl, rfl⟩),
        hmine.type hconnected hwritten ok hok⟩
    · obtain ⟨found, hfound, hstands⟩ := h.sockets other source hsource
      by_cases hsame : source.terminalId = socket.terminalId
      · rw [hsame, hsession, Option.some.injEq] at hfound
        subst hfound
        exact ⟨_, Registry.update_eq_some.2 (.inl ⟨hsame, rfl⟩),
          hstands.of_same rfl (session.from_write_of_ne hother written)⟩
      · exact ⟨found, Registry.update_eq_some.2 (.inr ⟨hsame, hfound⟩), hstands⟩
  · refine Registry.All.update_of _ (fun entry hentry => ?_)
      fun other found _ hfound entry hentry => ?_
    · rcases List.mem_append.1 hentry with hold | hnew
      · exact hthere _ _ (h.sources _ session hsession entry hold)
      · rw [List.mem_singleton.1 hnew]
        exact ⟨_, Registry.update_eq_some.2 (.inl ⟨rfl, rfl⟩), rfl, bytes,
          List.mem_append_right _ (List.mem_singleton_self bytes), hbytes, hwritten⟩
    · exact hthere _ _ (h.sources other found hfound entry hentry)

theorem Sound.takeFrame (h : s.Sound root enabled) {id : Nat} {socket : TerminalSocket}
    (hsocket : s.sockets id = some socket) (hconnected : socket.connected = true)
    (frame : Frame ν) (fails : Option Nat) :
    (s.takeFrame asU64 id socket frame fails).Sound root enabled := by
  cases frame with
  | binary bytes =>
    obtain ⟨session, hsession, hstands⟩ := h.sockets id socket hsocket
    simp only [Terminals.takeFrame, Terminals.write]
    by_cases hlong : bytes.length > 64 * 1024
    · rw [if_pos hlong]
      refine h.withSocket (fun old hold => ?_) ⟨session, hsession, hstands.refuse bytes⟩
      rw [hsocket, Option.some.injEq] at hold
      rw [← hold]
      exact ⟨rfl, List.prefix_append _ _⟩
    · rw [if_neg hlong, hsession]
      refine h.type hsocket hconnected hsession (Nat.le_of_not_lt hlong) ?_ ?_
      · cases fails with
        | none => exact List.prefix_refl _
        | some count => exact List.take_prefix _ _
      · cases fails with
        | none => exact fun _ => rfl
        | some count => exact fun hfalse => nomatch hfalse
  | text value =>
    rw [Terminals.takeFrame]
    cases value.bind (resizeRequest asU64) with
    | none => exact h
    | some size => exact h.resize socket.terminalId size fails
  | close => exact h.disconnect id
  | other => exact h

theorem sound_step (h : s.Sound root enabled) (action : Action ν) :
    (s.step asU64 action).2.Sound root enabled := by
  cases action with
  | create terminalId size shell isFile spawn =>
    simp only [step]
    split
    · exact h
    · rename_i hnew
      exact h.create (by simpa using hnew) size shell isFile spawn
  | subscribe id terminalId headers =>
    simp only [step]
    split
    · exact h
    · rename_i hnew
      exact h.subscribe (by simpa using hnew) terminalId headers
  | frame id frame fails =>
    simp only [step]
    cases hsocket : s.sockets id with
    | none => exact h
    | some socket =>
      rw [Option.elim_some]
      split
      · rename_i hconnected
        exact h.takeFrame hsocket hconnected frame fails
      · exact h
  | output id =>
    simp only [step]
    cases hsocket : s.sockets id with
    | none => exact h
    | some socket =>
      rw [Option.elim_some]
      split
      · rename_i hconnected
        exact h.takeOutput hsocket hconnected
      · exact h
  | disconnect id => exact h.disconnect id
  | read terminalId chunk => exact h.read terminalId chunk

theorem sound_final (asU64 : ν → Option Nat) (root : Str) (enabled : Bool)
    (actions : List (Action ν)) :
    ((machine asU64).final (new root enabled) actions).Sound root enabled :=
  Machine.final_invariant (M := machine asU64) (P := Sound root enabled)
    (fun _ action h => sound_step h action) (sound_new root enabled) actions

/-- A device connects to a terminal at `h`, types `ls`, and the terminal prints `a`. -/
def listing : List (Action Nat) := [
  .create 1 ⟨30, 100⟩ (some "/bin/zsh") (fun path => path = "/bin/zsh") (.ok ()),
  .subscribe 0 1 [("host", [104]), ("origin", [104, 116, 116, 112, 58, 47, 47, 104])],
  .frame 0 (.binary [108, 115]) none,
  .read 1 [97],
  .output 0]

/-- After `ls`, a frame of which only the front is written. -/
def cutOff : List (Action Nat) := listing ++ [.frame 0 (.binary [112, 119, 100]) (some 2)]

end Terminals

end LeaveCli.Host
