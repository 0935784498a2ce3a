import LeaveCli.Relay.Proof.Steps
import LeaveCli.Transport.Wire

/-!
# What a revocation disconnects

`RouteTable::revoke` drops the table's handle on a route's channel, and every attached socket has
one of its own: `revoke_disconnects_iff` says that a revoked route is disconnected if and only if
the writer of every connection on it had stopped, or had fallen so far behind that it stops the next
time it runs. Such a route stays silent (`Silent`); on any other a writer that keeps up comes to
wait (`exists_waits`).
-/

namespace LeaveCli.Relay

open Lib Crypto Transport LeaveCli.Host LeaveCli.Core

namespace World

/-- More is pending for a connection than its channel keeps. -/
def Lags (channel : Broadcast RoutedFrame) (c : Connection) : Prop :=
  c.next + channel.capacity < channel.sent.length

/-- However `s` goes on, no frame that is published on a channel from then on is handed to an
endpoint, and no writer that asks the channel for a frame is left waiting. -/
def Disconnected (W : EnvelopeWire) (hashToken : Str → Bytes) (channel : Nat) (s : World) : Prop :=
  ∀ actions, ∀ t ∈ (machine W hashToken).run s actions, ∀ id c, t.input = .write id →
    t.before.connections id = some c → c.sender = channel →
      t.output ≠ .waits ∧ ∀ position frame, t.output = .delivered position frame →
        position < (s.channels channel).sent.length

variable {W : EnvelopeWire} {hashToken : Str → Bytes} {s : World}

instance (channel : Broadcast RoutedFrame) (c : Connection) : Decidable (Lags channel c) :=
  inferInstanceAs (Decidable (_ < _))

/-! ## A silent channel -/

/-- No route has the channel, and every writer that still runs on it lags. -/
structure Silent (channel : Nat) (s : World) : Prop where
  registered : channel < s.registered.length
  forgotten : ∀ routeId route, s.table.routes.lookup routeId = some route → route.sender ≠ channel
  lags : Connected s.connections fun _ c =>
    c.sender = channel → c.writing = true → Lags (s.channels channel) c

theorem Lags.not_kept {channel : Broadcast RoutedFrame} {c c' : Connection} (h : Lags channel c)
    (hturn : Turn W channel c c') : c'.next = c.next := by
  cases hturn with
  | skip endpointId frame hendpoint hframe hown hkept => exact absurd h hkept
  | deliver endpointId frame hendpoint hframe hother hkept => exact absurd h hkept
  | _ => rfl

theorem Lags.send {channels : Nat → Broadcast RoutedFrame} {channel : Nat} {c : Connection}
    (h : Lags (channels channel) c) (sender : Nat) (frame : RoutedFrame) :
    Lags (Function.update channels sender ((channels sender).send frame) channel) c := by
  by_cases hchannel : channel = sender
  · subst hchannel
    rw [Lags] at h
    rw [Lags, Function.update_self, Broadcast.send_capacity, Broadcast.send_sent,
      List.length_append, List.length_singleton]
    omega
  · rwa [Function.update_of_ne hchannel]

theorem Does.silent {s' : World} {channel : Nat} (h : Does W hashToken s s')
    (hs : Silent channel s) : Silent channel s' := by
  obtain ⟨hregistered, hforgotten, hlags⟩ := hs
  cases h with
  | nothing => exact ⟨hregistered, hforgotten, hlags⟩
  | authorize revoking => exact ⟨hregistered, hforgotten, hlags⟩
  | register drawn =>
    refine ⟨?_, fun routeId route hroute => ?_, hlags⟩
    · rw [List.length_append]
      omega
    · by_cases hdrawn : routeId = drawn.routeId
      · subst hdrawn
        simp only [RouteTable.register, AList.lookup_insert, Option.some.injEq] at hroute
        subst hroute
        exact Nat.ne_of_gt hregistered
      · simp only [RouteTable.register, AList.lookup_insert_ne hdrawn] at hroute
        exact hforgotten routeId route hroute
  | revoke revoked revoking =>
    exact ⟨hregistered, fun routeId route hroute =>
      hforgotten routeId route (lookup_revoke hroute).2, hlags⟩
  | opens routeId token route hroute =>
    refine ⟨hregistered, hforgotten, hlags.update fun hsender => ?_⟩
    obtain ⟨hlookup, -⟩ := Option.filter_eq_some_iff.1 hroute
    exact absurd hsender (hforgotten routeId route hlookup)
  | turn id c c' hc hturn =>
    refine ⟨hregistered, hforgotten, hlags.update fun hsender hwriting => ?_⟩
    have hsame : c.sender = channel := hturn.keeps.sender.symm.trans hsender
    have hclags := hlags id c hc hsame (hturn.keeps.writing hwriting)
    rw [hsame] at hturn
    rw [Lags, hclags.not_kept hturn]
    exact hclags
  | upgrade id now c hc hnew => exact ⟨hregistered, hforgotten, hlags.update (hlags id c hc)⟩
  | send id messageId ciphertext c hc =>
    exact ⟨hregistered, hforgotten, hlags.update (hlags id c hc)⟩
  | forward id endpointId window frame rest c hc hendpoint houtgoing hroutable =>
    refine ⟨hregistered, hforgotten, Connected.update (hlags.mono ?_) ?_⟩
    · intro other c' hc' hsender hwriting
      exact (hc' hsender hwriting).send c.sender _
    · intro hsender hwriting
      exact (hlags id c hc hsender hwriting).send c.sender _

/-- A writer on a silent channel stops, if it runs at all. -/
theorem write_silent {channel id : Nat} {c : Connection} (hs : Silent channel s)
    (hc : s.connections id = some c) (hsender : c.sender = channel) :
    (step W hashToken s (.write id)).1 = .quiet := by
  simp only [step, onConnection, hc, Option.elim_some]
  cases hendpoint : c.endpointId with
  | none => rfl
  | some endpointId =>
    rw [Option.elim_some]
    split
    · rename_i hwriting
      have hlags := hs.lags id c hc hsender hwriting
      rw [Lags, ← hsender] at hlags
      rw [write, Broadcast.recv, if_pos hlags]
    · rfl

theorem Silent.disconnected {channel : Nat} (hs : Silent channel s) :
    Disconnected W hashToken channel s := by
  intro actions t ht id c hinput hc hsender
  have hsilent : Silent channel t.before :=
    (Machine.run_invariant (P := Silent channel) (fun s action => (step_does s action).silent)
      hs ht).1
  have hquiet : t.output = .quiet := by
    rw [Machine.eq_fire_of_mem_run ht, hinput]
    exact write_silent hsilent hc hsender
  rw [hquiet]
  exact ⟨by simp, by simp⟩

/-! ## A writer that keeps up -/

theorem mem_run_step {action : Action} {actions : List Action}
    {t : Transition World Action Output}
    (h : t ∈ (machine W hashToken).run (step W hashToken s action).2 actions) :
    t ∈ (machine W hashToken).run s (action :: actions) := by
  rw [Machine.run]
  exact List.mem_cons_of_mem _ h

theorem step_write {id endpointId : Nat} {c : Connection} (hc : s.connections id = some c)
    (hendpoint : c.endpointId = some endpointId) (hwriting : c.writing = true) :
    step W hashToken s (.write id) = s.write id endpointId c := by
  simp only [step, onConnection, hc, hendpoint, Option.elim_some, hwriting, if_true]

/-- A writer that keeps up takes what is pending and then waits: its own loop holds a sender. -/
theorem exists_waits {id endpointId : Nat} {c : Connection} (hs : Sound hashToken s)
    (hc : s.connections id = some c) (hendpoint : c.endpointId = some endpointId)
    (hwriting : c.writing = true) (hkept : ¬ Lags (s.channels c.sender) c) :
    ∃ actions, ∃ t ∈ (machine W hashToken).run s actions, t.input = .write id ∧
      (∃ c', t.before.connections id = some c' ∧ c'.sender = c.sender) ∧ t.output = .waits := by
  rw [Lags] at hkept
  induction hpending : (s.channels c.sender).sent.length - c.next generalizing s c with
  | zero =>
    have hend : (s.channels c.sender).sent[c.next]? = none := List.getElem?_eq_none (by omega)
    have hleft : s.sendersLeft c.sender := by
      have hheld := hs.held id c hc
      exact .inr ⟨id, hheld.opened, c, hc, hheld.reading hwriting, rfl⟩
    refine ⟨[.write id], _, List.mem_cons_self, rfl, ⟨c, hc, rfl⟩, ?_⟩
    show (step W hashToken s (.write id)).1 = .waits
    rw [step_write hc hendpoint hwriting, write, Broadcast.recv, if_neg hkept, hend,
      Option.elim_none, if_pos hleft]
  | succ pending ih =>
    obtain ⟨frame, hframe⟩ : ∃ frame, (s.channels c.sender).sent[c.next]? = some frame :=
      ⟨_, List.getElem?_eq_getElem (by omega)⟩
    have hrecv : (s.channels c.sender).recv c.next = (.value frame, c.next + 1) := by
      rw [Broadcast.recv, if_neg hkept, hframe, Option.elim_some]
    obtain ⟨incoming, hnext⟩ : ∃ incoming, (step W hashToken s (.write id)).2 =
        s.withConnection id { c with next := c.next + 1, incoming } := by
      rw [step_write hc hendpoint hwriting, write, hrecv]
      by_cases hown : frame.endpointId = endpointId
      · exact ⟨c.incoming, congrArg Prod.snd (if_pos hown)⟩
      · exact ⟨_, congrArg Prod.snd (if_neg hown)⟩
    have hsound := (step_does (W := W) s (.write id)).sound hs
    rw [hnext] at hsound
    have hkept' : ¬ c.next + 1 + (s.channels c.sender).capacity <
        (s.channels c.sender).sent.length := by omega
    have hpending' : (s.channels c.sender).sent.length - (c.next + 1) = pending := by omega
    obtain ⟨actions, t, ht, hinput, hbefore, houtput⟩ :=
      ih (c := { c with next := c.next + 1, incoming }) hsound (Function.update_self ..) hendpoint
        hwriting hkept' hpending'
    exact ⟨.write id :: actions, t, mem_run_step (hnext ▸ ht), hinput, hbefore, houtput⟩

theorem not_disconnected {id : Nat} {c : Connection} (hs : Sound hashToken s)
    (hc : s.connections id = some c) (hwriting : c.writing = true)
    (hkept : ¬ Lags (s.channels c.sender) c) : ¬ Disconnected W hashToken c.sender s := by
  intro hdisconnected
  obtain ⟨actions, t, ht, hinput, ⟨c', hc', hsender⟩, hwaits⟩ : ∃ actions,
      ∃ t ∈ (machine W hashToken).run s actions, t.input = .write id ∧
        (∃ c', t.before.connections id = some c' ∧ c'.sender = c.sender) ∧ t.output = .waits := by
    cases hendpoint : c.endpointId with
    | some endpointId => exact exists_waits hs hc hendpoint hwriting hkept
    | none =>
      -- the upgrade was pending when the route was revoked, and goes on
      have hreading := (hs.held id c hc).reading hwriting
      have hupgrade : (step W hashToken s (.upgrade id 0)).2 = { s with
          nextEndpoint := s.nextEndpoint + 1
          connections := Function.update s.connections id
            (some { c with endpointId := some s.nextEndpoint, window := ⟨0, 0⟩ }) } := by
        simp only [step, onConnection, hc, Option.elim_some, upgrade, hendpoint, hreading, true_and,
          if_true]
      have hsound := (step_does (W := W) s (.upgrade id 0)).sound hs
      rw [hupgrade] at hsound
      obtain ⟨actions, t, ht, hrest⟩ :=
        exists_waits (W := W) (c := { c with endpointId := some s.nextEndpoint, window := ⟨0, 0⟩ })
          hsound (Function.update_self ..) rfl hwriting hkept
      exact ⟨.upgrade id 0 :: actions, t, mem_run_step (hupgrade ▸ ht), hrest⟩
  exact (hdisconnected actions t ht id c' hinput hc' hsender).1 hwaits

/-- A revocation that finds the route disconnects it if and only if, of the connections attached to
it, those whose writers still run had all fallen too far behind. -/
theorem revoke_disconnects_iff (W : EnvelopeWire) (hashToken : Str → Bytes)
    {registrationSecret : Option Str} {publicOrigin : Bytes} {s : World} {routeId : Str}
    {route : Route}
    (hs : (machine W hashToken).Reachable (start registrationSecret publicOrigin) s)
    (hroute : s.table.routes.lookup routeId = some route)
    (hrevoked : (s.revokeRoute routeId).1 = .revoked true) :
    Disconnected W hashToken route.sender (s.revokeRoute routeId).2 ↔
      ∀ id c, s.connections id = some c → c.sender = route.sender → c.writing = true →
        Lags (s.channels route.sender) c := by
  have hsound := sound_reachable hs
  have hrevoking : routeId ∈ s.revoking := by
    by_contra hnot
    rw [revokeRoute, if_neg hnot] at hrevoked
    cases hrevoked
  rw [revokeRoute, if_pos hrevoking]
  constructor
  · intro hdisconnected id c hc hsender hwriting
    by_contra hkept
    rw [← hsender] at hdisconnected hkept
    have hsound' := Does.sound (W := W) (.revoke routeId (s.revoking.erase routeId)) hsound
    exact not_disconnected hsound' hc hwriting hkept hdisconnected
  · intro hlags
    apply Silent.disconnected
    refine ⟨hsound.tabled.lt hroute, fun other route' hroute' => ?_, hlags⟩
    obtain ⟨hother, hlookup⟩ := lookup_revoke hroute'
    exact hsound.tabled.sender_ne hroute hlookup hother

/-- One route, whose token and registration secret are known. -/
def secretHeader : HeaderMap := [(registrationHeader, Str.utf8 "secret")]

def tokenHeader : HeaderMap := [(routeTokenHeader, Str.utf8 "token")]

/-- An endpoint attached to the route and left it, and its revocation is authorized. -/
def abandoned : World := (machine wire Str.utf8).final (start (some "secret") []) [
  .register ⟨"route", "token"⟩ secretHeader, .websocket "route" tokenHeader, .upgrade 0 0,
  .hangUp 0, .authorizeRevoke "route" tokenHeader]

theorem revoke_disconnects_iff_abandoned :
    Disconnected wire Str.utf8 0 (abandoned.revokeRoute "route").2 := by
  have hs : (machine wire Str.utf8).Reachable (start (some "secret") []) abandoned :=
    Machine.reachable_final _ _
  let route : Route := ⟨Str.utf8 "token", 0⟩
  have hroute : abandoned.table.routes.lookup ("route" : Str) = some route := by
    decide +kernel
  refine (revoke_disconnects_iff wire Str.utf8 hs hroute (by decide +kernel)).2
    fun id c hc => ?_
  have hid : id < abandoned.opened := ((sound_reachable hs).held id c hc).opened
  have hstopped : ∀ id < abandoned.opened, ∀ c ∈ abandoned.connections id,
      c.sender = 0 → c.writing = true → Lags (abandoned.channels 0) c := by
    decide +kernel
  exact hstopped id hid c hc

/-- Two endpoints are attached to the route, and its revocation is authorized. -/
def attachedPair : World := (machine wire Str.utf8).final (start (some "secret") []) [
  .register ⟨"route", "token"⟩ secretHeader, .websocket "route" tokenHeader, .upgrade 0 0,
  .websocket "route" tokenHeader, .upgrade 1 0, .authorizeRevoke "route" tokenHeader]

/-- The first of them has published a frame after the revocation. -/
def publishedAfter : World :=
  (machine wire Str.utf8).final (attachedPair.revokeRoute "route").2
    [.send 0 7 [1, 2, 3], .read 0 0]

/-- The revocation finds the route; then the first endpoint publishes a frame, the second gets it,
and its task waits for another. -/
theorem revoked_route_goes_on :
    (machine wire Str.utf8).Reachable (start (some "secret") []) attachedPair ∧
      (attachedPair.revokeRoute "route").1 = .revoked true ∧
      (∃ frame, (machine wire Str.utf8).outputs (attachedPair.revokeRoute "route").2
        [.send 0 7 [1, 2, 3], .read 0 0, .write 1, .write 1] =
          [.quiet, .quiet, .delivered 0 ⟨1, frame⟩, .waits]) ∧
      ¬ Disconnected wire Str.utf8 0 (attachedPair.revokeRoute "route").2 := by
  refine ⟨Machine.reachable_final _ _, by decide +kernel, ?_, ?_⟩
  · exact ⟨wire.encode ⟨1, "route", hyphenated 7, [1, 2, 3]⟩, by decide +kernel⟩
  · intro hdisconnected
    obtain ⟨c, hc, hsender⟩ : ∃ c ∈ (publishedAfter.connections 1), c.sender = 0 := by
      decide +kernel
    have hfire : (machine wire Str.utf8).fire publishedAfter (.write 1) ∈
        (machine wire Str.utf8).run (attachedPair.revokeRoute "route").2
          [.send 0 7 [1, 2, 3], .read 0 0, .write 1] :=
      mem_run_step (mem_run_step List.mem_cons_self)
    have houtput : (step wire Str.utf8 publishedAfter (.write 1)).1 =
        .delivered 0 ⟨1, wire.encode ⟨1, "route", hyphenated 7, [1, 2, 3]⟩⟩ := by
      decide +kernel
    have hlt := (hdisconnected _ _ hfire 1 c rfl hc hsender).2 0 _ houtput
    exact absurd hlt (by decide +kernel)

end World

end LeaveCli.Relay
