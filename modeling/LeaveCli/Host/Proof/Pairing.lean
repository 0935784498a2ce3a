import LeaveCli.Host.Proof.TunnelMonitor
import LeaveCli.Host.SmallPlatform

/-!
# Pairing

An open code lets one device into the group (`pairing_code_admits_one`), and what it gets is what
`newestDevice` finds afterwards: the first member on a leaf that has no grant
(`newestDevice_added`). `pairing_grants_iff` says when that is the device that joined.
-/

namespace LeaveCli.Host

open Lib Protocol Crypto Transport

variable {D : Platform}

/-! ## The newest device -/

/-- The member's identifier, if it has no grant and is not the host's. -/
def waitingId {M : Mls} (session : WorkspaceSession M) (registry : DeviceRegistry) (m : Member) :
    Option Str :=
  match identityOf m.credential with
  | .ok d => if d ≠ session.deviceId ∧ registry.get d = none then some d else none
  | .error _ => none

/-- Every member's credential carries an identifier. -/
def AllReadable {M : Mls} (session : WorkspaceSession M) : Prop :=
  ∀ m ∈ session.view.members, ∃ d, identityOf m.credential = .ok d

theorem waitingId_of_ok {M : Mls} {session : WorkspaceSession M} {registry : DeviceRegistry}
    {m : Member} {d : Str} (hid : identityOf m.credential = .ok d) :
    waitingId session registry m =
      if d ≠ session.deviceId ∧ registry.get d = none then some d else none := by
  rw [waitingId, hid]

/-- The newest device is the first that waits for a grant. -/
theorem newestDevice_eq {M : Mls} {session : WorkspaceSession M} {registry : DeviceRegistry}
    (hread : AllReadable session) :
    newestDevice session registry =
      session.view.members.findSome? (waitingId session registry) := by
  have hmembers : ∀ ms : List Member, (∀ m ∈ ms, ∃ d, identityOf m.credential = .ok d) →
      ∃ ids, (ms.mapM fun m => identityOf m.credential) = .ok ids ∧
        (ids.find? fun d => d ≠ session.deviceId ∧ registry.get d = none) =
          ms.findSome? (waitingId session registry) := by
    intro ms hms
    induction ms with
    | nil => exact ⟨[], rfl, rfl⟩
    | cons m ms ih =>
      obtain ⟨d, hd⟩ := hms m List.mem_cons_self
      obtain ⟨ids, hids, hfind⟩ := ih fun m hm => hms m (List.mem_cons_of_mem _ hm)
      refine ⟨d :: ids, ?_, ?_⟩
      · rw [List.mapM_cons, hd, hids]
        rfl
      · rw [List.find?_cons, List.findSome?_cons, waitingId_of_ok hd, hfind]
        by_cases hw : d ≠ session.deviceId ∧ registry.get d = none
        · simp [hw]
        · simp [hw]
  obtain ⟨ids, hids, hfind⟩ := hmembers session.view.members hread
  have hids' : session.memberDeviceIds = .ok ids := hids
  rw [newestDevice, hids', ← hfind]

/-- Nobody is registered while one credential is unreadable. -/
theorem newestDevice_unreadable {M : Mls} {session : WorkspaceSession M}
    {registry : DeviceRegistry} (hread : ¬ AllReadable session) :
    newestDevice session registry = none := by
  have hmembers : ∀ ms : List Member, (¬ ∀ m ∈ ms, ∃ d, identityOf m.credential = .ok d) →
      ∃ e, (ms.mapM fun m => identityOf m.credential) = .error e := by
    intro ms hms
    induction ms with
    | nil => simp at hms
    | cons m ms ih =>
      cases hid : identityOf m.credential with
      | error e => exact ⟨e, by rw [List.mapM_cons, hid]; rfl⟩
      | ok d =>
        obtain ⟨e, he⟩ := ih fun hall => hms (by simpa [hid] using hall)
        exact ⟨e, by rw [List.mapM_cons, hid, he]; rfl⟩
  obtain ⟨e, he⟩ := hmembers session.view.members hread
  have he' : session.memberDeviceIds = .error e := he
  rw [newestDevice, he']

section
variable {M : Mls} {session session' : WorkspaceSession M} {registry : DeviceRegistry}
  {k : M.KeyPackage} {d : Str}

/-- The first of the waiting devices on the leaves before the one the next device takes. -/
def waitingBefore (session : WorkspaceSession M) (registry : DeviceRegistry) : Option Str :=
  (beforeBlank 0 session.view.members).findSome? (waitingId session registry)

theorem waitingId_added (hadd : Added session session' k) :
    waitingId session' registry = waitingId session registry := by
  funext m
  rw [waitingId, hadd.deviceId]
  rfl

theorem allReadable_added_iff (hadd : Added session session' k)
    (hid : identityOf (M.credential k) = .ok d) : AllReadable session' ↔ AllReadable session := by
  unfold AllReadable
  rw [hadd.view]
  refine ⟨fun h m hm => h m (mem_added.2 (.inl hm)), fun h m hm => ?_⟩
  rcases mem_added.1 hm with hm | rfl
  · exact h m hm
  · exact ⟨d, hid⟩

/-- The members before the new one are looked at first, then the new one, then the rest. -/
theorem newestDevice_added (hadd : Added session session' k)
    (hid : identityOf (M.credential k) = .ok d) (hread : AllReadable session) :
    newestDevice session' registry =
      ((waitingBefore session registry).or
        (if d ≠ session.deviceId ∧ registry.get d = none then some d else none)).or
      ((session.view.members.drop (beforeBlank 0 session.view.members).length).findSome?
        (waitingId session registry)) := by
  have hnew : waitingId session registry
      ⟨(beforeBlank 0 session.view.members).length, M.credential k⟩ =
        if d ≠ session.deviceId ∧ registry.get d = none then some d else none :=
    waitingId_of_ok hid
  rw [newestDevice_eq ((allReadable_added_iff hadd hid).2 hread), waitingId_added hadd, hadd.view,
    GroupView.added, List.findSome?_append, List.findSome?_cons, ← hnew, Option.or_assoc]
  cases waitingId session registry
    ⟨(beforeBlank 0 session.view.members).length, M.credential k⟩ with
  | none => rfl
  | some d' => rfl

theorem newestDevice_added_self_iff (hadd : Added session session' k)
    (hid : identityOf (M.credential k) = .ok d) :
    newestDevice session' registry = some d ↔ AllReadable session ∧
      (d ≠ session.deviceId ∧ registry.get d = none) ∧
      ∀ d', waitingBefore session registry = some d' → d' = d := by
  by_cases hread : AllReadable session
  case neg =>
    rw [newestDevice_unreadable fun h => hread ((allReadable_added_iff hadd hid).1 h)]
    simp [hread]
  refine ⟨fun h => ?_, fun ⟨_, hwaits, hfirst⟩ => ?_⟩
  · obtain ⟨hnone, hne⟩ := newestDevice_spec h
    rw [hadd.deviceId] at hne
    refine ⟨hread, ⟨hne, hnone⟩, fun d' hd' => ?_⟩
    rw [newestDevice_added hadd hid hread, hd'] at h
    exact Option.some.inj h
  · rw [newestDevice_added hadd hid hread, if_pos hwaits]
    cases hbefore : waitingBefore session registry with
    | none => rfl
    | some d' =>
      rw [hfirst d' hbefore]
      rfl

/-- A device that has a grant already is passed over. -/
theorem newestDevice_added_granted (hadd : Added session session' k)
    (hid : identityOf (M.credential k) = .ok d) (hgranted : registry.get d ≠ none) :
    newestDevice session' registry = newestDevice session registry := by
  by_cases hread : AllReadable session
  case neg =>
    rw [newestDevice_unreadable hread,
      newestDevice_unreadable fun h => hread ((allReadable_added_iff hadd hid).1 h)]
  have hsplit := beforeBlank_append_drop 0 session.view.members
  rw [newestDevice_added hadd hid hread, newestDevice_eq hread, if_neg (by simp [hgranted]),
    Option.or_none, waitingBefore, ← List.findSome?_append, hsplit]

end

/-! ## What a pairing grants -/

/-- `d` has the newly paired rights, and every other grant is as it was. -/
def GrantsExactly (s s' : RouteService D) (d : Str) : Prop :=
  s'.registry.get d = some .newlyPaired ∧ ∀ d', d' ≠ d → s'.registry.get d' = s.registry.get d'

/-- `d` waits for a grant once it joins and nobody waits before it, or it has the newly paired
rights already and nobody waits. -/
def ReadyFor (s : RouteService D) (d : Str) : Prop :=
  AllReadable s.session ∧ (d ≠ s.session.deviceId ∧ s.registry.get d = none) ∧
      (∀ d', waitingBefore s.session s.registry = some d' → d' = d) ∨
    s.registry.get d = some .newlyPaired ∧ newestDevice s.session s.registry = none

theorem grantsExactly_registerPaired_iff {s s' : RouteService D} {session : WorkspaceSession D.mls}
    {k : D.mls.KeyPackage} {d : Str} (hadd : Added s.session session k)
    (hid : identityOf (D.mls.credential k) = .ok d)
    (hregistry : s'.registry = registerPaired session s.registry) :
    GrantsExactly s s' d ↔ ReadyFor s d := by
  unfold GrantsExactly ReadyFor
  rw [hregistry, ← newestDevice_added_self_iff hadd hid]
  rcases get_registerPaired session s.registry with ⟨hnone, hsame⟩ | ⟨d', hnew, hset⟩
  · rw [hsame, hnone]
    refine ⟨fun ⟨hg, _⟩ => .inr ⟨hg, ?_⟩, fun h => ?_⟩
    · rw [← newestDevice_added_granted hadd hid (by simp [hg]), hnone]
    · rcases h with h | ⟨hg, -⟩
      · cases h
      · exact ⟨hg, fun _ _ => rfl⟩
  · rw [hset, hnew]
    obtain ⟨hungranted, -⟩ := newestDevice_spec hnew
    refine ⟨fun ⟨_, hothers⟩ => .inl ?_, fun h => ?_⟩
    · by_contra hne
      have hd := hothers d' fun he => hne (congrArg some he)
      rw [Function.update_self, hungranted] at hd
      cases hd
    · rcases h with h | ⟨hg, hnone⟩
      · obtain rfl := Option.some.inj h
        exact ⟨Function.update_self .., fun d hd => Function.update_of_ne hd ..⟩
      · rw [← newestDevice_added_granted hadd hid (by simp [hg]), hnew] at hnone
        cases hnone

/-- An accepted pairing gives the joining device, and no other, the newly paired rights exactly
when that device is the one `newestDevice` finds. The route ends, and grants nothing, when the
welcome does not get through. -/
theorem pairing_grants_iff (hM : D.mls.Lawful) {s : RouteService D} {x : Incoming}
    {secret : PairingSecret} {keyPackage : Bytes} {k : D.mls.KeyPackage} {d : Str}
    {session : WorkspaceSession D.mls} {invitation : Invitation} (hopen : s.pairing = some secret)
    (haccepted : acceptPairing D.hash s.session x.frame secret = (session, .ok invitation))
    (hrequest : Requests x.frame keyPackage (secret.tag D.hash keyPackage))
    (hparsed : parseKeyPackage D.mls keyPackage = .ok k)
    (hid : identityOf (D.mls.credential k) = .ok d) :
    GrantsExactly s (serveFrame s x).2 d ↔
      match s.client.send x.connected (pairingWelcome invitation) with
      | .ok _ => ReadyFor s d
      | .error _ => s.registry.get d = some .newlyPaired := by
  have hadd : Added s.session session k := by
    rcases acceptPairing_cases hM D.hash s.session x.frame secret with
      ⟨e, he⟩ | ⟨keyPackage', k', session', invitation', hrequest', hparsed', ha, hadd⟩
    · rw [haccepted] at he
      cases he
    · obtain ⟨rfl, -⟩ := hrequest.unique hrequest'
      cases hparsed.symm.trans hparsed'
      cases haccepted.symm.trans ha
      exact hadd
  rw [serveFrame, if_pos hrequest.isPairingFrame, servePairing, hopen]
  simp only [haccepted]
  cases s.client.send x.connected (pairingWelcome invitation) with
  | ok envelope => exact grantsExactly_registerPaired_iff hadd hid rfl
  | error e => exact and_iff_left fun _ _ => rfl

section
open SmallPlatform

/-- The laptop's workspace with a code open. -/
def laptopWorkspace : RouteService (platform []) :=
  service [] (group ["laptop"]) [("laptop", ⟨.owner, ∅⟩)] (some secret)

/-- The session and the invitation after `deviceId` joined the laptop's workspace. -/
def laptopJoined (deviceId : Str) : WorkspaceSession SmallGroup.mls :=
  { laptopWorkspace.session with
    group := SmallGroup.Group.added (group ["laptop"]) (.basic (ascii deviceId)) }

def laptopInvitation : Invitation :=
  ⟨SmallGroup.encode (.commit 3), SmallGroup.encode (.welcome 4 2)⟩

theorem accepts_pairingFrom {deviceId : Str}
    (hlength : (keyPackage deviceId).length < UInt32.size) :
    acceptPairing hash laptopWorkspace.session (pairingFrom deviceId).frame secret =
      (laptopJoined deviceId, .ok laptopInvitation) :=
  (acceptPairing_of_requests (requests_pairingFrom hlength)).trans
    (SmallGroup.addDevice_encode laptopWorkspace.session (.basic (ascii deviceId)))

theorem pairing_grants_iff_phone :
    GrantsExactly laptopWorkspace (serveFrame laptopWorkspace (pairingFrom "phone")).2 "phone" ↔
      match laptopWorkspace.client.send true (pairingWelcome laptopInvitation) with
      | .ok _ => ReadyFor laptopWorkspace "phone"
      | .error _ => laptopWorkspace.registry.get "phone" = some .newlyPaired :=
  have hlength : (keyPackage "phone").length < UInt32.size := by decide
  have hid : identityOf (.basic (ascii "phone")) = .ok ("phone" : Str) := by decide
  pairing_grants_iff (s := laptopWorkspace) (x := pairingFrom "phone") SmallGroup.lawful rfl
    (accepts_pairingFrom hlength) (requests_pairingFrom hlength)
    (SmallGroup.parseKeyPackage_encode _) hid

/-- A phone that joins as `laptop` gets the owner's grant. -/
theorem pairing_inherits_grant : ¬ ∀ (s : RouteService (platform [])) (x : Incoming)
    (secret : PairingSecret) (keyPackage : Bytes) (k : SmallGroup.mls.KeyPackage) (d : Str)
    (session : WorkspaceSession SmallGroup.mls) (invitation : Invitation),
    s.pairing = some secret →
    acceptPairing hash s.session x.frame secret = (session, .ok invitation) →
    Requests x.frame keyPackage (secret.tag hash keyPackage) →
    parseKeyPackage SmallGroup.mls keyPackage = .ok k →
    identityOf (SmallGroup.mls.credential k) = .ok d → GrantsExactly s (serveFrame s x).2 d := by
  intro h
  have hlength : (keyPackage "laptop").length < UInt32.size := by decide
  have hid : identityOf (.basic (ascii "laptop")) = .ok ("laptop" : Str) := by decide
  have hgrant := h laptopWorkspace (pairingFrom "laptop") secret (keyPackage "laptop") _ "laptop"
    _ _ rfl (accepts_pairingFrom hlength) (requests_pairingFrom hlength)
    (SmallGroup.parseKeyPackage_encode _) hid
  exact absurd hgrant.1 (by decide +kernel)

end

/-! ## One device for one code -/

/-- The members that a transition put into the group. -/
def joined (t : RouteTransition D) : List Member :=
  t.after.session.view.members.filter fun m => m ∉ t.before.session.view.members

/-- Why a pairing frame is refused. -/
inductive Refused (s : RouteService D) (frame : Bytes) : Prop
  /-- No code is open. -/
  | closed (h : s.pairing = none)
  /-- The frame has the wrong kind or is truncated. -/
  | malformed (h : ∀ keyPackage presented, ¬ Requests frame keyPackage presented)
  | wrongTag (secret : PairingSecret) (keyPackage presented : Bytes)
      (hopen : s.pairing = some secret) (hrequest : Requests frame keyPackage presented)
      (h : presented ≠ secret.tag D.hash keyPackage)
  | badKeyPackage (keyPackage presented : Bytes) (e : CryptoError)
      (hrequest : Requests frame keyPackage presented)
      (h : parseKeyPackage D.mls keyPackage = .error e)
  /-- The group does not take the key package. -/
  | notAdded (keyPackage presented : Bytes) (k : D.mls.KeyPackage) (e : Str)
      (hrequest : Requests frame keyPackage presented)
      (hparsed : parseKeyPackage D.mls keyPackage = .ok k)
      (h : D.mls.addMembers s.session.group k = .error e)

/-- What a pairing code guarantees over a run. -/
structure AdmitsOne (s : RouteService D) (run : List (RouteTransition D)) : Prop where
  once : (run.flatMap joined).length ≤ 1
  /-- A device joins only by the tag of its key package under the secret of the code, while the
  code is open. -/
  tagged : ∀ t ∈ run, joined t ≠ [] → ∃ secret keyPackage, s.pairing = some secret ∧
    t.before.pairing = some secret ∧
    Requests t.input.frame keyPackage (secret.tag D.hash keyPackage)
  refused : ∀ t ∈ run, isPairingFrame t.input.frame = true → Refused t.before t.input.frame →
    t.after = t.before

theorem joined_eq_nil {t : RouteTransition D}
    (h : ∀ m ∈ t.after.session.view.members, m ∈ t.before.session.view.members) :
    joined t = [] := by
  rw [joined, List.filter_eq_nil_iff]
  intro m hm
  simpa using h m hm

theorem joined_added {t : RouteTransition D} {k : D.mls.KeyPackage}
    (h : Added t.before.session t.after.session k) : (joined t).length ≤ 1 := by
  let ms := t.before.session.view.members
  have hold : ∀ part : List Member, (∀ m ∈ part, m ∈ ms) → part.filter (fun m => m ∉ ms) = [] := by
    intro part hpart
    rw [List.filter_eq_nil_iff]
    intro m hm
    simpa using hpart m hm
  have hsplit := beforeBlank_append_drop 0 ms
  have hbefore := hold (beforeBlank 0 ms) fun m hm => hsplit ▸ List.mem_append_left _ hm
  have hdrop := hold (ms.drop (beforeBlank 0 ms).length) fun m hm => List.mem_of_mem_drop hm
  rw [joined, h.view, GroupView.added, List.filter_append, hbefore, List.nil_append,
    List.filter_cons, hdrop]
  split
  · rfl
  · exact Nat.zero_le 1

section
variable (hM : D.mls.Lawful)
include hM

/-- A frame that puts a member in puts in one, and carries its tag while the code is open. -/
theorem joined_step (s : RouteService D) (x : Incoming) :
    joined ((serveRoute D).fire s x) = [] ∨
      (joined ((serveRoute D).fire s x)).length ≤ 1 ∧ (∃ secret keyPackage,
        s.pairing = some secret ∧ Requests x.frame keyPackage (secret.tag D.hash keyPackage)) ∧
      ((serveFrame s x).1.failed.isSome = true ∨ (serveFrame s x).2.pairing = none) := by
  have hstep := serveFrame_step hM s x
  have hquiet : Quiet s (serveFrame s x).2 → joined ((serveRoute D).fire s x) = [] := by
    intro hq
    exact joined_eq_nil fun m hm => hq.view hM ▸ hm
  cases hstep with
  | ignored ho hq => exact .inl (hquiet hq)
  | refused opened target s₁ hopen htarget ho hq => exact .inl (hquiet hq)
  | handled opened s₁ hopen htarget ho hq => exact .inl (hquiet hq)
  | revoked opened target m s₁ commit session hopen hexpels hremove hremoved ho hq =>
    refine .inl (joined_eq_nil fun m' hm' => ?_)
    have hview : (serveFrame s x).2.session.view = s.session.view.removed m.index :=
      (hq.view hM).trans hremoved.view
    have hmem : m' ∈ (serveFrame s x).2.session.view.members := hm'
    rw [hview] at hmem
    exact (mem_removed.1 hmem).1
  | unsent secret keyPackage k invitation hjoins ho hfailed hs =>
    exact .inr ⟨joined_added hjoins.added, ⟨secret, keyPackage, hjoins.open_, hjoins.requests⟩,
      .inl hfailed⟩
  | paired secret keyPackage k invitation envelope hjoins hsend ho hs =>
    exact .inr ⟨joined_added hjoins.added, ⟨secret, keyPackage, hjoins.open_, hjoins.requests⟩,
      .inr (congrArg RouteService.pairing hs)⟩

/-- A code is never opened, only closed. -/
theorem pairing_step (s : RouteService D) (x : Incoming) :
    (serveFrame s x).2.pairing = s.pairing ∨ (serveFrame s x).2.pairing = none := by
  have hstep := serveFrame_step hM s x
  cases hstep with
  | ignored ho hq => exact .inl hq.pairing
  | refused opened target s₁ hopen htarget ho hq => exact .inl hq.pairing
  | handled opened s₁ hopen htarget ho hq => exact .inl hq.pairing
  | revoked opened target m s₁ commit session hopen hexpels hremove hremoved ho hq =>
    exact .inl hq.pairing
  | unsent secret keyPackage k invitation hjoins ho hfailed hs => exact .inl (by rw [hs])
  | paired secret keyPackage k invitation envelope hjoins hsend ho hs =>
    exact .inr (congrArg RouteService.pairing hs)

/-- A refused pairing frame changes nothing. -/
theorem refused_step {s : RouteService D} {x : Incoming} (hframe : isPairingFrame x.frame = true)
    (h : Refused s x.frame) : (serveFrame s x).2 = s := by
  rw [serveFrame, if_pos hframe, servePairing]
  cases hopen : s.pairing with
  | none => rfl
  | some secret =>
    rcases acceptPairing_cases hM D.hash s.session x.frame secret with
      ⟨e, he⟩ | ⟨keyPackage, k, session, invitation, hrequest, hparsed, ha, -⟩
    · simp only [he, ← hopen]
    · exfalso
      cases h with
      | closed h => simp [hopen] at h
      | malformed h => exact h _ _ hrequest
      | wrongTag secret' keyPackage' presented hopen' hrequest' h =>
        obtain ⟨rfl, rfl⟩ := hrequest.unique hrequest'
        rw [hopen] at hopen'
        cases hopen'
        exact h rfl
      | badKeyPackage keyPackage' presented e hrequest' h =>
        obtain ⟨rfl, rfl⟩ := hrequest.unique hrequest'
        rw [hparsed] at h
        cases h
      | notAdded keyPackage' presented k' e hrequest' hparsed' h =>
        obtain ⟨rfl, rfl⟩ := hrequest.unique hrequest'
        rw [hparsed] at hparsed'
        cases hparsed'
        rw [acceptPairing_of_requests hrequest, WorkspaceSession.addDevice, hparsed] at ha
        simp only [h] at ha
        cases ha

/-- A pairing code admits one device, whatever frames the relay delivers and in whatever order. -/
theorem pairing_code_admits_one (s : RouteService D) (xs : List Incoming) :
    AdmitsOne s ((serveRoute D).run s xs) where
  once := by
    refine Machine.length_emitted_le_one (fun s : RouteService D => s.pairing ≠ none) ?_ ?_ ?_ ?_
      s xs
    · intro s x
      rcases joined_step hM s x with hnil | ⟨hone, -⟩
      · simp [hnil]
      · exact hone
    · intro s x hjoined
      rcases joined_step hM s x with hnil | ⟨-, ⟨secret, -, hopen, -⟩, -⟩
      · exact absurd hnil hjoined
      · simp [hopen]
    · intro s x hjoined hhalts
      rcases joined_step hM s x with hnil | ⟨-, -, hfailed | hclosed⟩
      · exact absurd hnil hjoined
      · exact absurd (hhalts.symm.trans hfailed) (by simp)
      · exact not_not.2 hclosed
    · intro s x hclosed
      rw [not_not] at hclosed ⊢
      rcases pairing_step hM s x with hsame | hnone
      · exact hsame.trans hclosed
      · exact hnone
  tagged := by
    intro t ht hjoined
    have heq := Machine.eq_fire_of_mem_run ht
    have hinv := Machine.run_invariant (P := fun s' : RouteService D =>
      s'.pairing = s.pairing ∨ s'.pairing = none) (fun s' x hs' => by
        rcases pairing_step hM s' x with hsame | hnone
        · exact hs'.imp hsame.trans hsame.trans
        · exact .inr hnone) (.inl rfl) ht
    rw [heq] at hjoined
    rcases joined_step hM t.before t.input with hnil | ⟨-, ⟨secret, keyPackage, hopen, hreq⟩, -⟩
    · exact absurd hnil hjoined
    · rcases hinv.1 with hsame | hnone
      · exact ⟨secret, keyPackage, hsame.symm.trans hopen, hopen, hreq⟩
      · rw [hopen] at hnone
        cases hnone
  refused := by
    intro t ht hframe hrefused
    rw [Machine.eq_fire_of_mem_run ht]
    exact refused_step hM hframe hrefused

end

open SmallPlatform in
/-- A replayed request, another phone's and junk add nobody after the first phone. -/
theorem pairing_code_admits_one_replay :
    let run := (serveRoute _).run laptopWorkspace
      [⟨[1, 2, 3], true⟩, pairingFrom "phone", pairingFrom "phone", pairingFrom "tablet"]
    AdmitsOne laptopWorkspace run ∧ run.map (fun t => (joined t).length) = [0, 1, 0, 0] :=
  ⟨pairing_code_admits_one SmallGroup.lawful _ _, by decide +kernel⟩

end LeaveCli.Host
