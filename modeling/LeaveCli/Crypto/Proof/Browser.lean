import LeaveCli.Crypto.Browser
import LeaveCli.Crypto.SmallGroup
import LeaveCli.Lib.Results
import LeaveCli.Lib.Run

/-!
# A pairing is spent by its first frame

`calls` are the calls of `complete` on one pairing. The first call leaves no identity
(`final_cons`), and without one every call fails, so the genuine welcome is taken exactly when it
comes first (`complete_iff`).
-/

namespace LeaveCli.Crypto

open Lib

variable {M : Mls} {pending : PendingPairing M} {device : DeviceIdentity M}
  {session : WorkspaceSession M} {frame : Bytes}

/-- Frame after frame goes to `complete`. -/
def calls (M : Mls) : Machine (PendingPairing M) Bytes (Except Str (WorkspaceSession M)) where
  step pending frame := ((pending.complete frame).2, (pending.complete frame).1)
  halts _ := false

/-- A frame that is no welcome for the device: malformed, cut short or of another kind, or for
another device. -/
inductive Bad (device : DeviceIdentity M) (frame : Bytes) : Prop
  | unreadable (e : CryptoError) (h : readPairingWelcome frame = .error e)
  | foreign (welcome : Bytes) (e : CryptoError) (h : readPairingWelcome frame = .ok welcome)
    (hjoin : WorkspaceSession.join device welcome = .error e)

/-- The host's welcome for the device. -/
structure Genuine (device : DeviceIdentity M) (frame : Bytes) (session : WorkspaceSession M) :
    Prop where
  joins : ∃ welcome, readPairingWelcome frame = .ok welcome ∧
    WorkspaceSession.join device welcome = .ok session

theorem complete_eq_ok : (pending.complete frame).2 = .ok session ↔
    ∃ device ∈ pending.identity, Genuine device frame session := by
  rw [PendingPairing.complete]
  cases hidentity : pending.identity with
  | none => simp
  | some device =>
    simp only [Option.elim_some, Option.mem_some_iff, exists_eq_left', bind_eq_ok]
    constructor
    · intro h
      obtain ⟨welcome, hwelcome, hjoin⟩ := h
      exact ⟨welcome, mapError_eq_ok.1 hwelcome, mapError_eq_ok.1 hjoin⟩
    · intro h
      obtain ⟨welcome, hwelcome, hjoin⟩ := h.joins
      exact ⟨welcome, mapError_eq_ok.2 hwelcome, mapError_eq_ok.2 hjoin⟩

theorem Bad.not_genuine (h : Bad device frame) (session : WorkspaceSession M) :
    ¬ Genuine device frame session := by
  intro hgenuine
  obtain ⟨welcome, hwelcome, hjoin⟩ := hgenuine.joins
  cases h with
  | unreadable e h =>
    rw [h] at hwelcome
    cases hwelcome
  | foreign welcome' e h hjoin' =>
    rw [h, Except.ok.injEq] at hwelcome
    rw [← hwelcome, hjoin'] at hjoin
    cases hjoin

/-! ## Runs -/

/-- No identity is left after a call. -/
theorem final_cons (pending : PendingPairing M) (frame : Bytes) (frames : List Bytes) :
    ((calls M).final pending (frame :: frames)).identity = none := by
  show ((calls M).final (pending.complete frame).1 frames).identity = none
  exact Machine.final_invariant (P := fun p : PendingPairing M => p.identity = none)
    (fun _ _ _ => rfl) rfl frames

theorem outputs_bad (hdevice : ∀ identity ∈ pending.identity, identity = device)
    {bad : List Bytes} (hbad : ∀ frame ∈ bad, Bad device frame) :
    ∀ result ∈ (calls M).outputs pending bad, ∃ e, result = .error e := by
  induction bad generalizing pending with
  | nil => exact fun result hresult => nomatch hresult
  | cons frame frames ih =>
    obtain ⟨hframe, hframes⟩ := List.forall_mem_cons.1 hbad
    refine List.forall_mem_cons.2 ⟨?_, ?_⟩
    · cases hresult : (pending.complete frame).2 with
      | error e => exact ⟨e, hresult⟩
      | ok session =>
        obtain ⟨identity, hidentity, hgenuine⟩ := complete_eq_ok.1 hresult
        rw [hdevice identity hidentity] at hgenuine
        exact absurd hgenuine (hframe.not_genuine session)
    · have hnone : ∀ identity ∈ (pending.complete frame).1.identity, identity = device :=
        fun identity h => nomatch h
      exact ih hnone hframes

/-- The bad frames fail, and the genuine one is taken exactly when none of them came before it and
the pairing was not completed. -/
theorem complete_iff (hdevice : ∀ identity ∈ pending.identity, identity = device)
    {bad : List Bytes} (hbad : ∀ frame ∈ bad, Bad device frame) {genuine : Bytes}
    (hgenuine : Genuine device genuine session) :
    (∀ result ∈ (calls M).outputs pending bad, ∃ e, result = .error e) ∧
      (((calls M).outputs pending (bad ++ [genuine])).getLast? = some (.ok session) ↔
        bad = [] ∧ pending.identity = some device) := by
  refine ⟨outputs_bad hdevice hbad, ?_⟩
  have hlast : ((calls M).outputs pending (bad ++ [genuine])).getLast? =
      some (((calls M).final pending bad).complete genuine).2 := by
    rw [Machine.outputs, Machine.run_append (fun _ => rfl), List.map_append]
    exact List.getLast?_concat ..
  rw [hlast, Option.some.injEq, complete_eq_ok]
  cases bad with
  | nil =>
    rw [and_iff_right rfl]
    show (∃ d ∈ pending.identity, _) ↔ _
    constructor
    · intro h
      obtain ⟨d, hd, -⟩ := h
      rw [← hdevice d hd]
      exact hd
    · intro h
      exact ⟨device, h, hgenuine⟩
  | cons frame frames =>
    rw [final_cons]
    simp

/-- A welcome that the small MLS joins by. -/
def smallInvitation : Invitation := ⟨[], SmallGroup.encode (.welcome 1 1)⟩

theorem genuine_smallInvitation : Genuine (M := SmallGroup.mls) ⟨"phone", ()⟩
    (pairingWelcome smallInvitation) ⟨⟨"phone", ()⟩, .joined 1 1⟩ :=
  ⟨_, readPairingWelcome_pairingWelcome (by decide), rfl⟩

theorem complete_small : ((calls SmallGroup.mls).outputs ⟨some ⟨"phone", ()⟩⟩
    [pairingWelcome smallInvitation]).getLast? =
      some (.ok ⟨⟨"phone", ()⟩, .joined 1 1⟩) := by
  have hdevice : ∀ identity ∈ (⟨some ⟨"phone", ()⟩⟩ : PendingPairing SmallGroup.mls).identity,
      identity = ⟨"phone", ()⟩ := by
    intro identity h
    exact (Option.some.inj h).symm
  have hbad : ∀ frame ∈ ([] : List Bytes), Bad (M := SmallGroup.mls) ⟨"phone", ()⟩ frame :=
    fun frame h => nomatch h
  exact (complete_iff hdevice hbad genuine_smallInvitation).2.2 ⟨rfl, rfl⟩

/-- A frame that is no frame at all, and then the welcome. -/
theorem complete_small_not :
    Bad (M := SmallGroup.mls) ⟨"phone", ()⟩ [] ∧
      Genuine (M := SmallGroup.mls) ⟨"phone", ()⟩ (pairingWelcome smallInvitation)
        ⟨⟨"phone", ()⟩, .joined 1 1⟩ ∧
      ((calls SmallGroup.mls).outputs ⟨some ⟨"phone", ()⟩⟩
        [[], pairingWelcome smallInvitation]).getLast? =
          some (.error "this pairing was already completed") :=
  ⟨.unreadable _ rfl, genuine_smallInvitation, rfl⟩

end LeaveCli.Crypto
