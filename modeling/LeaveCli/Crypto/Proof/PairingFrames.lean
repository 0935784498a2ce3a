import LeaveCli.Crypto.SmallGroup
import Mathlib.Data.Set.Function

/-!
# Pairing frames are not confused

A frame carries a key package and a tag exactly when it starts with their encoding
(`requests_iff`), and a frame that does not carry a tag of its key package changes nothing
(`acceptPairing_refuses`). So whatever is read is what was written (`neverConfused`), given that the
tags in use differ.
-/

namespace LeaveCli.Crypto

open Lib

variable {M : Mls} {hash : KeyedHash} {uses : Set (PairingSecret × Bytes)}
  {session : WorkspaceSession M} {frame keyPackage presented : Bytes} {secret : PairingSecret}
  {invitation : Invitation}

/-- What pairing frames are read as. The tags in use are those of `uses`. -/
structure NeverConfused (hash : KeyedHash) (uses : Set (PairingSecret × Bytes))
    (session : WorkspaceSession M) : Prop where
  handsOver : ∀ secret keyPackage, keyPackage.length < UInt32.size →
    acceptPairing hash session (pairingRequest hash keyPackage secret) secret =
      session.addDevice keyPackage
  otherSecret : ∀ secret other keyPackage, keyPackage.length < UInt32.size →
    (secret, keyPackage) ∈ uses → (other, keyPackage) ∈ uses → other ≠ secret →
      ∃ e, acceptPairing hash session (pairingRequest hash keyPackage secret) other =
        (session, .error e)
  otherKeyPackage : ∀ secret keyPackage other, other.length < UInt32.size →
    (secret, keyPackage) ∈ uses → (secret, other) ∈ uses → other ≠ keyPackage →
      ∃ e, acceptPairing hash session (requestBytes other (secret.tag hash keyPackage)) secret =
        (session, .error e)
  requestPrefix : ∀ secret keyPackage frame, keyPackage.length < UInt32.size →
    frame <+: pairingRequest hash keyPackage secret →
      frame ≠ pairingRequest hash keyPackage secret →
        ∀ other, ∃ e, acceptPairing hash session frame other = (session, .error e)
  welcome : ∀ invitation : Invitation, invitation.welcome.length < UInt32.size →
    readPairingWelcome (pairingWelcome invitation) = .ok invitation.welcome
  welcomePrefix : ∀ (invitation : Invitation) frame, invitation.welcome.length < UInt32.size →
    frame <+: pairingWelcome invitation → frame ≠ pairingWelcome invitation →
      ∃ e, readPairingWelcome frame = .error e
  requestNoWelcome : ∀ secret keyPackage,
    ∃ e, readPairingWelcome (pairingRequest hash keyPackage secret) = .error e
  welcomeNoRequest : ∀ invitation secret,
    ∃ e, acceptPairing hash session (pairingWelcome invitation) secret = (session, .error e)
  requestIsPairing : ∀ secret keyPackage,
    isPairingFrame (pairingRequest hash keyPackage secret) = true
  welcomeIsPairing : ∀ invitation, isPairingFrame (pairingWelcome invitation) = true
  refusal : ∀ frame secret session' e,
    acceptPairing hash session frame secret = (session', .error e) → session' = session

/-! ## Reading -/

theorem pairingWelcome_eq (invitation : Invitation) : pairingWelcome invitation =
    putHeader [] ++ kindWelcome :: putBytes [] invitation.welcome := by
  rw [pairingWelcome, putBytes_eq, List.append_assoc]
  rfl

/-- A request that is cut short is none. -/
theorem not_requests_of_prefix (h : frame <+: requestBytes keyPackage presented)
    (hne : frame ≠ requestBytes keyPackage presented) (hlength : keyPackage.length < UInt32.size)
    (hlength' : presented.length < UInt32.size) (keyPackage' presented' : Bytes) :
    ¬ Requests frame keyPackage' presented' := by
  intro hrequests
  obtain ⟨hkeyPackage', hpresented', hprefix⟩ := requests_iff.1 hrequests
  have hwhole := requests_iff.2 ⟨hkeyPackage', hpresented', hprefix.trans h⟩
  obtain ⟨rfl, rfl⟩ := hwhole.unique (requests_requestBytes hlength hlength')
  exact hne (h.eq_of_length_le hprefix.length_le)

/-- A frame is handed over only with the tag of its key package, and otherwise changes nothing. -/
theorem acceptPairing_refuses (h : ∀ keyPackage,
    ¬ Requests frame keyPackage (secret.tag hash keyPackage)) :
    ∃ e, acceptPairing hash session frame secret = (session, .error e) := by
  unfold acceptPairing
  split
  · exact ⟨_, rfl⟩
  · exact ⟨_, rfl⟩
  rename_i kind rest hheader
  split
  · exact ⟨_, rfl⟩
  rename_i hkind
  split
  · exact ⟨_, rfl⟩
  rename_i keyPackage rest' hkeyPackage
  split
  · exact ⟨_, rfl⟩
  rename_i presented rest'' hpresented
  split
  · exact ⟨_, rfl⟩
  rename_i htag
  exfalso
  rw [Bool.not_eq_true, Bool.not_eq_false', subtleEq_iff] at htag
  rw [not_not] at hkind
  subst hkind htag
  exact h keyPackage ⟨rest, rest', rest'', hheader, hkeyPackage, hpresented⟩

theorem readPairingWelcome_eq_ok {welcome : Bytes} : readPairingWelcome frame = .ok welcome ↔
    welcome.length < UInt32.size ∧
      putHeader [] ++ kindWelcome :: putBytes [] welcome <+: frame := by
  constructor
  · intro h
    unfold readPairingWelcome at h
    split at h
    · cases h
    · cases h
    rename_i kind rest hheader
    split at h
    · cases h
    rename_i hkind
    split at h
    · cases h
    rename_i welcome' rest' hwelcome
    cases h
    rw [not_not] at hkind
    obtain ⟨hlength, hrest⟩ := takeBytes_iff.1 hwelcome
    refine ⟨hlength, rest', ?_⟩
    rw [takeHeader_eq_ok.1 hheader, hkind, hrest]
    simp only [List.append_assoc, List.cons_append]
  · intro hcase
    obtain ⟨hlength, rest, rfl⟩ := hcase
    have hwelcome := takeBytes_iff.2 ⟨hlength, (rfl : putBytes [] welcome ++ rest = _)⟩
    simp only [readPairingWelcome, List.append_assoc, List.cons_append, takeHeader_putHeader,
      hwelcome, ne_eq, not_true_eq_false, if_false]

theorem exists_error {ε α : Type} {x : Except ε α} (h : ∀ a, x ≠ .ok a) : ∃ e, x = .error e := by
  cases x with
  | error e => exact ⟨e, rfl⟩
  | ok a => exact absurd rfl (h a)

/-! ## The two kinds -/

/-- A frame of one kind does not start with one of the other. -/
theorem kind_of_extends {kind kind' : UInt8} {rest rest' : Bytes}
    (h : putHeader [] ++ kind :: rest <+: putHeader [] ++ kind' :: rest') : kind = kind' :=
  (List.cons_prefix_cons.1 ((List.prefix_append_right_inj _).1 h)).1

/-- What frames of both kinds are read as, whoever reads them. -/
theorem neverConfused (hM : M.Lawful) (hsize : ∀ key data, (hash key data).length = 32)
    (huses : uses.InjOn fun use => use.1.tag hash use.2) (session : WorkspaceSession M) :
    NeverConfused hash uses session := by
  have htag : ∀ (secret : PairingSecret) keyPackage,
      (secret.tag hash keyPackage).length < UInt32.size := by
    intro secret keyPackage
    rw [PairingSecret.tag, hsize]
    decide
  constructor
  case handsOver =>
    intro secret keyPackage hlength
    exact acceptPairing_of_requests (requests_requestBytes hlength (htag secret keyPackage))
  case otherSecret =>
    intro secret other keyPackage hlength hsecret hother hne
    refine acceptPairing_refuses fun keyPackage' hrequests => ?_
    obtain ⟨rfl, hsame⟩ :=
      hrequests.unique (requests_requestBytes hlength (htag secret keyPackage))
    exact hne (Prod.mk.inj (huses hother hsecret hsame)).1
  case otherKeyPackage =>
    intro secret keyPackage other hlength hkeyPackage hother hne
    refine acceptPairing_refuses fun keyPackage' hrequests => ?_
    obtain ⟨rfl, hsame⟩ :=
      hrequests.unique (requests_requestBytes hlength (htag secret keyPackage))
    exact hne (Prod.mk.inj (huses hother hkeyPackage hsame)).2
  case requestPrefix =>
    intro secret keyPackage frame hlength hprefix hne other
    exact acceptPairing_refuses fun keyPackage' =>
      not_requests_of_prefix hprefix hne hlength (htag secret keyPackage) keyPackage' _
  case welcome => exact fun invitation hlength => readPairingWelcome_pairingWelcome hlength
  case welcomePrefix =>
    intro invitation frame hlength hprefix hne
    refine exists_error fun welcome hwelcome => hne ?_
    obtain ⟨hlength', hprefix'⟩ := readPairingWelcome_eq_ok.1 hwelcome
    have hwhole := readPairingWelcome_eq_ok.2 ⟨hlength', hprefix'.trans hprefix⟩
    rw [readPairingWelcome_pairingWelcome hlength, Except.ok.injEq] at hwhole
    rw [← hwhole, ← pairingWelcome_eq] at hprefix'
    exact hprefix.eq_of_length_le hprefix'.length_le
  case requestNoWelcome =>
    intro secret keyPackage
    refine exists_error fun welcome hwelcome => ?_
    obtain ⟨-, hprefix⟩ := readPairingWelcome_eq_ok.1 hwelcome
    have hbytes := requestBytes_eq keyPackage (secret.tag hash keyPackage)
    rw [show pairingRequest hash keyPackage secret = _ from hbytes] at hprefix
    exact absurd (kind_of_extends hprefix) (by decide)
  case welcomeNoRequest =>
    intro invitation secret
    refine acceptPairing_refuses fun keyPackage hrequests => ?_
    obtain ⟨-, -, hprefix⟩ := requests_iff.1 hrequests
    rw [requestBytes_eq, pairingWelcome_eq] at hprefix
    exact absurd (kind_of_extends hprefix) (by decide)
  case requestIsPairing =>
    intro secret keyPackage
    have hbytes := requestBytes_eq keyPackage (secret.tag hash keyPackage)
    rw [show pairingRequest hash keyPackage secret = _ from hbytes, isPairingFrame,
      takeHeader_putHeader]
    rfl
  case welcomeIsPairing => exact isPairingFrame_pairingWelcome
  case refusal =>
    intro frame secret session' e h
    rcases acceptPairing_cases hM hash session frame secret with
      ⟨e', hrefused⟩ | ⟨keyPackage, k, s', invitation, -, -, haccepted, -⟩
    · rw [hrefused] at h
      exact (Prod.mk.inj h).1.symm
    · rw [haccepted] at h
      cases h

/-- A tag that shows a byte of the secret and the front of the key package. -/
def openHash : KeyedHash := fun key data =>
  (key.take 1 ++ data.drop tagContext.length ++ List.replicate 32 0).take 32

theorem neverConfused_openHash :
    NeverConfused openHash {(⟨List.replicate 32 1, rfl⟩, [1]), (⟨List.replicate 32 2, rfl⟩, [1]),
      (⟨List.replicate 32 1, rfl⟩, [2])}
      (⟨⟨"host", ()⟩, .joined 0 0⟩ : WorkspaceSession SmallGroup.mls) := by
  refine neverConfused SmallGroup.lawful (fun key data => ?_) ?_ _
  · rw [openHash, List.length_take, List.length_append, List.length_replicate]
    omega
  · intro use huse other hother hsame
    rcases huse with rfl | rfl | rfl <;> rcases hother with rfl | rfl | rfl <;>
      first
      | rfl
      | exact absurd hsame (by decide +kernel)

end LeaveCli.Crypto
