import LeaveCli.Lib.JsonTree

/-!
# The owner's login (`apps/leave/src/away.rs`, `apps/leave/src/setup_server.rs`)

`owner_login` reads the login that the host enforces out of the answer of
`tailscale status --json`, `tailnet_login` the one that the wizard shows.
-/

namespace LeaveCli.Host

open Lib

/-- The numbers of `serde_json`. -/
inductive SerdeNumber
  | posInt (n : UInt64)
  | negInt (n : Int64)
  | float (bits : UInt64)
  deriving DecidableEq

/-- `serde_json::Value` -/
abbrev Value := Json SerdeNumber

/-- `Value::as_u64` -/
def asU64 (value : Value) : Option Nat :=
  match value.asNumber with
  | some (.posInt n) => some n.toNat
  | _ => none

/-- The login the user map has for a user. -/
def userMapLogin (status : Value) (userId : Nat) : Option Str := do
  let users ← status.get "User"
  let user ← users.get userId.repr.toList
  let login ← user.get "LoginName"
  login.asStr

/-- `owner_login` -/
def ownerLogin (status : Value) : Except Str Str :=
  match ((status.pointer "/Self/UserProfile/LoginName").bind Json.asStr).or
      ((status.pointer "/Self/LoginName").bind Json.asStr) with
  | some login => .ok login.toAsciiLowercase
  | none => do
    let userId ← ((status.pointer "/Self/UserID").bind asU64).elim
      (.error "Tailscale did not report the current user identity") .ok
    ((userMapLogin status userId).map Str.toAsciiLowercase).elim
      (.error "Tailscale did not report the current user's login name") .ok

/-- `tailnet_login` -/
def tailnetLogin (status : Value) : Option Str :=
  match (status.pointer "/Self/UserProfile/LoginName").bind Json.asStr with
  | some login => some login.toAsciiLowercase
  | none => do
    let userId ← (status.pointer "/Self/UserID").bind asU64
    (userMapLogin status userId).map Str.toAsciiLowercase

/-- The login the user map has for this computer's user. -/
def mappedLogin (status : Value) : Option Str :=
  ((status.pointer "/Self/UserID").bind asU64).bind (userMapLogin status)

theorem toOption_ownerLogin (status : Value) :
    (ownerLogin status).toOption =
      ((((status.pointer "/Self/UserProfile/LoginName").bind Json.asStr).or
        ((status.pointer "/Self/LoginName").bind Json.asStr)).or (mappedLogin status)).map
          Str.toAsciiLowercase := by
  unfold ownerLogin mappedLogin
  cases ((status.pointer "/Self/UserProfile/LoginName").bind Json.asStr).or
      ((status.pointer "/Self/LoginName").bind Json.asStr) with
  | some login => rfl
  | none =>
    cases (status.pointer "/Self/UserID").bind asU64 with
    | none => rfl
    | some userId =>
      show Except.toOption (Option.elim (Option.map _ (userMapLogin status userId)) _ _) =
        (userMapLogin status userId).map _
      cases userMapLogin status userId <;> rfl

theorem tailnetLogin_eq (status : Value) :
    tailnetLogin status =
      (((status.pointer "/Self/UserProfile/LoginName").bind Json.asStr).or
        (mappedLogin status)).map Str.toAsciiLowercase := by
  unfold tailnetLogin mappedLogin
  cases (status.pointer "/Self/UserProfile/LoginName").bind Json.asStr with
  | some login => rfl
  | none =>
    cases (status.pointer "/Self/UserID").bind asU64 <;> rfl

/-- The login shown is the login enforced exactly when the profile has it, or `Self` has none of its
own, or one that the user map has too, up to the case of ASCII letters. -/
theorem tailnetLogin_eq_ownerLogin_iff (status : Value) :
    tailnetLogin status = (ownerLogin status).toOption ↔
      (∃ login, (status.pointer "/Self/UserProfile/LoginName").bind Json.asStr = some login) ∨
      (status.pointer "/Self/LoginName").bind Json.asStr = none ∨
      ∃ login mapped, (status.pointer "/Self/LoginName").bind Json.asStr = some login ∧
        mappedLogin status = some mapped ∧
        mapped.toAsciiLowercase = login.toAsciiLowercase := by
  rw [tailnetLogin_eq, toOption_ownerLogin]
  cases (status.pointer "/Self/UserProfile/LoginName").bind Json.asStr with
  | some login => exact iff_of_true rfl (.inl ⟨login, rfl⟩)
  | none =>
    cases (status.pointer "/Self/LoginName").bind Json.asStr with
    | none => exact iff_of_true rfl (.inr (.inl rfl))
    | some login =>
      cases mappedLogin status with
      | none => simp
      | some mapped => simp

/-- The login is a field of `Self`, and of no profile and no user map. -/
def selfLogin : Value :=
  .object [("Self", .object [("LoginName", .string "owner@example.com"),
    ("UserID", .number (.posInt 42))])]

theorem selfLogin_not_shown :
    ¬ ∀ status, tailnetLogin status = (ownerLogin status).toOption := by
  intro h
  have hlogin := h selfLogin
  have hshown : tailnetLogin selfLogin = none := by decide
  have henforced : (ownerLogin selfLogin).toOption = some "owner@example.com" := by decide
  rw [hshown, henforced] at hlogin
  cases hlogin

end LeaveCli.Host
