import Mathlib.Data.Finset.Insert
import Mathlib.Data.Finset.Basic

/-!
# The authorization policy (`crates/leave-protocol/src/lib.rs`)

Roles, the sensitive capabilities granted beside them, the actions the host decides on, and
`authorize`. What the policy guarantees is read off its parts `roleAllows` and
`capabilityFor`: `authorize_iff`.
-/

namespace LeaveCli.Protocol

/-- Hard upper bound for an encrypted WebSocket application frame. -/
def maxCiphertextBytes : Nat := 8 * 1024 * 1024

/-- Stable workspace collaboration roles. -/
inductive Role
  | owner | maintainer | operator | viewer
  deriving DecidableEq, Repr

/-- Sensitive actions granted independently of a role. -/
inductive Capability
  | rawPty | dangerousApproval | persistentBrowserProfile | globalCustomization
  deriving DecidableEq, Repr

/-- Actions which the host authorizes after decrypting a command. -/
inductive Action
  | view | prompt | lowRiskApproval | editFiles | gitWrite | projectCustomization | manageMembers
  | rawPty | dangerousApproval | persistentBrowserProfile | globalCustomization
  deriving DecidableEq, Repr

/-- The first `match` of `authorize`: does the role alone allow the action. -/
def roleAllows (role : Role) : Action → Bool
  | .view => true
  | .prompt | .lowRiskApproval | .rawPty | .dangerousApproval | .persistentBrowserProfile
  | .globalCustomization => role ≠ .viewer
  | .editFiles | .gitWrite | .projectCustomization => role = .owner ∨ role = .maintainer
  | .manageMembers => role = .owner

/-- Decide whether a role and its explicit grants authorize an action. -/
def authorize (role : Role) (grants : Finset Capability) (action : Action) : Bool :=
  if !roleAllows role action then false
  else match action with
    | .rawPty => .rawPty ∈ grants
    | .dangerousApproval => .dangerousApproval ∈ grants
    | .persistentBrowserProfile => .persistentBrowserProfile ∈ grants
    | .globalCustomization => .globalCustomization ∈ grants
    | _ => true

/-- The capability an action needs beside the role. -/
def capabilityFor : Action → Option Capability
  | .rawPty => some .rawPty
  | .dangerousApproval => some .dangerousApproval
  | .persistentBrowserProfile => some .persistentBrowserProfile
  | .globalCustomization => some .globalCustomization
  | _ => none

theorem authorize_iff {role : Role} {grants : Finset Capability} {action : Action} :
    authorize role grants action = true ↔
      roleAllows role action = true ∧ ∀ c, capabilityFor action = some c → c ∈ grants := by
  unfold authorize
  by_cases h : roleAllows role action = true
  · cases action <;> simp [h, capabilityFor]
  · simp [h]

/-- Only an owner manages members. -/
@[simp] theorem authorize_manageMembers (role : Role) (grants : Finset Capability) :
    authorize role grants .manageMembers = true ↔ role = .owner := by
  simp [authorize_iff, roleAllows, capabilityFor]

@[simp] theorem authorize_projectCustomization (role : Role) (grants : Finset Capability) :
    authorize role grants .projectCustomization = true ↔ role = .owner ∨ role = .maintainer := by
  simp [authorize_iff, roleAllows, capabilityFor]

theorem mem_of_authorize_globalCustomization {role : Role} {grants : Finset Capability}
    (h : authorize role grants .globalCustomization = true) : .globalCustomization ∈ grants :=
  (authorize_iff.1 h).2 _ rfl

end LeaveCli.Protocol
