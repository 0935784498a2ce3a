import LeaveCli.Lib.Text

/-!
# The crypto release gate (`crates/leave-crypto/src/lib.rs`)
-/

namespace LeaveCli.Crypto

open Lib

/-- One independently reviewed remote-release condition. -/
inductive GateCheck
  | passed | blocked
  deriving DecidableEq, Repr

/-- The dependency and review conditions which protect remote releases. -/
structure CryptoReleaseStatus where
  openmlsCompiled : GateCheck
  advisoryGraphClean : GateCheck
  nativeWasmVectorsPass : GateCheck
  browserPersistencePass : GateCheck
  externalReviewRecorded : GateCheck
  deriving DecidableEq, Repr

namespace CryptoReleaseStatus

/-- Current repository status. -/
def current : CryptoReleaseStatus := ⟨.blocked, .blocked, .blocked, .blocked, .blocked⟩

/-- Whether every remote-release condition passes. -/
def allowsRemoteRelease (status : CryptoReleaseStatus) : Bool :=
  status.openmlsCompiled = .passed ∧ status.advisoryGraphClean = .passed ∧
    status.nativeWasmVectorsPass = .passed ∧ status.browserPersistencePass = .passed ∧
    status.externalReviewRecorded = .passed

end CryptoReleaseStatus

/-- Error returned when a build has not passed the gate. -/
inductive CryptoGateError
  | blocked (status : CryptoReleaseStatus)
  deriving DecidableEq, Repr

/-- `Debug`. -/
def GateCheck.text : GateCheck → Str
  | .passed => "Passed"
  | .blocked => "Blocked"

/-- `Display`; the status is printed by its `Debug`. -/
def CryptoGateError.text : CryptoGateError → Str
  | .blocked status =>
    ("remote access is blocked by the OpenMLS release gate: CryptoReleaseStatus \x7b " : Str) ++
      ("openmls_compiled: " : Str) ++ status.openmlsCompiled.text ++
      (", advisory_graph_clean: " : Str) ++ status.advisoryGraphClean.text ++
      (", native_wasm_vectors_pass: " : Str) ++ status.nativeWasmVectorsPass.text ++
      (", browser_persistence_pass: " : Str) ++ status.browserPersistencePass.text ++
      (", external_review_recorded: " : Str) ++ status.externalReviewRecorded.text ++
      (" \x7d" : Str)

/-- Refuse hosted or internet-routed operation until every crypto gate passes. -/
def requireRemoteRelease : Except CryptoGateError Unit :=
  if CryptoReleaseStatus.current.allowsRemoteRelease then .ok ()
  else .error (.blocked .current)

theorem requireRemoteRelease_eq : requireRemoteRelease = .error (.blocked .current) := rfl

end LeaveCli.Crypto
