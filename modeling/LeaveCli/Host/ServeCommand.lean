import LeaveCli.Host.Main
import LeaveCli.Lib.Fields
import LeaveCli.Lib.Options

/-!
# The command line of `leave serve` (`apps/leave/src/main.rs`)

The options that `Cli` and `ServeArgs` derive their reader from, and the `ServeArgs` made of what a
reader finds.
-/

namespace LeaveCli.Host

open Lib Lib.Str Options LeaveCli.Core

/-- The options of `Cli`. -/
def cliSpec : List OptionSpec :=
  [⟨"json", .flag, false, none, none⟩,
    ⟨"data-dir", .path, false, some "LEAVE_DATA_DIR", none⟩]

/-- The options of `ServeArgs`. -/
def serveSpec : List OptionSpec :=
  [⟨"workspace", .text, true, none, none⟩,
    ⟨"remote", .flag, false, none, none⟩,
    ⟨"away", .flag, false, none, none⟩,
    ⟨"relay", .text, false, some "LEAVE_RELAY_URL", none⟩,
    ⟨"relay-registration-secret", .text, false, some "LEAVE_RELAY_REGISTRATION_SECRET", none⟩,
    ⟨"port", .text, false, none, some "8788"⟩,
    ⟨"web-dir", .path, false, some "LEAVE_WEB_DIR", none⟩,
    ⟨"acp-command", .text, false, some "LEAVE_ACP_COMMAND", none⟩,
    ⟨"devin-binary", .path, false, some "LEAVE_DEVIN_BIN", none⟩,
    ⟨"grant-terminal", .flag, false, none, none⟩,
    ⟨"grant-preview", .flag, false, none, none⟩,
    ⟨"chrome-binary", .path, false, some "LEAVE_CHROME_BIN", none⟩]

/-- `u16::from_str`. -/
def parseU16 (text : Str) : Option UInt16 :=
  (parseU32 text).bind fun n => if n.toNat < UInt16.size then some (UInt16.ofNat n.toNat) else none

/-- `ServeArgs`, of what was found, with the values that are parsed. -/
def ServeArgs.ofFound (found : Matches) (workspace : Uuid) (port : UInt16) : ServeArgs where
  workspace := workspace
  remote := found.flag "remote"
  away := found.flag "away"
  relay := found.value "relay"
  relayRegistrationSecret := found.value "relay-registration-secret"
  port := port
  webDir := (found.value "web-dir").map Str.utf8
  acpCommand := found.value "acp-command"
  devinBinary := (found.value "devin-binary").map Str.utf8
  grantTerminal := found.flag "grant-terminal"
  grantPreview := found.flag "grant-preview"
  chromeBinary := (found.value "chrome-binary").map Str.utf8

/-- `ServeArgs`, of what was found. -/
def ServeArgs.ofMatches (parseUuid : Str → Option Uuid) (found : Matches) : Option ServeArgs := do
  let workspace ← (found.value "workspace").bind parseUuid
  let port ← (found.value "port").bind parseU16
  pure (.ofFound found workspace port)

/-- What a command line of `leave serve` says. -/
def parseServe (read : Reader) (parseUuid : Str → Option Uuid) (arguments : List Str)
    (env : Str → Option Str) : Option ServeArgs :=
  (read cliSpec "serve" serveSpec arguments env).bind (ServeArgs.ofMatches parseUuid)

theorem parseU16_toString (port : UInt16) :
    parseU16 (toString port.toNat).toList = some port := by
  have hlt : port.toNat < UInt16.size := port.toNat_lt
  have hlt32 : port.toNat < UInt32.size := hlt.trans (by decide)
  have htext : (toString port.toNat).toList = port.toNat.repr.toList := rfl
  have hnat : (UInt32.ofNat port.toNat).toNat = port.toNat := by
    rw [UInt32.toNat_ofNat']
    exact Nat.mod_eq_of_lt hlt32
  rw [parseU16, htext, parseU32_repr, if_pos hlt32, Option.bind_some, hnat, if_pos hlt]
  exact congrArg some (UInt16.ofNat_toNat)

end LeaveCli.Host
