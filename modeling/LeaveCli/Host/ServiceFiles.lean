import LeaveCli.Host.Main
import LeaveCli.Lib.Replace

/-!
# The files of the installed service (`apps/leave/src/service.rs`)

What the three installers hand to the service manager: the text of the unit file, the text of the
launch agent and the command of the scheduled task. Writing the file, and the commands that load it, are
behind `World.installService`.
-/

namespace LeaveCli.Host

open Lib LeaveCli.Core

def escapeSystemd (value : Str) : Str :=
  ['"'] ++ replace ['"'] ("\\\"" : Str) (replace ['\\'] ("\\\\" : Str) value) ++ ['"']

/-- `command` of `install_systemd`. -/
def systemdCommand (world : World) (binary : OsStr) (options : ServiceInstall) : Str :=
  (serviceArguments world options).foldl (fun command argument =>
    command ++ [' '] ++ escapeSystemd argument) (escapeSystemd (Str.fromUtf8Lossy binary))

/-- `contents` of `install_systemd`: the file `leave.service`. -/
def unitFile (world : World) (binary : OsStr) (options : ServiceInstall) : Str :=
  ("[Unit]\nDescription=Leave local Devin host\nAfter=network-online.target\nWants=network-online.target\n\n[Service]\nType=simple\nExecStart=" : Str) ++
  systemdCommand world binary options ++
  ("\nRestart=on-failure\nRestartSec=5\nNoNewPrivileges=true\nPrivateTmp=true\n\n[Install]\nWantedBy=default.target\n" : Str)

/-- `command` of `install_windows_task`, the `/TR` of the scheduled task. -/
def taskCommand (world : World) (binary : OsStr) (options : ServiceInstall) : Str :=
  (serviceArguments world options).foldl (fun command argument =>
    command ++ [' '] ++ (['"'] ++ replace ['"'] ("\\\"" : Str) argument ++ ['"']))
    (['"'] ++ Str.fromUtf8Lossy binary ++ ['"'])

def xmlEscape (value : Str) : Str :=
  replace ['\''] ("&apos;" : Str) <| replace ['"'] ("&quot;" : Str) <|
    replace ['>'] ("&gt;" : Str) <| replace ['<'] ("&lt;" : Str) <|
    replace ['&'] ("&amp;" : Str) value

/-- `arguments` of `install_launch_agent`. -/
def launchAgentArguments (world : World) (binary : OsStr) (options : ServiceInstall) : Str :=
  ['\n'].intercalate <| (Str.fromUtf8Lossy binary :: serviceArguments world options).map
    fun value => ("    <string>" : Str) ++ xmlEscape value ++ ("</string>" : Str)

/-- `contents` of `install_launch_agent` up to the arguments, the line break before them left out. -/
def launchAgentHead : Str :=
  ("<?xml version=\"1.0\" encoding=\"UTF-8\"?>\n" : Str) ++
  ("<!DOCTYPE plist PUBLIC \"-//Apple//DTD PLIST 1.0//EN\" " : Str) ++
  ("\"http://www.apple.com/DTDs/PropertyList-1.0.dtd\">\n" : Str) ++
  ("<plist version=\"1.0\"><dict>\n" : Str) ++
  ("<key>Label</key><string>com.leave.host</string>\n" : Str) ++
  ("<key>ProgramArguments</key><array>" : Str)

/-- `contents` of `install_launch_agent` behind the arguments. -/
def launchAgentTail : Str :=
  ("\n</array>\n" : Str) ++
  ("<key>RunAtLoad</key><true/>\n" : Str) ++
  ("<key>KeepAlive</key><dict><key>SuccessfulExit</key><false/></dict>\n" : Str) ++
  ("<key>ProcessType</key><string>Background</string>\n" : Str) ++
  ("</dict></plist>\n" : Str)

/-- `contents` of `install_launch_agent`: the file `com.leave.host.plist`. -/
def launchAgentFile (world : World) (binary : OsStr) (options : ServiceInstall) : Str :=
  launchAgentHead ++ '\n' :: launchAgentArguments world binary options ++ launchAgentTail

end LeaveCli.Host
