import ScreenLocker.Fault
import ScreenLocker.Text.Hex

/-! Why an operation of the locker fails, the wording of each cause, and the exit code it leads to. -/

namespace ScreenLocker

inductive BufferError where
  /-- The credential would grow past the limit `max`. -/
  | capacityExceeded (max : Nat)
  /-- Storage could not be pinned, for the reason given by the kernel. -/
  | pin (reason : String)
deriving DecidableEq, Repr

def BufferError.message : BufferError → String
  | capacityExceeded max => "credential exceeds maximum length of " ++ toString max ++ " bytes"
  | pin reason => "mlock failed: " ++ reason

inductive Error where
  | io (fault : Fault)
  | config (text : String)
  | connect (text : String)
  | missingCapability (name : String)
  | lockRejected
  | protocol (text : String)
  | authChannelCrash (text : String)
  | malformedVerdict (byte : UInt8)
  | unexpectedVerdict
  | multiplexer (text : String)
  | buffer (cause : BufferError)
  | privilege (text : String)
  | process (text : String)
deriving DecidableEq, Repr

namespace Error

def message : Error → String
  | io fault => "IO error: " ++ fault.message
  | config text => "Configuration error: " ++ text
  | connect text => "Unable to connect to the compositor: " ++ text
  | missingCapability name => "Missing " ++ name
  | lockRejected => "Failed to lock session -- is another lockscreen running?"
  | protocol text => "Display protocol error: " ++ text
  | authChannelCrash text => "Password checking subprocess crashed: " ++ text
  | malformedVerdict byte =>
    "Malformed verdict byte 0x" ++ String.ofList (Hex.fixed 2 byte.toNat) ++ " from password checking subprocess"
  | unexpectedVerdict => "Verdict received while no verification was in flight"
  | multiplexer text => "Event loop failure: " ++ text
  | buffer cause => "Credential buffer error: " ++ cause.message
  | privilege text => "Privilege error: " ++ text
  | process text => "Process error: " ++ text

end Error

/-- The process ends with one of three codes. -/
inductive ExitCode where
  /-- The lock was released on purpose. -/
  | clean
  /-- The locker never got as far as holding the lock: a fault of its surroundings or settings. -/
  | startup
  /-- The lock was refused, or the locker failed while it ran. -/
  | fatal
deriving DecidableEq, Repr

def ExitCode.toNat : ExitCode → Nat
  | clean => 0
  | startup => 1
  | fatal => 2

def Error.exitCode : Error → ExitCode
  | config _ | connect _ | missingCapability _ | privilege _ | buffer _ => .startup
  | io _ | lockRejected | protocol _ | authChannelCrash _ | malformedVerdict _ | unexpectedVerdict
  | multiplexer _ | process _ => .fatal

end ScreenLocker
