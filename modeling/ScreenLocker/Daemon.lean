import ScreenLocker.Op

/-! Going to the background once the session is locked. The child leaves the terminal and reports to its
parent, which waits for the report and then exits without touching what the child now owns. -/

namespace ScreenLocker

/-- What detaching changes about a process. -/
structure Surroundings where
  directory : String
  /-- The number of the process that goes on in the background. -/
  process : Nat := 0
  sessionLeader : Bool := false
  outputDiscarded : Bool := false
  errorsDiscarded : Bool := false
deriving DecidableEq, Repr

namespace Daemon

/-- What the child does: a session of its own, no terminal, and no directory held. The argument is the error
number with which the kernel answers the request for a session, zero for success. -/
def detach (sessionErrno : Nat) : Try Surroundings Unit := do
  if sessionErrno ≠ 0 then throw (.process ("setsid failed: " ++ Errno.symbolic sessionErrno))
  modify fun s => { s with sessionLeader := true, outputDiscarded := true, errorsDiscarded := true }
  modify fun s => { s with directory := "/" }

/-- The last word of the parent. -/
def farewell (s : Surroundings) : String := "Detached as pid " ++ toString s.process

/-- How the parent ends, by the child's report. -/
def parentExit : Except Error Unit → ExitCode
  | .ok () => .clean
  | .error _ => .startup

end Daemon

end ScreenLocker
