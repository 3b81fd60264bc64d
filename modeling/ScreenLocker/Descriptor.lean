import ScreenLocker.Op
import ScreenLocker.Stream

/-! Single descriptors: the flags of a fresh pipe, and the one line that tells a supervisor that the session
is locked. -/

namespace ScreenLocker

structure DescriptorFlags where
  nonblocking : Bool
  closeOnExec : Bool
deriving DecidableEq, Repr

/-- The flags of the two ends of a pipe. -/
structure PipeFlags where
  read : DescriptorFlags
  write : DescriptorFlags
deriving DecidableEq, Repr

namespace PipeFlags

/-- Ends that wait, and that no other program inherits. -/
def blocking : PipeFlags := ⟨⟨false, true⟩, ⟨false, true⟩⟩

def nonblocking : PipeFlags := ⟨⟨true, true⟩, ⟨true, true⟩⟩

end PipeFlags

def DescriptorFlags.setNonblocking (f : DescriptorFlags) : DescriptorFlags := { f with nonblocking := true }

/-- A negative number is no descriptor, and has no flags to change. -/
def setNonblocking (fd : Int) (flags : DescriptorFlags) : Except Error DescriptorFlags :=
  if fd < 0 then .error (.process ("fcntl(F_GETFL) failed: " ++ Errno.symbolic Errno.badDescriptor))
  else .ok flags.setNonblocking

/-- A descriptor handed over for writing. -/
structure WriteDescriptor where
  stream : OutStream := {}
  isOpen : Bool := true

/-- Writes one line break to the descriptor and closes it, whether or not the write succeeds. -/
def notifyReady (fd : Int) : Try WriteDescriptor Unit := do
  if fd < 0 then throw (.config ("invalid ready fd " ++ toString fd))
  let fault ← modifyGet fun (d : WriteDescriptor) =>
    let (fault, stream) := d.stream.writeAll [10]
    (fault, ⟨stream, false⟩)
  match fault with
  | some f => throw (.process ("Failed to send readiness notification: " ++ f.message))
  | none => logDebug .readiness ("Readiness notification sent on fd " ++ toString fd)

end ScreenLocker
