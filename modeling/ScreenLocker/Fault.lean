/-! I/O faults: what a failed read, write or system call reports. A fault is either one of the
portable kinds, an error number of the kernel, or one of the faults that a transfer of a whole
block adds to those of its single calls. -/

namespace ScreenLocker

inductive FaultKind where
  | interrupted
  | brokenPipe
  | wouldBlock
  | unexpectedEof
  | permissionDenied
  | notFound
  | writeZero
  | timedOut
  | invalidInput
  | connectionReset
deriving DecidableEq, Repr

def FaultKind.message : FaultKind → String
  | interrupted => "operation interrupted"
  | brokenPipe => "broken pipe"
  | wouldBlock => "operation would block"
  | unexpectedEof => "unexpected end of file"
  | permissionDenied => "permission denied"
  | notFound => "entity not found"
  | writeZero => "write zero"
  | timedOut => "timed out"
  | invalidInput => "invalid input parameter"
  | connectionReset => "connection reset"

namespace Errno

def interrupted : Nat := 4
def io : Nat := 5
def badDescriptor : Nat := 9
def wouldBlock : Nat := 11
def noDevice : Nat := 19
def notDirectory : Nat := 20
def isDirectory : Nat := 21
def invalid : Nat := 22
def brokenPipe : Nat := 32
def nameTooLong : Nat := 36
def noEntry : Nat := 2

/-- The kernel's description of an error number. -/
def describe : Nat → String
  | 0 => "Success"
  | 1 => "Operation not permitted"
  | 2 => "No such file or directory"
  | 3 => "No such process"
  | 4 => "Interrupted system call"
  | 5 => "Input/output error"
  | 6 => "No such device or address"
  | 7 => "Argument list too long"
  | 8 => "Exec format error"
  | 9 => "Bad file descriptor"
  | 10 => "No child processes"
  | 11 => "Resource temporarily unavailable"
  | 12 => "Cannot allocate memory"
  | 13 => "Permission denied"
  | 14 => "Bad address"
  | 15 => "Block device required"
  | 16 => "Device or resource busy"
  | 17 => "File exists"
  | 18 => "Invalid cross-device link"
  | 19 => "No such device"
  | 20 => "Not a directory"
  | 21 => "Is a directory"
  | 22 => "Invalid argument"
  | 23 => "Too many open files in system"
  | 24 => "Too many open files"
  | 25 => "Inappropriate ioctl for device"
  | 26 => "Text file busy"
  | 27 => "File too large"
  | 28 => "No space left on device"
  | 29 => "Illegal seek"
  | 30 => "Read-only file system"
  | 31 => "Too many links"
  | 32 => "Broken pipe"
  | 33 => "Numerical argument out of domain"
  | 34 => "Numerical result out of range"
  | 35 => "Resource deadlock avoided"
  | 36 => "File name too long"
  | 37 => "No locks available"
  | 38 => "Function not implemented"
  | 39 => "Directory not empty"
  | 40 => "Too many levels of symbolic links"
  | 71 => "Protocol error"
  | 104 => "Connection reset by peer"
  | 110 => "Connection timed out"
  | 111 => "Connection refused"
  | n => "Unknown error " ++ toString n

/-- The symbol of an error number and the words that go with it. -/
def symbol : Nat → String × String
  | 1 => ("EPERM", "Operation not permitted")
  | 2 => ("ENOENT", "No such file or directory")
  | 3 => ("ESRCH", "No such process")
  | 4 => ("EINTR", "Interrupted system call")
  | 5 => ("EIO", "I/O error")
  | 6 => ("ENXIO", "No such device or address")
  | 7 => ("E2BIG", "Argument list too long")
  | 8 => ("ENOEXEC", "Exec format error")
  | 9 => ("EBADF", "Bad file number")
  | 10 => ("ECHILD", "No child processes")
  | 11 => ("EAGAIN", "Try again")
  | 12 => ("ENOMEM", "Out of memory")
  | 13 => ("EACCES", "Permission denied")
  | 14 => ("EFAULT", "Bad address")
  | 15 => ("ENOTBLK", "Block device required")
  | 16 => ("EBUSY", "Device or resource busy")
  | 17 => ("EEXIST", "File exists")
  | 18 => ("EXDEV", "Cross-device link")
  | 19 => ("ENODEV", "No such device")
  | 20 => ("ENOTDIR", "Not a directory")
  | 21 => ("EISDIR", "Is a directory")
  | 22 => ("EINVAL", "Invalid argument")
  | 23 => ("ENFILE", "File table overflow")
  | 24 => ("EMFILE", "Too many open files")
  | 25 => ("ENOTTY", "Not a typewriter")
  | 28 => ("ENOSPC", "No space left on device")
  | 32 => ("EPIPE", "Broken pipe")
  | 38 => ("ENOSYS", "Function not implemented")
  | _ => ("UnknownErrno", "Unknown errno")

/-- An error number as its symbol and words. -/
def symbolic (n : Nat) : String := (symbol n).1 ++ ": " ++ (symbol n).2

end Errno

inductive Fault where
  | kind (k : FaultKind)
  /-- A system call failed with this error number. -/
  | os (errno : Nat)
  /-- The stream ended inside a block that had to be read whole. -/
  | shortRead
  /-- The stream took nothing of a block that had to be written whole. -/
  | shortWrite
  /-- The content of a text file is not UTF-8. -/
  | notUtf8
  /-- A file name holds the character that ends names for the kernel. -/
  | nulInName
deriving DecidableEq, Repr

namespace Fault

def message : Fault → String
  | kind k => k.message
  | os n => Errno.describe n ++ " (os error " ++ toString n ++ ")"
  | shortRead => "failed to fill whole buffer"
  | shortWrite => "failed to write whole buffer"
  | notUtf8 => "stream did not contain valid UTF-8"
  | nulInName => "file name contained an unexpected NUL byte"

/-- The portable kind of a fault, as far as the program tells kinds apart. -/
def kind? : Fault → Option FaultKind
  | kind k => some k
  | os n =>
    if n = Errno.interrupted then some .interrupted
    else if n = Errno.wouldBlock then some .wouldBlock
    else if n = Errno.brokenPipe then some .brokenPipe
    else none
  | shortRead => some .unexpectedEof
  | shortWrite => some .writeZero
  | notUtf8 => none
  | nulInName => some .invalidInput

/-- The call did nothing and is to be repeated. -/
def isInterrupted (f : Fault) : Bool := f.kind? = some .interrupted

/-- Nothing can be moved now; later it may. -/
def isWouldBlock (f : Fault) : Bool := f.kind? = some .wouldBlock

def isBrokenPipe (f : Fault) : Bool := f.kind? = some .brokenPipe

def isEndOfStream (f : Fault) : Bool := f.kind? = some .unexpectedEof

end Fault

end ScreenLocker
