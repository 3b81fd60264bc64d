import ScreenLocker.Stream

/-! A pipe inside the kernel: a queue of bytes with two ends, each open or closed. -/

namespace ScreenLocker

structure Pipe where
  queue : Bytes := []
  readerOpen : Bool := true
  writerOpen : Bool := true
  /-- Faults that reads meet before they get to the bytes. -/
  faults : List Fault := []
deriving Repr

namespace Pipe

def closeReader (p : Pipe) : Pipe := { p with readerOpen := false, queue := [] }

def closeWriter (p : Pipe) : Pipe := { p with writerOpen := false }

def push (bytes : Bytes) (p : Pipe) : Pipe := { p with queue := p.queue ++ bytes }

/-- The stream that a writer sees: nothing holds it back while someone can still read. -/
def writing (p : Pipe) : OutStream :=
  { script := if p.readerOpen then [] else [.fail (.os Errno.brokenPipe)] }

/-- One byte, or `none` at the end of the stream; nothing to read on an open pipe is a fault. -/
def readByte (p : Pipe) : Except Fault (Option UInt8) × Pipe :=
  match p.faults with
  | f :: faults => (.error f, { p with faults })
  | [] =>
    match p.queue with
    | b :: queue => (.ok (some b), { p with queue })
    | [] => (if p.writerOpen then .error (.os Errno.wouldBlock) else .ok none, p)

end Pipe

end ScreenLocker
