import ScreenLocker.Memory
import ScreenLocker.Op

/-! A bounded byte buffer for a credential. Its storage is one pinned block, replaced by a larger one when
the content outgrows it; the new block is pinned before anything is copied into it, and the old one is zeroed
before it is unpinned. An operation that fails leaves the buffer as it was. -/

namespace ScreenLocker

/-- The storage that a credential starts with. -/
def Credential.initialLength : Nat := 128

/-- The limit that a credential may grow to. -/
def Credential.maxLength : Nat := 1024

structure SecureBuffer where
  /-- The whole block, zero past `length`. -/
  storage : Bytes
  length : Nat
  max : Nat
  block : Nat
  memory : Memory
deriving Repr

namespace SecureBuffer

/-- Operations on a buffer fail for reasons of the buffer alone. -/
abbrev Edit (α : Type) := ExceptT BufferError (Op SecureBuffer) α

/-- A buffer of at least one byte and at most the limit. A refusal returns the memory as it is left. -/
def create (initial max : Nat) (memory : Memory) : Except (BufferError × Memory) SecureBuffer :=
  let size := Nat.min (Nat.max initial 1) (Nat.max max 1)
  match memory.allocate size with
  | (.ok block, memory) => .ok ⟨zeros size, 0, max, block, memory⟩
  | (.error fault, memory) => .error (.pin fault.message, memory)

def content (b : SecureBuffer) : Bytes := b.storage.take b.length

def capacity (b : SecureBuffer) : Nat := b.storage.length

def isEmpty (b : SecureBuffer) : Bool := b.length = 0

/-- Replaces `storage` and keeps the length; the memory sees the write. -/
def withStorage (b : SecureBuffer) (storage : Bytes) : SecureBuffer :=
  { b with storage, memory := b.memory.store b.block storage }

/-- Bytes from `start` on give way to `bytes`; nothing is written past the end of the storage. -/
def overwrite (start : Nat) (bytes : Bytes) (storage : Bytes) : Bytes :=
  (storage.take start ++ bytes ++ storage.drop (start + bytes.length)).take storage.length

/-- The size of the next block: what is needed, or twice the present size if the limit lets it. -/
def nextCapacity (b : SecureBuffer) (needed : Nat) : Nat :=
  Nat.min (Nat.max needed (b.capacity * 2)) b.max

def grow (needed : Nat) : Edit Unit := do
  let b ← get
  let target := b.nextCapacity needed
  let (answer, memory) := b.memory.allocate target
  match answer with
  | .error fault =>
    set { b with memory }
    let e := BufferError.pin fault.message
    logWarn .memory ("Refusing credential buffer growth to " ++ toString target ++ " bytes: " ++ e.message)
    throw e
  | .ok block =>
    let storage := overwrite 0 b.content (zeros target)
    let memory := (memory.store block storage).release b.block b.storage
    set { b with storage, block, memory }
    logDebug .memory ("Credential buffer grown to " ++ toString target ++ " bytes")

/-- Makes room for `n` more bytes. -/
def reserve (n : Nat) : Edit Unit := do
  let b ← get
  if b.max < b.length + n then throw (.capacityExceeded b.max)
  if b.capacity < b.length + n then grow (b.length + n)

def append (bytes : Bytes) : Edit Unit := do
  reserve bytes.length
  modify fun b =>
    { b.withStorage (overwrite b.length bytes b.storage) with length := b.length + bytes.length }

/-- Adds `n` zero bytes and returns where they start, to be filled in place. -/
def extendZeroed (n : Nat) : Edit Nat := do
  reserve n
  let b ← get
  set { b with length := b.length + n }
  pure b.length

/-- Writes into a stretch that `extendZeroed` handed out. -/
def fill (start : Nat) (bytes : Bytes) : Op SecureBuffer Unit :=
  modify fun b => b.withStorage (overwrite start bytes b.storage)

/-- Keeps the first `n` bytes and zeroes those that go. -/
def truncate (n : Nat) : Op SecureBuffer Unit :=
  modify fun b =>
    if n < b.length then
      { b.withStorage (overwrite n (zeros (b.length - n)) b.storage) with length := n }
    else b

/-- Zeroes the whole block and keeps it. -/
def clear : Op SecureBuffer Unit :=
  modify fun b => { b.withStorage (zeros b.capacity) with length := 0 }

/-- The end of the buffer: its block is zeroed and unpinned. -/
def drop (b : SecureBuffer) : Memory := b.memory.release b.block b.storage

/-- What may be printed of a buffer: its sizes, never its content. -/
def describe (b : SecureBuffer) : String :=
  "SecureBuffer \x7b len: " ++ toString b.length ++ ", capacity: " ++ toString b.capacity ++ ", max: " ++
    toString b.max ++ ", .. \x7d"

end SecureBuffer

end ScreenLocker
