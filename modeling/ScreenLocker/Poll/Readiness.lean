/-! What a descriptor is asked for and what it is ready for: a mask of conditions. -/

namespace ScreenLocker

structure Readiness where
  mask : BitVec 16
deriving DecidableEq, Repr, Inhabited

namespace Readiness

def none : Readiness := ⟨0⟩
def readable : Readiness := ⟨1⟩
def writable : Readiness := ⟨4⟩
def error : Readiness := ⟨8⟩
def hangup : Readiness := ⟨16⟩
def invalid : Readiness := ⟨32⟩

instance : OrOp Readiness := ⟨fun a b => ⟨a.mask ||| b.mask⟩⟩

instance : AndOp Readiness := ⟨fun a b => ⟨a.mask &&& b.mask⟩⟩

/-- Conditions that are reported whether or not they were asked for. -/
def always : Readiness := hangup ||| error ||| invalid

def contains (a b : Readiness) : Bool := a &&& b = b

def intersects (a b : Readiness) : Bool := a &&& b ≠ none

def isEmpty (a : Readiness) : Bool := a = none

def isReadable (a : Readiness) : Bool := a.intersects readable

/-- The other end is gone, or the descriptor is of no more use. -/
def isHangup (a : Readiness) : Bool := a.intersects always

/-- The mask as a signed number of 16 bits. -/
def toInt (a : Readiness) : Int := a.mask.toInt

def ofInt (n : Int) : Readiness := ⟨BitVec.ofInt 16 n⟩

end Readiness

end ScreenLocker
