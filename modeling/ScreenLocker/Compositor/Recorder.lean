import ScreenLocker.Compositor

/-! A compositor that writes down what it is asked and fails where it is told to. Outputs and surfaces are
numbered from one counter. -/

namespace ScreenLocker

inductive Request where
  | requestLock
  | createSurface (id : OutputId) (output : Nat)
  | acknowledge (surface serial : Nat)
  | present (surface : Nat) (picture : Picture)
  | destroySurface (surface : Nat)
  | releaseOutput (output : Nat)
  | unlock
  | abandon
  | flush
deriving DecidableEq, Repr

namespace Request

/-- The name of the request, without its arguments. -/
def name : Request → String
  | requestLock => "request_lock"
  | createSurface .. => "create_lock_surface"
  | acknowledge .. => "ack_configure"
  | present .. => "present"
  | destroySurface _ => "destroy_surface"
  | releaseOutput _ => "release_output"
  | unlock => "unlock_and_destroy"
  | abandon => "abandon_lock"
  | flush => "flush"

def text (r : Request) : String :=
  r.name ++ match r with
    | requestLock | unlock | abandon | flush => ""
    | createSurface id output => " id=" ++ toString id ++ " output=o" ++ toString output
    | acknowledge surface serial => " s" ++ toString surface ++ " serial=" ++ toString serial
    | present surface p =>
      " s" ++ toString surface ++ " " ++ toString p.width ++ "x" ++ toString p.height ++ " scale=" ++
        toString p.scale ++ " fill=" ++ p.fill.render
    | destroySurface surface => " s" ++ toString surface
    | releaseOutput output => " o" ++ toString output

end Request

/-- A request as it was answered. -/
structure Call where
  request : Request
  granted : Bool
deriving DecidableEq, Repr

def Call.text (c : Call) : String := if c.granted then c.request.text else c.request.text ++ " failed"

/-- A failure to come: requests of this name are granted `skip` times and then refused once. -/
structure ArmedFailure where
  name : String
  skip : Nat
  error : Error
deriving Repr

structure Recorder where
  calls : List Call := []
  armed : List ArmedFailure := []
  nextHandle : Nat := 1
deriving Repr

namespace Recorder

def arm (f : ArmedFailure) (r : Recorder) : Recorder := { r with armed := r.armed ++ [f] }

/-- Counts one request of this name against the first failure armed for it. -/
def trigger (name : String) : List ArmedFailure → Option Error × List ArmedFailure
  | [] => (none, [])
  | f :: rest =>
    if f.name = name then
      match f.skip with
      | 0 => (some f.error, rest)
      | skip + 1 => (none, { f with skip } :: rest)
    else
      let (e, rest) := trigger name rest
      (e, f :: rest)

def note (request : Request) : Op Recorder Unit :=
  modify fun r => { r with calls := r.calls ++ [Call.mk request true] }

/-- Writes down a request that may be refused. -/
def ask (request : Request) : Try Recorder Unit := do
  let r ← get
  let (failure, armed) := trigger request.name r.armed
  set { r with armed, calls := r.calls ++ [Call.mk request failure.isNone] }
  match failure with
  | some e => throw e
  | none => pure ()

def newHandle : Op Recorder Nat :=
  modifyGet fun r => (r.nextHandle, { r with nextHandle := r.nextHandle + 1 })

instance : Compositor Recorder Nat Nat where
  requestLock := ask .requestLock
  createSurface id output := do
    ask (.createSurface id output)
    newHandle
  acknowledge surface serial := note (.acknowledge surface serial)
  present surface picture := do
    ask (.present surface picture)
    pure surface
  destroySurface surface := note (.destroySurface surface)
  releaseOutput output := note (.releaseOutput output)
  unlock := note .unlock
  abandon := note .abandon
  flush := ask .flush

end Recorder

end ScreenLocker
