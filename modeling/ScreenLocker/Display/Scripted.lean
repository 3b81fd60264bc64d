import ScreenLocker.Display.Connection

/-! A compositor that follows a script: it writes down every request, and certain requests make it say certain
things. It addresses the newest object that fits, and notes when there is none. -/

namespace ScreenLocker.Display

/-- Something to say. Messages about an output name it by number. -/
inductive Saying where
  | tell (output : OutputId) (message : Message)
  | violation (code : Nat) (text : String)
  | hangUp
  /-- The signal for cancellation, sent to the locker's process. -/
  | signal
deriving DecidableEq, Repr

/-- What to say when a request first comes whose text starts with the given one. -/
structure Cue where
  onRequest : String
  say : List Saying
deriving Repr

structure Scripted where
  cues : List Cue := []
  /-- Requests, and notes of what could not be said. -/
  record : List String := []
  registry : Option Object := none
  seat : Option Object := none
  keyboard : Option Object := none
  lock : Option Object := none
  /-- The newest first. -/
  outputs : List (OutputId × Object) := []
  surfaces : List (OutputId × Object) := []
  hungUp : Bool := false
  signals : Nat := 0
deriving Repr

namespace Scripted

/-- The name of a message in notes. -/
def label : Message → String
  | .global .. => "global"
  | .globalRemove _ => "global_remove"
  | .callbackDone => "callback"
  | .output (.mode ..) => "mode"
  | .output (.scale _) => "scale"
  | .output (.name _) => "name"
  | .output (.description _) => "description"
  | .output .done => "done"
  | .lock .locked => "locked"
  | .lock .finished => "finished"
  | .configure _ => "configure"
  | .capabilities _ => "capabilities"
  | .seatName _ => "seat_name"
  | .keymap .. => "keymap"
  | .key .. => "key"
  | .modifiers .. => "modifiers"

/-- The object that a message goes to, or what is missing. -/
def target (s : Scripted) (output : OutputId) : Message → Except String Object
  | .global .. | .globalRemove _ | .callbackDone => orMissing "registry" s.registry
  | .output _ => orMissing ("output " ++ toString output) (s.outputs.lookup output)
  | .configure _ => orMissing ("surface " ++ toString output) (s.surfaces.lookup output)
  | .lock _ => orMissing "lock" s.lock
  | .capabilities _ | .seatName _ => orMissing "seat" s.seat
  | .keymap .. | .key .. | .modifiers .. => orMissing "keyboard" s.keyboard
where
  orMissing (what : String) : Option Object → Except String Object
    | some o => .ok o
    | none => .error what

def note (text : String) (s : Scripted) : Scripted := { s with record := s.record ++ [text] }

/-- Says things in order, until the connection is closed. -/
def speak : List Saying → Scripted → List Arrival × Scripted
  | [], s => ([], s)
  | .hangUp :: _, s => ([.failure .hangUp], { s with hungUp := true })
  | .violation code text :: rest, s =>
    let (arrivals, s) := speak rest s
    (.failure (.violation code text) :: arrivals, s)
  | .signal :: rest, s => speak rest { s with signals := s.signals + 1 }
  | .tell output m :: rest, s =>
    match s.target output m with
    | .error what => speak rest (s.note ("(" ++ label m ++ ": no " ++ what ++ ")"))
    | .ok o =>
      let (arrivals, s) := speak rest s
      (.event ⟨o, m⟩ :: arrivals, s)

/-- Learns of the objects that a request makes. -/
def learn (s : Scripted) : Request → Scripted
  | .getRegistry new => { s with registry := some new }
  | .bind _ name _ new =>
    match new.kind with
    | .output => { s with outputs := (name, new) :: s.outputs }
    | .seat => { s with seat := some new }
    | _ => s
  | .lock _ new => { s with lock := some new }
  | .getKeyboard _ new => { s with keyboard := some new }
  | .getLockSurface _ new _ output =>
    match s.outputs.find? (·.2 = output) with
    | some (id, _) => { s with surfaces := (id, new) :: s.surfaces }
    | none => s
  | _ => s

/-- Takes the first cue that a request gives. -/
def takeCue (text : String) : List Cue → List Saying × List Cue
  | [] => ([], [])
  | c :: rest =>
    if text.startsWith c.onRequest then (c.say, rest)
    else
      let (say, rest) := takeCue text rest
      (say, c :: rest)

/-- The answer that every request of this kind gets, after what its cue says. -/
def answer : Request → List Arrival
  | .sync new => [.event ⟨new, .callbackDone⟩]
  | _ => []

/-- Writes a request down, and says what there is to say unless the connection has ended. -/
def receive (r : Request) (s : Scripted) : List Arrival × Scripted :=
  let s := (s.note r.text).learn r
  if s.hungUp then ([], s)
  else
    let (say, cues) := takeCue r.text s.cues
    let (arrivals, s) := speak say { s with cues }
    (if s.hungUp then arrivals else arrivals ++ answer r, s)

instance : FarEnd Scripted where
  isConnected s := !s.hungUp
  receive := receive

/-- Says things that no request asks for. -/
def interject (say : List Saying) : Op (Connection Scripted) Unit :=
  modify fun c =>
    if c.peer.hungUp then c
    else
      let (arrivals, peer) := speak say c.peer
      { c with peer, unread := c.unread ++ arrivals }

end Scripted

end ScreenLocker.Display
