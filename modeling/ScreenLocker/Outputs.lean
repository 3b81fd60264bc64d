import ScreenLocker.Compositor

/-! The outputs and their lock surfaces, at most one surface each. The table is the only owner of their
handles. Events name outputs by number; a number that is not in the table is ignored. -/

namespace ScreenLocker

/-- An output with handle `O`, and the lock surface with handle `S` once it has one. -/
structure OutputEntry (O S : Type) where
  id : OutputId
  name : Option String := none
  /-- The size of the output in pixels, as it was advertised. -/
  geometry : Nat × Nat := (0, 0)
  /-- The logical size of the surface, from the last configure. -/
  width : Nat := 0
  height : Nat := 0
  scale : Int := 1
  /-- The first batch of properties is complete. -/
  ready : Bool := false
  /-- A configure of this surface has been acknowledged. -/
  configured : Bool := false
  dirty : Bool := false
  output : O
  surface : Option S := none

/-- The largest number of 32 bits, where sizes stop growing. -/
def maxDimension : Nat := UInt32.size - 1

namespace OutputEntry

variable {β O S : Type} [Compositor β O S]

def label (e : OutputEntry O S) : String :=
  match e.name with
  | some name => toString e.id ++ " (" ++ name ++ ")"
  | none => toString e.id

/-- The picture that covers the surface: its logical size in buffer pixels, filled. -/
def picture (e : OutputEntry O S) (fill : Color) : Picture :=
  let scale := max e.scale 1
  { width := Nat.min (e.width * scale.toNat) maxDimension
    height := Nat.min (e.height * scale.toNat) maxDimension
    scale, fill }

def createSurface (e : OutputEntry O S) : Try β (OutputEntry O S) := do
  if e.surface.isSome then pure e
  else
    let surface ← (Compositor.createSurface e.id e.output : Try β S)
    logDebug .outputs ("Lock surface created for output " ++ e.label)
    pure { e with surface := some surface }

/-- Paints the surface if it is configured and has changed; says whether it did. -/
def present (fill : Color) (e : OutputEntry O S) : Try β (OutputEntry O S × Bool) := do
  match e.surface with
  | none => pure (e, false)
  | some surface =>
    if !(e.configured && e.dirty) then pure (e, false)
    else
      let picture := e.picture fill
      if picture.width = 0 ∨ picture.height = 0 then
        logDebug .outputs ("Output " ++ toString e.id ++ " configured with an empty size; not drawing")
        pure (e, false)
      else
        let surface ← (Compositor.present surface picture : Try β S)
        pure ({ e with surface := some surface, dirty := false }, true)

/-- Gives up both handles, the surface first. -/
def release (e : OutputEntry O S) : Op β Unit := do
  match e.surface with
  | some surface => (Compositor.destroySurface surface : Op β Unit)
  | none => pure ()
  (Compositor.releaseOutput e.output : Op β Unit)

/-- What a property event does to an entry. -/
def update (event : OutputEvent) (e : OutputEntry O S) : OutputEntry O S :=
  match event with
  | .geometry width height =>
    if e.geometry = (width, height) then e else { e with geometry := (width, height), dirty := true }
  | .scale factor => if e.scale = factor then e else { e with scale := factor, dirty := true }
  | .name text => { e with name := some text }
  | .done => { e with ready := true }

def configure (c : Configure) (e : OutputEntry O S) : OutputEntry O S :=
  { e with width := c.width, height := c.height, configured := true, dirty := true }

end OutputEntry

/-- The table of outputs, by ascending number. -/
structure Outputs (O S : Type) where
  entries : List (OutputEntry O S) := []

namespace Outputs

variable {β O S : Type} [Compositor β O S]

def table : Part (Outputs O S × β) (Outputs O S) := Part.left

def compositor : Part (Outputs O S × β) β := Part.right

def find? (t : Outputs O S) (id : OutputId) : Option (OutputEntry O S) :=
  t.entries.find? (·.id = id)

/-- Puts an entry in its place, and returns the one that it displaces. -/
def place (e : OutputEntry O S) : List (OutputEntry O S) → Option (OutputEntry O S) × List (OutputEntry O S)
  | [] => (none, [e])
  | x :: rest =>
    if e.id < x.id then (none, e :: x :: rest)
    else if e.id = x.id then (some x, e :: rest)
    else
      let (stale, rest) := place e rest
      (stale, x :: rest)

/-- Writes back an entry that was looked up. -/
def put (e : OutputEntry O S) : Op (Outputs O S) Unit :=
  modify fun t => { t with entries := t.entries.map fun x => if x.id = e.id then e else x }

/-- Runs a step on the entries in order, up to its first failure; what it made of the entries before is kept.
Counts the entries for which the step answered `true`. -/
def sweep (step : OutputEntry O S → Try β (OutputEntry O S × Bool)) :
    List (OutputEntry O S) → Op β (Except Error Nat × List (OutputEntry O S))
  | [] => pure (.ok 0, [])
  | e :: rest => do
    match ← (step e).run with
    | .error err => pure (.error err, e :: rest)
    | .ok (e, hit) =>
      let (count, rest) ← sweep step rest
      pure (count.map (· + hit.toNat), e :: rest)

def sweepAll (step : OutputEntry O S → Try β (OutputEntry O S × Bool)) : Try (Outputs O S × β) Nat := do
  let (count, entries) ← compositor.on (sweep step (← get).1.entries)
  modify fun (t, b) => ({ t with entries }, b)
  liftExcept count
where
  liftExcept : Except Error Nat → Try (Outputs O S × β) Nat
    | .ok n => pure n
    | .error e => throw e

/-- Tracks a new output. A number that is announced again stands for the new output, and the old one is let go. -/
def add (id : OutputId) (output : O) : Op (Outputs O S × β) Unit := do
  let (stale, entries) := place { id, output } (← get).1.entries
  modify fun (t, b) => ({ t with entries }, b)
  match stale with
  | some old =>
    logWarn .outputs ("Output " ++ toString id ++ " announced twice; dropping the old handle")
    compositor.on old.release
  | none => pure ()

/-- Takes a property event. The end of a batch makes the output ready, and while a lock is active a ready
output gets its lock surface. -/
def handleEvent (id : OutputId) (event : OutputEvent) (lockActive : Bool) : Try (Outputs O S × β) Unit := do
  match (← get).1.find? id with
  | none => logDebug .outputs ("Event for unknown output " ++ toString id ++ " ignored")
  | some e =>
    let e := e.update event
    table.on (put e)
    if event = .done ∧ lockActive then
      table.on (put (← compositor.attempt e.createSurface))

/-- Creates the lock surfaces that ready outputs lack. -/
def ensureSurfaces : Try (Outputs O S × β) Unit := do
  let _ ← sweepAll (β := β) fun e => do
    if e.ready then pure (← e.createSurface, false) else pure (e, false)

/-- Takes a configure: notes it, acknowledges it and paints the surface. -/
def handleConfigure (id : OutputId) (c : Configure) (fill : Color) : Try (Outputs O S × β) Unit := do
  match (← get).1.find? id with
  | none => logDebug .outputs ("Configure for removed output " ++ toString id ++ " ignored")
  | some e =>
    match e.surface with
    | none => logDebug .outputs ("Configure for output " ++ toString id ++ " without a lock surface ignored")
    | some surface =>
      let e := e.configure c
      table.on (put e)
      compositor.on (Compositor.acknowledge surface c.serial : Op β Unit)
      logDebug .outputs
        ("Output " ++ e.label ++ " configured " ++ toString c.width ++ "x" ++ toString c.height ++
          " (serial " ++ toString c.serial ++ ")")
      let (e, _) ← compositor.attempt (e.present fill)
      table.on (put e)

/-- Forgets an output and lets go of its handles; says whether it was there. -/
def remove (id : OutputId) : Op (Outputs O S × β) Bool := do
  match (← get).1.find? id with
  | none => pure false
  | some e =>
    modify fun (t, b) => ({ t with entries := t.entries.filter (·.id ≠ id) }, b)
    logDebug .outputs ("Output " ++ e.label ++ " removed")
    compositor.on e.release
    pure true

def damageAll (t : Outputs O S) : Outputs O S :=
  { t with entries := t.entries.map fun e => { e with dirty := true } }

/-- Paints what has changed, and counts the surfaces painted. -/
def render (fill : Color) : Try (Outputs O S × β) Nat := sweepAll (β := β) (OutputEntry.present fill)

/-- Lets go of every handle. -/
def teardown : Op (Outputs O S × β) Unit := do
  let entries := (← get).1.entries
  modify fun (t, b) => ({ t with entries := [] }, b)
  compositor.on (entries.forM OutputEntry.release)

end Outputs

end ScreenLocker
