import ScreenLocker.Display.Event

/-! The locker's end of a connection. Requests are buffered until a flush; events are first read, when those to
objects that are gone are dropped, and later dispatched. The first failure stands: from then on nothing is sent and
nothing more is read. -/

namespace ScreenLocker.Display

/-- The other end of a connection. It answers each request with what can be read after it. -/
class FarEnd (π : Type) where
  isConnected : π → Bool
  receive : Request → π → List Arrival × π

/-- An event that has been read, and the output its target was made for, if there is one. -/
structure Notice where
  event : Event
  owner : Option OutputId
deriving DecidableEq, Repr

structure Connection (π : Type) where
  peer : π
  outgoing : List Request := []
  unread : List Arrival := []
  queue : List Notice := []
  failure : Option ConnectionError := none
  /-- How many objects of each kind have been made. -/
  made : Kind → Nat := fun _ => 0
  gone : List Object := []
  /-- The outputs that objects were made for. -/
  owners : List (Object × OutputId) := []

namespace Connection

variable {π : Type}

/-- The next object of a kind. -/
def create (kind : Kind) : Op (Connection π) Object :=
  modifyGet fun c =>
    let number := c.made kind + 1
    (⟨kind, number⟩, { c with made := fun k => if k = kind then number else c.made k })

/-- The next object of a kind, on behalf of an output. -/
def createFor (id : OutputId) (kind : Kind) : Op (Connection π) Object := do
  let o ← create kind
  modify fun c => { c with owners := (o, id) :: c.owners }
  pure o

/-- Makes a request, to be sent with the next flush. -/
def request (r : Request) : Op (Connection π) Unit :=
  modify fun c =>
    { c with
      outgoing := if c.failure.isNone then c.outgoing ++ [r] else c.outgoing
      gone := r.ended?.toList ++ c.gone }

variable [FarEnd π]

/-- Hands requests to the other end in order. -/
def deliver : List Request → π → List Arrival × π
  | [], peer => ([], peer)
  | r :: rest, peer =>
    let (first, peer) := FarEnd.receive r peer
    let (more, peer) := deliver rest peer
    (first ++ more, peer)

/-- Keeps a failure, and tells of it whatever is logged otherwise. -/
def fail (e : ConnectionError) : Op (Connection π) (Except ConnectionError Unit) := do
  modify fun c => { c with failure := some e }
  logError .connection e.message
  pure (.error e)

/-- Sends what is buffered. -/
def flush : Op (Connection π) (Except ConnectionError Unit) := do
  let c ← get
  match c.failure with
  | some e => pure (.error e)
  | none =>
    if c.outgoing.isEmpty then pure (.ok ())
    else if FarEnd.isConnected c.peer then
      let (arrivals, peer) := deliver c.outgoing c.peer
      set { c with peer, outgoing := [], unread := c.unread ++ arrivals }
      pure (.ok ())
    else fail .hangUp

/-- The events before the first failure, and the failure. -/
def untilFailure : List Arrival → List Event × Option ConnectionError
  | [] => ([], none)
  | .event e :: rest =>
    let (events, failure) := untilFailure rest
    (e :: events, failure)
  | .failure e :: _ => ([], some e)

/-- Queues an event, unless its target is gone or the event has done its work on arrival. -/
def accept (c : Connection π) (e : Event) : Option Notice :=
  if c.gone.contains e.target ∨ e.message = .callbackDone then none
  else some ⟨e, c.owners.lookup e.target⟩

/-- Reads what has arrived, without waiting. -/
def read : Op (Connection π) (Except ConnectionError Unit) := do
  let c ← get
  match c.failure with
  | some e => pure (.error e)
  | none =>
    let (events, failure) := untilFailure c.unread
    set { c with unread := [], queue := c.queue ++ events.filterMap c.accept }
    match failure with
    | some e => fail e
    | none => pure (.ok ())

/-- Takes what has been read out of the queue. -/
def takeQueue : Op (Connection π) (List Notice) :=
  modifyGet fun c => (c.queue, { c with queue := [] })

/-- More arrives that no request asked for. -/
def arrive (arrivals : List Arrival) (c : Connection π) : Connection π := { c with unread := c.unread ++ arrivals }

/-- Whether a read would find something, be it the end. -/
def isReadable (c : Connection π) : Bool := !c.unread.isEmpty || !FarEnd.isConnected c.peer

end Connection

end ScreenLocker.Display
