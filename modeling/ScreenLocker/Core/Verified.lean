import ScreenLocker.Channel
import ScreenLocker.Core

/-! A locker whose credentials go to a verifier process. -/

namespace ScreenLocker.Core

variable {β O S : Type} [Compositor β O S]

/-- The verifier's replies can be read, or have ended. -/
def onReply : Try (Core β O S Channel) Unit := do
  match ← sinking.attempt Channel.poll with
  | some v => onVerdict v
  | none => pure ()

end ScreenLocker.Core
