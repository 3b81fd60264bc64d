import ScreenLocker.Cancellation
import ScreenLocker.Compositor.Recorder
import ScreenLocker.Core.Verified
import ScreenLocker.Daemon
import ScreenLocker.Descriptor
import ScreenLocker.Display.Address
import ScreenLocker.Display.Scripted
import ScreenLocker.Keyboard
import ScreenLocker.Loop
import ScreenLocker.Main
import ScreenLocker.Options.Merge
import ScreenLocker.Password.Checker
import ScreenLocker.Poll.Multiplexer
import ScreenLocker.Privilege
import ScreenLocker.Program
import ScreenLocker.Proofs.Answers
import ScreenLocker.Proofs.Batches
import ScreenLocker.Proofs.ColorText
import ScreenLocker.Proofs.Coverage
import ScreenLocker.Proofs.CredentialLifetime
import ScreenLocker.Proofs.Delivery
import ScreenLocker.Proofs.Discretion
import ScreenLocker.Proofs.FrameGrammar
import ScreenLocker.Proofs.HandleUse
import ScreenLocker.Proofs.HostileVerifier
import ScreenLocker.Proofs.Independence
import ScreenLocker.Proofs.LockDiscipline
import ScreenLocker.Proofs.Lookups
import ScreenLocker.Proofs.News
import ScreenLocker.Proofs.Paging
import ScreenLocker.Proofs.Pairing
import ScreenLocker.Proofs.Precedence
import ScreenLocker.Proofs.PrivilegeDrop
import ScreenLocker.Proofs.Repaint
import ScreenLocker.Proofs.Resumption
import ScreenLocker.Proofs.RoundTrip
import ScreenLocker.Proofs.Sending
import ScreenLocker.Proofs.Serving
import ScreenLocker.Proofs.Silence
import ScreenLocker.Proofs.TableChanges
import ScreenLocker.Proofs.Typing
import ScreenLocker.Verifier.Process
