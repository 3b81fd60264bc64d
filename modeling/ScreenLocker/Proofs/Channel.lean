import ScreenLocker.Channel
import ScreenLocker.Proofs.Frame

/-! The locker's side of the channel. A submission puts one whole frame on the pipe or nothing; a
poll comes down to what the first read that is not interrupted meets. -/

namespace ScreenLocker

@[simp] theorem Pipe.push_nil (p : Pipe) : p.push [] = p := by
  simp [push]

/-- What a reader meets once interruptions are over. -/
inductive Reading where
  | byte (b : UInt8)
  | nothing
  | closed
  | fault (f : Fault)
deriving DecidableEq

namespace Reading

def bytes : Reading → Bytes
  | byte b => [b]
  | _ => []

/-- What a poll makes of it. -/
def verdict : Reading → Except Error (Option Verdict)
  | byte b => (Verdict.ofByte b).map some
  | nothing => .ok none
  | closed => .error (.authChannelCrash "verifier closed its reply pipe")
  | fault f => .error (.authChannelCrash f.message)

end Reading

def Pipe.reading (p : Pipe) : Reading :=
  match p.faults.dropWhile Fault.isInterrupted with
  | f :: _ => if f.isWouldBlock then .nothing else .fault f
  | [] =>
    match p.queue with
    | b :: _ => .byte b
    | [] => if p.writerOpen then .nothing else .closed

namespace Channel

theorem tried_submit (c : Bytes) (ch : Channel) : tried (submit c) ch =
    if !ch.requests.writerOpen then (.error (.authChannelCrash "request pipe already closed"), ch)
    else if UInt32.size ≤ c.length then (.error (.process "credential frame too large"), ch)
    else if ch.requests.readerOpen then
      (.ok (), { ch with requests := ch.requests.push (Frame.encode c) })
    else (.error (.authChannelCrash "verifier stopped reading requests"), ch) := by
  by_cases hw : ch.requests.writerOpen
  · by_cases hc : UInt32.size ≤ c.length
    · simp [submit, hw, hc, Frame.write_large hc, Pipe.writing]
    · have hfit : c.length < UInt32.size := by omega
      by_cases hr : ch.requests.readerOpen
      · obtain ⟨calls, h⟩ := Frame.write_free hfit
        simp [submit, hw, hr, hc, Pipe.writing, h]
      · have hpipe : (Fault.os Errno.brokenPipe).isInterrupted = false := by decide
        have hbroken : (Fault.os Errno.brokenPipe).isBrokenPipe = true := by decide
        obtain ⟨calls, h⟩ := Frame.write_refused hfit hpipe
        simp [submit, hw, hr, hc, Pipe.writing, h, hbroken]
  · simp [submit, hw]

theorem submit_ok {c : Bytes} {ch ch' : Channel} (h : tried (submit c) ch = (.ok (), ch')) :
    c.length < UInt32.size ∧ ch' = { ch with requests := ch.requests.push (Frame.encode c) } := by
  rw [tried_submit] at h
  split at h
  · simp at h
  split at h
  · simp at h
  split at h
  · next hfit _ => exact ⟨by omega, (Prod.mk.inj h).2.symm⟩
  · simp at h

/-- A submission that fails leaves nothing behind. -/
theorem submit_error {c : Bytes} {ch ch' : Channel} {e : Error}
    (h : tried (submit c) ch = (.error e, ch')) :
    ch' = ch := by
  rw [tried_submit] at h
  split at h
  · exact (Prod.mk.inj h).2.symm
  split at h
  · exact (Prod.mk.inj h).2.symm
  split at h
  · simp at h
  · exact (Prod.mk.inj h).2.symm

theorem readReply_eq (faults : List Fault) (p : Pipe) :
    readReply faults p =
      match faults.dropWhile Fault.isInterrupted with
      | f :: rest => (.error f, { p with faults := rest })
      | [] => { p with faults := [] }.readByte := by
  induction faults generalizing p with
  | nil => rfl
  | cons f rest ih =>
    by_cases hf : f.isInterrupted
    · simp only [readReply, hf, if_true, ih, List.dropWhile_cons]
    · simp only [readReply, hf, List.dropWhile_cons, Bool.false_eq_true, if_false]

theorem tried_poll (ch : Channel) : ∃ replies,
    tried poll ch = (ch.replies.reading.verdict, { ch with replies }) ∧
    ch.replies.queue = ch.replies.reading.bytes ++ replies.queue := by
  have hwait : (Fault.os Errno.wouldBlock).isWouldBlock = true := by decide
  cases hfaults : ch.replies.faults.dropWhile Fault.isInterrupted with
  | cons f rest =>
    refine ⟨{ ch.replies with faults := rest }, ?_⟩
    by_cases hf : f.isWouldBlock <;>
      simp [poll, Pipe.reading, readReply_eq, hfaults, hf, Reading.verdict, Reading.bytes]
  | nil =>
    cases hqueue : ch.replies.queue with
    | cons b queue =>
      refine ⟨{ ch.replies with queue, faults := [] }, ?_⟩
      cases hb : Verdict.ofByte b <;>
        simp [poll, Pipe.reading, readReply_eq, Pipe.readByte, hfaults, hqueue, hb, Reading.verdict,
          Reading.bytes]
    | nil =>
      refine ⟨{ ch.replies with faults := [] }, ?_⟩
      by_cases hopen : ch.replies.writerOpen <;>
        simp [poll, Pipe.reading, readReply_eq, Pipe.readByte, hfaults, hqueue, hopen, hwait,
          Reading.verdict, Reading.bytes]

end Channel

end ScreenLocker
