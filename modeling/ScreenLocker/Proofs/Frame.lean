import Mathlib.Algebra.Group.Nat.Defs
import ScreenLocker.Frame
import ScreenLocker.Proofs.SecureBuffer
import ScreenLocker.Proofs.Stream

/-! Requests on the wire. A frame is read off the front of a stream exactly as it was written, and
no frame is the beginning of another, so a reader that knows the bytes of a stream knows its
requests. -/

namespace ScreenLocker.Frame

theorem length_littleEndian (width n : Nat) : (littleEndian width n).length = width := by
  induction width generalizing n with
  | zero => rfl
  | succ width ih => simp [littleEndian, ih]

theorem ofLittleEndian_littleEndian (width n : Nat) :
    ofLittleEndian (littleEndian width n) = n % 256 ^ width := by
  induction width generalizing n with
  | zero => simp [littleEndian, ofLittleEndian, Nat.mod_one]
  | succ width ih =>
    have hdigit : (UInt8.ofNat (n % 256)).toNat = n % 256 := by
      simp
    rw [littleEndian, ofLittleEndian, ih, hdigit, Nat.pow_succ', Nat.mod_mul]

theorem littleEndian_ofLittleEndian (bytes : Bytes) :
    littleEndian bytes.length (ofLittleEndian bytes) = bytes := by
  induction bytes with
  | nil => rfl
  | cons b rest ih =>
    have hb : b.toNat < 256 := b.toNat_lt
    have hmod : (b.toNat + 256 * ofLittleEndian rest) % 256 = b.toNat := by omega
    have hdiv : (b.toNat + 256 * ofLittleEndian rest) / 256 = ofLittleEndian rest := by omega
    rw [List.length_cons, ofLittleEndian, littleEndian, hmod, hdiv, ih]
    simp

theorem ofLittleEndian_lt (bytes : Bytes) : ofLittleEndian bytes < 256 ^ bytes.length := by
  induction bytes with
  | nil => decide
  | cons b rest ih =>
    have hb : b.toNat < 256 := b.toNat_lt
    rw [List.length_cons, Nat.pow_succ', ofLittleEndian]
    omega

theorem length_header (credential : Bytes) : (header credential).length = headerLength :=
  length_littleEndian _ _

theorem encode_ne_nil (credential : Bytes) : encode credential ≠ [] := by
  intro h
  have hlength := congrArg List.length h
  rw [encode, List.length_append, length_header] at hlength
  simp [headerLength] at hlength

theorem ofLittleEndian_header {credential : Bytes} (h : credential.length < UInt32.size) :
    ofLittleEndian (header credential) = credential.length := by
  rw [header, ofLittleEndian_littleEndian]
  exact Nat.mod_eq_of_lt h

/-- Two streams that are equal and begin with a frame begin with the same one. -/
theorem encode_append_inj {c c' rest rest' : Bytes} (hc : c.length < UInt32.size)
    (hc' : c'.length < UInt32.size)
    (h : encode c ++ rest = encode c' ++ rest') : c = c' ∧ rest = rest' := by
  unfold encode at h
  rw [List.append_assoc, List.append_assoc] at h
  obtain ⟨hhead, hbody⟩ := List.append_inj h (by rw [length_header, length_header])
  have hlen : c.length = c'.length := by
    rw [← ofLittleEndian_header hc, hhead, ofLittleEndian_header hc']
  exact List.append_inj hbody hlen

@[simp] theorem tried_orFault_none {σ : Type} (s : σ) : tried (orFault none) s = (.ok (), s) := rfl

theorem write_free {credential : Bytes} (h : credential.length < UInt32.size) :
    ∃ calls, tried (write credential) {} = (.ok (), { written := encode credential, calls }) := by
  have hbig : ¬ UInt32.size ≤ credential.length := by omega
  have hall : ¬ (header credential).length + credential.length < (header credential).length := by
    omega
  simp [write, hbig, hall, OutStream.writeBoth, OutStream.giveBoth, OutStream.absorb,
    OutStream.writeAll, OutStream.giveAll, OutStream.flush, encode]

/-- A credential whose length does not fit the header is refused before anything is written. -/
theorem write_large {credential : Bytes} (h : UInt32.size ≤ credential.length) (s : OutStream) :
    tried (write credential) s = (.error (.process "credential frame too large"), s) := by
  simp [write, h]

theorem write_refused {credential : Bytes} {f : Fault} (h : credential.length < UInt32.size)
    (hf : f.isInterrupted = false) :
    ∃ calls, tried (write credential) { script := [.fail f] } = (.error (.io f), { calls }) := by
  have hbig : ¬ UInt32.size ≤ credential.length := by omega
  simp [write, hbig, OutStream.writeBoth, OutStream.giveBoth, OutStream.absorb, hf]

theorem writeVerdict_free (v : Verdict) {out : OutStream} (h : out.Free) : ∃ calls,
    tried (writeVerdict v) out = (.ok (), { written := out.written ++ [v.toByte], calls }) := by
  obtain ⟨hscript, hflushes⟩ := h
  simp [writeVerdict, OutStream.writeAll, OutStream.giveAll, OutStream.absorb, OutStream.flush,
    hscript, hflushes]

theorem writeVerdict_refused (v : Verdict) {f : Fault} (hf : f.isInterrupted = false) :
    ∃ calls, tried (writeVerdict v) { script := [.fail f] } = (.error (.io f), { calls }) := by
  simp [writeVerdict, OutStream.writeAll, OutStream.giveAll, OutStream.absorb, hf, orFault]

/-- What a read comes to, by its two blocks and the room that is made between them. The first block gives the
length of the second. -/
theorem tried_read (s : InStream) (b : SecureBuffer) :
    tried read (s, b) =
      match InStream.readExactly headerLength s with
      | ((_, some f), s₁) => (if f.isEndOfStream then .ok false else .error (.io f), (s₁, b))
      | ((head, none), s₁) =>
        let length := ofLittleEndian head
        if b.max < length then
          (.error (.process
            ("request frame of " ++ toString length ++ " bytes exceeds limit of " ++ toString b.max)),
            (s₁, b))
        else
          match tried (SecureBuffer.extendZeroed length) b.wiped with
          | (.error e, room) => (.error (.buffer e), (s₁, room))
          | (.ok start, room) =>
            let ((body, fault), s₂) := InStream.readExactly length s₁
            (fault.elim (.ok true) fun f => .error (.io f),
              (s₂, (outcome (SecureBuffer.fill start body) room).2)) := by
  rcases hhead : InStream.readExactly headerLength s with ⟨⟨head, _ | f⟩, s₁⟩
  · by_cases hmax : b.max < ofLittleEndian head
    · simp [read, source, Part.left, hhead, hmax]
    rcases hroom : tried (SecureBuffer.extendZeroed (ofLittleEndian head)) b.wiped with
      ⟨e | start, room⟩
    · simp [read, source, target, lift, Part.left, Part.right, hhead, hmax, hroom]
    rcases hbody : InStream.readExactly (ofLittleEndian head) s₁ with ⟨⟨body, _ | f⟩, s₂⟩ <;>
      simp [read, source, target, lift, Part.left, Part.right, hhead, hmax, hroom, hbody]
  · cases hend : f.isEndOfStream <;> simp [read, source, Part.left, hhead, hend]

/-- A read goes through as its two blocks do. -/
theorem read_iff {s s' : InStream} {b b' : SecureBuffer} :
    tried read (s, b) = (.ok true, (s', b')) ↔
    ∃ head s₁ start room body,
      InStream.readExactly headerLength s = ((head, none), s₁) ∧ ofLittleEndian head ≤ b.max ∧
      tried (SecureBuffer.extendZeroed (ofLittleEndian head)) b.wiped = (.ok start, room) ∧
      InStream.readExactly (ofLittleEndian head) s₁ = ((body, none), s') ∧
      b' = (outcome (SecureBuffer.fill start body) room).2 := by
  constructor
  · intro h
    rcases hhead : InStream.readExactly headerLength s with ⟨⟨head, fault⟩, s₁⟩
    cases fault with
    | some f => cases hend : f.isEndOfStream <;> simp [tried_read, hhead, hend] at h
    | none =>
    by_cases hmax : b.max < ofLittleEndian head
    · simp [tried_read, hhead, hmax] at h
    rcases hroom : tried (SecureBuffer.extendZeroed (ofLittleEndian head)) b.wiped with
      ⟨start, room⟩
    cases start with
    | error e => simp [tried_read, hhead, hmax, hroom] at h
    | ok start =>
    rcases hbody : InStream.readExactly (ofLittleEndian head) s₁ with ⟨⟨body, fault⟩, s₂⟩
    cases fault with
    | some f => simp [tried_read, hhead, hmax, hroom, hbody] at h
    | none =>
      simp only [tried_read, hhead, if_neg hmax, hroom, hbody, Option.elim_none, Prod.mk.injEq, true_and] at h
      obtain ⟨rfl, rfl⟩ := h
      exact ⟨head, s₁, start, room, body, rfl, by omega, hroom, hbody, rfl⟩
  · rintro ⟨head, s₁, start, room, body, hhead, hmax, hroom, hbody, rfl⟩
    have hfit : ¬ b.max < ofLittleEndian head := by omega
    simp [tried_read, hhead, hfit, hroom, hbody]

/-- What a read obtains is a frame off the front of the stream, within the limit of the buffer. -/
theorem read_whole {s s' : InStream} {b b' : SecureBuffer}
    (h : tried read (s, b) = (.ok true, (s', b'))) :
    s.pending = encode b'.content ++ s'.pending ∧ b'.content.length < UInt32.size := by
  obtain ⟨head, s₁, start, room, body, hhead, -, hroom, hbody, rfl⟩ := read_iff.mp h
  obtain ⟨hfront, hfour⟩ := InStream.readExactly_whole hhead
  obtain ⟨hmiddle, hwhole⟩ := InStream.readExactly_whole hbody
  obtain ⟨rfl, hlen, -, hcap⟩ := SecureBuffer.extendZeroed_ok hroom
  rw [SecureBuffer.wiped_length, Nat.zero_add] at hlen hcap
  have hcontent : (outcome (SecureBuffer.fill 0 body) room).2.content =
      room.storage.take 0 ++ body :=
    SecureBuffer.content_fill (by rw [hlen, hwhole, Nat.zero_add]) (by rw [hlen]; exact hcap)
  have hsize : ofLittleEndian head < 256 ^ head.length := ofLittleEndian_lt head
  have hheader : header body = head := by
    rw [header, hwhole, ← hfour, littleEndian_ofLittleEndian]
  change s.pending = encode (outcome (SecureBuffer.fill 0 body) room).2.content ++ s'.pending ∧
    (outcome (SecureBuffer.fill 0 body) room).2.content.length < UInt32.size
  rw [hcontent, List.take_zero, List.nil_append]
  refine ⟨?_, ?_⟩
  · rw [encode, hheader, hfront, hmiddle, List.append_assoc]
  · rw [hwhole]
    rw [hfour] at hsize
    exact hsize

/-- A read takes nothing of what comes after the frame, and does the same whatever comes. -/
theorem read_more {taken : Bytes} {s' : InStream} {n : Nat} {b b' : SecureBuffer}
    (h : tried read (⟨taken, [], n⟩, b) = (.ok true, (s', b'))) (more : Bytes) (m : Nat) :
    ∃ m', tried read (⟨taken ++ more, [], m⟩, b) =
      (.ok true, (⟨s'.pending ++ more, [], m'⟩, b')) := by
  obtain ⟨head, s₁, start, room, body, hhead, hmax, hroom, hbody, hafter⟩ := read_iff.mp h
  obtain ⟨_, m₁, rfl, hhead'⟩ := InStream.readExactly_more hhead more m
  obtain ⟨_, m₂, rfl, hbody'⟩ := InStream.readExactly_more hbody more m₁
  exact ⟨m₂, read_iff.mpr ⟨head, _, start, room, body, hhead', hmax, hroom, hbody', hafter⟩⟩

/-- The first bytes of a stream that are no more than one frame, if the length in its header is to
be believed. -/
def WithinOne (taken : Bytes) : Prop :=
  taken.length ≤ headerLength + ofLittleEndian (taken.take headerLength)

theorem WithinOne.rest {c rest : Bytes} (h : WithinOne (encode c ++ rest))
    (hfit : c.length < UInt32.size) :
    rest = [] := by
  have hhead : (encode c ++ rest).take headerLength = header c := by
    rw [encode, List.append_assoc]
    exact List.take_left' (length_header c)
  rw [WithinOne, hhead, ofLittleEndian_header hfit, List.length_append, encode, List.length_append,
    length_header] at h
  exact List.eq_nil_of_length_eq_zero (by omega)

end ScreenLocker.Frame
