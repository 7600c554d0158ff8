/-
Frames: payloads on a stream, each behind its length.

A frame is four bytes of length, the most significant one first, and then the payload.
`Frame.encode` writes one. A `Frame.Decoder` is given the stream in pieces of any size and
hands out the payloads one after another; `Decoder.drain` takes out all that are complete.
A header that announces too much is an error, after which the decoder goes on behind that
header.
-/
import PacketClassifier.Error
import PacketClassifier.Sha256

namespace PacketClassifier

namespace Frame

/-- The length of the longest payload that is accepted. -/
def maxLength : Nat := 16777216

/-- The header of a payload of the given length. -/
def header (length : Nat) : Bytes :=
  [(length / 16777216).toUInt8, (length / 65536).toUInt8, (length / 256).toUInt8,
    length.toUInt8]

/-- The length that a header announces. -/
def lengthOf (a b c d : UInt8) : Nat :=
  a.toNat * 16777216 + b.toNat * 65536 + c.toNat * 256 + d.toNat

/-- The frame of a payload whose length fits a header. -/
def encode (payload : Bytes) : Except IoFault Bytes :=
  if payload.length < 4294967296 then .ok (header payload.length ++ payload)
  else .error .payloadTooLong

/-- What is read next. -/
inductive Phase where
  | header
  /-- The payload of a frame whose header announced its length. -/
  | payload (length : Nat)
  deriving DecidableEq, Repr

/-- A reader of frames. -/
structure Decoder where
  phase : Phase
  /-- What has come in and is not read yet. -/
  buffer : Bytes
  deriving DecidableEq, Repr

/-- What a look at the buffer found. -/
inductive Found where
  | frame (payload : Bytes)
  /-- The beginning of a frame at most. -/
  | incomplete
  | refused (fault : IoFault)
  deriving DecidableEq, Repr

namespace Decoder

/-- The decoder of a new stream. -/
def fresh : Decoder := ⟨.header, []⟩

/-- Appends what comes in. -/
def push (d : Decoder) (bs : Bytes) : Decoder := { d with buffer := d.buffer ++ bs }

/-- Reads a payload of known length, if all of it is there. -/
def takePayload (length : Nat) (buffer : Bytes) : Found × Decoder :=
  if buffer.length < length then (.incomplete, ⟨.payload length, buffer⟩)
  else (.frame (buffer.take length), ⟨.header, buffer.drop length⟩)

/-- Reads one frame. -/
def next (d : Decoder) : Found × Decoder :=
  match d.phase, d.buffer with
  | .payload length, buffer => takePayload length buffer
  | .header, a :: b :: c :: e :: rest =>
    let length := lengthOf a b c e
    if maxLength < length then (.refused (.frameTooLong length maxLength), ⟨.header, rest⟩)
    else takePayload length rest
  | .header, buffer => (.incomplete, ⟨.header, buffer⟩)

/-- What a decoder can still hand out; a header already read counts for the frame it
belongs to. -/
def weight (d : Decoder) : Nat :=
  match d.phase with
  | .header => d.buffer.length
  | .payload _ => d.buffer.length + 1

theorem takePayload_weight {length : Nat} {buffer payload : Bytes} {d : Decoder}
    (h : takePayload length buffer = (.frame payload, d)) : d.weight ≤ buffer.length := by
  unfold takePayload at h
  split at h
  · simp at h
  · obtain ⟨_, rfl⟩ := Prod.mk.inj h
    simp [weight]

/-- A frame that is handed out makes the decoder lighter. -/
theorem next_weight {d e : Decoder} {payload : Bytes} (h : d.next = (.frame payload, e)) :
    e.weight < d.weight := by
  obtain ⟨phase, buffer⟩ := d
  cases phase with
  | payload length => exact Nat.lt_succ_of_le (takePayload_weight h)
  | header =>
    match buffer, h with
    | a :: b :: c :: f :: rest, h =>
      simp only [next] at h
      split at h
      · simp at h
      · exact Nat.lt_of_le_of_lt (takePayload_weight h) (by simp [weight]; omega)
    | [], h | [_], h | [_, _], h | [_, _, _], h => simp [next] at h

/-- What reading everything there is brings. -/
structure Reading where
  frames : List Bytes
  /-- What ended the reading, if it was not the end of the buffer. -/
  fault : Option IoFault
  decoder : Decoder
  deriving DecidableEq, Repr

/-- Takes out every complete frame, up to the first one that is refused. -/
def drain (d : Decoder) : Reading :=
  match _h : d.next with
  | (.frame payload, e) =>
    let r := drain e
    ⟨payload :: r.frames, r.fault, r.decoder⟩
  | (.incomplete, e) => ⟨[], none, e⟩
  | (.refused fault, e) => ⟨[], some fault, e⟩
termination_by d.weight
decreasing_by exact next_weight ‹_›

/-- Takes in a stream piece by piece and takes out what is complete after each, up to the
first frame that is refused. -/
def feed (d : Decoder) : List Bytes → Reading
  | [] => ⟨[], none, d⟩
  | piece :: pieces =>
    let r := (d.push piece).drain
    match r.fault with
    | some _ => r
    | none =>
      let t := feed r.decoder pieces
      ⟨r.frames ++ t.frames, t.fault, t.decoder⟩

/-- Takes out every complete frame of a stream that has ended; bytes that are left are an
error. -/
def finish (d : Decoder) : Reading :=
  let r := d.drain
  if r.fault.isNone ∧ ¬ r.decoder.buffer.isEmpty then { r with fault := some .frameCutOff }
  else r

end Decoder

end Frame

end PacketClassifier
