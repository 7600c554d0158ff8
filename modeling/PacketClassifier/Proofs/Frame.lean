/-
Frames do not depend on the pieces in which a stream arrives.

`Frame.reading` says what a whole stream holds, without a decoder: four bytes of length,
then as many bytes of payload, and so on up to a length that is too large or to bytes that
are no complete frame.

* `Decoder.drain_push`: bytes that come in later do not change what was handed out before;
* `Decoder.feed_agrees`: a stream in pieces is handed out like the stream as a whole;
* `drain_fresh`: what a decoder hands out of a whole stream is what the stream holds;
* `reading_frames`: the frames of payloads hold these payloads and nothing else.
-/
import PacketClassifier.Frame
import PacketClassifier.Proofs.Except

namespace PacketClassifier

namespace Frame

/-- The number that bytes stand for, the most significant one first. -/
def bigEndian (bs : Bytes) : Nat := bs.foldl (fun n b => n * 256 + b.toNat) 0

/-- What a stream holds: its payloads, the length that ended them if one was too large,
and what is left. -/
def reading (stream : Bytes) : Decoder.Reading :=
  if stream.length < 4 then ⟨[], none, ⟨.header, stream⟩⟩
  else
    let length := bigEndian (stream.take 4)
    let rest := stream.drop 4
    if maxLength < length then ⟨[], some (.frameTooLong length maxLength), ⟨.header, rest⟩⟩
    else if rest.length < length then ⟨[], none, ⟨.payload length, rest⟩⟩
    else
      let r := reading (rest.drop length)
      ⟨rest.take length :: r.frames, r.fault, r.decoder⟩
termination_by stream.length
decreasing_by
  simp only [List.length_drop]
  omega

namespace Decoder

theorem push_nil (d : Decoder) : d.push [] = d := by
  show (⟨d.phase, d.buffer ++ []⟩ : Decoder) = d
  rw [List.append_nil]

theorem push_push (d : Decoder) (bs cs : Bytes) :
    (d.push bs).push cs = d.push (bs ++ cs) := by
  show (⟨d.phase, d.buffer ++ bs ++ cs⟩ : Decoder) = ⟨d.phase, d.buffer ++ (bs ++ cs)⟩
  rw [List.append_assoc]

/-! ### One look at the buffer -/

/-- What a look finds once more bytes have come in. A header that was complete has been
taken off by then, so only an incomplete frame is looked for again. -/
def lookAgain (later : Bytes) : Found × Decoder → Found × Decoder
  | (.incomplete, e) => (e.push later).next
  | (found, e) => (found, e.push later)

theorem takePayload_append (length : Nat) (buffer later : Bytes) :
    takePayload length (buffer ++ later) = lookAgain later (takePayload length buffer) := by
  by_cases hl : buffer.length < length
  · have hshort : takePayload length buffer = (.incomplete, ⟨.payload length, buffer⟩) := by
      rw [takePayload, if_pos hl]
    rw [hshort]
    rfl
  · have hle : length ≤ buffer.length := Nat.le_of_not_lt hl
    have hlong : ¬ (buffer ++ later).length < length := by
      rw [List.length_append]
      omega
    rw [takePayload, if_neg hlong, takePayload, if_neg hl, List.take_append_of_le_length hle,
      List.drop_append_of_le_length hle]
    rfl

theorem next_push (d : Decoder) (later : Bytes) :
    (d.push later).next = lookAgain later d.next := by
  obtain ⟨phase, buffer⟩ := d
  cases phase with
  | payload length => exact takePayload_append length buffer later
  | header =>
    match buffer with
    | [] | [_] | [_, _] | [_, _, _] => rfl
    | a :: b :: c :: e :: rest =>
      show (if maxLength < lengthOf a b c e then _
        else takePayload (lengthOf a b c e) (rest ++ later))
        = lookAgain later (if maxLength < lengthOf a b c e then _
            else takePayload (lengthOf a b c e) rest)
      by_cases hm : maxLength < lengthOf a b c e
      · rw [if_pos hm, if_pos hm]
        rfl
      · rw [if_neg hm, if_neg hm]
        exact takePayload_append _ rest later

/-! ### Everything that is there -/

variable {d e : Decoder}

theorem drain_eq (d : Decoder) : d.drain =
    match d.next with
    | (.frame payload, e) => ⟨payload :: e.drain.frames, e.drain.fault, e.drain.decoder⟩
    | (.incomplete, e) => ⟨[], none, e⟩
    | (.refused fault, e) => ⟨[], some fault, e⟩ := by
  rw [drain]
  split <;> rename_i h <;> rw [h]

theorem drain_of_frame {payload : Bytes} (h : d.next = (.frame payload, e)) :
    d.drain = ⟨payload :: e.drain.frames, e.drain.fault, e.drain.decoder⟩ := by
  rw [drain_eq, h]

theorem drain_of_incomplete (h : d.next = (.incomplete, e)) : d.drain = ⟨[], none, e⟩ := by
  rw [drain_eq, h]

theorem drain_of_refused {fault : IoFault} (h : d.next = (.refused fault, e)) :
    d.drain = ⟨[], some fault, e⟩ := by
  rw [drain_eq, h]

/-- What is handed out when a decoder that was read to its end gets more bytes. -/
def Reading.further (r : Reading) (later : Bytes) : Reading :=
  match r.fault with
  | some fault => ⟨r.frames, some fault, r.decoder.push later⟩
  | none =>
    let t := (r.decoder.push later).drain
    ⟨r.frames ++ t.frames, t.fault, t.decoder⟩

/-- Bytes that come in later do not change what was handed out before. -/
theorem drain_push (d : Decoder) (later : Bytes) :
    (d.push later).drain = d.drain.further later := by
  have hnext := next_push d later
  -- The recursion of `drain`: each frame that is handed out leaves a lighter decoder.
  induction d using drain.induct with
  | case1 d payload e h ih =>
    rw [h] at hnext
    rw [drain_of_frame hnext, drain_of_frame h, ih (next_push e later), Reading.further,
      Reading.further]
    cases e.drain.fault <;> rfl
  | case2 d e h =>
    rw [h] at hnext
    rw [drain_of_incomplete h, drain_eq, hnext]
    exact (drain_eq (e.push later)).symm
  | case3 d fault e h =>
    rw [h] at hnext
    rw [drain_of_refused h, drain_of_refused hnext]
    rfl

/-- A decoder that was read to its end hands out nothing more. -/
theorem drain_drain (h : d.drain.fault = none) :
    d.drain.decoder.drain = ⟨[], none, d.drain.decoder⟩ := by
  have hp := drain_push d []
  rw [push_nil, Reading.further, h, push_nil] at hp
  have hframes := congrArg (fun r => r.frames.length) hp
  have hfault := congrArg Reading.fault hp
  have hdecoder := congrArg Reading.decoder hp
  simp only [List.length_append] at hframes hfault hdecoder
  have hnil : d.drain.decoder.drain.frames = [] := List.length_eq_zero_iff.mp (by omega)
  cases hr : d.drain.decoder.drain with
  | mk frames fault decoder =>
    rw [hr] at hnil hfault hdecoder
    rw [hdecoder, ← h, hfault]
    exact congrArg (fun frames => (⟨frames, fault, decoder⟩ : Reading)) hnil

/-- Whether two readings bring the same frames and end alike. What is left behind a frame
that was refused does not count. -/
structure Reading.Agrees (r s : Reading) : Prop where
  frames : r.frames = s.frames
  fault : r.fault = s.fault
  decoder : s.fault = none → r.decoder = s.decoder

theorem Reading.Agrees.eq {r s : Reading} (h : r.Agrees s) (hs : s.fault = none) : r = s := by
  cases r
  cases s
  rw [Reading.mk.injEq]
  exact ⟨h.frames, h.fault, h.decoder hs⟩

theorem Reading.Agrees.symm {r s : Reading} (h : r.Agrees s) : s.Agrees r :=
  ⟨h.frames.symm, h.fault.symm, fun hr => (h.decoder (h.fault ▸ hr)).symm⟩

theorem Reading.Agrees.trans {r s t : Reading} (h : r.Agrees s) (h' : s.Agrees t) :
    r.Agrees t :=
  ⟨h.frames.trans h'.frames, h.fault.trans h'.fault,
    fun ht => (h.decoder (h'.fault.trans ht)).trans (h'.decoder ht)⟩

/-- A decoder with nothing to hand out takes a stream in pieces like the stream as a whole. -/
theorem feed_agrees {d : Decoder} (hd : d.drain = ⟨[], none, d⟩) (pieces : List Bytes) :
    (d.feed pieces).Agrees (d.push pieces.flatten).drain := by
  induction pieces generalizing d with
  | nil =>
    rw [List.flatten_nil, push_nil, hd]
    exact ⟨rfl, rfl, fun _ => rfl⟩
  | cons piece pieces ih =>
    rw [List.flatten_cons, ← push_push, drain_push, feed, Reading.further]
    cases hf : (d.push piece).drain.fault with
    | some fault => exact ⟨rfl, hf, fun hn => nomatch hn⟩
    | none =>
      -- The decoder that is left has nothing to hand out, so the other pieces follow by
      -- the induction.
      obtain ⟨hframes, hfault, hdecoder⟩ := ih (drain_drain hf)
      exact ⟨congrArg ((d.push piece).drain.frames ++ ·) hframes, hfault, hdecoder⟩

end Decoder

/-! ### Streams as a whole -/

theorem bigEndian_take_four (a b c d : UInt8) (rest : Bytes) :
    bigEndian ((a :: b :: c :: d :: rest).take 4) = lengthOf a b c d := by
  show (((0 * 256 + a.toNat) * 256 + b.toNat) * 256 + c.toNat) * 256 + d.toNat = _
  rw [lengthOf]
  omega

theorem reading_cons (a b c d : UInt8) (rest : Bytes) : reading (a :: b :: c :: d :: rest) =
    if maxLength < lengthOf a b c d then
      ⟨[], some (.frameTooLong (lengthOf a b c d) maxLength), ⟨.header, rest⟩⟩
    else if rest.length < lengthOf a b c d then
      ⟨[], none, ⟨.payload (lengthOf a b c d), rest⟩⟩
    else
      let r := reading (rest.drop (lengthOf a b c d))
      ⟨rest.take (lengthOf a b c d) :: r.frames, r.fault, r.decoder⟩ := by
  have hlen : ¬ (a :: b :: c :: d :: rest).length < 4 := by
    simp only [List.length_cons]
    omega
  rw [reading, if_neg hlen, bigEndian_take_four]
  rfl

/-- A decoder hands out what a stream holds. -/
theorem drain_fresh (stream : Bytes) :
    (Decoder.fresh.push stream).drain = reading stream := by
  show Decoder.drain ⟨.header, stream⟩ = _
  induction hn : stream.length using Nat.strongRecOn generalizing stream with
  | ind n ih =>
    match stream, hn with
    | [], _ | [_], _ | [_, _], _ | [_, _, _], _ =>
      rw [reading]
      exact Decoder.drain_of_incomplete rfl
    | a :: b :: c :: d :: rest, hn =>
      have hnext : Decoder.next ⟨.header, a :: b :: c :: d :: rest⟩
          = if maxLength < lengthOf a b c d then
              (.refused (.frameTooLong (lengthOf a b c d) maxLength), ⟨.header, rest⟩)
            else Decoder.takePayload (lengthOf a b c d) rest := rfl
      rw [reading_cons]
      by_cases hm : maxLength < lengthOf a b c d
      · rw [if_pos hm] at hnext ⊢
        exact Decoder.drain_of_refused hnext
      · rw [if_neg hm] at hnext ⊢
        rw [Decoder.takePayload] at hnext
        by_cases hl : rest.length < lengthOf a b c d
        · rw [if_pos hl] at hnext ⊢
          exact Decoder.drain_of_incomplete hnext
        · rw [if_neg hl] at hnext ⊢
          -- What is left behind the payload is shorter than the stream.
          have hshort : (rest.drop (lengthOf a b c d)).length < n := by
            simp only [List.length_cons] at hn
            rw [List.length_drop]
            omega
          rw [Decoder.drain_of_frame hnext, ih _ hshort _ rfl]

theorem lengthOf_header {length : Nat} (h : length < 4294967296) :
    lengthOf (length / 16777216).toUInt8 (length / 65536).toUInt8
      (length / 256).toUInt8 length.toUInt8 = length := by
  rw [lengthOf, UInt8.toNat_ofNat', UInt8.toNat_ofNat', UInt8.toNat_ofNat',
    UInt8.toNat_ofNat']
  omega

theorem reading_frame {payload : Bytes} (h : payload.length ≤ maxLength) (rest : Bytes) :
    reading (header payload.length ++ payload ++ rest)
      = ⟨payload :: (reading rest).frames, (reading rest).fault, (reading rest).decoder⟩ := by
  have hm : maxLength < 4294967296 := by decide
  have hlong : ¬ (payload ++ rest).length < payload.length := by
    rw [List.length_append]
    omega
  rw [header, List.append_assoc]
  show reading (_ :: _ :: _ :: _ :: (payload ++ rest)) = _
  rw [reading_cons, lengthOf_header (by omega), if_neg (by omega), if_neg hlong,
    List.take_left, List.drop_left]

theorem encode_of_length_le {payload : Bytes} (h : payload.length ≤ maxLength) :
    encode payload = .ok (header payload.length ++ payload) := by
  have hm : maxLength < 4294967296 := by decide
  rw [encode, if_pos (by omega)]

/-- Payloads that are not too long all have frames, and the frames hold these payloads and
nothing else. -/
theorem reading_frames {payloads : List Bytes}
    (h : ∀ payload ∈ payloads, payload.length ≤ maxLength) :
    ∃ frames, payloads.mapM encode = .ok frames
      ∧ reading frames.flatten = ⟨payloads, none, .fresh⟩ := by
  induction payloads with
  | nil => exact ⟨[], rfl, by rw [reading]; rfl⟩
  | cons payload payloads ih =>
    have hp : payload.length ≤ maxLength := h payload List.mem_cons_self
    obtain ⟨frames, hframes, hread⟩ := ih fun p hm => h p (List.mem_cons_of_mem _ hm)
    refine ⟨(header payload.length ++ payload) :: frames, ?_, ?_⟩
    · rw [List.mapM_cons, encode_of_length_le hp, Steps.ok_bind, hframes, Steps.ok_bind]
      rfl
    · rw [List.flatten_cons, reading_frame hp, hread]

/-- A fresh decoder hands out what the pieces of a stream hold together. -/
theorem feed_of_reading {pieces payloads : List Bytes} {d : Decoder}
    (h : reading pieces.flatten = ⟨payloads, none, d⟩) :
    Decoder.fresh.feed pieces = ⟨payloads, none, d⟩ := by
  have hagrees :=
    Decoder.feed_agrees (Decoder.drain_of_incomplete rfl : Decoder.fresh.drain = _) pieces
  rw [drain_fresh, h] at hagrees
  exact hagrees.eq rfl

theorem finish_of_reading {stream : Bytes} {payloads : List Bytes}
    (h : reading stream = ⟨payloads, none, .fresh⟩) :
    (Decoder.fresh.push stream).finish = ⟨payloads, none, .fresh⟩ := by
  rw [Decoder.finish, drain_fresh, h]
  rfl

/-- **Pieces do not matter.** A stream that comes in pieces is handed out like the stream
as a whole: the same payloads in the same order, the same failure, and unless there was
one the same decoder is left; and this is what the stream holds. So the frames of payloads
that are not too long, in whatever pieces they come in, are handed out as these payloads,
and nothing is left of them. -/
theorem feed_pieces (pieces : List Bytes) :
    ((Decoder.fresh.feed pieces).Agrees (Decoder.fresh.feed [pieces.flatten])
        ∧ (Decoder.fresh.feed pieces).Agrees (reading pieces.flatten))
      ∧ ∀ payloads : List Bytes, (∀ payload ∈ payloads, payload.length ≤ maxLength) →
        ∃ frames, payloads.mapM encode = .ok frames
          ∧ (pieces.flatten = frames.flatten →
              Decoder.fresh.feed pieces = ⟨payloads, none, .fresh⟩) := by
  have hfresh : Decoder.fresh.drain = ⟨[], none, .fresh⟩ := Decoder.drain_of_incomplete rfl
  have hreading : ∀ ps : List Bytes, (Decoder.fresh.feed ps).Agrees (reading ps.flatten) := by
    intro ps
    rw [← drain_fresh]
    exact Decoder.feed_agrees hfresh ps
  refine ⟨⟨?_, hreading pieces⟩, ?_⟩
  · have hwhole := hreading [pieces.flatten]
    rw [List.flatten_singleton] at hwhole
    exact (hreading pieces).trans hwhole.symm
  · intro payloads hp
    obtain ⟨frames, hframes, hread⟩ := reading_frames hp
    refine ⟨frames, hframes, ?_⟩
    intro he
    have hagrees := hreading pieces
    rw [he, hread] at hagrees
    exact hagrees.eq rfl

/-- Cuts within a header, within a payload and behind everything, and a frame with nothing
in it. -/
theorem feed_pieces_cut_anywhere :
    (∀ payload ∈ ([[104, 105], []] : List Bytes), payload.length ≤ maxLength)
      ∧ Decoder.fresh.feed [[0, 0], [0, 2, 104], [105, 0, 0, 0], [], [0]]
          = ⟨[[104, 105], []], none, .fresh⟩ := by
  have hp : ∀ payload ∈ ([[104, 105], []] : List Bytes), payload.length ≤ maxLength := by
    decide
  obtain ⟨frames, hframes, hfeed⟩ :=
    (feed_pieces [[0, 0], [0, 2, 104], [105, 0, 0, 0], [], [0]]).2 _ hp
  have hencode : [[104, 105], []].mapM encode
      = .ok [[0, 0, 0, 2, 104, 105], [0, 0, 0, 0]] := by decide
  obtain rfl := Except.ok.inj (hframes.symm.trans hencode)
  exact ⟨hp, hfeed rfl⟩

end Frame

end PacketClassifier
