/-
Which frames that are written can be read.

A payload has a frame if its length fits the header. Whoever reads the frame accepts far
shorter payloads only, so there are frames that are written and refused
(`Frame.encode_tooLong`). `Frame.next_of_encode` says which ones, and what comes of a
look-up whose ruleset is so long: the service sends it, and whoever asked for it gets a
failure.
-/
import PacketClassifier.Proofs.Fetch

namespace PacketClassifier

namespace Frame

/-- What a frame is found to be is a matter of the length that its header announces. -/
theorem next_frame {payload : Bytes} (h : payload.length < 4294967296) :
    (Decoder.fresh.push (header payload.length ++ payload)).next =
      if maxLength < payload.length then
        (.refused (.frameTooLong payload.length maxLength), ⟨.header, payload⟩)
      else (.frame payload, .fresh) := by
  show (if maxLength < lengthOf _ _ _ _
    then (.refused (.frameTooLong (lengthOf _ _ _ _) maxLength), _)
    else Decoder.takePayload (lengthOf _ _ _ _) payload) = _
  rw [lengthOf_header h, Decoder.takePayload, if_neg (Nat.lt_irrefl _), List.take_length,
    List.drop_length]
  rfl

theorem encode_eq_ok_iff {payload bytes : Bytes} :
    encode payload = .ok bytes ↔ payload.length < 4294967296
      ∧ header payload.length ++ payload = bytes := by
  rw [encode]
  split
  · rename_i hl
    rw [Except.ok.injEq]
    exact (and_iff_right hl).symm
  · rename_i hl
    constructor
    · intro h
      cases h
    · rintro ⟨hfits, _⟩
      exact absurd hfits hl

end Frame

namespace Fetch

variable {files : Files} {s : ModelService} {name : String} {ruleset : Bytes}

/-- The service sends the ruleset of a name in one frame, if there can be one. -/
theorem serve_name (hn : (Utf8.ofString name).length ≤ Frame.maxLength)
    (hl : (s.lookup files name).1 = some ruleset) {request bytes : Bytes}
    (hr : Frame.encode (Utf8.ofString name) = .ok request)
    (hb : Frame.encode ruleset = .ok bytes) :
    (serve files s [request]).1 = bytes := by
  obtain ⟨frames, hframes, hreplies⟩ :=
    @replies_of_frames files s [name] (List.forall_mem_singleton.mpr hn)
  rw [List.map_singleton, List.mapM_cons, hr, Steps.ok_bind] at hframes
  obtain rfl : [request] = frames := Except.ok.inj hframes
  obtain ⟨hpayloads, _⟩ := hreplies [request] rfl
  have hreply : reply files s name = ruleset := by
    rw [reply, hl]
    rfl
  show stream (replies files s (requests [request])).1 = bytes
  rw [hpayloads, List.map_singleton, hreply, stream, hb]
  exact List.append_nil bytes

/-- A ruleset that is too long for a reader but has a frame is sent in vain. -/
theorem fetch_of_long (hn : (Utf8.ofString name).length ≤ Frame.maxLength)
    (hl : (s.lookup files name).1 = some ruleset) (hlong : Frame.maxLength < ruleset.length)
    (hfits : ruleset.length < 4294967296) :
    (fetch files s name).1 = .error (.frameTooLong ruleset.length Frame.maxLength) := by
  have hbytes : Frame.encode ruleset = .ok (Frame.header ruleset.length ++ ruleset) :=
    Frame.encode_eq_ok_iff.mpr ⟨hfits, rfl⟩
  have hrequest := Frame.encode_of_length_le hn
  have hserve := serve_name hn hl hrequest hbytes
  have hnext := Frame.next_frame hfits
  rw [if_pos hlong] at hnext
  rw [fetch, hrequest]
  show (firstReply (serve files s [_]).1).map answer = _
  rw [hserve, firstReply, Frame.Decoder.finish, Frame.Decoder.drain_of_refused hnext]
  rfl

end Fetch

namespace Frame

/-- **Not every frame that is written can be read.** A frame that was written holds its
payload, which is handed out if it is not too long for a reader. A longer one is refused,
and its bytes are taken for frames of their own. So whoever asks for a ruleset that the
service has a frame for gets it if it is not too long, and a failure otherwise. -/
theorem next_of_encode {payload bytes : Bytes} (h : encode payload = .ok bytes) :
    (payload.length ≤ maxLength → (Decoder.fresh.push bytes).next = (.frame payload, .fresh))
      ∧ (maxLength < payload.length →
        (Decoder.fresh.push bytes).next = (.refused (.frameTooLong payload.length maxLength),
          ⟨.header, payload⟩))
      ∧ ∀ (files : Files) (s : ModelService) (name : String),
          (Utf8.ofString name).length ≤ maxLength →
        (s.lookup files name).1 = some payload →
          (Fetch.fetch files s name).1
            = if payload.length ≤ maxLength then .ok (some payload)
              else .error (.frameTooLong payload.length maxLength) := by
  obtain ⟨hfits, rfl⟩ := encode_eq_ok_iff.mp h
  refine ⟨fun hle => ?_, fun hlt => ?_, fun files s name hn hl => ?_⟩
  · rw [next_frame hfits, if_neg (Nat.not_lt.mpr hle)]
  · rw [next_frame hfits, if_pos hlt]
  · split
    · rename_i hle
      have hr : ∀ ruleset, (s.lookup files name).1 = some ruleset →
          ruleset.length ≤ maxLength := by
        intro ruleset hs
        rw [hl] at hs
        rwa [← Option.some.inj hs]
      rw [Fetch.fetch_eq hn hr, hl]
    · rename_i hle
      exact Fetch.fetch_of_long hn hl (Nat.lt_of_not_le hle) hfits

theorem next_of_encode_letters :
    encode [104, 105] = .ok [0, 0, 0, 2, 104, 105]
      ∧ (Decoder.fresh.push [0, 0, 0, 2, 104, 105]).next = (.frame [104, 105], .fresh) := by
  have he : encode [104, 105] = .ok [0, 0, 0, 2, 104, 105] := by decide
  exact ⟨he, (next_of_encode he).1 (by decide)⟩

/-- The shortest payload that is too long for a reader. -/
def tooLong : Bytes := List.replicate 16777217 0

/-- Its frame is written all the same, and refused. -/
theorem encode_tooLong :
    (∃ bytes, encode tooLong = .ok bytes
        ∧ (Decoder.fresh.push bytes).next = (.refused (.frameTooLong 16777217 16777216),
            ⟨.header, tooLong⟩))
      ∧ ¬ ∀ payload bytes, encode payload = .ok bytes →
          (Decoder.fresh.push bytes).next.1 = .frame payload := by
  have hlen : tooLong.length = 16777217 := List.length_replicate
  have hfits : tooLong.length < 4294967296 := by omega
  have hlong : maxLength < tooLong.length := by
    rw [hlen]
    decide
  have he := encode_eq_ok_iff.mpr ⟨hfits, rfl⟩
  have hnext := next_frame hfits
  rw [if_pos hlong] at hnext
  constructor
  · refine ⟨_, he, ?_⟩
    rw [hnext, hlen]
    rfl
  · intro hall
    have hframe := hall _ _ he
    rw [hnext] at hframe
    cases hframe

end Frame

end PacketClassifier
