/-
What comes back over a connection is what look-ups give.

A request is the frame of a name. Its reply is the frame of what a look-up of the name
gives, or of four letters where there is nothing. No ruleset is written as these four
letters, because each begins with the key of one of its fields
(`Wire.encode_ne_notFound`), so whoever asks can tell the two apart
(`Fetch.answer_reply`). While the file stays the same the service gives the same for a
name whatever it was asked before (`Fetch.replies_eq`), and `Fetch.serve_names` is the
whole way, with the frames of both directions in any pieces.
-/
import PacketClassifier.Fetch
import PacketClassifier.Proofs.Frame
import PacketClassifier.Proofs.Service.Model

namespace PacketClassifier

/-! ### Rulesets and the four letters -/

theorem Varint.encode_of_lt {n : Nat} (h : n < 128) : encode n = [n.toUInt8] := by
  rw [encode, if_pos h]

namespace Wire

theorem encode_trafficKey : Key.encode ⟨1, .varint⟩ = [8] := by
  rw [Key.encode, Varint.encode_of_lt (by decide)]
  rfl

theorem encode_ruleKey : Key.encode ⟨2, .delimited⟩ = [18] := by
  rw [Key.encode, Varint.encode_of_lt (by decide)]
  rfl

/-- The first byte of a ruleset, if there is one, is the key of its traffic or of a rule. -/
theorem head?_encode (s : Ruleset) :
    (encode s).head? = none ∨ (encode s).head? = some 8 ∨ (encode s).head? = some 18 := by
  obtain ⟨traffic, rules⟩ := s
  cases traffic with
  | ipv6 =>
    have htraffic : plainField 1 (trafficCode .ipv6) = [8] ++ Varint.encode 1 := by
      rw [← encode_trafficKey]
      rfl
    right
    left
    rw [encode, htraffic]
    rfl
  | ipv4 =>
    -- The older traffic is the one that is left out, so a rule comes first.
    cases rules with
    | nil =>
      left
      rfl
    | cons r rules =>
      right
      right
      show (([] : Bytes) ++ (r :: rules).flatMap fun r =>
        bytesField 2 (encodeRule r)).head? = some 18
      rw [List.nil_append, List.flatMap_cons, bytesField, encode_ruleKey]
      rfl

theorem encode_ne_notFound (s : Ruleset) : encode s ≠ Fetch.notFound := by
  intro h
  have hletter : Fetch.notFound.head? = some 78 := rfl
  rw [← h] at hletter
  rcases head?_encode s with hs | hs | hs <;> simp [hs] at hletter

end Wire

namespace ModelService

variable {s : ModelService} {files : Files} {name : String} {ruleset : Bytes}

theorem lookup_ne_notFound (h : (s.lookup files name).1 = some ruleset) :
    ruleset ≠ Fetch.notFound := by
  obtain ⟨c, _, rfl⟩ := Option.map_eq_some_iff.mp h
  exact Wire.encode_ne_notFound c.ruleset

end ModelService

namespace Fetch

variable {files : Files}

/-- The payload that answers a name. -/
def reply (files : Files) (s : ModelService) (name : String) : Bytes :=
  (s.lookup files name).1.getD notFound

/-- A reply says what the look-up gave, of a ruleset without bytes too. -/
theorem answer_reply (files : Files) (s : ModelService) (name : String) :
    answer (reply files s name) = (s.lookup files name).1 := by
  rw [reply]
  cases hl : (s.lookup files name).1 with
  | none => exact if_pos rfl
  | some ruleset => exact if_neg (ModelService.lookup_ne_notFound hl)

theorem requestedName_ofString (name : String) :
    requestedName (Utf8.ofString name) = name := by
  rw [requestedName, Utf8.ofString, Utf8.decodeLossy_encode, String.ofList_toList]

/-! ### The service -/

theorem reply_refresh (files : Files) (s : ModelService) :
    reply files (s.refresh files) = reply files s := by
  funext name
  rw [reply, reply, ModelService.lookup_refresh]

/-- Requests are answered one by one as if each were the first. -/
theorem replies_eq (files : Files) (s : ModelService) (requests : List Bytes) :
    (replies files s requests).1
      = requests.map (fun request => reply files s (requestedName request))
      ∧ reply files (replies files s requests).2 = reply files s := by
  induction requests generalizing s with
  | nil => exact ⟨rfl, rfl⟩
  | cons request requests ih =>
    obtain ⟨hrest, hafter⟩ := ih (s.refresh files)
    rw [reply_refresh] at hrest hafter
    constructor
    · show reply files s (requestedName request)
        :: (replies files (s.refresh files) requests).1 = _
      rw [hrest, List.map_cons]
    · exact hafter

/-! ### The connection -/

theorem stream_of_mapM {payloads frames : List Bytes}
    (h : payloads.mapM Frame.encode = .ok frames) :
    stream payloads = frames.flatten := by
  induction payloads generalizing frames with
  | nil =>
    obtain rfl := Except.ok.inj h
    rfl
  | cons payload payloads ih =>
    rw [List.mapM_cons] at h
    cases hp : Frame.encode payload with
    | error fault =>
      rw [hp] at h
      cases h
    | ok bytes =>
      rw [hp, Steps.ok_bind] at h
      cases hps : payloads.mapM Frame.encode with
      | error fault =>
        rw [hps] at h
        cases h
      | ok rest =>
        rw [hps, Steps.ok_bind] at h
        obtain rfl := Except.ok.inj h
        rw [stream, hp, List.flatten_cons]
        exact congrArg (bytes ++ ·) (ih hps)

variable {s : ModelService} {names : List String}

theorem length_reply_le {name : String}
    (hr : ∀ ruleset, (s.lookup files name).1 = some ruleset →
      ruleset.length ≤ Frame.maxLength) :
    (reply files s name).length ≤ Frame.maxLength := by
  rw [reply]
  cases hl : (s.lookup files name).1 with
  | none => decide
  | some ruleset => exact hr ruleset hl

/-- The names that were sent are replied to in order, and nothing else is. -/
theorem replies_of_frames
    (hn : ∀ name ∈ names, (Utf8.ofString name).length ≤ Frame.maxLength) :
    ∃ frames, (names.map Utf8.ofString).mapM Frame.encode = .ok frames
      ∧ ∀ pieces : List Bytes, pieces.flatten = frames.flatten →
        (replies files s (requests pieces)).1 = names.map (reply files s)
          ∧ reply files (serve files s pieces).2 = reply files s := by
  obtain ⟨frames, hframes, hread⟩ := Frame.reading_frames (List.forall_mem_map.mpr hn)
  refine ⟨frames, hframes, fun pieces hp => ?_⟩
  have hrequests : requests pieces = names.map Utf8.ofString := by
    rw [← hp] at hread
    rw [requests, Frame.feed_of_reading hread]
  obtain ⟨hreplies, hafter⟩ := replies_eq files s (requests pieces)
  refine ⟨?_, hafter⟩
  rw [hreplies, hrequests, List.map_map]
  exact List.map_congr_left fun name _ =>
    congrArg (reply files s) (requestedName_ofString name)

/-- What is sent back holds the replies, if they are not too long. -/
theorem reading_serve (hn : ∀ name ∈ names, (Utf8.ofString name).length ≤ Frame.maxLength)
    (hr : ∀ name ∈ names, ∀ ruleset, (s.lookup files name).1 = some ruleset →
      ruleset.length ≤ Frame.maxLength) :
    ∃ frames, (names.map Utf8.ofString).mapM Frame.encode = .ok frames
      ∧ ∀ pieces : List Bytes, pieces.flatten = frames.flatten →
        Frame.reading (serve files s pieces).1 = ⟨names.map (reply files s), none, .fresh⟩
          ∧ reply files (serve files s pieces).2 = reply files s := by
  obtain ⟨frames, hframes, hreplies⟩ := @replies_of_frames files s names hn
  obtain ⟨answers, hanswers, hback⟩ :=
    Frame.reading_frames (List.forall_mem_map.mpr fun name hm => length_reply_le (hr name hm))
  refine ⟨frames, hframes, fun pieces hp => ?_⟩
  obtain ⟨hpayloads, hafter⟩ := hreplies pieces hp
  refine ⟨?_, hafter⟩
  show Frame.reading (stream (replies files s (requests pieces)).1) = _
  rw [hpayloads, stream_of_mapM hanswers, hback]

/-- Whoever asks for a single name gets what a look-up gives. -/
theorem fetch_eq {name : String} (hn : (Utf8.ofString name).length ≤ Frame.maxLength)
    (hr : ∀ ruleset, (s.lookup files name).1 = some ruleset →
      ruleset.length ≤ Frame.maxLength) :
    (fetch files s name).1 = .ok (s.lookup files name).1 := by
  obtain ⟨frames, hframes, hserve⟩ := reading_serve (List.forall_mem_singleton.mpr hn)
    (List.forall_mem_singleton.mpr hr)
  have hencode := Frame.encode_of_length_le hn
  rw [List.map_singleton, List.mapM_cons, hencode, Steps.ok_bind] at hframes
  obtain rfl := Except.ok.inj hframes
  obtain ⟨hread, _⟩ :=
    hserve [Frame.header (Utf8.ofString name).length ++ Utf8.ofString name] rfl
  rw [fetch, hencode]
  show (firstReply (serve files s [_]).1).map answer = _
  rw [firstReply, Frame.finish_of_reading hread]
  exact congrArg Except.ok (answer_reply files s name)

/-- **Fetching is looking up.** While the file stays the same, names that are not too long
are answered over one connection with what look-ups of them give, as long as no ruleset
among these is too long. The replies come in the order of the names, in whatever pieces
the bytes come in on either side, and say whether there is a ruleset and which. It is the
same if the names are fetched one by one. The four letters for a name that is not there
are the bytes of no ruleset. -/
theorem serve_names (files : Files) (s : ModelService) (names : List String)
    (hn : ∀ name ∈ names, (Utf8.ofString name).length ≤ Frame.maxLength)
    (hr : ∀ name ∈ names, ∀ ruleset, (s.lookup files name).1 = some ruleset →
      ruleset.length ≤ Frame.maxLength) :
    (∃ frames, (names.map Utf8.ofString).mapM Frame.encode = .ok frames
      ∧ ∀ pieces received : List Bytes, pieces.flatten = frames.flatten →
        received.flatten = (serve files s pieces).1 →
          ∃ payloads, Frame.Decoder.fresh.feed received = ⟨payloads, none, .fresh⟩
            ∧ payloads = names.map (fun name => (s.lookup files name).1.getD notFound)
            ∧ payloads.map answer = names.map (fun name => (s.lookup files name).1))
      ∧ (∀ name ∈ names, (fetch files s name).1 = .ok (s.lookup files name).1)
      ∧ ∀ ruleset, Wire.encode ruleset ≠ notFound := by
  refine ⟨?_, fun name hm => fetch_eq (hn name hm) (hr name hm), Wire.encode_ne_notFound⟩
  obtain ⟨frames, hframes, hserve⟩ := reading_serve hn hr
  refine ⟨frames, hframes, fun pieces received hp hreceived => ?_⟩
  obtain ⟨hread, _⟩ := hserve pieces hp
  rw [← hreceived] at hread
  refine ⟨_, Frame.feed_of_reading hread, rfl, ?_⟩
  rw [List.map_map]
  exact List.map_congr_left fun name _ => answer_reply files s name

/-- A service with a ruleset that has no bytes, and one under a name that is no ASCII. -/
def stocked : ModelService :=
  ⟨⟨false, ["cfg.json"]⟩, none,
    some ⟨[("g", ⟨.group, "g", .empty .ipv4⟩)],
      [("é", ⟨.classifier, "é", .empty .ipv6⟩)], []⟩, none⟩

/-- The frames of three names, cut in the middle of the second one. -/
def cutFrames : List Bytes := [[0, 0, 0, 0, 0], [0, 0, 1, 103, 0, 0, 0, 2, 195, 169]]

theorem serve_names_stocked :
    (∀ name ∈ ["", "g", "é"], (Utf8.ofString name).length ≤ Frame.maxLength)
      ∧ (∀ name ∈ ["", "g", "é"], ∀ ruleset, (stocked.lookup .empty name).1 = some ruleset →
        ruleset.length ≤ Frame.maxLength)
      ∧ ((fetch .empty stocked "").1 = .ok none ∧ (fetch .empty stocked "g").1 = .ok (some [])
        ∧ (fetch .empty stocked "é").1 = .ok (some [8, 1]))
      ∧ ∃ payloads, Frame.Decoder.fresh.feed [(serve .empty stocked cutFrames).1]
          = ⟨payloads, none, .fresh⟩
        ∧ payloads.map answer = [none, some [], some [8, 1]] := by
  have hnone : (stocked.lookup .empty "").1 = none := by cbv
  have hg : (stocked.lookup .empty "g").1 = some [] := by cbv
  have he : (stocked.lookup .empty "é").1 = some [8, 1] := by cbv
  have hn : ∀ name ∈ ["", "g", "é"],
    (Utf8.ofString name).length ≤ Frame.maxLength := by decide
  have hr : ∀ name ∈ ["", "g", "é"], ∀ ruleset,
      (stocked.lookup .empty name).1 = some ruleset →
        ruleset.length ≤ Frame.maxLength := by
    simp [hnone, hg, he, Frame.maxLength]
  obtain ⟨⟨frames, hframes, hserve⟩, hfetch, _⟩ :=
    serve_names .empty stocked ["", "g", "é"] hn hr
  have hencode : (["", "g", "é"].map Utf8.ofString).mapM Frame.encode
      = .ok [[0, 0, 0, 0], [0, 0, 0, 1, 103], [0, 0, 0, 2, 195, 169]] := by decide
  obtain rfl := Except.ok.inj (hframes.symm.trans hencode)
  obtain ⟨payloads, hfeed, _, hanswers⟩ :=
    hserve cutFrames [(serve .empty stocked cutFrames).1] rfl List.flatten_singleton
  refine ⟨hn, hr, ⟨?_, ?_, ?_⟩, payloads, hfeed, ?_⟩
  · rw [hfetch "" (by decide), hnone]
  · rw [hfetch "g" (by decide), hg]
  · rw [hfetch "é" (by decide), he]
  · simpa [hnone, hg, he] using hanswers

end Fetch

end PacketClassifier
