import EventStream.Proofs.Frame.Decoding
import EventStream.Proofs.Json.Detection

/-
# Frames of text and frames of bytes

The same message may arrive as text or as its UTF-8 bytes, and the two go different ways through a
decoder. The text decoder takes a text as it is and reads bytes strictly; the JSON decoder has to
find out first how the bytes are encoded. It makes no difference: whatever event a text has, its
bytes have as well.

A text with a lone surrogate has no bytes, so a text is a string here.
-/

namespace EventStream.FrameDecoder

/-! ## Text frames -/

theorem event?_text (t : Text) : text.event? (.text t) = some (.text t) := rfl

theorem event?_text_bytes_iff {bytes : List UInt8} {e : Event} :
    text.event? (.bytes bytes) = some e ↔ ∃ t, Utf8.decode bytes = .ok t ∧ e = .text t := by
  have run : (text.decode (.bytes bytes)).run =
      .ok ((((Utf8.decode bytes).mapError Utf8.DecodeError.toFault).mapError .undecodable).bind
        fun t => .ok (.text t)) := by
    rw [decode, map_eq_pure_bind]
    exact run_bind (run_attempt (expected_of_text bytes)) fun t => rfl
  rw [event?_eq_some_iff, run]
  constructor
  · intro same
    obtain ⟨t, reads, becomes⟩ := ok_of_bind (Except.ok.inj same)
    rw [mapError_eq_ok_iff, mapError_eq_ok_iff] at reads
    exact ⟨t, reads, (Except.ok.inj becomes).symm⟩
  · rintro ⟨t, reads, rfl⟩
    rw [reads]
    rfl

/-- The bytes of a string are read as that string. -/
theorem event?_text_ofChars (cs : List Char) :
    text.event? (.bytes (Utf8.ofChars cs)) = some (.text (Text.ofChars cs)) :=
  event?_text_bytes_iff.mpr ⟨_, Utf8.decode_ofChars cs, rfl⟩

/-- Bytes are discarded exactly if they are not strict UTF-8. -/
theorem event?_text_eq_none_iff {bytes : List UInt8} :
    text.event? (.bytes bytes) = none ↔ ¬ Utf8.Strict bytes := by
  rw [Option.eq_none_iff_forall_ne_some, Utf8.strict_iff]
  constructor
  · rintro none ⟨cs, rfl⟩
    exact none _ (event?_text_ofChars cs)
  · intro notStrict e event
    obtain ⟨t, reads, -⟩ := event?_text_bytes_iff.mp event
    obtain ⟨cs, -, written⟩ := Utf8.decode_eq_ok_iff.mp reads
    exact notStrict ⟨cs, written⟩

-- A surrogate that is written as three bytes is not strict.
example : text.event? (.bytes [0xED, 0xA0, 0x80]) = none := by decide +kernel

/-! ## JSON frames -/

/-- Whatever event a text has, its bytes have as well. -/
theorem event?_json_ofChars {model : Option EventModel} {cs : List Char} {e : Event}
    (event : (json model).event? (.text (Text.ofChars cs)) = some e) :
    (json model).event? (.bytes (Utf8.ofChars cs)) = some e := by
  obtain ⟨t, loads, accepts⟩ := event?_json_iff.mp event
  cases loads with
  | text _ document =>
      exact event?_json_iff.mpr ⟨t, .bytes (Json.decodeBytes_ofChars document) document, accepts⟩

/-- Text and binary frames agree. The text decoder answers a string for the string itself and for
its UTF-8 bytes, and discards bytes exactly if they are not strict UTF-8; a JSON decoder answers for
the UTF-8 bytes of a string every event that it answers for the string. -/
theorem binary_frames_agree (s : String) (bytes : List UInt8) :
    (text.event? (.text s) = some (.text s) ∧
      text.event? (.bytes s.toUTF8.data.toList) = some (.text s)) ∧
    (text.event? (.bytes bytes) = none ↔ ¬ Utf8.Strict bytes) ∧
    ∀ (model : Option EventModel) (e : Event), (json model).event? (.text s) = some e →
      (json model).event? (.bytes s.toUTF8.data.toList) = some e := by
  rw [← Utf8.ofChars_toList]
  refine ⟨⟨event?_text s, event?_text_ofChars s.toList⟩, event?_text_eq_none_iff, ?_⟩
  intro model e event
  exact event?_json_ofChars event

/-- A record with a letter that takes two bytes. -/
theorem binary_frames_agree_umlaut :
    (json (some .stream)).event? (.text "\x7b\"type\": \"ö\"\x7d") =
        some (.stream { type := .text "ö" }) ∧
      (json (some .stream)).event? (.bytes "\x7b\"type\": \"ö\"\x7d".toUTF8.data.toList) =
        some (.stream { type := .text "ö" }) := by
  have event : (json (some .stream)).event? (.text "\x7b\"type\": \"ö\"\x7d") =
      some (.stream { type := .text "ö" }) := by
    decide +kernel
  exact ⟨event, (binary_frames_agree "\x7b\"type\": \"ö\"\x7d" []).2.2 (some .stream) _ event⟩

end EventStream.FrameDecoder
