import EventStream.Session.Basic
import EventStream.Proofs.Json.Causes

/-
# Frames that are decoded

No frame is an error of the subscription. The decoder lists the kinds of faults that it expects, and
nothing else may come out of what it calls: out of the document reader whatever is wrong with a
frame, and out of the three records whatever stands in a table. So each list is held against all the
faults that can be raised below it (`expected_of_load`, `expected_of_record`), and decoding always
ends in an event or in a discarded frame (`exists_result`).

Which of the two it is, the frame decides alone: a JSON frame has an event exactly if it is a
document, the document is a table, and the model reads the table as a record.
-/

namespace EventStream

/-! ## Documents in frames -/

namespace Json

/-- The frames that hold a document: a text without a byte order mark, and the bytes of a text. -/
inductive Loads : Value → Value → Prop
  | text {t : Text} {v : Value} : t.head? ≠ some mark → Document t v → Loads (.text t) v
  | bytes {b : List UInt8} {t : Text} {v : Value} : decodeBytes b = .ok t → Document t v →
      Loads (.bytes b) v

theorem loadText_eq_ok_iff {t : Text} {v : Value} : loadText t = .ok v ↔ Document t v :=
  mapError_eq_ok_iff.trans parse_eq_ok_iff

theorem load_eq_ok_iff {frame v : Value} : load frame = .ok v ↔ Loads frame v := by
  constructor
  · intro loads
    unfold load at loads
    split at loads
    case h_1 t =>
      split at loads
      case isTrue => contradiction
      case isFalse unmarked => exact .text unmarked (loadText_eq_ok_iff.mp loads)
    case h_2 b =>
      obtain ⟨t, decodes, parses⟩ := ok_of_bind loads
      exact .bytes (mapError_eq_ok_iff.mp decodes) (loadText_eq_ok_iff.mp parses)
    case h_3 => contradiction
  · intro loads
    cases loads with
    | text unmarked document =>
        rw [load, if_neg unmarked]
        exact loadText_eq_ok_iff.mpr document
    | bytes decodes document =>
        rw [load, mapError_eq_ok_iff.mpr decodes]
        exact loadText_eq_ok_iff.mpr document

end Json

namespace FrameDecoder

/-! ## Faults that are expected -/

/-- What may only fail with faults of some kinds. -/
def Expected {α : Type} (kinds : List FaultKind) (x : Except Fault α) : Prop :=
  FailsAs (fun f => f.isOneOf kinds = true) x

theorem expected_of_parse (t : Text) : Expected expectedOfDocument (Json.loadText t) := by
  intro f raised
  obtain ⟨e, refused, rfl⟩ := error_of_mapError raised
  rcases (Json.proper_of_parse t e refused).kind with kind | kind | kind <;>
    simp [Json.ParseError.toFault, kind, Fault.isOneOf, expectedOfDocument, FaultKind.isA,
      FaultKind.parent?]

/-- Everything that can be wrong with a document is expected. -/
theorem expected_of_load (frame : Value) : Expected expectedOfDocument (Json.load frame) := by
  unfold Json.load
  split
  · split
    · exact .error rfl
    · exact expected_of_parse _
  · apply FailsAs.bind _ expected_of_parse
    intro f raised
    obtain ⟨e, -, rfl⟩ := error_of_mapError raised
    rfl
  · exact .error rfl

/-- Everything that can be wrong with a record is expected. -/
theorem expected_of_record (m : EventModel) (t : Table) :
    Expected expectedOfRecord ((m.read t).mapError EventError.toFault) := by
  intro f raised
  obtain ⟨e, -, rfl⟩ := error_of_mapError raised
  cases e with
  | missing => rfl
  | coercion e => cases e <;> rfl
  | unknownAction => rfl

theorem expected_of_text (b : List UInt8) :
    Expected expectedOfText ((Utf8.decode b).mapError Utf8.DecodeError.toFault) := by
  intro f raised
  obtain ⟨e, -, rfl⟩ := error_of_mapError raised
  rfl

/-! ## Results of decoding -/

section

variable {α β : Type} {kinds : List FaultKind} {discard : Fault → Discard} {x : Except Fault α}

/-- Nothing is let through where only expected faults can be raised. -/
theorem run_attempt (expected : Expected kinds x) :
    (attempt kinds discard x).run = .ok (x.mapError discard) := by
  cases x with
  | ok a => rfl
  | error f =>
      rw [attempt, if_pos (expected f rfl)]
      rfl

/-- Where both parts let nothing through, the whole does not either. -/
theorem run_bind {x : Decoding α} {f : α → Decoding β} {result : Except Discard α}
    {next : α → Except Discard β} (first : x.run = .ok result)
    (second : ∀ a, (f a).run = .ok (next a)) : (x >>= f).run = .ok (result.bind next) := by
  show (x.run >>= ExceptT.bindCont f) = _
  rw [first]
  cases result with
  | error d => rfl
  | ok a => exact second a

end

/-- What a document is taken for: a table, or a reason to discard the frame. -/
def tableOf : Value → Except Discard Table
  | .table t => .ok t
  | v => .error (.notTable v.kindName)

theorem tableOf_eq_ok_iff {v : Value} {t : Table} : tableOf v = .ok t ↔ v = .table t := by
  cases v <;> simp [tableOf]

theorem run_decodeTable (frame : Value) :
    (decodeTable frame).run = .ok (((Json.load frame).mapError .malformed).bind tableOf) := by
  apply run_bind (run_attempt (expected_of_load frame))
  intro v
  cases v <;> rfl

/-- What becomes of a table: itself without a model, otherwise the record as which it is read. -/
def recordOf : Option EventModel → Table → Except Discard Event
  | none, t => .ok (.table t)
  | some m, t => ((m.read t).mapError EventError.toFault).mapError (.rejected m)

theorem run_json (model : Option EventModel) (frame : Value) :
    ((json model).decode frame).run =
      .ok ((((Json.load frame).mapError .malformed).bind tableOf).bind (recordOf model)) := by
  cases model with
  | none =>
      rw [decode, map_eq_pure_bind]
      exact run_bind (run_decodeTable frame) fun t => rfl
  | some m => exact run_bind (run_decodeTable frame) fun t => run_attempt (expected_of_record m t)

/-- Decoding ends with an event or with a discarded frame, whatever the frame is. -/
theorem exists_result (d : FrameDecoder) (frame : Value) :
    ∃ result, (d.decode frame).run = .ok result := by
  cases d with
  | json model => exact ⟨_, run_json model frame⟩
  | text =>
      obtain ⟨result, run⟩ : ∃ result, (decodeText frame).run = .ok result := by
        unfold decodeText
        split
        · exact ⟨_, rfl⟩
        · exact ⟨_, run_attempt (expected_of_text _)⟩
        · exact ⟨_, run_attempt (.error rfl)⟩
      rw [decode, map_eq_pure_bind]
      exact ⟨_, run_bind run fun t => rfl⟩

/-- What becomes of a table that a decoder accepts: the table itself without a model, and otherwise
the record as which the model reads it. -/
def Accepts : Option EventModel → Table → Event → Prop
  | none, t, e => e = .table t
  | some m, t, e => m.read t = .ok e

theorem recordOf_eq_ok_iff {model : Option EventModel} {t : Table} {e : Event} :
    recordOf model t = .ok e ↔ Accepts model t e := by
  cases model with
  | none =>
      constructor
      · exact fun same => (Except.ok.inj same).symm
      · exact fun same => congrArg Except.ok same.symm
  | some m => exact mapError_eq_ok_iff.trans mapError_eq_ok_iff

theorem event?_eq_some_iff {d : FrameDecoder} {frame : Value} {e : Event} :
    d.event? frame = some e ↔ (d.decode frame).run = .ok (.ok e) := by
  unfold event?
  split
  case h_1 e' run => simp [run]
  case h_2 other =>
    constructor
    · nofun
    · exact fun run => absurd run (other e)

/-- A JSON frame has an event exactly if it holds a document that is a table, and the table is
accepted; the event is what becomes of the table. -/
theorem event?_json_iff {model : Option EventModel} {frame : Value} {e : Event} :
    (json model).event? frame = some e ↔ ∃ t, Json.Loads frame (.table t) ∧ Accepts model t e := by
  rw [event?_eq_some_iff, run_json]
  constructor
  · intro run
    obtain ⟨t, isTable, becomes⟩ := ok_of_bind (Except.ok.inj run)
    obtain ⟨v, loads, same⟩ := ok_of_bind isTable
    rw [tableOf_eq_ok_iff] at same
    rw [mapError_eq_ok_iff, Json.load_eq_ok_iff, same] at loads
    exact ⟨t, loads, recordOf_eq_ok_iff.mp becomes⟩
  · rintro ⟨t, loads, accepts⟩
    rw [Json.load_eq_ok_iff.mpr loads]
    exact congrArg Except.ok (recordOf_eq_ok_iff.mpr accepts)

/-- JSON decoding never raises: whatever the frame is, a decoder ends with an event or discards the
frame. It ends with an event exactly if the frame holds a document that is a table and the model, if
there is one, accepts the table. -/
theorem json_decodes_or_discards (model : Option EventModel) (frame : Value) :
    (∃ result, ((json model).decode frame).run = .ok result) ∧
      ∀ e, (json model).event? frame = some e ↔
        ∃ t, Json.Loads frame (.table t) ∧ Accepts model t e :=
  ⟨exists_result (json model) frame, fun _ => event?_json_iff⟩

end FrameDecoder

end EventStream
