import EventStream.Proofs.Sse.Chunking
import EventStream.Text.Lemmas

/-
# Bodies as they are written

A payload is written as a record: each of its lines in a `data` field, with comments and other
fields between them as the writer likes, and a blank line at the end. Records without a `data` field
may stand between those that carry payloads. Every line ends with a line feed or with a CRLF, as it
comes.

Whatever was written in this way is read back: the payloads, each once and in order, and nothing
is left over, however the network cuts the body. A payload must not hold a carriage return, for it
would be part of a line and could be taken for a line end; every other payload can be written, blank
lines and leading spaces included.
-/

namespace EventStream.Sse

/-! ## Lines -/

/-- A line of a record. -/
inductive Line where
  | data (value : Text)
  | comment (text : Text)
  | field (name : Text) (value : Option Text)

/-- No line end stands in a text. -/
def Unbroken (t : Text) : Prop := carriageReturn ∉ t ∧ lineFeed ∉ t

instance (t : Text) : Decidable (Unbroken t) :=
  inferInstanceAs (Decidable (carriageReturn ∉ t ∧ lineFeed ∉ t))

namespace Line

/-- A line as it is written. -/
def text : Line → Text
  | .data value => dataName ++ [colon, space] ++ value
  | .comment t => colon :: t
  | .field name none => name
  | .field name (some value) => name ++ colon :: value

/-- The part of a payload that a line carries. -/
def data? : Line → Option Text
  | .data value => some value
  | _ => none

/-- A line is one line, and a field that is not `data` has another name. -/
def Valid : Line → Prop
  | .data value => Unbroken value
  | .comment t => Unbroken t
  | .field name value => Unbroken name ∧ (∀ v ∈ value, Unbroken v) ∧ name ≠ [] ∧
      colon ∉ name ∧ name ≠ dataName

instance : DecidablePred Valid
  | .data value => inferInstanceAs (Decidable (Unbroken value))
  | .comment t => inferInstanceAs (Decidable (Unbroken t))
  | .field name value => inferInstanceAs (Decidable (Unbroken name ∧
      (∀ v ∈ value, Unbroken v) ∧ name ≠ [] ∧ colon ∉ name ∧ name ≠ dataName))

end Line

/-- How a line ends. -/
inductive LineEnd where
  | lf
  | crlf

/-- A line end as it is written. -/
def LineEnd.text : LineEnd → Text
  | .lf => [lineFeed]
  | .crlf => Sse.crlf

/-! ## Records -/

/-- A record: its lines, each with its line end, and the end of the blank line after them. -/
structure Record where
  lines : List (Line × LineEnd)
  blank : LineEnd
  lines_ne_nil : lines ≠ []
  valid : ∀ l ∈ lines, l.1.Valid

namespace Record

/-- A record as it is written. -/
def text (r : Record) : Text := r.lines.flatMap (fun l => l.1.text ++ l.2.text) ++ r.blank.text

/-- The lines of the payload. -/
def values (r : Record) : List Text := r.lines.filterMap fun l => l.1.data?

end Record

/-- Records that carry these payloads: each payload stands in one record, split into its lines, and
the other records carry nothing. -/
inductive Carry : List Record → List Text → Prop
  | done : Carry [] []
  | payload {r records p payloads} : r.values = Text.split lineFeed p → Carry records payloads →
      Carry (r :: records) (p :: payloads)
  | idle {r records payloads} : r.values = [] → Carry records payloads →
      Carry (r :: records) payloads

/-- A body as it is written. -/
def write (records : List Record) : Text := records.flatMap Record.text

/-! ## Reading lines -/

theorem unbroken_dataName : Unbroken dataName := by decide

theorem Line.Valid.unbroken {l : Line} (valid : l.Valid) : Unbroken l.text := by
  obtain ⟨noReturn, noFeed⟩ := unbroken_dataName
  cases l with
  | data value =>
      obtain ⟨clear, single⟩ := valid
      exact ⟨by simp [Line.text, noReturn, clear], by simp [Line.text, noFeed, single]⟩
  | comment t =>
      obtain ⟨clear, single⟩ := valid
      exact ⟨by simp [Line.text, clear], by simp [Line.text, single]⟩
  | field name value =>
      obtain ⟨⟨clear, single⟩, rest, -⟩ := valid
      cases value with
      | none => exact ⟨clear, single⟩
      | some v =>
          obtain ⟨clear', single'⟩ := rest v rfl
          exact ⟨by simp [Line.text, clear, clear'], by simp [Line.text, single, single']⟩

theorem Line.Valid.text_ne_nil {l : Line} (valid : l.Valid) : l.text ≠ [] := by
  cases l with
  | data => simp [Line.text]
  | comment => simp [Line.text]
  | field name value =>
      obtain ⟨-, -, named, -⟩ := valid
      cases value with
      | none => exact named
      | some => simp [Line.text]

/-- A line is read as what it was written for. -/
theorem dataValue?_text {l : Line} (valid : l.Valid) : dataValue? l.text = l.data? := by
  cases l with
  | data value =>
      have whole : dataName ++ [colon, space] ++ value = dataName ++ colon :: space :: value := by
        simp
      have cut := Text.cut_append (show colon ∉ dataName by decide) (space :: value)
      rw [Line.text, dataValue?, whole, cut]
      simp [Line.data?]
  | comment t =>
      rw [Line.text, dataValue?, Text.cut_cons_self]
      rfl
  | field name value =>
      obtain ⟨-, -, -, single, other⟩ := valid
      cases value with
      | none =>
          rw [Line.text, dataValue?, Text.cut_of_not_mem single]
          simp [other, Line.data?]
      | some v =>
          rw [Line.text, dataValue?, Text.cut_append single]
          simp [other, Line.data?]

/-! ## Reading records -/

theorem normalize_line {t : Text} (clear : carriageReturn ∉ t) (e : LineEnd) (rest : Text) :
    normalize (t ++ (e.text ++ rest)) = t ++ lineFeed :: normalize rest := by
  induction t with
  | nil =>
      cases e with
      | lf => exact normalize_cons_of_ne (by decide) rest
      | crlf => exact normalize_crlf rest
  | cons c t ih =>
      have other : c ≠ carriageReturn := fun same => clear (by simp [same])
      rw [List.cons_append, normalize_cons_of_ne other, ih fun found => clear (.tail c found)]
      rfl

theorem regular_line {t rest : Text} (clear : carriageReturn ∉ t) (e : LineEnd)
    (regular : Regular rest) : Regular (t ++ (e.text ++ rest)) := by
  induction t with
  | nil =>
      rintro found
      cases e with
      | lf =>
          rcases List.infix_cons_iff.mp found with ⟨u, begins⟩ | later
          · simp at begins
          · exact regular later
      | crlf =>
          rcases List.infix_cons_iff.mp found with ⟨u, begins⟩ | later
          · simp at begins
          · rcases List.infix_cons_iff.mp later with ⟨u, begins⟩ | later
            · simp at begins
            · exact regular later
  | cons c t ih =>
      have other : c ≠ carriageReturn := fun same => clear (by simp [same])
      intro found
      rcases List.infix_cons_iff.mp found with ⟨u, begins⟩ | later
      · exact other (List.cons.inj begins).1.symm
      · exact ih (fun found => clear (.tail c found)) later

theorem normalize_lines {lines : List (Line × LineEnd)} (valid : ∀ l ∈ lines, l.1.Valid)
    (rest : Text) :
    normalize (lines.flatMap (fun l => l.1.text ++ l.2.text) ++ rest) =
      lines.flatMap (fun l => l.1.text ++ [lineFeed]) ++ normalize rest := by
  induction lines with
  | nil => rfl
  | cons l lines ih =>
      have clear := (valid l List.mem_cons_self).unbroken.1
      simp only [List.flatMap_cons, List.append_assoc] at ih ⊢
      rw [normalize_line clear, ih fun l among => valid l (.tail _ among)]
      rfl

theorem regular_lines {lines : List (Line × LineEnd)} (valid : ∀ l ∈ lines, l.1.Valid)
    {rest : Text} (regular : Regular rest) :
    Regular (lines.flatMap (fun l => l.1.text ++ l.2.text) ++ rest) := by
  induction lines with
  | nil => exact regular
  | cons l lines ih =>
      have clear := (valid l List.mem_cons_self).unbroken.1
      simp only [List.flatMap_cons, List.append_assoc] at ih ⊢
      exact regular_line clear l.2 (ih fun l among => valid l (.tail _ among))

/-- A line that is followed by another belongs to the same record. -/
theorem cutRecords_line {l rest record : Text} {records : List Text} {pending : Text}
    (single : lineFeed ∉ l) (next : rest.head? ≠ some lineFeed)
    (cut : cutRecords rest = (record :: records, pending)) :
    cutRecords (l ++ lineFeed :: rest) = ((l ++ lineFeed :: record) :: records, pending) := by
  induction l with
  | nil =>
      rw [List.nil_append, cutRecords_cons, cut]
      · rfl
      · rintro u - rfl
        exact next rfl
  | cons c l ih =>
      have other : c ≠ lineFeed := fun same => single (by simp [same])
      rw [List.cons_append, cutRecords_cons fun _ same => absurd same other,
        ih fun found => single (.tail c found)]
      rfl

/-- A blank line after a line ends the record. -/
theorem cutRecords_lastLine {l : Text} (single : lineFeed ∉ l) (rest : Text) :
    cutRecords (l ++ lineFeed :: lineFeed :: rest) =
      (l :: (cutRecords rest).1, (cutRecords rest).2) := by
  induction l with
  | nil => exact cutRecords_blankLine rest
  | cons c l ih =>
      have other : c ≠ lineFeed := fun same => single (by simp [same])
      rw [List.cons_append, cutRecords_cons fun _ same => absurd same other,
        ih fun found => single (.tail c found)]

/-- Lines up to a blank line are one record. -/
theorem cutRecords_lines {lines : List Text} (some : lines ≠ [])
    (full : ∀ l ∈ lines, l ≠ [] ∧ lineFeed ∉ l) (rest : Text) :
    cutRecords (lines.flatMap (· ++ [lineFeed]) ++ lineFeed :: rest) =
      (Text.join [lineFeed] lines :: (cutRecords rest).1, (cutRecords rest).2) := by
  induction lines with
  | nil => contradiction
  | cons l lines ih =>
      obtain ⟨-, single⟩ := full l List.mem_cons_self
      cases lines with
      | nil =>
          rw [List.flatMap_singleton, List.append_assoc]
          exact cutRecords_lastLine single rest
      | cons m lines =>
          have cut := ih (by simp) fun l among => full l (.tail _ among)
          obtain ⟨written, single'⟩ := full m (by simp)
          have next : ((m :: lines).flatMap (· ++ [lineFeed]) ++ lineFeed :: rest).head? ≠
              Option.some lineFeed := by
            obtain ⟨c, m, rfl⟩ := List.exists_cons_of_ne_nil written
            simp only [List.flatMap_cons, List.cons_append, List.head?_cons, ne_eq,
              Option.some.injEq]
            rintro rfl
            exact single' List.mem_cons_self
          rw [List.flatMap_cons, Text.join_cons_cons, List.append_assoc, List.append_assoc,
            List.append_assoc]
          exact cutRecords_line single next cut

namespace Record

variable (r : Record)

/-- The lines of a record as they are written. -/
def texts : List Text := r.lines.map fun l => l.1.text

theorem unbroken_of_mem_texts {t : Text} (among : t ∈ r.texts) : t ≠ [] ∧ Unbroken t := by
  obtain ⟨l, written, rfl⟩ := List.mem_map.mp among
  exact ⟨(r.valid l written).text_ne_nil, (r.valid l written).unbroken⟩

theorem texts_ne_nil : r.texts ≠ [] := by simpa [texts] using r.lines_ne_nil

theorem normalize_text (rest : Text) :
    normalize (r.text ++ rest) =
      r.texts.flatMap (· ++ [lineFeed]) ++ lineFeed :: normalize rest := by
  have last := normalize_line (t := []) (by simp) r.blank rest
  simp only [List.nil_append] at last
  rw [text, List.append_assoc, normalize_lines r.valid, last, texts, List.flatMap_map]

theorem regular_text {rest : Text} (regular : Regular rest) : Regular (r.text ++ rest) := by
  rw [text, List.append_assoc]
  exact regular_lines r.valid (regular_line (t := []) (by simp) r.blank regular)

/-- What a record carries is read from its lines. -/
theorem payload?_texts :
    payload? (Text.join [lineFeed] r.texts) = match r.values with
      | [] => none
      | values => some (Text.join [lineFeed] values) := by
  have lines := Text.split_join r.texts_ne_nil fun l among => (r.unbroken_of_mem_texts among).2.2
  have values : r.texts.filterMap dataValue? = r.values := by
    rw [texts, List.filterMap_map]
    exact List.filterMap_congr fun l among => dataValue?_text (r.valid l among)
  calc payload? (Text.join [lineFeed] r.texts)
      = match (Text.split lineFeed (Text.join [lineFeed] r.texts)).filterMap dataValue? with
          | [] => none
          | values => some (Text.join [lineFeed] values) := rfl
    _ = _ := by rw [lines, values]

end Record

theorem regular_write (records : List Record) : Regular (write records) := by
  induction records with
  | nil => simp [Regular, write]
  | cons r records ih => exact r.regular_text ih

/-- A body that was written is cut into its records, and nothing is left over. -/
theorem cutRecords_write (records : List Record) :
    cutRecords (normalize (write records)) =
      (records.map fun r => Text.join [lineFeed] r.texts, []) := by
  induction records with
  | nil => rfl
  | cons r records ih =>
      have full : ∀ l ∈ r.texts, l ≠ [] ∧ lineFeed ∉ l := fun l among =>
        (r.unbroken_of_mem_texts among).imp_right And.right
      rw [write, List.flatMap_cons, r.normalize_text, cutRecords_lines r.texts_ne_nil full]
      rw [write] at ih
      rw [ih, List.map_cons]

theorem payloads_of_carry {records : List Record} {payloads : List Text}
    (carry : Carry records payloads) :
    (records.map fun r => Text.join [lineFeed] r.texts).filterMap payload? = payloads := by
  induction carry with
  | done => rfl
  | @payload r _ p _ values _ ih =>
      have read : payload? (Text.join [lineFeed] r.texts) = some p := by
        obtain ⟨first, later, split⟩ := Text.exists_split_eq_cons lineFeed p
        rw [r.payload?_texts, values, split, ← Text.join_split lineFeed p, split]
      rw [List.map_cons, List.filterMap_cons_some read, ih]
  | @idle r _ _ none _ ih =>
      rw [List.map_cons, List.filterMap_cons_none (by rw [r.payload?_texts, none]), ih]

/-! ## Writing payloads -/

/-- A payload in one record, with line feeds only. -/
def Record.ofPayload (p : Text) (clear : carriageReturn ∉ p) : Record where
  lines := (Text.split lineFeed p).map fun line => (.data line, .lf)
  blank := .lf
  lines_ne_nil := by simpa using Text.split_ne_nil lineFeed p
  valid := by
    intro l among
    obtain ⟨line, piece, rfl⟩ := List.mem_map.mp among
    exact ⟨fun found => clear (Text.mem_of_mem_split piece found), Text.not_mem_of_mem_split piece⟩

theorem values_ofPayload {p : Text} (clear : carriageReturn ∉ p) :
    (Record.ofPayload p clear).values = Text.split lineFeed p := by
  simp [Record.ofPayload, Record.values, List.filterMap_map, Line.data?]

theorem exists_carry {payloads : List Text} (clear : ∀ p ∈ payloads, carriageReturn ∉ p) :
    ∃ records, Carry records payloads := by
  induction payloads with
  | nil => exact ⟨[], .done⟩
  | cons p payloads ih =>
      obtain ⟨records, carry⟩ := ih fun p among => clear p (.tail _ among)
      exact ⟨_ :: records, .payload (values_ofPayload (clear p List.mem_cons_self)) carry⟩

/-- Payloads without carriage returns can be written, and whatever records carry them, and however
the written body is cut, they are read back, each once and in order, and nothing is left over. -/
theorem feedAll_write {payloads : List Text} (clear : ∀ p ∈ payloads, carriageReturn ∉ p) :
    (∃ records, Carry records payloads) ∧
      ∀ records, Carry records payloads → ∀ chunks : List Text, chunks.flatten = write records →
        Buffer.feedAll {} chunks = (payloads, {}) := by
  refine ⟨exists_carry clear, fun records carry chunks whole => ?_⟩
  have regular : Regular chunks.flatten := whole ▸ regular_write records
  rw [feedAll_eq_feed regular, whole, feed_eq, List.nil_append, cutRecords_write,
    payloads_of_carry carry]

/-- A record that keeps the connection open, a record with an empty payload, and one with a payload
of three lines; their line ends are mixed. -/
def mixed : List Record := [
  ⟨[(.comment " ping", .crlf)], .crlf, by decide, by decide⟩,
  ⟨[(.field "event" (some " x"), .lf), (.data [], .crlf)], .lf, by decide, by decide⟩,
  ⟨[(.data " a: 1", .crlf), (.comment [], .lf), (.data [], .lf), (.field "id" none, .crlf),
    (.data [], .crlf)], .crlf, by decide, by decide⟩]

/-- The mixed body, cut between the two halves of line ends and inside a blank line. -/
def mixedChunks : List Text := [": ping\r", "\n\r", "\nevent: x\nda", "ta: \r", [],
  "\n\ndata:  a: 1\r\n:\n", "data: \nid\r\ndata: \r", "\n\r", "\n"]

theorem feedAll_write_mixed : Carry mixed [[], " a: 1\n\n"] ∧
    mixedChunks.flatten = write mixed ∧
    Buffer.feedAll {} mixedChunks = ([[], " a: 1\n\n"], {}) := by
  have carry : Carry mixed [[], " a: 1\n\n"] :=
    .idle (by decide) (.payload (by decide) (.payload (by decide) .done))
  have whole : mixedChunks.flatten = write mixed := by decide
  exact ⟨carry, whole, (feedAll_write (by decide)).2 mixed carry mixedChunks whole⟩

end EventStream.Sse
