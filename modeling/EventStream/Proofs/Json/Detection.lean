import EventStream.Proofs.Json.Documents
import EventStream.Proofs.Text.Strict

/-
# The encoding of a table

The encoding of a binary document is told from its first bytes. A document that is a table begins
with two code points of ASCII, neither of them zero: a brace, spaces before it, and behind it a
space, a quote or the closing brace (`exists_start`). Written as UTF-8 it therefore has no zero
among its first two bytes and no mark either, and it is never taken for anything else
(`detect_eq_utf8`).
-/

namespace EventStream.Json

/-- A code point of ASCII other than zero. -/
def IsPlain (c : CodePoint) : Prop :=
  ∃ ch : Char, c = .scalar ch ∧ 0 < ch.toNat ∧ ch.toNat < 0x80

theorem isPlain_of_isSpace {c : CodePoint} (space : isSpace c = true) : IsPlain c := by
  simp only [isSpace, Bool.or_eq_true, decide_eq_true_eq] at space
  rcases space with ((rfl | rfl) | rfl) | rfl <;> exact ⟨_, rfl, by decide, by decide⟩

/-- Behind spaces comes a space or what follows them. -/
theorem exists_plain {s : Text} (blank : Blank s) {c : CodePoint} (plain : IsPlain c)
    (rest : Text) : ∃ d q, s ++ c :: rest = d :: q ∧ IsPlain d := by
  cases s with
  | nil => exact ⟨c, rest, rfl, plain⟩
  | cons d s => exact ⟨d, _, rfl, isPlain_of_isSpace (blank d List.mem_cons_self)⟩

theorem isPlain_quote : IsPlain (.scalar '"') := ⟨'"', rfl, by decide, by decide⟩

theorem isPlain_brace : IsPlain (.scalar '\x7b') ∧ IsPlain (.scalar '\x7d') :=
  ⟨⟨'\x7b', rfl, by decide, by decide⟩, '\x7d', rfl, by decide, by decide⟩

/-- No scalar is a table. -/
theorem not_scalar_table {p : Text} {t : Table} : ¬ Scalar p (.table t) := by
  rintro (word | number | number)
  · cases word
  · cases number
  · cases number

/-- A piece that writes a table begins with its brace, and what comes next is ASCII. -/
theorem exists_brace {depth : Nat} {p : Text} {t : Table} (writes : Writes depth p (.table t)) :
    ∃ c q, p = .scalar '\x7b' :: c :: q ∧ IsPlain c := by
  cases writes with
  | scalar scalar => exact absurd scalar not_scalar_table
  | emptyTable blank =>
      obtain ⟨c, q, next, plain⟩ := exists_plain blank isPlain_brace.2 []
      exact ⟨c, q, by rw [next], plain⟩
  | @table _ entries nonempty keyed _ =>
      obtain ⟨e, others, rfl⟩ := List.exists_cons_of_ne_nil nonempty
      obtain ⟨-, lead, -⟩ := keyed e List.mem_cons_self
      obtain ⟨tail, begins⟩ := commas_prefix e.line (others.map Entry.line)
      obtain ⟨c, q, next, plain⟩ := exists_plain lead isPlain_quote
        (e.quoted ++ [.scalar '"'] ++ (e.gap ++ .scalar ':' :: e.written))
      refine ⟨c, q ++ (tail ++ [.scalar '\x7d']), ?_, plain⟩
      have line : e.line = c :: q := next
      rw [List.map_cons, begins, line]
      simp

/-- A document that is a table begins with two code points of ASCII. -/
theorem exists_start {document : Text} {t : Table} (isDocument : Document document (.table t)) :
    ∃ a b q, document = a :: b :: q ∧ IsPlain a ∧ IsPlain b := by
  obtain ⟨before, piece, after, rfl, blank, -, writes⟩ := isDocument
  obtain ⟨c, q, rfl, plain⟩ := exists_brace writes
  match before, blank with
  | [], _ => exact ⟨_, c, _, rfl, isPlain_brace.1, plain⟩
  | [a], blank =>
      exact ⟨a, _, _, rfl, isPlain_of_isSpace (blank a List.mem_cons_self), isPlain_brace.1⟩
  | a :: b :: before, blank =>
      exact ⟨a, b, _, rfl, isPlain_of_isSpace (blank a (by simp)),
        isPlain_of_isSpace (blank b (by simp))⟩

/-- Such a code point is written as one byte, and that is not zero. -/
theorem encodeOne_of_isPlain {ch : Char} (plain : IsPlain (.scalar ch)) :
    ∃ b : UInt8, Utf8.encodeOne (.scalar ch) = [b] ∧ b ≠ 0 ∧ b < 0x80 := by
  obtain ⟨_, same, positive, small⟩ := plain
  obtain rfl := CodePoint.scalar.inj same
  have value := Utf8.toNat_toUInt8 (show ch.toNat < 256 by omega)
  refine ⟨ch.toNat.toUInt8, if_pos small, ?_, ?_⟩
  · intro zero
    rw [zero] at value
    exact absurd value.symm (by simpa using Nat.ne_of_gt positive)
  · rw [UInt8.lt_iff_toNat_lt, value]
    exact small

/-- No mark begins with a byte of ASCII other than zero. -/
theorem find?_marks {a : UInt8} (nonzero : a ≠ 0) (small : a < 0x80) (rest : List UInt8) :
    (marks.find? fun m => m.1.isPrefixOf (a :: rest)) = none := by
  have other (n : UInt8) (large : 0x80 ≤ n) : (n == a) = false := by
    rw [beq_eq_false_iff_ne]
    rintro rfl
    exact UInt8.not_lt.mpr large small
  simp [marks, List.find?, List.isPrefixOf, Ne.symm nonzero, other 0xFE (by decide),
    other 0xFF (by decide), other 0xEF (by decide)]

/-- Without a zero among the first two bytes there is no sign of wide code units. -/
theorem unmarked_eq_utf8 {a b : UInt8} (nonzero : a ≠ 0) (nonzero' : b ≠ 0) (rest : List UInt8) :
    unmarked (a :: b :: rest) = .utf8 := by
  unfold unmarked
  split <;> simp_all

/-- Bytes that begin with two bytes of ASCII, neither of them zero, are taken for UTF-8. -/
theorem detect_eq_utf8 {a b : UInt8} (nonzero : a ≠ 0) (small : a < 0x80) (nonzero' : b ≠ 0)
    (rest : List UInt8) : detect (a :: b :: rest) = (.utf8, 0) := by
  rw [detect, find?_marks nonzero small, unmarked_eq_utf8 nonzero nonzero']

/-- A document that is a table is read from its bytes as it is from its text. -/
theorem decodeBytes_ofChars {cs : List Char} {t : Table}
    (isDocument : Document (Text.ofChars cs) (.table t)) :
    decodeBytes (Utf8.ofChars cs) = .ok (Text.ofChars cs) := by
  obtain ⟨a, b, q, start, plain, plain'⟩ := exists_start isDocument
  obtain ⟨ch, cs, rfl, rfl, next⟩ := List.map_eq_cons_iff.mp start
  obtain ⟨ch', cs, rfl, rfl, -⟩ := List.map_eq_cons_iff.mp next
  obtain ⟨x, first, nonzero, small⟩ := encodeOne_of_isPlain plain
  obtain ⟨y, second, nonzero', -⟩ := encodeOne_of_isPlain plain'
  have bytes : Utf8.ofChars (ch :: ch' :: cs) = x :: y :: Utf8.ofChars cs := by
    show Utf8.encodeOne (.scalar ch) ++ (Utf8.encodeOne (.scalar ch') ++ Utf8.ofChars cs) = _
    rw [first, second]
    rfl
  have reads := Utf8.decodeLenient_of_decode (Utf8.decode_ofChars (ch :: ch' :: cs))
  have detects : detect (Utf8.ofChars (ch :: ch' :: cs)) = (.utf8, 0) := by
    rw [bytes]
    exact detect_eq_utf8 nonzero small nonzero' _
  rw [← Utf8.ofChars] at reads
  simp only [decodeBytes, detects, List.drop_zero, reads]

end EventStream.Json
