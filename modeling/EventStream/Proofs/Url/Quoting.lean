import EventStream.Proofs.Results
import EventStream.Proofs.Text.Bytes
import EventStream.Url.Quoting
import Mathlib.Data.List.TakeWhile
import Mathlib.Data.List.TakeDrop
import Mathlib.Data.Fintype.Basic

/-
# Quoted texts

What is quoted holds no separator of a URL, so it stays where it was put (`not_mem_of_quote`), and
it is read back as the text that was quoted (`unquote_of_quote`). Both hold byte by byte: a byte is
written without separators, and it is read back whatever follows it.
-/

namespace EventStream

namespace Utf8

theorem exists_chars_of_isScalar {t : Text} (plain : ∀ c ∈ t, c.isScalar = true) :
    ∃ cs, t = Text.ofChars cs := by
  induction t with
  | nil => exact ⟨[], rfl⟩
  | cons c t ih =>
      obtain ⟨cs, rfl⟩ := ih fun d later => plain d (List.mem_cons_of_mem c later)
      cases c with
      | scalar ch => exact ⟨ch :: cs, rfl⟩
      | surrogate i => exact nomatch plain _ List.mem_cons_self

theorem encode_of_plain {t : Text} (plain : t.dropWhile CodePoint.isScalar = []) :
    encode t = .ok (t.flatMap encodeOne) := by
  simp [encode, List.span_eq_takeWhile_dropWhile, plain]

theorem plain_of_encode {t : Text} {bytes : List UInt8} (written : encode t = .ok bytes) :
    t.dropWhile CodePoint.isScalar = [] := by
  cases rest : t.dropWhile CodePoint.isScalar with
  | nil => rfl
  | cons first others => simp [encode, List.span_eq_takeWhile_dropWhile, rest] at written

/-- The texts without surrogates are the ones that have bytes. -/
theorem encode_eq_ok_iff {t : Text} {bytes : List UInt8} :
    encode t = .ok bytes ↔ ∃ cs, t = Text.ofChars cs ∧ bytes = ofChars cs := by
  constructor
  · intro written
    have plain := plain_of_encode written
    obtain ⟨cs, rfl⟩ := exists_chars_of_isScalar (List.dropWhile_eq_nil_iff.mp plain)
    rw [encode_of_plain plain] at written
    exact ⟨cs, rfl, (Except.ok.inj written).symm⟩
  · rintro ⟨cs, rfl, rfl⟩
    have plain : (Text.ofChars cs).dropWhile CodePoint.isScalar = [] := by
      simp [List.dropWhile_eq_nil_iff, Text.ofChars, CodePoint.isScalar]
    exact encode_of_plain plain

end Utf8

namespace Url

/-! ## One byte -/

/-- The code points that part a URL, a path and a query. -/
def separators : Text := "/?#&="

theorem hexDigit_not_mem : ∀ n : Fin 16, hexDigit n ∉ separators := by decide

theorem hexValue?_hexDigit : ∀ n : Fin 16, hexValue? (hexDigit n) = some n.val := by decide

theorem toNat_scalar (b : UInt8) : (CodePoint.scalar (Char.ofNat b.toNat)).toNat = b.toNat := by
  have valid : b.toNat.isValidChar := .inl (Nat.lt_trans b.toNat_lt (by decide))
  rw [Char.ofNat, dif_pos valid]
  rfl

theorem not_isUnreserved : ∀ sep ∈ separators, isUnreserved sep.toNat.toUInt8 = false := by decide

/-- A byte that stands for itself has the number of no other mark. -/
theorem scalar_ne {b : UInt8} (plain : isUnreserved b = true) {c : CodePoint}
    (other : isUnreserved c.toNat.toUInt8 = false) : c ≠ .scalar (Char.ofNat b.toNat) := by
  rintro rfl
  rw [toNat_scalar, Utf8.toUInt8_eq rfl, plain] at other
  contradiction

/-- No byte is written with a separator. -/
theorem not_mem_quoteByte {sep : CodePoint} (separates : sep ∈ separators) (place : Place)
    (b : UInt8) : sep ∉ quoteByte place b := by
  unfold quoteByte
  split
  case isTrue plain => simpa using scalar_ne plain (not_isUnreserved sep separates)
  case isFalse =>
    have other {c : CodePoint} (quoting : c ∉ separators) : sep ≠ c := by
      rintro rfl
      exact quoting separates
    split
    case isTrue => simpa using other (by decide)
    case isFalse =>
      have high := other (hexDigit_not_mem ⟨b.toNat / 16, by have := b.toNat_lt; omega⟩)
      have low := other (hexDigit_not_mem ⟨b.toNat % 16, by omega⟩)
      simpa using ⟨other (by decide), high, low⟩

section

variable {place : Place} (t : Text)

theorem unquoteBytes_of_ne {c : CodePoint} (other : c ≠ .scalar '%') :
    unquoteBytes place (c :: t) =
      if place = .query && c = .scalar '+' then (unquoteBytes place t).map (32 :: ·)
      else if c.toNat < 128 then (unquoteBytes place t).map (c.toNat.toUInt8 :: ·)
      else none := by
  rw [unquoteBytes.eq_def]
  exact if_neg other

theorem unquoteBytes_percent {high low : CodePoint} {n m : Nat} (first : hexValue? high = some n)
    (second : hexValue? low = some m) : unquoteBytes place (.scalar '%' :: high :: low :: t) =
      (unquoteBytes place t).map ((n * 16 + m).toUInt8 :: ·) := by
  rw [unquoteBytes.eq_def]
  simp only [if_true, first, second]
  cases unquoteBytes place t <;> rfl

end

/-- A byte is read back, whatever follows it. -/
theorem unquoteBytes_quoteByte (place : Place) (b : UInt8) (rest : Text) :
    unquoteBytes place (quoteByte place b ++ rest) = (unquoteBytes place rest).map (b :: ·) := by
  unfold quoteByte
  split
  case isTrue plain =>
    have percent := (scalar_ne plain (c := .scalar '%') (by decide)).symm
    have plus := (scalar_ne plain (c := .scalar '+') (by decide)).symm
    have small : (CodePoint.scalar (Char.ofNat b.toNat)).toNat < 128 := by
      simp only [isUnreserved, Bool.or_eq_true, Bool.and_eq_true, decide_eq_true_eq] at plain
      rw [toNat_scalar]
      omega
    rw [List.singleton_append, unquoteBytes_of_ne rest percent, if_neg (by simp [plus]),
      if_pos small, toNat_scalar, Utf8.toUInt8_eq rfl]
  case isFalse =>
    split
    case isTrue space =>
      simp only [Bool.and_eq_true, decide_eq_true_eq] at space
      obtain ⟨rfl, rfl⟩ := space
      exact unquoteBytes_of_ne rest (by decide)
    case isFalse =>
      have high := hexValue?_hexDigit ⟨b.toNat / 16, by have := b.toNat_lt; omega⟩
      have low := hexValue?_hexDigit ⟨b.toNat % 16, by omega⟩
      have whole : (b.toNat / 16 * 16 + b.toNat % 16).toUInt8 = b := Utf8.toUInt8_eq (by omega)
      exact (unquoteBytes_percent rest high low).trans (by rw [whole])

/-! ## Texts -/

variable {place : Place} {t quoted : Text}

theorem unquoteBytes_flatMap (place : Place) (bytes : List UInt8) :
    unquoteBytes place (bytes.flatMap (quoteByte place)) = some bytes := by
  induction bytes with
  | nil => rfl
  | cons b bytes ih => rw [List.flatMap_cons, unquoteBytes_quoteByte, ih, Option.map_some]

/-- The texts without surrogates are the ones that can be quoted, byte by byte. -/
theorem quote_eq_ok_iff : quote place t = .ok quoted ↔
    ∃ cs, t = Text.ofChars cs ∧ quoted = (Utf8.ofChars cs).flatMap (quoteByte place) := by
  constructor
  · intro written
    obtain ⟨bytes, encoded, rfl⟩ := ok_of_map written
    obtain ⟨cs, rfl, rfl⟩ := Utf8.encode_eq_ok_iff.mp encoded
    exact ⟨cs, rfl, rfl⟩
  · rintro ⟨cs, rfl, rfl⟩
    rw [quote, Utf8.encode_eq_ok_iff.mpr ⟨cs, rfl, rfl⟩]
    rfl

/-- A text without surrogates can be quoted. -/
theorem exists_quote (place : Place) {t : Text} (plain : t.all CodePoint.isScalar) :
    ∃ quoted, quote place t = .ok quoted := by
  obtain ⟨cs, rfl⟩ := Utf8.exists_chars_of_isScalar (List.all_eq_true.mp plain)
  exact ⟨_, quote_eq_ok_iff.mpr ⟨cs, rfl, rfl⟩⟩

/-- A quoted text holds no separator. -/
theorem not_mem_of_quote {sep : CodePoint} (separates : sep ∈ separators)
    (written : quote place t = .ok quoted) : sep ∉ quoted := by
  obtain ⟨cs, -, rfl⟩ := quote_eq_ok_iff.mp written
  simp [not_mem_quoteByte separates]

/-- A quoted text is read back. -/
theorem unquote_of_quote (written : quote place t = .ok quoted) :
    unquote place quoted = some t := by
  obtain ⟨cs, rfl, rfl⟩ := quote_eq_ok_iff.mp written
  have reads : Utf8.decode (Utf8.ofChars cs) = .ok (Text.ofChars cs) := Utf8.decode_ofChars cs
  simp [unquote, unquoteBytes_flatMap, reads, Except.toOption]

end Url

end EventStream
