import EventStream.Proofs.Text.Bytes
import EventStream.Proofs.Results

/-
# Strict UTF-8

Bytes are strict UTF-8 if they fall into sequences of which each has the form of one code point and
is the shortest one for the number that it names, and that number is a scalar value: no surrogate,
and not above U+10FFFF. The form says how many bytes begin with which bits; nothing here looks at
the ranges that the reader checks.

These are the bytes of the texts without surrogates (`strict_iff`), so they are also what the strict
reader reads. A reader that is lenient with surrogates reads them no differently
(`decodeLenient_of_decode`).
-/

namespace EventStream.Utf8

/-! ## Sequences -/

/-- A byte that continues a sequence. -/
def Continues (b : UInt8) : Prop := b.toNat / 64 = 0b10

/-- The sequences that have the form of one code point, with the number that they name. -/
inductive Form : List UInt8 → Nat → Prop
  | one {a : UInt8} : a.toNat / 128 = 0b0 → Form [a] a.toNat
  | two {a b : UInt8} : a.toNat / 32 = 0b110 → Continues b →
      Form [a, b] (a.toNat % 32 * 64 + b.toNat % 64)
  | three {a b c : UInt8} : a.toNat / 16 = 0b1110 → Continues b → Continues c →
      Form [a, b, c] (a.toNat % 16 * 4096 + b.toNat % 64 * 64 + c.toNat % 64)
  | four {a b c d : UInt8} : a.toNat / 8 = 0b11110 → Continues b → Continues c → Continues d →
      Form [a, b, c, d]
        (a.toNat % 8 * 262144 + b.toNat % 64 * 4096 + c.toNat % 64 * 64 + d.toNat % 64)

/-- The least number of bytes in which a number can be written. -/
def width (n : Nat) : Nat :=
  if n < 0x80 then 1 else if n < 0x800 then 2 else if n < 0x10000 then 3 else 4

/-- Whether a number is that of a scalar value. -/
def IsScalar (n : Nat) : Prop := ¬ (0xD800 ≤ n ∧ n ≤ 0xDFFF) ∧ n ≤ 0x10FFFF

theorem IsScalar.range {n : Nat} (scalar : IsScalar n) :
    n < 0xD800 ∨ 0xDFFF < n ∧ n < 0x110000 := by
  simp only [IsScalar] at scalar
  omega

/-- Strict UTF-8. -/
inductive Strict : List UInt8 → Prop
  | nil : Strict []
  | cons {sequence rest : List UInt8} {n : Nat} : Form sequence n → sequence.length = width n →
      IsScalar n → Strict rest → Strict (sequence ++ rest)

theorem form_encodeOne (c : Char) : Form (encodeOne (.scalar c)) c.toNat ∧
    (encodeOne (.scalar c)).length = width c.toNat := by
  have range := toNat_range c
  obtain ⟨n, number⟩ : ∃ n, c.toNat = n := ⟨_, rfl⟩
  simp only [encodeOne, CodePoint.toNat, number] at range ⊢
  have low (k : Nat) : (0x80 + k % 64).toUInt8.toNat = 0x80 + k % 64 := toNat_toUInt8 (by omega)
  have continues (k : Nat) : Continues (0x80 + k % 64).toUInt8 := by
    rw [Continues, low]
    omega
  rcases Nat.lt_or_ge n 0x80 with small | two
  · have lead := toNat_toUInt8 (show n < 256 by omega)
    have form : Form [n.toUInt8] _ := .one (by omega)
    rw [lead] at form
    simpa [width, small] using form
  rcases Nat.lt_or_ge n 0x800 with small | three
  · have lead := toNat_toUInt8 (show 0xC0 + n / 64 < 256 by omega)
    have form := Form.two (a := (0xC0 + n / 64).toUInt8) (by omega) (continues n)
    have whole : (0xC0 + n / 64) % 32 * 64 + (0x80 + n % 64) % 64 = n := by omega
    rw [lead, low, whole] at form
    simpa [width, Nat.not_lt.mpr two, small] using form
  rcases Nat.lt_or_ge n 0x10000 with small | four
  · have lead := toNat_toUInt8 (show 0xE0 + n / 4096 < 256 by omega)
    have form := Form.three (a := (0xE0 + n / 4096).toUInt8) (by omega) (continues (n / 64))
      (continues n)
    have whole : (0xE0 + n / 4096) % 16 * 4096 + (0x80 + n / 64 % 64) % 64 * 64 +
        (0x80 + n % 64) % 64 = n := by
      omega
    rw [lead, low, low, whole] at form
    simpa [width, Nat.not_lt.mpr two, Nat.not_lt.mpr three, small] using form
  · have lead := toNat_toUInt8 (show 0xF0 + n / 262144 < 256 by omega)
    have form := Form.four (a := (0xF0 + n / 262144).toUInt8) (by omega) (continues (n / 4096))
      (continues (n / 64)) (continues n)
    have whole : (0xF0 + n / 262144) % 8 * 262144 + (0x80 + n / 4096 % 64) % 64 * 4096 +
        (0x80 + n / 64 % 64) % 64 * 64 + (0x80 + n % 64) % 64 = n := by
      omega
    rw [lead, low, low, low, whole] at form
    simpa [width, Nat.not_lt.mpr two, Nat.not_lt.mpr three, Nat.not_lt.mpr four] using form

/-- The shortest form of a scalar value is the one that is written. -/
theorem encodeOne_of_form {sequence : List UInt8} {c : Char} {n : Nat} (form : Form sequence n)
    (shortest : sequence.length = width n) (number : c.toNat = n) (scalar : n ≤ 0x10FFFF) :
    encodeOne (.scalar c) = sequence := by
  have size : ∀ b : UInt8, b.toNat < 256 := fun b => b.toNat_lt
  simp only [encodeOne, CodePoint.toNat, number]
  cases form with
  | @one a lead =>
      rw [if_pos (by omega), toUInt8_eq (b := a) rfl]
  | @two a b lead second =>
      simp only [Continues] at second
      simp only [width, List.length_cons, List.length_nil] at shortest
      have least : ¬ a.toNat % 32 * 64 + b.toNat % 64 < 0x80 := by grind
      rw [if_neg least, if_pos (by omega), toUInt8_eq (b := a) (by omega),
        toUInt8_eq (b := b) (by omega)]
  | @three a b c lead second third =>
      simp only [Continues] at second third
      simp only [width, List.length_cons, List.length_nil] at shortest
      have least : ¬ a.toNat % 16 * 4096 + b.toNat % 64 * 64 + c.toNat % 64 < 0x800 := by grind
      rw [if_neg (by omega), if_neg least, if_pos (by omega), toUInt8_eq (b := a) (by omega),
        toUInt8_eq (b := b) (by omega), toUInt8_eq (b := c) (by omega)]
  | @four a b c d lead second third fourth =>
      simp only [Continues] at second third fourth
      simp only [width, List.length_cons, List.length_nil] at shortest
      have least : ¬ a.toNat % 8 * 262144 + b.toNat % 64 * 4096 + c.toNat % 64 * 64 +
          d.toNat % 64 < 0x10000 := by
        grind
      rw [if_neg (by omega), if_neg (by omega), if_neg least, toUInt8_eq (b := a) (by omega),
        toUInt8_eq (b := b) (by omega), toUInt8_eq (b := c) (by omega),
        toUInt8_eq (b := d) (by omega)]

/-! ## Texts -/

/-- Strict UTF-8 is what texts without surrogates are written as. -/
theorem strict_iff {bytes : List UInt8} : Strict bytes ↔ ∃ cs, bytes = ofChars cs := by
  constructor
  · intro strict
    induction strict with
    | nil => exact ⟨[], rfl⟩
    | cons form shortest scalar _ ih =>
        obtain ⟨cs, rfl⟩ := ih
        obtain ⟨c, -, number⟩ := exists_codePoint scalar.range
        refine ⟨c :: cs, ?_⟩
        rw [← encodeOne_of_form form shortest number scalar.2]
        rfl
  · rintro ⟨cs, rfl⟩
    induction cs with
    | nil => exact .nil
    | cons c cs ih =>
        obtain ⟨form, shortest⟩ := form_encodeOne c
        have scalar : IsScalar c.toNat := by
          have range := toNat_range c
          simp only [IsScalar]
          omega
        exact .cons form shortest scalar ih

theorem encodeOne_eq_utf8EncodeChar (c : Char) :
    encodeOne (.scalar c) = String.utf8EncodeChar c := by
  have range := toNat_range c
  have same : c.val.toNat = c.toNat := rfl
  obtain ⟨n, number⟩ : ∃ n, c.toNat = n := ⟨_, rfl⟩
  simp only [encodeOne, CodePoint.toNat, String.utf8EncodeChar, same, number] at range ⊢
  have byte {k l : Nat} (equal : k = l) : k.toUInt8 = UInt8.ofNat l := congrArg UInt8.ofNat equal
  rcases Nat.lt_or_ge n 0x80 with small | two
  · rw [if_pos small, if_pos (by omega), byte rfl]
  rcases Nat.lt_or_ge n 0x800 with small | three
  · rw [if_neg (by omega), if_pos small, if_neg (by omega), if_pos (by omega),
      byte (by omega : 0xC0 + n / 64 = n / 64 % 32 + 192),
      byte (by omega : 0x80 + n % 64 = n % 64 + 128)]
  rcases Nat.lt_or_ge n 0x10000 with small | four
  · rw [if_neg (by omega), if_neg (by omega), if_pos small, if_neg (by omega), if_neg (by omega),
      if_pos (by omega), byte (by omega : 0xE0 + n / 4096 = n / 4096 % 16 + 224),
      byte (by omega : 0x80 + n / 64 % 64 = n / 64 % 64 + 128),
      byte (by omega : 0x80 + n % 64 = n % 64 + 128)]
  · rw [if_neg (by omega), if_neg (by omega), if_neg (by omega), if_neg (by omega),
      if_neg (by omega), if_neg (by omega),
      byte (by omega : 0xF0 + n / 262144 = n / 262144 % 8 + 240),
      byte (by omega : 0x80 + n / 4096 % 64 = n / 4096 % 64 + 128),
      byte (by omega : 0x80 + n / 64 % 64 = n / 64 % 64 + 128),
      byte (by omega : 0x80 + n % 64 = n % 64 + 128)]

/-- A string is written as the bytes that it has anyway. -/
theorem ofChars_toList (s : String) : ofChars s.toList = s.toUTF8.data.toList := by
  rw [String.toUTF8_eq_toByteArray, ← String.utf8Encode_toList, List.utf8Encode,
    List.data_toByteArray, ofChars, Text.ofChars, List.flatMap_map]
  exact congrArg s.toList.flatMap (funext encodeOne_eq_utf8EncodeChar)

/-! ## Leniency -/

/-- A sequence that is read strictly is no surrogate, so leniency makes no difference to it. -/
theorem scanLenient_of_scan {lead : UInt8} {rest : List UInt8} {c : CodePoint} {n : Nat}
    (scans : scan lead rest = .ok (c, n)) : scanLenient lead rest = .ok (c, n) := by
  unfold scanLenient
  split
  case h_1 b third rest =>
    split
    case isFalse => exact scans
    case isTrue continues =>
      obtain ⟨-, continues⟩ := Bool.and_eq_true_iff.mp continues
      by_cases second : isSecond 0xED b = true
      · have strict : scan 0xED (b :: third :: rest) =
            .ok (codePoint (0xD000 + bits b * 64 + bits third), 2) := by
          simp [scan, second, continues]
        rw [← strict, scans]
      · have refused : scan 0xED (b :: third :: rest) = .error (.continuation 1) := by
          simp [scan, second]
        rw [refused] at scans
        contradiction
  case h_2 => exact scans

theorem decodeWith_scanLenient {position : Nat} {bytes : List UInt8} {t : Text}
    (reads : decodeWith scan position bytes = .ok t) :
    decodeWith scanLenient position bytes = .ok t := by
  fun_induction decodeWith scan position bytes generalizing t with
  | case1 =>
      rw [decodeWith]
      exact reads
  | case2 => contradiction
  | case3 position lead rest c n scans ih =>
      obtain ⟨t, later, rfl⟩ := ok_of_map reads
      rw [decodeWith, scanLenient_of_scan scans]
      simp only [ih later]
      rfl

/-- Leniency makes no difference to what is read strictly. -/
theorem decodeLenient_of_decode {bytes : List UInt8} {t : Text} (reads : decode bytes = .ok t) :
    decodeLenient bytes = .ok t := decodeWith_scanLenient reads

end EventStream.Utf8
