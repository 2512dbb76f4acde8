import EventStream.Text.Utf8

/-
# Bytes that are read back

What is written as UTF-8 is read as the same text. The reader looks at one code point at a time and
is told nothing of what follows it, so it is enough that it finds each code point again with the
number of its bytes, whatever comes after them (`scan_encodeOne`).

Nothing else is read. A code point that is found is a scalar value whose bytes are the ones at hand
(`encodeOne_of_scan`), so an overlong form, a surrogate and a number above U+10FFFF are refused, and
bytes can be read exactly if they are those of a text without surrogates (`decode_eq_ok_iff`).
-/

namespace EventStream.Utf8

/-! ## One code point -/

theorem codePoint_toNat (c : Char) : codePoint c.toNat = .scalar c := by
  have valid : c.toNat.isValidChar := c.valid
  simp [codePoint, CodePoint.ofNat?, valid]

theorem toNat_range (c : Char) : c.toNat < 0xD800 ∨ 0xE000 ≤ c.toNat ∧ c.toNat < 0x110000 := by
  have valid : c.toNat.isValidChar := c.valid
  simp only [Nat.isValidChar] at valid
  omega

theorem toNat_toUInt8 {n : Nat} (small : n < 256) : n.toUInt8.toNat = n := by
  simp [Nat.toUInt8, Nat.mod_eq_of_lt small]

theorem isContinuation_iff (b : UInt8) :
    isContinuation b = true ↔ 0x80 ≤ b.toNat ∧ b.toNat < 0xC0 := by
  simp [isContinuation, UInt8.le_iff_toNat_le, UInt8.lt_iff_toNat_lt]

theorem isSecond_iff (lead second : UInt8) : isSecond lead second = true ↔
    (0x80 ≤ second.toNat ∧ second.toNat < 0xC0) ∧ (lead.toNat = 0xE0 → 0xA0 ≤ second.toNat) ∧
      (lead.toNat = 0xED → second.toNat < 0xA0) ∧ (lead.toNat = 0xF0 → 0x90 ≤ second.toNat) ∧
      (lead.toNat = 0xF4 → second.toNat < 0x90) := by
  have eq (k : UInt8) : lead = k ↔ lead.toNat = k.toNat := UInt8.toNat_inj.symm
  simp [isSecond, isContinuation, eq, UInt8.le_iff_toNat_le, UInt8.lt_iff_toNat_lt]
  omega

/-- The bytes of a code point are read back as that code point, whatever follows them. -/
theorem scan_encodeOne (c : Char) (rest : List UInt8) : ∃ lead tail,
    encodeOne (.scalar c) = lead :: tail ∧
      scan lead (tail ++ rest) = .ok (.scalar c, tail.length) := by
  have range := toNat_range c
  have same := codePoint_toNat c
  obtain ⟨n, number⟩ : ∃ n, c.toNat = n := ⟨_, rfl⟩
  simp only [encodeOne, CodePoint.toNat, number] at range same ⊢
  have low (k : Nat) : (0x80 + k % 64).toUInt8.toNat = 0x80 + k % 64 := toNat_toUInt8 (by omega)
  have continues (k : Nat) : isContinuation (0x80 + k % 64).toUInt8 := by
    rw [isContinuation_iff, low]
    omega
  rcases Nat.lt_or_ge n 0x80 with small | two
  · refine ⟨_, _, if_pos small, ?_⟩
    simp [scan, toNat_toUInt8 (show n < 256 by omega), small, same]
  rcases Nat.lt_or_ge n 0x800 with small | three
  · refine ⟨_, _, by rw [if_neg (by omega), if_pos small], ?_⟩
    have lead := toNat_toUInt8 (show 0xC0 + n / 64 < 256 by omega)
    have whole : n / 64 * 64 + (0x80 + n % 64) % 64 = n := by omega
    simp only [scan, lead, bits, low, List.cons_append, continues, Nat.add_sub_cancel_left, whole,
      same]
    rw [if_neg (by omega), if_neg (by omega), if_pos (by omega)]
    rfl
  rcases Nat.lt_or_ge n 0x10000 with small | four
  · refine ⟨_, _, by rw [if_neg (by omega), if_neg (by omega), if_pos small], ?_⟩
    have lead := toNat_toUInt8 (show 0xE0 + n / 4096 < 256 by omega)
    have second : isSecond (0xE0 + n / 4096).toUInt8 (0x80 + n / 64 % 64).toUInt8 := by
      rw [isSecond_iff, low, lead]
      omega
    have whole : n / 4096 * 4096 + (0x80 + n / 64 % 64) % 64 * 64 + (0x80 + n % 64) % 64 = n := by
      omega
    simp only [scan, lead, bits, low, List.cons_append, continues, second,
      Nat.add_sub_cancel_left, whole, same]
    rw [if_neg (by omega), if_neg (by omega), if_neg (by omega), if_pos (by omega)]
    rfl
  · refine ⟨_, _, by rw [if_neg (by omega), if_neg (by omega), if_neg (by omega)], ?_⟩
    have lead := toNat_toUInt8 (show 0xF0 + n / 262144 < 256 by omega)
    have second : isSecond (0xF0 + n / 262144).toUInt8 (0x80 + n / 4096 % 64).toUInt8 := by
      rw [isSecond_iff, low, lead]
      omega
    have whole : n / 262144 * 262144 + (0x80 + n / 4096 % 64) % 64 * 4096 +
        (0x80 + n / 64 % 64) % 64 * 64 + (0x80 + n % 64) % 64 = n := by
      omega
    simp only [scan, lead, bits, low, List.cons_append, continues, second,
      Nat.add_sub_cancel_left, whole, same]
    rw [if_neg (by omega), if_neg (by omega), if_neg (by omega), if_neg (by omega),
      if_pos (by omega)]
    rfl

/-! ## One code point that was read -/

theorem toUInt8_eq {n : Nat} {b : UInt8} (same : n = b.toNat) : n.toUInt8 = b := by
  subst same
  exact UInt8.ofNat_toNat

theorem exists_codePoint {n : Nat} (range : n < 0xD800 ∨ 0xDFFF < n ∧ n < 0x110000) :
    ∃ c : Char, codePoint n = .scalar c ∧ c.toNat = n := by
  have valid : n.isValidChar := range
  exact ⟨Char.ofNatAux n valid, codePoint_toNat (Char.ofNatAux n valid), rfl⟩

theorem encodeOne_one {lead : UInt8} (range : lead.toNat < 0x80) :
    ∃ ch : Char, codePoint lead.toNat = .scalar ch ∧ encodeOne (.scalar ch) = [lead] := by
  obtain ⟨ch, read, value⟩ := exists_codePoint (n := lead.toNat) (.inl (by omega))
  refine ⟨ch, read, ?_⟩
  rw [encodeOne, CodePoint.toNat, value, if_pos range, toUInt8_eq rfl]

theorem encodeOne_two {lead b : UInt8} (range : 0xC2 ≤ lead.toNat ∧ lead.toNat < 0xE0)
    (continues : isContinuation b = true) :
    ∃ ch : Char, codePoint ((lead.toNat - 0xC0) * 64 + bits b) = .scalar ch ∧
      encodeOne (.scalar ch) = [lead, b] := by
  rw [isContinuation_iff] at continues
  rw [bits]
  obtain ⟨ch, read, value⟩ := exists_codePoint (n := (lead.toNat - 0xC0) * 64 + b.toNat % 64)
    (.inl (by omega))
  refine ⟨ch, read, ?_⟩
  simp only [encodeOne, CodePoint.toNat, value]
  rw [if_neg (by omega), if_pos (by omega), toUInt8_eq (b := lead) (by omega),
    toUInt8_eq (b := b) (by omega)]

theorem encodeOne_three {lead b c : UInt8} (range : 0xE0 ≤ lead.toNat ∧ lead.toNat < 0xF0)
    (second : isSecond lead b = true) (continues : isContinuation c = true) :
    ∃ ch : Char, codePoint ((lead.toNat - 0xE0) * 4096 + bits b * 64 + bits c) = .scalar ch ∧
      encodeOne (.scalar ch) = [lead, b, c] := by
  rw [isSecond_iff] at second
  rw [isContinuation_iff] at continues
  rw [bits, bits]
  obtain ⟨ch, read, value⟩ := exists_codePoint
    (n := (lead.toNat - 0xE0) * 4096 + b.toNat % 64 * 64 + c.toNat % 64) (by omega)
  refine ⟨ch, read, ?_⟩
  simp only [encodeOne, CodePoint.toNat, value]
  rw [if_neg (by omega), if_neg (by omega), if_pos (by omega), toUInt8_eq (b := lead) (by omega),
    toUInt8_eq (b := b) (by omega), toUInt8_eq (b := c) (by omega)]

theorem encodeOne_four {lead b c d : UInt8} (range : 0xF0 ≤ lead.toNat ∧ lead.toNat < 0xF5)
    (second : isSecond lead b = true) (third : isContinuation c = true)
    (continues : isContinuation d = true) :
    ∃ ch : Char, codePoint ((lead.toNat - 0xF0) * 262144 + bits b * 4096 + bits c * 64 + bits d) =
      .scalar ch ∧ encodeOne (.scalar ch) = [lead, b, c, d] := by
  rw [isSecond_iff] at second
  rw [isContinuation_iff] at third continues
  rw [bits, bits, bits]
  obtain ⟨ch, read, value⟩ := exists_codePoint (n := (lead.toNat - 0xF0) * 262144 +
    b.toNat % 64 * 4096 + c.toNat % 64 * 64 + d.toNat % 64) (by omega)
  refine ⟨ch, read, ?_⟩
  simp only [encodeOne, CodePoint.toNat, value]
  rw [if_neg (by omega), if_neg (by omega), if_neg (by omega), toUInt8_eq (b := lead) (by omega),
    toUInt8_eq (b := b) (by omega), toUInt8_eq (b := c) (by omega), toUInt8_eq (b := d) (by omega)]

/-- A code point that is read is a scalar value, and the bytes at hand are the ones that are written
for it: there is no other form. -/
theorem encodeOne_of_scan {lead : UInt8} {rest : List UInt8} {c : CodePoint} {n : Nat}
    (scans : scan lead rest = .ok (c, n)) : ∃ ch : Char, c = .scalar ch ∧
      encodeOne (.scalar ch) = lead :: rest.take n := by
  unfold scan at scans
  dsimp only at scans
  split at scans
  case isTrue one =>
    obtain ⟨rfl, rfl⟩ := Prod.mk.inj (Except.ok.inj scans)
    exact encodeOne_one one
  split at scans
  case isTrue => contradiction
  split at scans
  case isTrue two =>
    split at scans
    · contradiction
    · split at scans
      case isFalse => contradiction
      case isTrue continues =>
        obtain ⟨rfl, rfl⟩ := Prod.mk.inj (Except.ok.inj scans)
        exact encodeOne_two (by omega) continues
  split at scans
  case isTrue three =>
    split at scans
    · contradiction
    · contradiction
    · split at scans
      case isTrue => contradiction
      case isFalse second =>
        split at scans
        case isFalse => contradiction
        case isTrue continues =>
          obtain ⟨rfl, rfl⟩ := Prod.mk.inj (Except.ok.inj scans)
          exact encodeOne_three (by omega) (by simpa using second) continues
  split at scans
  case isTrue four =>
    split at scans
    · contradiction
    · contradiction
    · contradiction
    · split at scans
      case isTrue => contradiction
      case isFalse second =>
        split at scans
        case isTrue => contradiction
        case isFalse third =>
          split at scans
          case isFalse => contradiction
          case isTrue continues =>
            obtain ⟨rfl, rfl⟩ := Prod.mk.inj (Except.ok.inj scans)
            exact encodeOne_four (by omega) (by simpa using second) (by simpa using third)
              continues
  case isFalse => contradiction

/-! ## Texts -/

theorem decodeWith_encode (cs : List Char) (position : Nat) :
    decodeWith scan position ((Text.ofChars cs).flatMap encodeOne) = .ok (Text.ofChars cs) := by
  induction cs generalizing position with
  | nil => rw [Text.ofChars, List.map_nil, List.flatMap_nil, decodeWith]
  | cons c cs ih =>
      obtain ⟨lead, tail, written, scans⟩ :=
        scan_encodeOne c ((Text.ofChars cs).flatMap encodeOne)
      have first : (Text.ofChars (c :: cs)).flatMap encodeOne =
          lead :: (tail ++ (Text.ofChars cs).flatMap encodeOne) := by
        rw [Text.ofChars, List.map_cons, List.flatMap_cons, written, List.cons_append, Text.ofChars]
      rw [first, decodeWith, scans]
      simp only [List.drop_left, ih]
      rfl

/-- Every text without surrogates is read back from its bytes. -/
theorem decode_ofChars (cs : List Char) :
    decode ((Text.ofChars cs).flatMap encodeOne) = .ok (Text.ofChars cs) :=
  decodeWith_encode cs 0

/-- The bytes of a text without surrogates. -/
def ofChars (cs : List Char) : List UInt8 := (Text.ofChars cs).flatMap encodeOne

theorem ofChars_of_decodeWith {position : Nat} {bytes : List UInt8} {t : Text}
    (reads : decodeWith scan position bytes = .ok t) :
    ∃ cs, t = Text.ofChars cs ∧ bytes = ofChars cs := by
  fun_induction decodeWith scan position bytes generalizing t with
  | case1 =>
      obtain rfl := Except.ok.inj reads
      exact ⟨[], rfl, rfl⟩
  | case2 => contradiction
  | case3 position lead rest c n scans ih =>
      cases later : decodeWith scan (position + n + 1) (rest.drop n) with
      | error e =>
          rw [later] at reads
          contradiction
      | ok t =>
          rw [later] at reads
          obtain rfl := Except.ok.inj reads
          obtain ⟨ch, rfl, written⟩ := encodeOne_of_scan scans
          obtain ⟨cs, rfl, rest'⟩ := ih later
          refine ⟨ch :: cs, rfl, ?_⟩
          have all : ofChars (ch :: cs) = encodeOne (.scalar ch) ++ ofChars cs := rfl
          rw [all, written, ← rest', List.cons_append, List.take_append_drop]

/-- Bytes can be read exactly if they are those of a text without surrogates, and then they are read
as that text. -/
theorem decode_eq_ok_iff {bytes : List UInt8} {t : Text} :
    decode bytes = .ok t ↔ ∃ cs, t = Text.ofChars cs ∧ bytes = ofChars cs := by
  constructor
  · exact ofChars_of_decodeWith
  · rintro ⟨cs, rfl, rfl⟩
    exact decode_ofChars cs

/-- Bytes that cannot be read are those of no text. -/
theorem decode_eq_error_iff {bytes : List UInt8} :
    (∃ e, decode bytes = .error e) ↔ ∀ cs, bytes ≠ ofChars cs := by
  constructor
  · rintro ⟨e, refused⟩ cs rfl
    rw [ofChars, decode_ofChars] at refused
    contradiction
  · intro none
    cases read : decode bytes with
    | error e => exact ⟨e, rfl⟩
    | ok t =>
        obtain ⟨cs, -, written⟩ := decode_eq_ok_iff.mp read
        exact absurd written (none cs)

end EventStream.Utf8
