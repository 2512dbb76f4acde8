import EventStream.Proofs.Json.Grammar
import EventStream.Proofs.Results

/-
# Reading of scalars and texts

What the readers of numbers, words and texts read is a piece that writes the value they answer, and
such a piece is read back whatever follows it. For a number there is one condition on what follows,
because a number is read as far as it goes (`EndsNumber`); a text ends with its quote.
-/

namespace EventStream.Json

/-! ## Spaces -/

theorem exists_blank (t : Text) : ∃ s, t = s ++ skipSpaces t ∧ Blank s := by
  refine ⟨t.takeWhile isSpace, List.takeWhile_append_dropWhile.symm, ?_⟩
  exact List.all_eq_true.mp List.all_takeWhile

theorem skipSpaces_append {s : Text} (blank : Blank s) (t : Text) :
    skipSpaces (s ++ t) = skipSpaces t := List.dropWhile_append_of_pos blank

/-! ## Texts -/

theorem lowEscape?_eq_some_iff {t more : Text} {low : Nat} : lowEscape? t = some (low, more) ↔
    ∃ a b c d, t = .scalar '\\' :: .scalar 'u' :: a :: b :: c :: d :: more ∧
      hexFour? a b c d = some low ∧ 0xDC00 ≤ low ∧ low < 0xE000 := by
  constructor
  · intro found
    unfold lowEscape? at found
    split at found
    case h_1 s u a b c d rest =>
      split at found
      case isFalse => contradiction
      case isTrue marks =>
        obtain ⟨rfl, rfl⟩ : s = .scalar '\\' ∧ u = .scalar 'u' := by simpa using marks
        split at found
        case h_2 => contradiction
        case h_1 n number =>
          split at found
          case isFalse => contradiction
          case isTrue range =>
            obtain ⟨rfl, rfl⟩ := Prod.mk.inj (Option.some.inj found)
            exact ⟨a, b, c, d, rfl, number, by simpa using range⟩
    case h_2 => contradiction
  · rintro ⟨a, b, c, d, rfl, number, least, less⟩
    simp [lowEscape?, number, least, less]

theorem hexFour?_quote (a b c : CodePoint) : hexFour? (.scalar '"') a b c = none ∧
    hexFour? a (.scalar '"') b c = none ∧ hexFour? a b (.scalar '"') c = none ∧
    hexFour? a b c (.scalar '"') = none := by
  have quote : hexValue? (.scalar '"') = none := rfl
  simp [hexFour?, quote]

/-- Whether an escaped low surrogate comes next does not depend on what follows the closing
quote. -/
theorem lowEscape?_append (b rest : Text) : lowEscape? (b ++ .scalar '"' :: rest) =
    (lowEscape? b).map fun found => (found.1, found.2 ++ .scalar '"' :: rest) := by
  apply Option.ext
  rintro ⟨low, more⟩
  simp only [lowEscape?_eq_some_iff, Option.map_eq_some_iff, Prod.exists, Prod.mk.injEq]
  constructor
  · rintro ⟨a₁, a₂, a₃, a₄, same, number, range⟩
    have quotes := hexFour?_quote
    rcases b with _ | ⟨s, _ | ⟨u, _ | ⟨h₁, _ | ⟨h₂, _ | ⟨h₃, _ | ⟨h₄, b⟩⟩⟩⟩⟩⟩ <;> grind
  · rintro ⟨low', b', ⟨a₁, a₂, a₃, a₄, rfl, number, range⟩, rfl, rfl⟩
    exact ⟨a₁, a₂, a₃, a₄, rfl, number, range⟩

/-- What is read as the inside of a text writes it. -/
theorem body_of_textBody {bound : Nat} {t body rest : Text}
    (read : textBody bound t = .ok (body, rest)) :
    ∃ b, t = b ++ .scalar '"' :: rest ∧ Body b body := by
  fun_induction textBody bound t generalizing body rest with
  | case1 | case2 | case4 | case5 | case8 | case9 | case11 => contradiction
  | case3 =>
      obtain ⟨rfl, rfl⟩ := Prod.mk.inj (Except.ok.inj read)
      exact ⟨[], rfl, .empty⟩
  | case6 bound h₁ h₂ h₃ h₄ after n number low more escapes _ ih =>
      obtain ⟨⟨inside, rest'⟩, reads, same⟩ := ok_of_map read
      obtain ⟨rfl, rfl⟩ := Prod.mk.inj same
      obtain ⟨b, rfl, writes⟩ := ih reads
      split at number
      case isTrue => contradiction
      split at escapes
      case isFalse => contradiction
      case isTrue high =>
        obtain ⟨a₁, a₂, a₃, a₄, rfl, lows⟩ := lowEscape?_eq_some_iff.mp escapes
        have range : 0xD800 ≤ n ∧ n < 0xDC00 := by simpa using high
        refine ⟨_ :: _ :: h₁ :: h₂ :: h₃ :: h₄ :: _ :: _ :: a₁ :: a₂ :: a₃ :: a₄ :: b, rfl, ?_⟩
        exact .pair number range.1 range.2
          (lowEscape?_eq_some_iff.mpr ⟨a₁, a₂, a₃, a₄, rfl, lows⟩) writes
  | case7 bound h₁ h₂ h₃ h₄ after n number alone _ ih =>
      obtain ⟨⟨inside, rest'⟩, reads, same⟩ := ok_of_map read
      obtain ⟨rfl, rfl⟩ := Prod.mk.inj same
      obtain ⟨b, rfl, writes⟩ := ih reads
      split at number
      case isTrue => contradiction
      refine ⟨_ :: _ :: h₁ :: h₂ :: h₃ :: h₄ :: b, rfl, .unit number ?_ writes⟩
      intro least less
      rw [if_pos (by simp [least, less]), lowEscape?_append] at alone
      simpa using alone
  | case10 bound e rest' _ x escape _ ih =>
      obtain ⟨⟨inside, end_⟩, reads, same⟩ := ok_of_map read
      obtain ⟨rfl, rfl⟩ := Prod.mk.inj same
      obtain ⟨b, rfl, writes⟩ := ih reads
      exact ⟨_ :: e :: b, rfl, .escape escape writes⟩
  | case12 bound c t quote backslash large ih =>
      obtain ⟨⟨inside, end_⟩, reads, same⟩ := ok_of_map read
      obtain ⟨rfl, rfl⟩ := Prod.mk.inj same
      obtain ⟨b, rfl, writes⟩ := ih reads
      exact ⟨c :: b, rfl, .plain quote backslash (by omega) writes⟩

theorem textBody_pair {h₁ h₂ h₃ h₄ : CodePoint} {high low bound : Nat} {after more : Text}
    (number : hexFour? h₁ h₂ h₃ h₄ = some high) (least : 0xD800 ≤ high) (less : high < 0xDC00)
    (escapes : lowEscape? after = some (low, more)) :
    textBody (bound + 1) (.scalar '\\' :: .scalar 'u' :: h₁ :: h₂ :: h₃ :: h₄ :: after) =
      (textBody bound more).map fun read => (paired high low :: read.1, read.2) := by
  have goesOn : after ≠ [] := by
    rintro rfl
    contradiction
  simp [textBody, goesOn, number, least, less, escapes]

theorem textBody_unit {h₁ h₂ h₃ h₄ : CodePoint} {n bound : Nat} {after : Text} (goesOn : after ≠ [])
    (number : hexFour? h₁ h₂ h₃ h₄ = some n)
    (alone : 0xD800 ≤ n → n < 0xDC00 → lowEscape? after = none) :
    textBody (bound + 1) (.scalar '\\' :: .scalar 'u' :: h₁ :: h₂ :: h₃ :: h₄ :: after) =
      (textBody bound after).map fun read => (unit n :: read.1, read.2) := by
  have single : (if 0xD800 ≤ n ∧ n < 0xDC00 then lowEscape? after else none) = none := by
    split
    case isTrue high => exact alone high.1 high.2
    case isFalse => rfl
  simp [textBody, goesOn, number, single]

/-- The inside of a text is read, whatever follows the closing quote. -/
theorem textBody_of_body {b body : Text} (writes : Body b body) {bound : Nat}
    (enough : b.length < bound) (rest : Text) :
    textBody bound (b ++ .scalar '"' :: rest) = .ok (body, rest) := by
  induction writes generalizing bound with
  | empty =>
      cases bound with
      | zero => simp at enough
      | succ bound => rfl
  | plain quote backslash large _ ih =>
      cases bound with
      | zero => simp at enough
      | succ bound =>
          have reads := ih (by simpa using enough)
          simp only [List.cons_append, textBody, if_neg quote, if_neg backslash,
            if_neg (Nat.not_lt.mpr large), reads]
          rfl
  | @escape e x b t escape _ ih =>
      cases bound with
      | zero => simp at enough
      | succ bound =>
          have shorter : b.length < bound := by
            simp at enough
            omega
          have reads := ih shorter
          have other : e ≠ .scalar 'u' := by
            rintro rfl
            contradiction
          simp only [List.cons_append, textBody, if_neg other, escape, reads]
          rfl
  | @pair h₁ h₂ h₃ h₄ high low after b t number least less escapes _ ih =>
      cases bound with
      | zero => simp at enough
      | succ bound =>
          have shorter : b.length < bound := by
            obtain ⟨_, _, _, _, rfl, -⟩ := lowEscape?_eq_some_iff.mp escapes
            simp at enough
            omega
          have follows : lowEscape? (after ++ .scalar '"' :: rest) =
              some (low, b ++ .scalar '"' :: rest) := by
            rw [lowEscape?_append, escapes]
            rfl
          show textBody (bound + 1) (_ :: _ :: h₁ :: h₂ :: h₃ :: h₄ :: (after ++ _)) = _
          rw [textBody_pair number least less follows, ih shorter]
          rfl
  | @unit h₁ h₂ h₃ h₄ n b t number alone _ ih =>
      cases bound with
      | zero => simp at enough
      | succ bound =>
          have shorter : b.length < bound := by
            simp at enough
            omega
          show textBody (bound + 1) (_ :: _ :: h₁ :: h₂ :: h₃ :: h₄ :: (b ++ _)) = _
          have apart (least : 0xD800 ≤ n) (less : n < 0xDC00) :
              lowEscape? (b ++ .scalar '"' :: rest) = none := by
            rw [lowEscape?_append, alone least less]
            rfl
          rw [textBody_unit (by simp) number apart, ih shorter]
          rfl

theorem textValue_eq_ok_iff {t body rest : Text} : textValue t = .ok (body, rest) ↔
    ∃ b, t = b ++ .scalar '"' :: rest ∧ Body b body := by
  constructor
  · intro read
    unfold textValue at read
    split at read
    · contradiction
    · exact body_of_textBody read
  · rintro ⟨b, rfl, writes⟩
    have long : b.length < (b ++ .scalar '"' :: rest).length + 1 := by
      rw [List.length_append]
      omega
    rw [textValue, textBody_of_body writes long]

/-! ## Numbers -/

/-- Digits end where no digit follows them. -/
def EndsDigits (rest : Text) : Prop := ∀ c ∈ rest.head?, isDigit c = false

/-- A number ends where nothing follows that could belong to it. -/
def EndsNumber (rest : Text) : Prop :=
  ∀ c ∈ rest.head?, isDigit c = false ∧ c ≠ .scalar '.' ∧ ¬ IsExponentMark c

theorem EndsNumber.digits {rest : Text} (ends : EndsNumber rest) : EndsDigits rest :=
  fun c next => (ends c next).1

theorem takeWhile_digits {ds rest : Text} (digits : Digits ds) (ends : EndsDigits rest) :
    (ds ++ rest).takeWhile isDigit = ds ∧ (ds ++ rest).dropWhile isDigit = rest := by
  rw [List.takeWhile_append_of_pos digits.2, List.dropWhile_append_of_pos digits.2]
  cases rest with
  | nil => simp
  | cons c rest => simp [ends c rfl]

theorem exists_digits {t : Text} (some : (t.takeWhile isDigit).isEmpty = false) :
    Digits (t.takeWhile isDigit) := by
  constructor
  · simpa using some
  · exact List.all_eq_true.mp List.all_takeWhile

theorem fraction_of_fractionPart {t rest : Text} {f : Option Text}
    (read : fractionPart t = (f, rest)) : ∃ p, t = p ++ rest ∧ Fraction p f := by
  unfold fractionPart at read
  split at read
  case h_1 c t =>
    dsimp only at read
    split at read
    case isTrue point =>
      obtain ⟨rfl, rfl⟩ := Prod.mk.inj read
      obtain ⟨rfl, some⟩ : c = .scalar '.' ∧ (t.takeWhile isDigit).isEmpty = false := by
        simpa using point
      refine ⟨_ :: t.takeWhile isDigit, ?_, .digits (exists_digits some)⟩
      rw [List.cons_append, List.takeWhile_append_dropWhile]
    case isFalse =>
      obtain ⟨rfl, rfl⟩ := Prod.mk.inj read
      exact ⟨[], rfl, .absent⟩
  case h_2 =>
    obtain ⟨rfl, rfl⟩ := Prod.mk.inj read
    exact ⟨[], rfl, .absent⟩

theorem fractionPart_of_fraction {p rest : Text} {f : Option Text} (part : Fraction p f)
    (ends : EndsDigits rest) (noPoint : ∀ c ∈ rest.head?, c ≠ .scalar '.') :
    fractionPart (p ++ rest) = (f, rest) := by
  cases part with
  | absent =>
      cases rest with
      | nil => rfl
      | cons c rest => simp [fractionPart, noPoint c rfl]
  | digits digits =>
      obtain ⟨taken, dropped⟩ := takeWhile_digits digits ends
      simp [fractionPart, taken, dropped, digits.1]

theorem exponent_of_exponentPart {t rest : Text} {x : Option Int}
    (read : exponentPart t = (x, rest)) : ∃ p, t = p ++ rest ∧ Exponent p x := by
  unfold exponentPart at read
  split at read
  case h_2 =>
    obtain ⟨rfl, rfl⟩ := Prod.mk.inj read
    exact ⟨[], rfl, .absent⟩
  case h_1 c t =>
    split at read
    case isFalse =>
      obtain ⟨rfl, rfl⟩ := Prod.mk.inj read
      exact ⟨[], rfl, .absent⟩
    case isTrue marked =>
      have isMark : IsExponentMark c := by simpa [IsExponentMark] using marked
      split at read
      case h_1 negative u parts =>
        obtain ⟨s, sign, rfl⟩ : ∃ s, ExponentSign negative s ∧ t = s ++ u := by
          split at parts <;> obtain ⟨rfl, rfl⟩ := Prod.mk.inj parts
          · exact ⟨_, .minus, rfl⟩
          · exact ⟨_, .plus, rfl⟩
          · exact ⟨_, .absent, rfl⟩
        dsimp only at read
        split at read
        case isTrue =>
          obtain ⟨rfl, rfl⟩ := Prod.mk.inj read
          exact ⟨[], rfl, .absent⟩
        case isFalse some =>
          obtain ⟨rfl, rfl⟩ := Prod.mk.inj read
          refine ⟨_, ?_, .digits isMark sign (exists_digits (Bool.eq_false_iff.mpr some))⟩
          rw [List.cons_append, List.append_assoc, List.takeWhile_append_dropWhile]

theorem exponentPart_of_exponent {p rest : Text} {x : Option Int} (part : Exponent p x)
    (ends : EndsNumber rest) : exponentPart (p ++ rest) = (x, rest) := by
  cases part with
  | absent =>
      cases rest with
      | nil => rfl
      | cons c rest =>
          have other : ¬ (c = .scalar 'e' ∨ c = .scalar 'E') := (ends c rfl).2.2
          simp [exponentPart, other]
  | @digits e s ds negative marked sign digits =>
      obtain ⟨taken, dropped⟩ := takeWhile_digits digits ends.digits
      have letter : e = .scalar 'e' ∨ e = .scalar 'E' := marked
      cases sign with
      | plus => simp [exponentPart, letter, taken, dropped, digits.1, worth]
      | minus => simp [exponentPart, letter, taken, dropped, digits.1, worth]
      | absent =>
          cases ds with
          | nil => exact absurd rfl digits.1
          | cons d ds =>
              have digit : isDigit d = true := digits.2 d List.mem_cons_self
              have minus : d ≠ .scalar '-' := by
                rintro rfl
                contradiction
              have plus : d ≠ .scalar '+' := by
                rintro rfl
                contradiction
              rw [List.cons_append] at taken dropped
              simp [exponentPart, letter, minus, plus, taken, dropped, worth]

/-- The digits before the point, as far as they are read. -/
def wholePart (t : Text) : Text :=
  let digits := t.takeWhile isDigit
  if digits.head? = some (.scalar '0') then digits.take 1 else digits

theorem wholePart_append (t : Text) : wholePart t ++ t.drop (wholePart t).length = t := by
  have start : wholePart t <+: t := by
    unfold wholePart
    dsimp only
    split
    · exact (List.take_prefix _ _).trans (List.takeWhile_prefix _)
    · exact List.takeWhile_prefix _
  exact List.prefix_iff_eq_append.mp start

theorem whole_wholePart {t : Text} (some : wholePart t ≠ []) : Whole (wholePart t) := by
  have digits : ∀ c ∈ t.takeWhile isDigit, isDigit c = true :=
    List.all_eq_true.mp List.all_takeWhile
  unfold wholePart at some ⊢
  dsimp only at some ⊢
  split
  case isTrue zero =>
    obtain ⟨ds, taken⟩ := List.head?_eq_some_iff.mp zero
    have digit : isDigit (.scalar '0') = true := rfl
    simp [taken, Whole, Digits, digit]
  case isFalse other =>
    rw [if_neg other] at some
    exact ⟨⟨some, digits⟩, fun zero => absurd zero other⟩

theorem wholePart_of_whole {ds rest : Text} (whole : Whole ds) (ends : EndsDigits rest) :
    wholePart (ds ++ rest) = ds := by
  unfold wholePart
  rw [(takeWhile_digits whole.1 ends).1]
  dsimp only
  split
  case isTrue zero =>
    rw [whole.2 zero]
    rfl
  case isFalse => rfl

/-- A number is read part by part: the digits before the point, those behind it, the exponent. -/
theorem unsignedNumber_eq {negative : Bool} {t ds u rest : Text} {fraction : Option Text}
    {exponent : Option Int} (nonempty : ds ≠ []) (first : wholePart t = ds)
    (second : fractionPart (t.drop ds.length) = (fraction, u))
    (third : exponentPart u = (exponent, rest)) : unsignedNumber negative t =
      if fraction = none ∧ exponent = none then
        if Numeral.digitLimit < ds.length then .error (.number (.tooManyDigits ds.length))
        else .ok (signedInt negative (worth ds), rest)
      else .ok (signedFloat negative (Binary64.ofDecimal (worth (ds ++ fraction.getD []))
        (exponent.getD 0 - (fraction.getD []).length)), rest) := by
  have same : (if (t.takeWhile isDigit).head? = some (.scalar '0') then
    (t.takeWhile isDigit).take 1 else t.takeWhile isDigit) = ds := first
  unfold unsignedNumber
  simp [same, second, third, nonempty, worth, signedInt, signedFloat]

/-- Without a digit there is no number. -/
theorem unsignedNumber_of_empty {negative : Bool} {t : Text} (none : wholePart t = []) :
    ∃ remaining, unsignedNumber negative t = .error (.grammar .value remaining) := by
  have first : (if (t.takeWhile isDigit).head? = some (.scalar '0') then
    (t.takeWhile isDigit).take 1 else t.takeWhile isDigit) = wholePart t := rfl
  unfold unsignedNumber
  simp [first, none]

/-- What is read as a number without its sign writes it. -/
theorem unsigned_of_unsignedNumber {negative : Bool} {t rest : Text} {v : Value}
    (read : unsignedNumber negative t = .ok (v, rest)) :
    ∃ p, t = p ++ rest ∧ Unsigned negative p v := by
  by_cases nonempty : wholePart t = []
  · obtain ⟨remaining, refused⟩ := unsignedNumber_of_empty nonempty
    rw [refused] at read
    contradiction
  · obtain ⟨fraction, u, second⟩ : ∃ f u, fractionPart (t.drop (wholePart t).length) = (f, u) :=
      ⟨_, _, rfl⟩
    obtain ⟨exponent, rest', third⟩ : ∃ x r, exponentPart u = (x, r) := ⟨_, _, rfl⟩
    obtain ⟨f, behind, isFraction⟩ := fraction_of_fractionPart second
    obtain ⟨e, rfl, isExponent⟩ := exponent_of_exponentPart third
    have whole := whole_wholePart nonempty
    have parts := wholePart_append t
    rw [unsignedNumber_eq nonempty rfl second third] at read
    split at read
    case isTrue absent =>
      split at read
      case isTrue => contradiction
      case isFalse short =>
        obtain ⟨rfl, rfl⟩ := Prod.mk.inj (Except.ok.inj read)
        obtain ⟨rfl, rfl⟩ := absent
        cases isFraction
        cases isExponent
        refine ⟨wholePart t, ?_, .int whole (Nat.le_of_not_lt short)⟩
        rw [behind] at parts
        exact parts.symm
    case isFalse given =>
      obtain ⟨rfl, rfl⟩ := Prod.mk.inj (Except.ok.inj read)
      refine ⟨wholePart t ++ (f ++ e), ?_, .float whole isFraction isExponent given⟩
      rw [behind] at parts
      rw [List.append_assoc, List.append_assoc, parts]

theorem endsDigits_exponent {e rest : Text} {x : Option Int} (part : Exponent e x)
    (ends : EndsNumber rest) :
    EndsDigits (e ++ rest) ∧ ∀ c ∈ (e ++ rest).head?, c ≠ .scalar '.' := by
  cases part with
  | absent => exact ⟨ends.digits, fun c next => (ends c next).2.1⟩
  | digits marked =>
      rcases marked with rfl | rfl
      · exact ⟨by rintro c ⟨⟩; rfl, by rintro c ⟨⟩; decide⟩
      · exact ⟨by rintro c ⟨⟩; rfl, by rintro c ⟨⟩; decide⟩

theorem endsDigits_fraction {f rest : Text} {fraction : Option Text} (part : Fraction f fraction)
    (ends : EndsDigits rest) : EndsDigits (f ++ rest) := by
  cases part with
  | absent => exact ends
  | digits =>
      rintro c ⟨⟩
      rfl

/-- A number without its sign is read where it ends. -/
theorem unsignedNumber_of_unsigned {negative : Bool} {p rest : Text} {v : Value}
    (writes : Unsigned negative p v) (ends : EndsNumber rest) :
    unsignedNumber negative (p ++ rest) = .ok (v, rest) := by
  have parts {ds f e : Text} {fraction : Option Text} {exponent : Option Int} (whole : Whole ds)
      (isFraction : Fraction f fraction) (isExponent : Exponent e exponent) :
      wholePart (ds ++ (f ++ (e ++ rest))) = ds ∧
        fractionPart ((ds ++ (f ++ (e ++ rest))).drop ds.length) = (fraction, e ++ rest) ∧
        exponentPart (e ++ rest) = (exponent, rest) := by
    obtain ⟨noDigit, noPoint⟩ := endsDigits_exponent isExponent ends
    refine ⟨wholePart_of_whole whole (endsDigits_fraction isFraction noDigit), ?_,
      exponentPart_of_exponent isExponent ends⟩
    rw [List.drop_left]
    exact fractionPart_of_fraction isFraction noDigit noPoint
  cases writes with
  | int whole short =>
      obtain ⟨first, second, third⟩ := parts whole .absent .absent
      show unsignedNumber negative (p ++ ([] ++ ([] ++ rest))) = _
      rw [unsignedNumber_eq whole.1.1 first second third, if_pos ⟨rfl, rfl⟩,
        if_neg (Nat.not_lt.mpr short)]
  | float whole isFraction isExponent given =>
      obtain ⟨first, second, third⟩ := parts whole isFraction isExponent
      rw [List.append_assoc, List.append_assoc,
        unsignedNumber_eq whole.1.1 first second third, if_neg given]

/-! ## What is neither text, list nor table -/

theorem eq_append_of_word {w : String} {t rest : Text} (found : word? w t = some rest) :
    t = Text.ofString w ++ rest := by
  unfold word? at found
  dsimp only at found
  split at found
  case isTrue start =>
    obtain rfl := Option.some.inj found
    exact (List.prefix_iff_eq_append.mp (List.isPrefixOf_iff_prefix.mp start)).symm
  case isFalse => contradiction

/-- The words that are read are those of the grammar. -/
theorem isWord_of_mem {w : String} {v : Value} (listed : (w, v) ∈ words) : IsWord w v := by
  simp only [words, List.mem_cons, Prod.mk.injEq, List.not_mem_nil, or_false] at listed
  rcases listed with ⟨rfl, rfl⟩ | ⟨rfl, rfl⟩ | ⟨rfl, rfl⟩ | ⟨rfl, rfl⟩ | ⟨rfl, rfl⟩ | ⟨rfl, rfl⟩
  · exact .null
  · exact .true
  · exact .false
  · exact .notANumber
  · exact .infinity
  · exact .negativeInfinity

/-- What is read as a scalar writes it. -/
theorem scalar_of_scalarValue {t rest : Text} {v : Value} (read : scalarValue t = .ok (v, rest)) :
    ∃ p, t = p ++ rest ∧ Scalar p v := by
  unfold scalarValue at read
  split at read
  case h_1 found word =>
    obtain rfl := Except.ok.inj read
    obtain ⟨⟨w, v'⟩, listed, same⟩ := List.exists_of_findSome?_eq_some word
    obtain ⟨rest', follows, same⟩ := Option.map_eq_some_iff.mp same
    obtain ⟨rfl, rfl⟩ := Prod.mk.inj same
    exact ⟨_, eq_append_of_word follows, .word (isWord_of_mem listed)⟩
  case h_2 =>
    split at read
    · obtain ⟨p, rfl, writes⟩ := unsigned_of_unsignedNumber read
      exact ⟨_ :: p, rfl, .negative writes⟩
    · obtain ⟨p, rfl, writes⟩ := unsigned_of_unsignedNumber read
      exact ⟨p, rfl, .number writes⟩

theorem exists_digit_of_unsigned {negative : Bool} {p : Text} {v : Value}
    (writes : Unsigned negative p v) : ∃ d p', p = d :: p' ∧ isDigit d = true := by
  have starts {ds : Text} (whole : Whole ds) : ∃ d ds', ds = d :: ds' ∧ isDigit d = true := by
    obtain ⟨d, ds', rfl⟩ := List.exists_cons_of_ne_nil whole.1.1
    exact ⟨d, ds', rfl, whole.1.2 d List.mem_cons_self⟩
  cases writes with
  | int whole => exact starts whole
  | float whole =>
      obtain ⟨d, ds, rfl, digit⟩ := starts whole
      exact ⟨d, _, rfl, digit⟩

/-- No word begins as a number does. -/
theorem no_word {d : CodePoint} (digit : isDigit d = true) (t : Text) :
    (words.findSome? fun (w, v) => (word? w (d :: t)).map fun rest => (v, rest)) = none ∧
    (words.findSome? fun (w, v) => (word? w (.scalar '-' :: d :: t)).map fun rest => (v, rest)) =
      none := by
  have other {c : CodePoint} (letter : isDigit c = false) : c ≠ d := by
    rintro rfl
    rw [letter] at digit
    contradiction
  simp [words, word?, Text.ofString, other (c := .scalar 'n') rfl, other (c := .scalar 't') rfl,
    other (c := .scalar 'f') rfl, other (c := .scalar 'N') rfl, other (c := .scalar 'I') rfl,
    other (c := .scalar '-') rfl]

/-- A scalar is read where it ends. -/
theorem scalarValue_of_scalar {p rest : Text} {v : Value} (writes : Scalar p v)
    (ends : EndsNumber rest) : scalarValue (p ++ rest) = .ok (v, rest) := by
  cases writes with
  | word word => cases word <;> rfl
  | number writes =>
      obtain ⟨d, p, rfl, digit⟩ := exists_digit_of_unsigned writes
      have minus : d ≠ .scalar '-' := by
        rintro rfl
        contradiction
      simp only [scalarValue, List.cons_append, (no_word digit _).1]
      split
      case h_1 same => exact absurd (List.cons.inj same).1 minus
      case h_2 => exact unsignedNumber_of_unsigned writes ends
  | negative writes =>
      obtain ⟨d, p, rfl, digit⟩ := exists_digit_of_unsigned writes
      simp only [scalarValue, List.cons_append, (no_word digit _).2]
      exact unsignedNumber_of_unsigned writes ends

end EventStream.Json
