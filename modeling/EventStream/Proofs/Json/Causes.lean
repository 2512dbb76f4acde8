import EventStream.Proofs.Json.Documents

/-
# Why a text is no document

A text that is no document breaks the grammar, names an integer with too many digits, or nests too
deep. A reader that is put together from others fails as they do, so the lemmas only say that
nothing else can come out of any of them (`proper_of_parse`).

Of the three, a document that nests too deep is the one that no value error stands for.
-/

namespace EventStream.Json

/-- The errors about a text that is no document. -/
inductive ParseError.Proper : ParseError → Prop
  | grammar (missing : Missing) (remaining : Nat) : Proper (.grammar missing remaining)
  | tooLong {count : Nat} : Numeral.digitLimit < count → Proper (.number (.tooManyDigits count))
  | tooDeep (kind : Text) : Proper (.tooDeep kind)

theorem ParseError.Proper.kind {e : ParseError} (proper : e.Proper) :
    e.kind = .document ∨ e.kind = .value ∨ e.kind = .recursion := by
  cases proper with
  | grammar => exact .inl rfl
  | tooLong => exact .inr (.inl rfl)
  | tooDeep => exact .inr (.inr rfl)

section

variable {α : Type}

/-- A reader that is at fault with the grammar. -/
theorem failsAs_grammar (missing : Missing) (remaining : Nat) :
    FailsAs ParseError.Proper (.error (.grammar missing remaining) : Except ParseError α) :=
  .error (.grammar missing remaining)

end

theorem failsAs_textBody (bound : Nat) (t : Text) :
    FailsAs ParseError.Proper (textBody bound t) := by
  fun_induction textBody bound t with
  | case1 | case2 | case4 | case5 | case8 | case9 | case11 => exact failsAs_grammar _ _
  | case3 => exact .ok _
  | case6 _ _ _ _ _ _ _ _ _ _ _ _ ih => exact ih.map _
  | case7 _ _ _ _ _ _ _ _ _ _ ih => exact ih.map _
  | case10 _ _ _ _ _ _ _ ih => exact ih.map _
  | case12 _ _ _ _ _ _ ih => exact ih.map _

theorem failsAs_textValue (t : Text) : FailsAs ParseError.Proper (textValue t) := by
  unfold textValue
  split
  · exact failsAs_grammar _ _
  · exact failsAs_textBody _ _

theorem failsAs_unsignedNumber (negative : Bool) (t : Text) :
    FailsAs ParseError.Proper (unsignedNumber negative t) := by
  by_cases nonempty : wholePart t = []
  · obtain ⟨remaining, refused⟩ := unsignedNumber_of_empty nonempty
    rw [refused]
    exact failsAs_grammar _ _
  · obtain ⟨fraction, u, second⟩ : ∃ f u, fractionPart (t.drop (wholePart t).length) = (f, u) :=
      ⟨_, _, rfl⟩
    obtain ⟨exponent, rest, third⟩ : ∃ x r, exponentPart u = (x, r) := ⟨_, _, rfl⟩
    rw [unsignedNumber_eq nonempty rfl second third]
    split
    · split
      case isTrue long => exact .error (.tooLong long)
      case isFalse => exact .ok _
    · exact .ok _

theorem failsAs_scalarValue (t : Text) : FailsAs ParseError.Proper (scalarValue t) := by
  unfold scalarValue
  split
  · exact .ok _
  · split
    · exact failsAs_unsignedNumber _ _
    · exact failsAs_unsignedNumber _ _

/-- How the three readers fail with a bound. -/
structure FailProperly (bound : Nat) : Prop where
  value (depth : Nat) (t : Text) : FailsAs ParseError.Proper (value bound depth t)
  items (depth : Nat) (t : Text) : FailsAs ParseError.Proper (items bound depth t)
  entries (depth : Nat) (t : Text) : FailsAs ParseError.Proper (entries bound depth t)

namespace FailProperly

variable {bound : Nat} (ih : FailProperly bound) (depth : Nat) (t : Text)
include ih

theorem value_succ : FailsAs ParseError.Proper (Json.value (bound + 1) depth t) := by
  unfold Json.value
  dsimp only
  split
  · exact failsAs_grammar _ _
  split
  · exact (failsAs_textValue _).map _
  split
  · split
    · exact .error (.tooDeep _)
    · split
      · exact .ok _
      · exact (ih.items _ _).map _
  split
  · split
    · exact .error (.tooDeep _)
    · split
      · exact .ok _
      · exact (ih.entries _ _).map _
  · exact failsAs_scalarValue _

theorem items_succ : FailsAs ParseError.Proper (Json.items (bound + 1) depth t) := by
  unfold Json.items
  apply (ih.value depth t).bind
  rintro ⟨v, rest⟩
  dsimp only
  split
  · exact .ok _
  · exact (ih.items _ _).bind fun _ => .ok _
  · exact failsAs_grammar _ _

theorem entries_succ : FailsAs ParseError.Proper (Json.entries (bound + 1) depth t) := by
  unfold Json.entries
  dsimp only
  split
  · apply (failsAs_textValue _).bind
    rintro ⟨key, rest⟩
    dsimp only
    split
    · apply (ih.value _ _).bind
      rintro ⟨v, rest⟩
      dsimp only
      split
      · exact .ok _
      · exact (ih.entries _ _).bind fun _ => .ok _
      · exact failsAs_grammar _ _
    · exact failsAs_grammar _ _
  · exact failsAs_grammar _ _

end FailProperly

theorem failProperly (bound : Nat) : FailProperly bound := by
  induction bound with
  | zero =>
      constructor
      · exact fun _ _ => failsAs_grammar _ _
      · exact fun _ _ => failsAs_grammar _ _
      · exact fun _ _ => failsAs_grammar _ _
  | succ bound ih => exact ⟨ih.value_succ, ih.items_succ, ih.entries_succ⟩

/-- A text that is no document breaks the grammar, names an integer with too many digits, or nests
too deep. -/
theorem proper_of_parse (t : Text) : FailsAs ParseError.Proper (parse t) := by
  unfold parse
  apply ((failProperly _).value _ _).bind
  rintro ⟨v, rest⟩
  dsimp only
  split
  · exact .ok _
  · exact failsAs_grammar _ _

end EventStream.Json
