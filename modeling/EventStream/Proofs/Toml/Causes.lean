import EventStream.Toml.Parser
import EventStream.Proofs.Results

/-
# Why a settings file cannot be read

A settings file that cannot be read is malformed, with two exceptions: a decimal integer may have no
more than 4300 digits, and one that has more is refused although it is well-formed; and lists and
inline tables that stand inside each other may lie too deep to be read. The lemmas follow the reader
from its parts to the whole file (`proper_of_parse`), and each of them only says that nothing else
can come out: where a reader is put together from others, it fails as they do. That lists can indeed
lie too deep is shown apart (`parse_of_nested`).
-/

namespace EventStream.Toml

/-- The errors of the reader: a mistake of form, an integer with more digits than one may have, and
values too deep inside each other. -/
inductive Error.Proper : Error → Prop
  | malformed : Proper .malformed
  | tooLong {count : Nat} : Numeral.digitLimit < count → Proper (.number (.tooManyDigits count))
  | tooDeep : Proper .tooDeep

/-- A result that is no other error. -/
abbrev Sober {α : Type} (x : Except Error α) : Prop := FailsAs Error.Proper x

theorem Sober.malformed {α : Type} : Sober (.error .malformed : Except Error α) :=
  .error Error.Proper.malformed

/-! ## Texts -/

theorem sober_hexEscape (width : Nat) (t : Text) : Sober (hexEscape width t) := by
  unfold hexEscape
  dsimp only
  split
  · exact Sober.malformed
  · split
    · split
      · exact .ok _
      · exact Sober.malformed
    · exact Sober.malformed

theorem sober_skipLineEnd (t : Text) : Sober (skipLineEnd t) := by
  unfold skipLineEnd
  split
  · exact .ok _
  · exact .ok _
  · exact Sober.malformed

theorem sober_quotedBody (manyLines : Bool) (bound : Nat) (t : Text) :
    Sober (quotedBody manyLines bound t) := by
  induction bound generalizing t with
  | zero => exact Sober.malformed
  | succ bound ih =>
      cases t with
      | nil => exact Sober.malformed
      | cons c rest =>
          simp only [quotedBody]
          split
          · split
            · exact .ok _
            · split
              · exact .ok _
              · exact (ih _).map _
          · split
            · split
              · exact Sober.malformed
              · split
                · exact (sober_skipLineEnd _).bind fun _ => ih _
                · split
                  · exact (sober_hexEscape _ _).bind fun _ => (ih _).bind fun _ => .ok _
                  · split
                    · exact Sober.malformed
                    · exact (ih _).map _
            · split
              · exact Sober.malformed
              · exact (ih _).map _

theorem sober_plainLine (t : Text) : Sober (plainLine t) := by
  unfold plainLine
  dsimp only
  split
  · exact Sober.malformed
  · split
    · exact Sober.malformed
    · exact .ok _

theorem sober_plainLines (t : Text) : Sober (plainLines t) := by
  fun_induction plainLines t with
  | case1 => exact .ok _
  | case2 => exact Sober.malformed
  | case3 _ _ _ _ ih => exact ih.map _
  | case4 => exact Sober.malformed

theorem sober_literal (t : Text) : Sober (literal t) := by
  unfold literal
  split
  · exact (sober_quotedBody _ _ _).map _
  · exact sober_quotedBody _ _ _
  · exact (sober_plainLines _).map _
  · exact sober_plainLine _
  · exact Sober.malformed

theorem sober_lineLiteral (t : Text) : Sober (lineLiteral t) := by
  unfold lineLiteral
  split
  · exact sober_quotedBody _ _ _
  · exact sober_plainLine _
  · exact Sober.malformed

/-! ## Blanks and keys -/

theorem sober_skipComment (t : Text) : Sober (skipComment t) := by
  unfold skipComment
  split
  · dsimp only
    split
    · exact Sober.malformed
    · exact .ok _
  · exact .ok _

theorem sober_skipLines (bound : Nat) (t : Text) : Sober (skipLines bound t) := by
  induction bound generalizing t with
  | zero => exact .ok _
  | succ bound ih =>
      rw [skipLines]
      split
      · exact (sober_skipComment _).bind ih
      · exact .ok _

theorem sober_endLine (t : Text) : Sober (endLine t) := by
  apply (sober_skipComment _).bind
  intro rest
  split
  · exact .ok _
  · exact .ok _
  · exact Sober.malformed

theorem sober_keyPart (t : Text) : Sober (keyPart t) := by
  unfold keyPart
  dsimp only
  split
  · exact sober_lineLiteral t
  · exact .ok _

theorem sober_keyPath (bound : Nat) (t : Text) : Sober (keyPath bound t) := by
  induction bound generalizing t with
  | zero => exact Sober.malformed
  | succ bound ih =>
      apply (sober_keyPart t).bind
      intro part
      dsimp only
      split
      · exact (ih _).bind fun _ => .ok _
      · exact .ok _

theorem sober_expectEquals (t : Text) : Sober (expectEquals t) := by
  unfold expectEquals
  split
  · exact .ok _
  · exact Sober.malformed

/-! ## Values -/

theorem sober_moment {t : Text} {x : Except Error (Moment × Text)} (read : moment? t = some x) :
    Sober x := by
  unfold moment? at read
  split at read
  · obtain rfl := Option.some.inj read
    split
    · exact Sober.malformed
    · split
      · exact .ok _
      · split
        · exact .ok _
        · exact .ok _
  · obtain ⟨found, -, rfl⟩ := Option.map_eq_some_iff.mp read
    exact .ok _

/-- Only here can an integer have too many digits. -/
theorem sober_decimal {t : Text} {x : Except Error (Value × Text)} (read : decimal? t = some x) :
    Sober x := by
  unfold decimal? at read
  dsimp only at read
  split at read
  · contradiction
  · split at read
    · obtain rfl := Option.some.inj read
      split
      case isTrue long =>
        rintro e ⟨⟩
        exact .tooLong long
      case isFalse => exact .ok _
    · obtain rfl := Option.some.inj read
      exact .ok _

theorem sober_scalarValue (t : Text) : Sober (scalarValue t) := by
  unfold scalarValue
  split
  · exact .ok _
  · split
    · rename_i found read
      exact (sober_moment read).map _
    · split
      · exact .ok _
      · split
        · rename_i found read
          exact sober_decimal read
        · split
          · exact .ok _
          · exact Sober.malformed

theorem sober_value (bound : Nat) : (∀ calls t, Sober (value bound calls t)) ∧
    (∀ calls t, Sober (items bound calls t)) ∧
    ∀ calls closed t text, Sober (inlineEntries bound calls closed t text) := by
  induction bound with
  | zero =>
      refine ⟨fun calls t => ?_, fun calls t => ?_, fun calls closed t text => ?_⟩
      · rw [value]
        exact Sober.malformed
      · rw [items]
        exact Sober.malformed
      · rw [inlineEntries]
        exact Sober.malformed
  | succ bound ih =>
      obtain ⟨ofValue, ofItems, ofEntries⟩ := ih
      refine ⟨fun calls t => ?_, fun calls t => ?_, fun calls closed t text => ?_⟩
      · cases calls with
        | zero =>
            rw [value]
            exact .error Error.Proper.tooDeep
        | succ calls =>
            cases t with
            | nil => exact Sober.malformed
            | cons c rest =>
                simp only [value]
                split
                · exact (sober_literal _).map _
                · split
                  · apply (sober_skipLines _ _).bind
                    intro inside
                    split
                    · exact .ok _
                    · exact (ofItems _ _).bind fun _ => .ok _
                  · split
                    · split
                      · exact .ok _
                      · exact (ofEntries _ _ _ _).map _
                    · exact sober_scalarValue _
      · simp only [items]
        apply (ofValue _ t).bind
        intro found
        apply (sober_skipLines _ _).bind
        intro after
        split
        · exact .ok _
        · apply (sober_skipLines _ _).bind
          intro more
          split
          · exact .ok _
          · exact (ofItems _ _).bind fun _ => .ok _
        · exact Sober.malformed
      · simp only [inlineEntries]
        apply (sober_keyPath _ _).bind
        intro key
        apply (sober_expectEquals _).bind
        intro after
        apply (ofValue _ _).bind
        intro found
        split
        · exact Sober.malformed
        · split
          · exact Sober.malformed
          · split
            · exact .ok _
            · exact ofEntries _ _ _ _
            · exact Sober.malformed

/-! ## The document -/

namespace Document

variable {path : Path}

theorem sober_modifyAt (d : Document) (path : Path) (f : Table → Option Table) :
    Sober (d.modifyAt path f) := by
  unfold Document.modifyAt
  split
  · exact .ok _
  · exact Sober.malformed

theorem sober_openTable (d : Document) (path : Path) : Sober (d.openTable path) := by
  unfold Document.openTable
  dsimp only
  split
  · exact Sober.malformed
  · exact sober_modifyAt _ _ _

theorem sober_openItem (d : Document) (path : Path) : Sober (d.openItem path) := by
  unfold Document.openItem
  dsimp only
  split
  · exact Sober.malformed
  · split
    · exact Sober.malformed
    · exact sober_modifyAt _ _ _

theorem sober_define (d : Document) (path key : Path) (v : Value) :
    Sober (d.define path key v) := by
  unfold Document.define
  dsimp only
  split
  · exact Sober.malformed
  · split
    · exact Sober.malformed
    · exact sober_modifyAt _ _ _

end Document

/-! ## Lines -/

theorem sober_header (d : Document) (t : Text) : Sober (header d t) := by
  unfold header
  split
  · apply (sober_keyPath _ _).bind
    intro key
    apply (Document.sober_openItem _ _).bind
    intro next
    split
    · exact .ok _
    · exact Sober.malformed
  · apply (sober_keyPath _ _).bind
    intro key
    apply (Document.sober_openTable _ _).bind
    intro next
    split
    · exact .ok _
    · exact Sober.malformed
  · exact Sober.malformed

theorem sober_definition (d : Document) (path : Path) (t : Text) :
    Sober (definition d path t) := by
  apply (sober_keyPath _ _).bind
  intro key
  apply (sober_expectEquals _).bind
  intro after
  apply ((sober_value _).1 _ _).bind
  intro found
  exact (Document.sober_define _ _ _ _).bind fun _ => .ok _

theorem sober_lines (bound : Nat) (d : Document) (path : Path) (t : Text) :
    Sober (lines bound d path t) := by
  induction bound generalizing d path t with
  | zero => exact .ok _
  | succ bound ih =>
      simp only [lines]
      split
      · exact .ok _
      · split
        · exact ih _ _ _
        · split
          · exact (sober_header _ _).bind fun _ => (sober_endLine _).bind fun _ => ih _ _ _
          · split
            · exact (sober_endLine _).bind fun _ => ih _ _ _
            · split
              · exact (sober_definition _ _ _).bind fun _ =>
                  (sober_endLine _).bind fun _ => ih _ _ _
              · exact Sober.malformed

/-- A settings file that cannot be read is malformed, or an integer in it has too many digits, or
its values lie too deep. -/
theorem proper_of_parse {t : Text} {e : Error} (refused : parse t = .error e) : e.Proper :=
  (sober_lines _ _ _ _).map _ e refused

/-! ## Values that lie too deep -/

/-- The bracket with which a list begins. -/
private abbrev bracket : CodePoint := .scalar '['

/-- A list is not read if its first item is a list that is too deep. -/
theorem value_of_bracket {bound calls : Nat} {t : Text}
    (inner : value bound (calls - 1) (bracket :: t) = .error .tooDeep) :
    value (bound + 2) (calls + 1) (bracket :: bracket :: t) = .error .tooDeep := by
  have lines : skipLines (t.length + 2) (bracket :: t) = .ok (bracket :: t) := rfl
  have items : items (bound + 1) (calls - 1) (bracket :: t) = .error .tooDeep := by
    simp only [Toml.items, inner]
    rfl
  have unquoted : (decide (bracket = quote) || decide (bracket = apostrophe)) = false := by decide
  simp only [value, List.length_cons, lines, unquoted, Bool.false_eq_true, if_false, if_true,
    ok_bind]
  change (Toml.items (bound + 1) (calls - 1) (bracket :: t) >>= _) = _
  rw [items]
  rfl

/-- Where as many lists begin inside each other as there are calls for, the next one is not read,
whatever follows. -/
theorem value_of_nested (n : Nat) {bound calls : Nat} (ample : 2 * n < bound)
    (deep : calls ≤ 2 * n) (t : Text) :
    value bound calls (List.replicate n bracket ++ bracket :: t) = .error .tooDeep := by
  induction n generalizing bound calls with
  | zero =>
      obtain ⟨b, rfl⟩ := Nat.exists_eq_add_of_lt ample
      obtain rfl := Nat.le_zero.mp deep
      simp only [value]
  | succ n ih =>
      obtain ⟨b, rfl⟩ : ∃ b, bound = b + 2 := ⟨bound - 2, by omega⟩
      cases calls with
      | zero => simp only [value]
      | succ calls =>
          have inner := @ih b (calls - 1) (by omega) (by omega)
          obtain ⟨u, same⟩ : ∃ u, List.replicate n bracket ++ bracket :: t = bracket :: u := by
            cases n <;> exact ⟨_, rfl⟩
          rw [same] at inner
          rw [List.replicate_succ, List.cons_append, same]
          exact value_of_bracket inner

theorem unifyLines_cons {c : CodePoint} (other : c ≠ .scalar '\r') (t : Text) :
    unifyLines (c :: t) = c :: unifyLines t := by
  rw [unifyLines]
  rintro rest rfl
  exact absurd rfl other

theorem unifyLines_replicate (n : Nat) (t : Text) :
    unifyLines (List.replicate n bracket ++ t) = List.replicate n bracket ++ unifyLines t := by
  induction n with
  | zero => rfl
  | succ n ih => rw [List.replicate_succ, List.cons_append, unifyLines_cons (by decide), ih]; rfl

/-- A settings file in which more lists begin inside each other than there are calls for cannot be
read, whether they end or not. -/
theorem parse_of_nested {n : Nat} (deep : callLimit ≤ 2 * n) (t : Text) :
    parse (.scalar 'a' :: .scalar '=' :: (List.replicate n bracket ++ bracket :: t)) =
      .error .tooDeep := by
  let u := List.replicate n bracket ++ bracket :: unifyLines t
  have unified : unifyLines (.scalar 'a' :: .scalar '=' ::
      (List.replicate n bracket ++ bracket :: t)) = .scalar 'a' :: .scalar '=' :: u := by
    rw [unifyLines_cons (by decide), unifyLines_cons (by decide), unifyLines_replicate,
      unifyLines_cons (by decide)]
  have refused : value (2 * (u.length + 1) + 2) callLimit u = .error .tooDeep := by
    refine value_of_nested n ?_ deep _
    simp only [u, List.length_append, List.length_replicate]
    omega
  have defines : definition {} [] (.scalar 'a' :: .scalar '=' :: u) = .error .tooDeep := by
    have key : keyPath (u.length + 2 + 1) (.scalar 'a' :: .scalar '=' :: u) =
        .ok ([[.scalar 'a']], .scalar '=' :: u) := rfl
    have equals : expectEquals (.scalar '=' :: u) = .ok u := by
      cases n <;> rfl
    simp only [definition, List.length_cons, key, ok_bind, equals, refused]
    rfl
  rw [parse, unified, List.length_cons, lines]
  change Except.map _ (definition {} [] (.scalar 'a' :: .scalar '=' :: u) >>= _) = _
  rw [defines]
  rfl

end EventStream.Toml
