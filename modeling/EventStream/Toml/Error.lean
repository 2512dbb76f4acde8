import EventStream.Value.Coercion

/-
# Errors about settings files

A settings file that is not well-formed, or that defines something twice, is one kind of mistake:
the reader says that there is one and leaves the place to the author. An integer with too many
digits is another: the file is well-formed, but the number cannot be read. And values may stand
inside each other too deep to be read at all, whether they are well-formed or not.
-/

namespace EventStream.Toml

/-- Why a settings file cannot be read. -/
inductive Error where
  | malformed
  | number (e : CoercionError)
  | tooDeep
  deriving DecidableEq

/-- The result of reading something, with the text that follows. -/
abbrev Read (α : Type) := Except Error (α × Text)

/-- Whether a code point is a space or a tab. -/
def isSpace (c : CodePoint) : Bool := c = .scalar ' ' || c = .scalar '\t'

/-- Whether a code point is a control character that no text and no comment may hold. Line feeds
are looked at where they matter. -/
def isIllegal (c : CodePoint) : Bool := (c.toNat < 32 && c ≠ .scalar '\t') || c.toNat = 127

/-- Whether a code point is an ASCII digit. -/
def isDigit (c : CodePoint) : Bool := 48 ≤ c.toNat && c.toNat ≤ 57

/-- The text after the spaces at its start. -/
def skipSpaces (t : Text) : Text := t.dropWhile isSpace

/-- The text after a comment, if one comes next. A comment ends before the line feed. -/
def skipComment (t : Text) : Except Error Text :=
  match t with
  | .scalar '#' :: rest =>
    let comment := rest.takeWhile (· ≠ .scalar '\n')
    if comment.any isIllegal then .error .malformed else .ok (rest.drop comment.length)
  | _ => .ok t

/-- The text after blanks, line feeds and comments. -/
def skipLines : (bound : Nat) → Text → Except Error Text
  | 0, t => .ok t
  | bound + 1, t =>
    let t := t.dropWhile fun c => isSpace c || c = .scalar '\n'
    match t with
    | .scalar '#' :: _ => (skipComment t).bind (skipLines bound)
    | _ => .ok t

end EventStream.Toml
