import EventStream.Text.Lemmas
import EventStream.Proofs.Url.Quoting
import EventStream.Url.Redaction
import Mathlib.Data.List.Forall2

/-
# Redaction hides tokens and nothing else

A URL with a query is a text in front of the first question mark and pieces between ampersands
behind it, and it is so in one way only (`Queried`). Redaction goes through the pieces one by one:
of a token it shows three stars, of everything else all there is. So what is shown of a URL is the
same for two URLs exactly if they differ in the values of tokens only, and nothing more is hidden
when it is redacted again (`redact_shows_all_but_tokens`).

A token that stands at the end of a query is therefore hidden completely, wherever the base of the
URL holds separators of its own (`redact_append_token`). All that this asks of the token is that it
holds no ampersand, which would end the piece, and no quoted text holds one.
-/

namespace EventStream

/-- Pieces are joined with the last one after all others. -/
theorem Text.join_concat {pieces : List Text} (some : pieces ≠ []) (sep last : Text) :
    join sep (pieces ++ [last]) = join sep pieces ++ sep ++ last := by
  induction pieces with
  | nil => exact absurd rfl some
  | cons piece pieces ih =>
      cases pieces with
      | nil => rfl
      | cons next pieces =>
          rw [List.cons_append, List.cons_append, join_cons_cons, join_cons_cons,
            ← List.cons_append, ih (by simp)]
          simp

namespace Url

/-! ## Pieces of a query -/

/-- The piece of a query that carries a value as token. -/
def tokenPiece (value : Text) : Text := Text.ofString "token=" ++ value

/-- A piece and what is shown of it: three stars in place of the value of a token, otherwise the
piece itself. -/
inductive ShownPiece : Text → Text → Prop
  | token (value : Text) : ShownPiece (tokenPiece value) (tokenPiece "***")
  | other {piece : Text} : (∀ value, piece ≠ tokenPiece value) → ShownPiece piece piece

/-- Pieces that differ in the value of a token at most. -/
inductive AlikePiece : Text → Text → Prop
  | same (piece : Text) : AlikePiece piece piece
  | tokens (value value' : Text) : AlikePiece (tokenPiece value) (tokenPiece value')

section

variable {piece other : Text}

theorem tokenPiece_or_ne (piece : Text) :
    (∃ value, piece = tokenPiece value) ∨ ∀ value, piece ≠ tokenPiece value := by
  rw [← not_exists]
  exact Classical.em _

theorem redactPiece_tokenPiece (value : Text) :
    redactPiece (tokenPiece value) = tokenPiece "***" := by
  have plain : .scalar '=' ∉ secretName := by decide
  have named : Text.cut '=' (tokenPiece value) = (secretName, some value) :=
    Text.cut_append plain value
  rw [redactPiece, named]
  rfl

theorem redactPiece_of_ne (plain : ∀ value, piece ≠ tokenPiece value) :
    redactPiece piece = piece := by
  unfold redactPiece
  split
  case h_1 name value cuts =>
    have other : name ≠ secretName := by
      rintro rfl
      exact plain value (Text.eq_of_cut cuts)
    exact if_neg other
  case h_2 => rfl

/-- What is shown of a token is shown of no other piece. -/
theorem redactPiece_ne_of_ne (plain : ∀ value, piece ≠ tokenPiece value) (value : Text) :
    redactPiece piece ≠ redactPiece (tokenPiece value) := by
  rw [redactPiece_of_ne plain, redactPiece_tokenPiece]
  exact plain _

theorem shownPiece_redactPiece (piece : Text) : ShownPiece piece (redactPiece piece) := by
  rcases tokenPiece_or_ne piece with ⟨value, rfl⟩ | plain
  · rw [redactPiece_tokenPiece]
    exact .token value
  · rw [redactPiece_of_ne plain]
    exact .other plain

theorem shownPiece_iff : ShownPiece piece other ↔ redactPiece piece = other := by
  constructor
  · intro shown
    cases shown with
    | token value => exact redactPiece_tokenPiece value
    | other plain => exact redactPiece_of_ne plain
  · rintro rfl
    exact shownPiece_redactPiece piece

theorem alikePiece_iff : AlikePiece piece other ↔ redactPiece piece = redactPiece other := by
  constructor
  · intro alike
    cases alike with
    | same => rfl
    | tokens value value' => rw [redactPiece_tokenPiece, redactPiece_tokenPiece]
  · intro same
    rcases tokenPiece_or_ne piece with ⟨value, rfl⟩ | plain
    · rcases tokenPiece_or_ne other with ⟨value', rfl⟩ | plain'
      · exact .tokens value value'
      · exact absurd same.symm (redactPiece_ne_of_ne plain' value)
    · rcases tokenPiece_or_ne other with ⟨value', rfl⟩ | plain'
      · exact absurd same (redactPiece_ne_of_ne plain value')
      · rw [redactPiece_of_ne plain, redactPiece_of_ne plain'] at same
        exact same ▸ .same piece

theorem redactPiece_redactPiece (piece : Text) :
    redactPiece (redactPiece piece) = redactPiece piece := by
  rcases tokenPiece_or_ne piece with ⟨value, rfl⟩ | plain
  · simp only [redactPiece_tokenPiece]
  · rw [redactPiece_of_ne plain, redactPiece_of_ne plain]

/-- What is shown of a piece does not end it. -/
theorem not_mem_redactPiece (whole : .scalar '&' ∉ piece) : .scalar '&' ∉ redactPiece piece := by
  have shows := shownPiece_redactPiece piece
  generalize redactPiece piece = shown at shows ⊢
  cases shows with
  | token => decide
  | other => exact whole

end

/-! ## URLs with a query -/

/-- A URL with a query, part by part. -/
@[ext]
structure Queried where
  head : Text
  pieces : List Text
  head_whole : .scalar '?' ∉ head
  pieces_some : pieces ≠ []
  pieces_whole : ∀ piece ∈ pieces, .scalar '&' ∉ piece

namespace Queried

variable (q : Queried)

/-- A query as it is written. -/
def query : Text := Text.join [.scalar '&'] q.pieces

/-- A URL with a query as it is written. -/
def text : Text := q.head ++ .scalar '?' :: q.query

theorem cut_text : Text.cut '?' q.text = (q.head, some q.query) := Text.cut_append q.head_whole _

theorem split_query : Text.split '&' q.query = q.pieces :=
  Text.split_join q.pieces_some q.pieces_whole

/-- The parts of a URL are found in what is written. -/
theorem text_injective : Function.Injective text := by
  intro p q same
  have cuts := congrArg (Text.cut '?') same
  rw [cut_text, cut_text, Prod.mk.injEq, Option.some.injEq] at cuts
  have pieces := congrArg (Text.split '&') cuts.2
  rw [split_query, split_query] at pieces
  exact Queried.ext cuts.1 pieces

/-- Every text with a question mark is a URL with a query. -/
theorem exists_text {url : Text} (asks : .scalar '?' ∈ url) : ∃ q : Queried, url = q.text := by
  obtain ⟨query, cuts⟩ : ∃ query, (Text.cut '?' url).2 = some query :=
    Option.ne_none_iff_exists'.mp fun none => Text.cut_snd_eq_none_iff.mp none asks
  refine ⟨⟨(Text.cut '?' url).1, Text.split '&' query, Text.not_mem_cut_fst _ _,
    Text.split_ne_nil _ _, fun _ => Text.not_mem_of_mem_split⟩, ?_⟩
  calc url
    _ = (Text.cut '?' url).1 ++ .scalar '?' :: query := Text.eq_of_cut (Prod.ext rfl cuts)
    _ = _ := by rw [text, Queried.query, Text.join_split]

/-- A URL with every piece of its query as it is shown. -/
def hidden : Queried where
  head := q.head
  pieces := q.pieces.map redactPiece
  head_whole := q.head_whole
  pieces_some := by simpa using q.pieces_some
  pieces_whole := by simpa using fun piece holds => not_mem_redactPiece (q.pieces_whole piece holds)

theorem redact_text : redact q.text = q.hidden.text := by
  rw [redact, cut_text]
  simp only [split_query]
  rfl

/-- A URL with one more piece behind its query. -/
def append {piece : Text} (whole : .scalar '&' ∉ piece) : Queried where
  head := q.head
  pieces := q.pieces ++ [piece]
  head_whole := q.head_whole
  pieces_some := by simp
  pieces_whole := by
    intro other holds
    rcases List.mem_append.mp holds with holds | holds
    · exact q.pieces_whole other holds
    · exact List.mem_singleton.mp holds ▸ whole

theorem append_text {piece : Text} (whole : .scalar '&' ∉ piece) :
    (q.append whole).text = q.text ++ .scalar '&' :: piece := by
  simp [text, query, append, Text.join_concat q.pieces_some]

theorem hidden_append {piece : Text} (whole : .scalar '&' ∉ piece) :
    (q.append whole).hidden = q.hidden.append (not_mem_redactPiece whole) :=
  Queried.ext rfl (by simp [hidden, append])

end Queried

/-- The token at the end of a query is hidden, and nothing else of the URL changes with it. -/
theorem redact_append_token {front token : Text} (query : .scalar '?' ∈ front)
    (whole : .scalar '&' ∉ token) :
    redact (front ++ Text.ofString "&token=" ++ token) =
      redact front ++ Text.ofString "&token=***" := by
  obtain ⟨q, rfl⟩ := Queried.exists_text query
  have unparted : .scalar '&' ∉ tokenPiece token := by
    have plain : .scalar '&' ∉ Text.ofString "token=" := by decide
    simp [tokenPiece, plain, whole]
  calc redact (q.text ++ Text.ofString "&token=" ++ token)
    _ = redact (q.append unparted).text := by
        rw [q.append_text, List.append_assoc]
        rfl
    _ = q.hidden.text ++ .scalar '&' :: redactPiece (tokenPiece token) := by
        rw [Queried.redact_text, Queried.hidden_append, Queried.append_text]
    _ = redact q.text ++ Text.ofString "&token=***" := by
        rw [redactPiece_tokenPiece, Queried.redact_text]
        rfl

/-! ## What is shown of a URL -/

/-- A URL and what is shown of it: as many pieces in the same order, each as it is shown. -/
inductive Shown : Text → Text → Prop
  | whole {url : Text} : .scalar '?' ∉ url → Shown url url
  | queried {q shown : Queried} : q.head = shown.head →
      List.Forall₂ ShownPiece q.pieces shown.pieces → Shown q.text shown.text

/-- URLs that differ in the values of tokens at most. -/
inductive Alike : Text → Text → Prop
  | same (url : Text) : Alike url url
  | queried {p q : Queried} : p.head = q.head → List.Forall₂ AlikePiece p.pieces q.pieces →
      Alike p.text q.text

theorem redact_of_not_mem {url : Text} (plain : .scalar '?' ∉ url) : redact url = url := by
  rw [redact, Text.cut_of_not_mem plain]

/-- What is shown of a URL has a query exactly if the URL has one. -/
theorem mem_redact_iff {url : Text} : .scalar '?' ∈ redact url ↔ .scalar '?' ∈ url := by
  by_cases asks : .scalar '?' ∈ url
  · obtain ⟨q, rfl⟩ := Queried.exists_text asks
    rw [Queried.redact_text]
    simp [Queried.text]
  · rw [redact_of_not_mem asks]

theorem forall₂_shownPiece_iff {pieces shown : List Text} :
    List.Forall₂ ShownPiece pieces shown ↔ pieces.map redactPiece = shown := by
  have pointwise : ShownPiece = fun piece => Eq (redactPiece piece) := by
    funext piece shown
    exact propext shownPiece_iff
  rw [pointwise, ← List.forall₂_map_left_iff, List.forall₂_eq_eq_eq]

theorem forall₂_alikePiece_iff {pieces pieces' : List Text} :
    List.Forall₂ AlikePiece pieces pieces' ↔
      pieces.map redactPiece = pieces'.map redactPiece := by
  have pointwise : AlikePiece = fun piece other => redactPiece piece = redactPiece other := by
    funext piece other
    exact propext alikePiece_iff
  rw [pointwise, ← List.forall₂_map_right_iff, ← List.forall₂_map_left_iff,
    List.forall₂_eq_eq_eq]

theorem shown_iff {url shown : Text} : Shown url shown ↔ redact url = shown := by
  constructor
  · intro shows
    cases shows with
    | whole plain => exact redact_of_not_mem plain
    | queried head pieces =>
        rw [Queried.redact_text]
        exact congrArg _ (Queried.ext head (forall₂_shownPiece_iff.mp pieces))
  · rintro rfl
    by_cases asks : .scalar '?' ∈ url
    · obtain ⟨q, rfl⟩ := Queried.exists_text asks
      rw [Queried.redact_text]
      exact .queried rfl (forall₂_shownPiece_iff.mpr rfl)
    · rw [redact_of_not_mem asks]
      exact .whole asks

theorem alike_iff {url other : Text} : Alike url other ↔ redact url = redact other := by
  constructor
  · intro alike
    cases alike with
    | same => rfl
    | queried head pieces =>
        rw [Queried.redact_text, Queried.redact_text]
        exact congrArg _ (Queried.ext head (forall₂_alikePiece_iff.mp pieces))
  · intro same
    -- redaction keeps the question mark, so either both texts have a query or none of them
    have both : .scalar '?' ∈ url ↔ .scalar '?' ∈ other := by
      rw [← mem_redact_iff, same, mem_redact_iff]
    by_cases asks : .scalar '?' ∈ url
    · obtain ⟨p, rfl⟩ := Queried.exists_text asks
      obtain ⟨q, rfl⟩ := Queried.exists_text (both.mp asks)
      rw [Queried.redact_text, Queried.redact_text] at same
      obtain ⟨head, pieces⟩ := Queried.ext_iff.mp (Queried.text_injective same)
      exact .queried head (forall₂_alikePiece_iff.mpr pieces)
    · rw [redact_of_not_mem asks, redact_of_not_mem (mt both.mpr asks)] at same
      exact same ▸ .same url

/-- What is shown of a URL is shown of it as a whole. -/
theorem redact_redact (url : Text) : redact (redact url) = redact url := by
  by_cases asks : .scalar '?' ∈ url
  · obtain ⟨q, rfl⟩ := Queried.exists_text asks
    rw [Queried.redact_text, Queried.redact_text]
    refine congrArg _ (Queried.ext rfl ?_)
    simp [Queried.hidden, redactPiece_redactPiece]
  · rw [redact_of_not_mem asks, redact_of_not_mem asks]

/-- Of a URL the values of its tokens are hidden, and everything else is shown, piece by piece. Of
two URLs the same is shown exactly if they differ in the values of tokens at most, and redaction
hides nothing more of what it has shown. -/
theorem redact_shows_all_but_tokens (url other : Text) :
    (∀ shown, redact url = shown ↔ Shown url shown) ∧
      (redact url = redact other ↔ Alike url other) ∧ redact (redact url) = redact url :=
  ⟨fun _ => shown_iff.symm, alike_iff.symm, redact_redact url⟩

-- a token without a value sign, one behind a second question mark and a name in capitals stay
example : redact "ws://h/w?token&token=a=b&&x?token=c&Token=d&token=" =
    Text.ofString "ws://h/w?token&token=***&&x?token=c&Token=d&token=***" := by decide +kernel

end Url

end EventStream
