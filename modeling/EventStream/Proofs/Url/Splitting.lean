import EventStream.Proofs.Results
import EventStream.Text.Lemmas
import EventStream.Url.Split
import Mathlib.Data.List.TakeWhile

/-
# Splitting a URL of the web

A URL that is written as scheme, authority and path with something behind them is split into these
parts again (`split_text`). What stands behind the path begins with a question mark or a number sign
and is otherwise free: it may hold separators, spaces and line ends, of which some are removed, but
nothing of it reaches the parts in front.
-/

namespace EventStream

namespace Text

variable {sep : CodePoint}

/-- A text in front that does not hold the separator is in front of the cut. -/
theorem cut_append_of_not_mem {front : Text} (whole : sep ∉ front) (later : Text) :
    cut sep (front ++ later) = (front ++ (cut sep later).1, (cut sep later).2) := by
  induction front with
  | nil => rfl
  | cons c front ih =>
      have other : c ≠ sep := fun same => whole (by simp [same])
      have rest := ih fun holds => whole (List.mem_cons_of_mem c holds)
      rw [List.cons_append, cut_cons_of_ne other, rest]
      rfl

end Text

namespace Url

/-- Printable ASCII other than the space. -/
def IsGraphic (c : CodePoint) : Prop := 33 ≤ c.toNat ∧ c.toNat ≤ 126

instance : DecidablePred IsGraphic := fun _ => inferInstanceAs (Decidable (_ ∧ _))

/-- A URL of the web, part by part. What follows the path is a query, a fragment, or both. -/
structure Web where
  secure : Bool
  authority : Text
  path : Text
  later : Text
  authority_named : authority ≠ []
  authority_plain : ∀ c ∈ authority, IsGraphic c ∧ c ∉ Text.ofString "/?#[]"
  path_plain : ∀ c ∈ path, IsGraphic c ∧ c ∉ Text.ofString "?#"
  path_rooted : ∀ c ∈ path.head?, c = .scalar '/'
  later_marked : ∀ c ∈ later.head?, c ∈ Text.ofString "?#"

namespace Web

variable (u : Web)

/-- The scheme of a URL of the web. -/
def scheme : Text := if u.secure then "https" else "http"

/-- A URL of the web as it is written. -/
def text : Text :=
  u.scheme ++ Text.ofString "://" ++ u.authority ++ u.path ++ u.later

/-- What is left of the text behind the path when line ends and tabs are removed. -/
def kept : Text := u.later.filter (!isRemoved ·)

theorem not_isRemoved_of_isGraphic {c : CodePoint} (graphic : IsGraphic c) :
    isRemoved c = false := by
  have other {ch : Char} (low : ch.toNat < 33) : c ≠ .scalar ch := by
    rintro rfl
    exact absurd graphic.1 (not_le.mpr low)
  have tab := @other '\t' (by decide)
  have back := @other '\r' (by decide)
  have line := @other '\n' (by decide)
  simp [isRemoved, tab, back, line]

theorem kept_marked : ∀ c ∈ u.kept.head?, c ∈ Text.ofString "?#" := by
  have marked := u.later_marked
  unfold kept
  cases later : u.later with
  | nil => simp
  | cons c t =>
      have mark : c ∈ Text.ofString "?#" := marked c (by simp [later])
      have stays : isRemoved c = false := by
        have : ∀ c ∈ Text.ofString "?#", isRemoved c = false := by decide
        exact this c mark
      simpa [List.filter_cons, stays] using mark

/-- Nothing is removed in front of the query. -/
theorem clean_text : (u.text.dropWhile isControlOrSpace).filter (!isRemoved ·) = u.scheme ++
    .scalar ':' :: .scalar '/' :: .scalar '/' :: (u.authority ++ (u.path ++ u.kept)) := by
  have authority : u.authority.filter (!isRemoved ·) = u.authority :=
    List.filter_eq_self.mpr fun c holds => by
      simp [not_isRemoved_of_isGraphic (u.authority_plain c holds).1]
  have path : u.path.filter (!isRemoved ·) = u.path :=
    List.filter_eq_self.mpr fun c holds => by
      simp [not_isRemoved_of_isGraphic (u.path_plain c holds).1]
  have first : u.text.dropWhile isControlOrSpace = u.text := by
    unfold text scheme
    cases u.secure <;> rfl
  have scheme : (u.scheme ++ Text.ofString "://").filter (!isRemoved ·) =
      u.scheme ++ Text.ofString "://" := by
    unfold scheme
    cases u.secure <;> decide
  rw [first]
  unfold text
  rw [List.filter_append, List.filter_append, List.filter_append, authority, path, scheme]
  simp [kept, Text.ofString]

theorem cutScheme_eq (t : Text) : cutScheme (u.scheme ++ .scalar ':' :: t) = (u.scheme, t) := by
  have whole : .scalar ':' ∉ u.scheme := by
    unfold scheme
    cases u.secure <;> decide
  have known : isScheme u.scheme = true ∧ Text.toLowerAscii u.scheme = u.scheme := by
    unfold scheme
    cases u.secure <;> decide
  rw [cutScheme, Text.cut_append whole]
  simp [known]

/-- What follows the authority ends it. -/
theorem endsAuthority_head : ∀ c ∈ (u.path ++ u.kept).head?, endsAuthority c = true := by
  have rooted := u.path_rooted
  have marked := u.kept_marked
  have marks : ∀ c ∈ Text.ofString "?#", endsAuthority c = true := by decide
  cases path : u.path with
  | nil => exact fun c first => marks c (marked c first)
  | cons c t =>
      obtain rfl : c = .scalar '/' := rooted c (by simp [path])
      rintro d ⟨⟩
      rfl

/-- The authority ends where the path begins. -/
theorem cutAuthority_eq :
    cutAuthority (.scalar '/' :: .scalar '/' :: (u.authority ++ (u.path ++ u.kept))) =
      some (u.authority, u.path ++ u.kept) := by
  have inside : ∀ c ∈ u.authority, (!endsAuthority c) = true := by
    intro c holds
    have other := (u.authority_plain c holds).2
    have marks : ∀ mark ∈ Text.ofString "/?#", mark ∈ Text.ofString "/?#[]" := by decide
    have plain (mark : CodePoint) (ends : mark ∈ Text.ofString "/?#") : c ≠ mark :=
      fun same => other (same ▸ marks mark ends)
    simp [endsAuthority, plain (.scalar '/') (by decide), plain (.scalar '?') (by decide),
      plain (.scalar '#') (by decide)]
  -- nothing inside ends the authority, and what follows begins with what does
  have outside := u.endsAuthority_head
  rw [cutAuthority, List.takeWhile_append_of_pos inside, List.dropWhile_append_of_pos inside]
  cases rest : u.path ++ u.kept with
  | nil => simp
  | cons c t => simp [outside c (by simp [rest])]

theorem checkBrackets_authority : checkBrackets u.authority = .ok () := by
  have plain (mark : CodePoint) (bracket : mark ∈ Text.ofString "[]") : mark ∉ u.authority := by
    have marks : ∀ mark ∈ Text.ofString "[]", mark ∈ Text.ofString "/?#[]" := by decide
    exact fun holds => (u.authority_plain mark holds).2 (marks mark bracket)
  have opens : u.authority.contains (CodePoint.scalar '[') = false := by
    simp [plain (.scalar '[') (by decide)]
  have closes : u.authority.contains (CodePoint.scalar ']') = false := by
    simp [plain (.scalar ']') (by decide)]
  rw [checkBrackets, opens, closes]

theorem checkLookalikes_authority : checkLookalikes u.authority = .ok () := by
  have ascii : ∀ n ∈ separatorLookalikes, 127 ≤ n := by decide
  have plain : u.authority.any (fun c => separatorLookalikes.contains c.toNat) = false := by
    rw [List.any_eq_false]
    intro c holds
    have low := (u.authority_plain c holds).1.2
    simp only [List.contains_eq_mem, decide_eq_true_eq]
    intro lookalike
    have high := ascii _ lookalike
    omega
  rw [checkLookalikes, plain]
  rfl

/-- Only the path stands in front of a query and a fragment. -/
theorem cut_path : (Text.cut '?' (Text.cut '#' (u.path ++ u.kept)).1).1 = u.path := by
  have plain (mark : CodePoint) (marks : mark ∈ Text.ofString "?#") : mark ∉ u.path :=
    fun holds => (u.path_plain mark holds).2 marks
  -- a question mark behind a number sign belongs to the fragment
  have first : (Text.cut '?' (Text.cut '#' u.kept).1).1 = [] := by
    have marked := u.kept_marked
    cases kept : u.kept with
    | nil => rfl
    | cons c t =>
        have mark : c = .scalar '?' ∨ c = .scalar '#' := by
          simpa [Text.ofString] using marked c (by simp [kept])
        rcases mark with rfl | rfl
        · rw [Text.cut_cons_of_ne (by decide), Text.cut_cons_self]
        · rw [Text.cut_cons_self]
          rfl
  rw [Text.cut_append_of_not_mem (plain '#' (by decide)),
    Text.cut_append_of_not_mem (plain '?' (by decide)), first, List.append_nil]

/-- A URL of the web is split into the parts of which it is written. -/
theorem split_text : ∃ parts, split u.text = .ok parts ∧ parts.scheme = u.scheme ∧
    parts.authority = u.authority ∧ parts.path = u.path := by
  unfold split
  rw [u.clean_text, u.cutScheme_eq]
  simp only [u.cutAuthority_eq, u.checkBrackets_authority, ok_bind, pure_bind,
    u.checkLookalikes_authority]
  exact ⟨_, rfl, rfl, rfl, u.cut_path⟩

end Web

end Url

end EventStream
