import EventStream.Proofs.Endpoint.Deriving
import EventStream.Watch

/-
# Where a feed is

A feed is named by a URL of its own or by a path below the base of the API, and which of the two a
text is shows at its beginning: a URL begins with a scheme (`Absolute`). A path is joined to the
base with one slash between them, however many there were (`Joined`).

A path may carry another URL further behind, in its query or in one of its parts. Such a path is
misread: it is handed back as if it were a URL, although it has no scheme, so nothing can ever
connect to it. Every other feed is where it belongs (`located_unless_misread`). A base without
anything but slashes is the one case in which a misread path makes no difference, and the settings
never give such a base.
-/

namespace EventStream

theorem Text.containsText_iff {needle t : Text} :
    containsText needle t = true ↔ needle <:+: t := by
  induction t with
  | nil => simp [containsText]
  | cons c t ih => simp [containsText, List.infix_cons_iff, ih]

namespace Endpoint

/-- What stands behind the scheme of a URL. -/
def schemeEnd : Text := "://"

/-- A text that begins with a scheme is a URL of its own. -/
def Absolute (path : Text) : Prop :=
  ∃ scheme rest, Url.isScheme scheme = true ∧ path = scheme ++ schemeEnd ++ rest

/-- A path that does not begin with a scheme, but holds somewhere what stands behind one. -/
structure Misread (path : Text) : Prop where
  relative : ¬ Absolute path
  holds : schemeEnd <:+: path

/-- A base and a path, and both with one slash between them. -/
inductive Joined : Text → Text → Text → Prop
  | slashed {front rest : Text} (m n : Nat) : front.getLast? ≠ some slash →
      rest.head? ≠ some slash →
      Joined (front ++ List.replicate m slash) (List.replicate n slash ++ rest)
        (front ++ slash :: rest)

/-- A base and the name of a feed, and where the feed is. -/
inductive Located (base : Text) : Text → Text → Prop
  | absolute {path : Text} : Absolute path → Located base path path
  | below {path url : Text} : ¬ Absolute path → Joined base path url → Located base path url

/-- A base without anything but slashes, and a path with one slash in front. -/
structure Bare (base path : Text) : Prop where
  slashes : ∀ c ∈ base, c = slash
  once : ∃ rest, path = slash :: rest ∧ rest.head? ≠ some slash

variable {base path url : Text}

theorem Absolute.holds (absolute : Absolute path) : schemeEnd <:+: path := by
  obtain ⟨scheme, rest, -, rfl⟩ := absolute
  exact ⟨scheme, rest, rfl⟩

/-- A path with a slash in front is no URL of its own. -/
theorem not_absolute_of_slash (rest : Text) : ¬ Absolute (slash :: rest) := by
  rintro ⟨scheme, later, known, same⟩
  cases scheme with
  | nil => contradiction
  | cons c scheme =>
      obtain rfl : slash = c := (List.cons.inj same).1
      contradiction

/-! ## Paths below a base -/

/-- A text is one that does not begin with a slash, with slashes in front of it. -/
theorem exists_replicate_append (t : Text) :
    ∃ n rest, t = List.replicate n slash ++ rest ∧ rest.head? ≠ some slash := by
  induction t with
  | nil => exact ⟨0, [], rfl, nofun⟩
  | cons c t ih =>
      by_cases slashed : c = slash
      · obtain ⟨n, rest, rfl, stripped⟩ := ih
        exact ⟨n + 1, rest, by rw [slashed, List.replicate_succ, List.cons_append], stripped⟩
      · exact ⟨0, c :: t, rfl, by simpa using slashed⟩

theorem dropStart_replicate_append {rest : Text} (stripped : rest.head? ≠ some slash) (n : Nat) :
    Text.dropStart (· = slash) (List.replicate n slash ++ rest) = rest := by
  rw [Text.dropStart, List.dropWhile_append_of_pos (by simp)]
  cases rest with
  | nil => rfl
  | cons c rest => exact List.dropWhile_cons_of_neg (by simpa using stripped)

theorem joined_iff : Joined base path url ↔
    url = Text.concat [trimSlashes base, "/", Text.dropStart (· = slash) path] := by
  have joins {front rest : Text} (m n : Nat) (trimmed : front.getLast? ≠ some slash)
      (stripped : rest.head? ≠ some slash) :
      Text.concat [trimSlashes (front ++ List.replicate m slash), "/",
        Text.dropStart (· = slash) (List.replicate n slash ++ rest)] = front ++ slash :: rest := by
    rw [trimSlashes_append_replicate, trimSlashes_of_getLast? trimmed,
      dropStart_replicate_append stripped]
    simp [Text.concat, Text.ofString]
  constructor
  · rintro ⟨m, n, trimmed, stripped⟩
    exact (joins m n trimmed stripped).symm
  · rintro rfl
    obtain ⟨front, m, rfl, trimmed⟩ := exists_replicate base
    obtain ⟨n, rest, rfl, stripped⟩ := exists_replicate_append path
    rw [joins m n trimmed stripped]
    exact .slashed m n trimmed stripped

theorem eq_nil_of_slashes {t : Text} (slashes : ∀ c ∈ t, c = slash)
    (trimmed : t.getLast? ≠ some slash) : t = [] := by
  cases last : t.getLast? with
  | none => exact List.getLast?_eq_none_iff.mp last
  | some c =>
      have slashed : c = slash := slashes c (List.mem_of_getLast? last)
      exact absurd (last.trans (congrArg some slashed)) trimmed

theorem Joined.bare_of_eq (joined : Joined base path url) (same : path = url) :
    Bare base path := by
  cases joined with
  | @slashed front rest m n trimmed stripped =>
      have marks : List.replicate n slash = front ++ [slash] :=
        List.append_cancel_right (same.trans (List.append_cons front slash rest))
      obtain rfl : front = [] := eq_nil_of_slashes (fun c holds =>
        List.eq_of_mem_replicate (marks ▸ List.mem_append_left [slash] holds)) trimmed
      exact ⟨fun c => List.eq_of_mem_replicate, rest, same, stripped⟩

/-- Joining gives the path itself exactly if nothing is put in front of it. -/
theorem joined_self_iff : Joined base path path ↔ Bare base path := by
  constructor
  · exact fun joined => joined.bare_of_eq rfl
  · rintro ⟨slashes, rest, rfl, stripped⟩
    rw [List.eq_replicate_of_mem slashes]
    exact @Joined.slashed [] rest base.length 1 nofun stripped

/-! ## Feeds -/

theorem stream_of_holds (holds : schemeEnd <:+: path) : stream base path = path :=
  if_pos (Text.containsText_iff.mpr holds)

theorem joined_stream (clean : ¬ schemeEnd <:+: path) : Joined base path (stream base path) :=
  joined_iff.mpr (if_neg (mt Text.containsText_iff.mp clean))

/-- A feed is where it belongs unless its path is misread. -/
theorem located_stream_iff :
    Located base path (stream base path) ↔ ¬ Misread path ∨ Bare base path := by
  by_cases holds : schemeEnd <:+: path
  · -- the path is handed back, which is right for a URL, and otherwise only by coincidence
    rw [stream_of_holds holds]
    constructor
    · intro located
      cases located with
      | absolute absolute => exact .inl fun misread => misread.relative absolute
      | below relative joined => exact .inr (joined_self_iff.mp joined)
    · intro fits
      by_cases absolute : Absolute path
      · exact .absolute absolute
      · have bare : Bare base path := fits.resolve_left (not_not_intro ⟨absolute, holds⟩)
        exact .below absolute (joined_self_iff.mpr bare)
  · -- the path is joined, and without the end of a scheme it is no URL
    refine iff_of_true (.below ?_ (joined_stream holds)) (.inl ?_)
    · exact fun absolute => holds absolute.holds
    · exact fun misread => holds misread.holds

/-! ## Feeds by the settings -/

theorem getLast?_trimSlashes (t : Text) : (trimSlashes t).getLast? ≠ some slash := by
  obtain ⟨front, n, rfl, trimmed⟩ := exists_replicate t
  rwa [trimSlashes_append_replicate, trimSlashes_of_getLast? trimmed]

theorem getLast?_of_urlOf {found : Config.Found} (reads : urlOf found = .ok url) :
    url.getLast? ≠ some slash := by
  unfold urlOf at reads
  split at reads
  · obtain rfl := Except.ok.inj reads
    nofun
  · split at reads
    · obtain rfl := Except.ok.inj reads
      exact getLast?_trimSlashes _
    · split at reads <;> contradiction

/-- The base of the API is more than slashes. -/
theorem not_bare_of_apiBase {s : Config.Store} (reads : apiBase s = .ok base) (path : Text) :
    ¬ Bare base path := by
  obtain ⟨url, found, reads⟩ := ok_of_bind reads
  split at reads
  case isTrue => contradiction
  case isFalse filled =>
    obtain rfl := Except.ok.inj reads
    have trimmed : url.getLast? ≠ some slash := by
      unfold setting at found
      split at found
      · contradiction
      · exact getLast?_of_urlOf found
    intro bare
    exact filled (by simp [eq_nil_of_slashes bare.slashes trimmed])

/-- A feed is where it belongs below a base exactly if its path is not misread, or if nothing is
put in front of it; a misread path is handed back as it is. A base that the settings give always
has something to put in front, so by the settings a feed is where it belongs exactly if its path is
not misread. -/
theorem located_unless_misread (base path : Text) :
    (Located base path (stream base path) ↔ ¬ Misread path ∨ Bare base path) ∧
    (Misread path → stream base path = path) ∧
    ∀ s api token model, apiBase s = .ok api →
      ∃ url, (Watch.feed path token model).endpoint s = .ok url ∧
        (Located api path url ↔ ¬ Misread path) := by
  refine ⟨located_stream_iff, fun misread => stream_of_holds misread.holds, ?_⟩
  intro s api token model reads
  have named : (Watch.feed path token model).endpoint s = .ok (stream api path) := by
    rw [Watch.endpoint, reads]
    rfl
  exact ⟨_, named, located_stream_iff.trans (or_iff_left (not_bare_of_apiBase reads path))⟩

/-- A path with another URL in its query. -/
def redirection : Text := "/go?to=http://x/y"

theorem misread_redirection : Misread redirection where
  relative := not_absolute_of_slash _
  holds := Text.containsText_iff.mp (by decide)

/-- Settings that name an API. -/
def apiSettings : Config.Store where
  path := []
  data := [("endpoints", .table [("api_url", .text "http://h/api/")])]

theorem not_located_redirection : Misread redirection ∧
    stream "http://h/api" redirection = redirection ∧
    ¬ Located "http://h/api" redirection redirection ∧
    ∃ url, (Watch.feed redirection .null none).endpoint apiSettings = .ok url ∧
      ¬ Located "http://h/api" redirection url := by
  obtain ⟨located, unchanged, feeds⟩ := located_unless_misread "http://h/api" redirection
  have same := unchanged misread_redirection
  obtain ⟨url, named, below⟩ := feeds apiSettings "http://h/api" .null none rfl
  refine ⟨misread_redirection, same, fun right => ?_, url, named, fun right => ?_⟩
  · rw [same] at located
    rcases located.mp right with fits | bare
    · exact fits misread_redirection
    · exact absurd (bare.slashes (.scalar 'h') (by decide)) (by decide)
  · exact below.mp right misread_redirection

end Endpoint

end EventStream
