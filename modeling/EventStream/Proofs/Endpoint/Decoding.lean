import EventStream.Endpoint
import EventStream.Proofs.Url.Quoting
import EventStream.Text.Lemmas

/-
# What the URLs of endpoints name

An agent, a user, a session and a token are named by integers or texts, and whatever stands in such
a name, the URL that is built of two of them leads back to both: the query of a watch is read as
the two pairs that were put into it, and the path of a channel as the two parts behind the base
(`decodable`). So two URLs below one base are the same only if they name the same things, except
that an integer is written as its digits. The base is free to hold separators of its own, as long
as nobody looks for the query behind a question mark of the base.
-/

namespace EventStream.Endpoint

open Url (Place unquote)

/-! ## Names -/

/-- What is named in a URL: an integer, or a text without surrogates. -/
inductive Name where
  | number (i : Int)
  | chars (cs : List Char)

namespace Name

/-- A name as it is handed to a builder. -/
def value : Name → Value
  | .number i => .int i
  | .chars cs => .text (Text.ofChars cs)

/-- Names that are written alike: equal ones, and an integer and its digits. -/
def Alike : Name → Name → Prop
  | .number i, .number j => i = j
  | .chars s, .chars t => s = t
  | .number i, .chars cs | .chars cs, .number i => Text.ofChars cs = Text.ofInt i

end Name

theorem ofChars_injective : Function.Injective Text.ofChars :=
  List.map_injective_iff.mpr fun _ _ => CodePoint.scalar.inj

theorem ofNat_injective : Function.Injective Text.ofNat := by
  intro m n same
  have digits := ofChars_injective same
  rw [← Nat.ofDigitChars_ten_toDigits (n := m), digits, Nat.ofDigitChars_ten_toDigits]

/-- An integer in decimal as characters. -/
theorem exists_chars_ofInt (i : Int) : ∃ cs, Text.ofInt i = Text.ofChars cs := by
  cases i with
  | ofNat n => exact ⟨_, rfl⟩
  | negSucc n => exact ⟨'-' :: Nat.toDigits 10 (n + 1), rfl⟩

theorem ofNat_ne_minus (n : Nat) (t : Text) : Text.ofNat n ≠ .scalar '-' :: t := by
  intro same
  have minus : CodePoint.scalar '-' ∈ Text.ofNat n := same ▸ List.mem_cons_self
  obtain ⟨c, digit, rfl⟩ : ∃ c ∈ Nat.toDigits 10 n, c = '-' := by
    simpa [Text.ofNat, Text.ofChars] using minus
  exact absurd (Nat.isDigit_of_mem_toDigits (by decide) (by decide) digit) (by decide)

/-- Integers are told apart by their digits. -/
theorem ofInt_injective : Function.Injective Text.ofInt := by
  intro i j same
  cases i with
  | ofNat m =>
      cases j with
      | ofNat n => exact congrArg Int.ofNat (ofNat_injective same)
      | negSucc n => exact absurd same (ofNat_ne_minus m _)
  | negSucc m =>
      cases j with
      | ofNat n => exact absurd same.symm (ofNat_ne_minus n _)
      | negSucc n =>
          have digits := ofNat_injective (List.cons.inj same).2
          exact congrArg Int.negSucc (Nat.succ.inj digits)

namespace Name

theorem eq_of_written_number {i : Int} {t : Text} (writes : written (number i).value = .ok t) :
    t = Text.ofInt i := by
  have writes := mapError_eq_ok_iff.mp writes
  unfold Value.asText at writes
  split at writes
  · exact (Except.ok.inj writes).symm
  · contradiction

theorem eq_of_written_chars {cs : List Char} {t : Text}
    (writes : written (chars cs).value = .ok t) : t = Text.ofChars cs :=
  (Except.ok.inj writes).symm

theorem exists_chars_of_written {a : Name} {t : Text} (writes : written a.value = .ok t) :
    ∃ cs, t = Text.ofChars cs := by
  cases a with
  | number i =>
      rw [eq_of_written_number writes]
      exact exists_chars_ofInt i
  | chars cs => exact ⟨cs, eq_of_written_chars writes⟩

theorem alike_of_written {a b : Name} {t : Text} (writes : written a.value = .ok t)
    (writes' : written b.value = .ok t) : a.Alike b := by
  cases a with
  | number i =>
      have first := eq_of_written_number writes
      cases b with
      | number j => exact ofInt_injective (first.symm.trans (eq_of_written_number writes'))
      | chars cs => exact (eq_of_written_chars writes').symm.trans first
  | chars cs =>
      have first := eq_of_written_chars writes
      cases b with
      | number j => exact first.symm.trans (eq_of_written_number writes')
      | chars cs' => exact ofChars_injective (first.symm.trans (eq_of_written_chars writes'))

end Name

/-! ## The parts of a URL -/

/-- A value that stands quoted in a URL, and its text. -/
structure Part (place : Place) (v : Value) (t part : Text) : Prop where
  writes : written v = .ok t
  quotes : quoted place t = .ok part

namespace Part

variable {place : Place} {v : Value} {t t' part : Text}

theorem unquote_eq (stands : Part place v t part) : unquote place part = some t :=
  Url.unquote_of_quote (mapError_eq_ok_iff.mp stands.quotes)

theorem not_mem (stands : Part place v t part) (sep : CodePoint)
    (separates : sep ∈ Url.separators) : sep ∉ part :=
  Url.not_mem_of_quote separates (mapError_eq_ok_iff.mp stands.quotes)

/-- A name that can be written can stand in a URL. -/
theorem exists_of_written {a : Name} (writes : written a.value = .ok t) (place : Place) :
    ∃ part, Part place a.value t part := by
  obtain ⟨cs, rfl⟩ := Name.exists_chars_of_written writes
  exact ⟨_, writes, mapError_eq_ok_iff.mpr (Url.quote_eq_ok_iff.mpr ⟨cs, rfl, rfl⟩)⟩

/-- Only names that are written alike have the same part. -/
theorem alike {a b : Name} (stands : Part place a.value t part)
    (stands' : Part place b.value t' part) : a.Alike b := by
  obtain rfl : t = t' := Option.some.inj (stands.unquote_eq.symm.trans stands'.unquote_eq)
  exact Name.alike_of_written stands.writes stands'.writes

end Part

/-- A URL whose query, behind some front, is made of an agent and a token. -/
def IsWatchUrl (front : Text) (agent token : Value) (url : Text) : Prop :=
  ∃ s t first second, Part .query agent s first ∧ Part .query token t second ∧
    url = front ++ Text.ofString "?agent_id=" ++ first ++ Text.ofString "&token=" ++ second

/-- A watch has a URL exactly if both values have parts, and they are put behind the base. -/
theorem watchUrl_eq_ok_iff {base path url : Text} {agent token : Value} :
    watchUrl base path agent token = .ok url ↔
      IsWatchUrl (trimSlashes base ++ path) agent token url := by
  unfold watchUrl IsWatchUrl
  constructor
  · intro built
    obtain ⟨s, writes, built⟩ := ok_of_bind built
    obtain ⟨t, writes', built⟩ := ok_of_bind built
    obtain ⟨first, quotes, built⟩ := ok_of_bind built
    obtain ⟨second, quotes', built⟩ := ok_of_bind built
    refine ⟨s, t, first, second, ⟨writes, quotes⟩, ⟨writes', quotes'⟩, ?_⟩
    simpa [Text.concat] using (Except.ok.inj built).symm
  · rintro ⟨s, t, first, second, ⟨writes, quotes⟩, ⟨writes', quotes'⟩, rfl⟩
    simp only [writes, writes', quotes, quotes', ok_bind]
    simp [Text.concat, pure, Except.pure]

theorem sessionChannel_eq_ok_iff {base url : Text} {v w : Value} :
    sessionChannel base v w = .ok url ↔ ∃ s t first second, Part .path v s first ∧
      Part .path w t second ∧
        url = trimSlashes base ++ Text.ofString "/ws/" ++ (first ++ slash :: second) := by
  unfold sessionChannel
  constructor
  · intro built
    obtain ⟨s, writes, built⟩ := ok_of_bind built
    obtain ⟨first, quotes, built⟩ := ok_of_bind built
    obtain ⟨t, writes', built⟩ := ok_of_bind built
    obtain ⟨second, quotes', built⟩ := ok_of_bind built
    refine ⟨s, t, first, second, ⟨writes, quotes⟩, ⟨writes', quotes'⟩, ?_⟩
    simpa [Text.concat, Text.ofString] using (Except.ok.inj built).symm
  · rintro ⟨s, t, first, second, ⟨writes, quotes⟩, ⟨writes', quotes'⟩, rfl⟩
    simp only [writes, writes', quotes, quotes', ok_bind]
    simp [Text.concat, Text.ofString, pure, Except.pure]

/-! ## Reading URLs -/

/-- The name and the value of a pair, cut at the first equals sign. -/
def readPair (pair : Text) : Option (Text × Text) := do
  let (name, value) := Text.cut '=' pair
  return (← unquote .query name, ← unquote .query (← value))

/-- The pairs of a query, which begins at the first question mark. -/
def queryPairs (url : Text) : Option (List (Text × Text)) := do
  (Text.split '&' (← (Text.cut '?' url).2)).mapM readPair

theorem readPair_eq {name part : Text} {t : Text} (plain : .scalar '=' ∉ name)
    (reads : unquote .query name = some name) (reads' : unquote .query part = some t) :
    readPair (name ++ .scalar '=' :: part) = some (name, t) := by
  simp [readPair, Text.cut_append plain, reads, reads']

/-- The pairs in the query of a watch. -/
def watchPairs (agent token : Text) : List (Text × Text) :=
  [(Text.ofString "agent_id", agent), (Text.ofString "token", token)]

/-- The query of a watch is read as the pairs that were put into it, if it begins at the first
question mark. -/
theorem queryPairs_eq {front s t first second : Text} {v w : Value} (whole : .scalar '?' ∉ front)
    (stands : Part .query v s first) (stands' : Part .query w t second) :
    queryPairs (front ++ Text.ofString "?agent_id=" ++ first ++ Text.ofString "&token=" ++ second) =
      some (watchPairs s t) := by
  have named {name : Text} (quotes : Url.quote .query name = .ok name) :
      unquote .query name = some name := Url.unquote_of_quote quotes
  let agent : Text := Text.ofString "agent_id" ++ .scalar '=' :: first
  let token : Text := Text.ofString "token" ++ .scalar '=' :: second
  have reads : readPair agent = some (Text.ofString "agent_id", s) :=
    readPair_eq (by decide) (named rfl) stands.unquote_eq
  have reads' : readPair token = some (Text.ofString "token", t) :=
    readPair_eq (by decide) (named rfl) stands'.unquote_eq
  have unparted : .scalar '&' ∉ agent := by
    have plain : .scalar '&' ∉ Text.ofString "agent_id" := by decide
    simp [agent, plain, stands.not_mem '&' (by decide)]
  have unparted' : .scalar '&' ∉ token := by
    have plain : .scalar '&' ∉ Text.ofString "token" := by decide
    simp [token, plain, stands'.not_mem '&' (by decide)]
  have parts : front ++ Text.ofString "?agent_id=" ++ first ++ Text.ofString "&token=" ++ second =
      front ++ .scalar '?' :: (agent ++ .scalar '&' :: token) := by
    simp [agent, token, Text.ofString]
  rw [parts, queryPairs, Text.cut_append whole]
  simp [Text.split_append unparted, Text.split_of_not_mem unparted', reads, reads', watchPairs]

/-- What is read of the URL of a watch below a base: the pairs of its query, if the base holds no
question mark. -/
def NamesInQuery (base url s t : Text) : Prop :=
  .scalar '?' ∉ base → queryPairs url = some (watchPairs s t)

/-- What is read of the URL of a channel below a base: the two parts of the path behind the base and
its first part, which reach to the end of the URL. -/
def NamesInPath (base url s t : Text) : Prop :=
  ∃ tail first second, url = trimSlashes base ++ Text.ofString "/ws/" ++ tail ∧
    Text.split slash tail = [first, second] ∧ unquote .path first = some s ∧
      unquote .path second = some t ∧ .scalar '?' ∉ tail ∧ .scalar '#' ∉ tail

/-- The URLs that are built of two names lead back to the names. -/
structure Decodable (build : Value → Value → Except Error Text)
    (reads : Text → Text → Text → Prop) : Prop where
  /-- Names that can be written have a URL. -/
  built {a b : Name} {s t : Text} : written a.value = .ok s → written b.value = .ok t →
    ∃ url, build a.value b.value = .ok url
  /-- What is read of a URL is what is written of the names. -/
  read {a b : Name} {url : Text} : build a.value b.value = .ok url →
    ∃ s t, written a.value = .ok s ∧ written b.value = .ok t ∧ reads url s t
  /-- Other names have another URL. -/
  unique {a b a' b' : Name} {url : Text} : build a.value b.value = .ok url →
    build a'.value b'.value = .ok url → a.Alike a' ∧ b.Alike b'

theorem not_mem_trimSlashes {c : CodePoint} {base : Text} (whole : c ∉ base) :
    c ∉ trimSlashes base := by
  intro holds
  have kept : c ∈ base.reverse.dropWhile (· = slash) := List.mem_reverse.mp holds
  exact whole (List.mem_reverse.mp (List.dropWhile_subset _ kept))

/-- What stands on the two sides of the first separator. -/
theorem append_cons_inj {sep : CodePoint} {a b a' b' : Text} (whole : sep ∉ a) (whole' : sep ∉ a')
    (same : a ++ sep :: b = a' ++ sep :: b') : a = a' ∧ b = b' := by
  have cuts := congrArg (Text.cut sep) same
  rw [Text.cut_append whole, Text.cut_append whole'] at cuts
  simpa using cuts

theorem decodable_watchUrl (base : Text) {path : Text} (plain : .scalar '?' ∉ path) :
    Decodable (watchUrl base path) (NamesInQuery base) where
  built writes writes' := by
    obtain ⟨first, stands⟩ := Part.exists_of_written writes .query
    obtain ⟨second, stands'⟩ := Part.exists_of_written writes' .query
    exact ⟨_, watchUrl_eq_ok_iff.mpr ⟨_, _, _, _, stands, stands', rfl⟩⟩
  read built := by
    obtain ⟨s, t, first, second, stands, stands', rfl⟩ := watchUrl_eq_ok_iff.mp built
    refine ⟨s, t, stands.writes, stands'.writes, fun whole => queryPairs_eq ?_ stands stands'⟩
    simp [not_mem_trimSlashes whole, plain]
  unique built built' := by
    obtain ⟨s, t, first, second, stands, stands', rfl⟩ := watchUrl_eq_ok_iff.mp built
    obtain ⟨s', t', first', second', other, other', same⟩ := watchUrl_eq_ok_iff.mp built'
    -- the fronts are the same text, whatever separators stand in it; the first ampersand behind
    -- them parts the quoted values
    have parted : Text.ofString "&token=" = .scalar '&' :: Text.ofString "token=" := rfl
    simp only [parted, List.append_assoc, List.cons_append, List.append_cancel_left_eq] at same
    obtain ⟨rfl, later⟩ := append_cons_inj (stands.not_mem _ (by decide))
      (other.not_mem _ (by decide)) same
    obtain rfl := List.append_cancel_left later
    exact ⟨stands.alike other, stands'.alike other'⟩

theorem decodable_sessionChannel (base : Text) :
    Decodable (sessionChannel base) (NamesInPath base) where
  built writes writes' := by
    obtain ⟨first, stands⟩ := Part.exists_of_written writes .path
    obtain ⟨second, stands'⟩ := Part.exists_of_written writes' .path
    exact ⟨_, sessionChannel_eq_ok_iff.mpr ⟨_, _, _, _, stands, stands', rfl⟩⟩
  read built := by
    obtain ⟨s, t, first, second, stands, stands', rfl⟩ := sessionChannel_eq_ok_iff.mp built
    refine ⟨s, t, stands.writes, stands'.writes, _, first, second, rfl, ?_, stands.unquote_eq,
      stands'.unquote_eq, ?_, ?_⟩
    · rw [Text.split_append (stands.not_mem _ (by decide)),
        Text.split_of_not_mem (stands'.not_mem _ (by decide))]
    · simp [stands.not_mem '?' (by decide),
        stands'.not_mem '?' (by decide)]
    · simp [stands.not_mem '#' (by decide),
        stands'.not_mem '#' (by decide)]
  unique built built' := by
    obtain ⟨s, t, first, second, stands, stands', rfl⟩ := sessionChannel_eq_ok_iff.mp built
    obtain ⟨s', t', first', second', other, other', same⟩ := sessionChannel_eq_ok_iff.mp built'
    obtain ⟨rfl, rfl⟩ := append_cons_inj (stands.not_mem _ (by decide))
      (other.not_mem _ (by decide)) (List.append_cancel_left same)
    exact ⟨stands.alike other, stands'.alike other'⟩

/-- Whatever names an agent and a token, or a user and a session, is read in the URL, and no other
names have the same URL. -/
theorem decodable (base : Text) : Decodable (skillSync base) (NamesInQuery base) ∧
    Decodable (outputWatch base) (NamesInQuery base) ∧
      Decodable (sessionChannel base) (NamesInPath base) :=
  ⟨decodable_watchUrl base (by decide), decodable_watchUrl base (by decide),
    decodable_sessionChannel base⟩

-- an integer and its digits are written alike, and so are their URLs
example (base token : Text) : skillSync base (Name.number 3).value token =
    skillSync base (Name.chars ['3']).value token := rfl

end EventStream.Endpoint
