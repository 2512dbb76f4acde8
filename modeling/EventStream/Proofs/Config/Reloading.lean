import EventStream.Proofs.Config.Exchange
import EventStream.Proofs.Config.Flat
import EventStream.Proofs.Config.Layering
import EventStream.Proofs.Text.Bytes
import EventStream.Proofs.Toml.Tables
import EventStream.Text.Lemmas
import EventStream.Value.Identity

/-
# Loading and reloading settings

Settings that are loaded have the three layers at every place (`layers_and_reload`), and settings
that are reloaded are the ones that would be loaded anew from their path: nothing is left of the
file and the environment that they came from. A store keeps its path in the written form, and
writing that form again changes nothing, so loading its path means the same file.
-/

namespace EventStream.Config

open Value (Distinct Written look)

/-! ## Paths -/

/-- The slash. -/
private abbrev slash : CodePoint := .scalar '/'

theorem pathParts_slash (path : Text) : pathParts (slash :: path) = pathParts path := by
  simp [pathParts, Text.split_cons_self]

/-- The parts of a path hold no slash, and each of them is there to be read. -/
theorem plain_of_mem_pathParts {path part : Text} (among : part ∈ pathParts path) :
    slash ∉ part ∧ part.isEmpty = false ∧ part ≠ [.scalar '.'] := by
  obtain ⟨piece, kept⟩ := List.mem_filter.mp among
  exact ⟨Text.not_mem_of_mem_split piece, by simpa using kept⟩

theorem pathParts_join (path : Text) :
    pathParts (Text.join [slash] (pathParts path)) = pathParts path := by
  by_cases parts : pathParts path = []
  · rw [parts]
    rfl
  · have pieces : Text.split slash (Text.join [slash] (pathParts path)) = pathParts path :=
      Text.split_join parts fun part among => (plain_of_mem_pathParts among).1
    have kept : (pathParts path).filter (fun part => !part.isEmpty && part ≠ [.scalar '.']) =
        pathParts path :=
      List.filter_eq_self.mpr fun part among => by
        simpa using (plain_of_mem_pathParts among).2
    calc pathParts (Text.join [slash] (pathParts path))
      _ = (pathParts path).filter (fun part => !part.isEmpty && part ≠ [.scalar '.']) :=
          congrArg _ pieces
      _ = pathParts path := kept

theorem takeWhile_join (path : Text) :
    (Text.join [slash] (pathParts path)).takeWhile (· = slash) = [] := by
  cases parts : pathParts path with
  | nil => rfl
  | cons part rest =>
      have plain := plain_of_mem_pathParts (parts ▸ List.mem_cons_self : part ∈ pathParts path)
      obtain ⟨c, tail, rfl⟩ := List.exists_cons_of_ne_nil (l := part) (by
        rintro rfl
        simp at plain)
      have first : c ≠ slash := fun same => plain.1 (same ▸ List.mem_cons_self)
      cases rest <;> simp [Text.join, first]

theorem pathRoot_cases (path : Text) :
    pathRoot path = [] ∨ pathRoot path = [slash] ∨ pathRoot path = [slash, slash] := by
  unfold pathRoot
  split
  · exact .inl rfl
  · exact .inr (.inr rfl)
  · exact .inr (.inl rfl)

/-- The root and the parts of a path are those of its written form. -/
theorem written_parts (path : Text) :
    pathRoot (pathRoot path ++ Text.join [slash] (pathParts path)) = pathRoot path ∧
      pathParts (pathRoot path ++ Text.join [slash] (pathParts path)) = pathParts path := by
  have start := takeWhile_join path
  rcases pathRoot_cases path with root | root | root <;> rw [root]
  · exact ⟨by simp [pathRoot, start], pathParts_join path⟩
  · refine ⟨by simp [pathRoot, start]; rfl, ?_⟩
    rw [List.singleton_append, pathParts_slash, pathParts_join]
  · refine ⟨by simp [pathRoot, start]; rfl, ?_⟩
    rw [List.cons_append, pathParts_slash, List.singleton_append, pathParts_slash, pathParts_join]

/-- A path that is written is not changed by writing it again. -/
theorem normalizePath_normalizePath (path : Text) :
    normalizePath (normalizePath path) = normalizePath path := by
  by_cases empty : (pathRoot path ++ Text.join [slash] (pathParts path)).isEmpty
  · have point : normalizePath path = "." := if_pos empty
    rw [point]
    rfl
  · have written : normalizePath path = pathRoot path ++ Text.join [slash] (pathParts path) :=
      if_neg empty
    rw [written, normalizePath, (written_parts path).1, (written_parts path).2]
    exact if_neg empty

/-! ## Stores -/

/-- Environments whose standard path is written as paths are. -/
def Environment.Regular (e : Environment) : Prop := normalizePath e.standardPath = e.standardPath

/-- The path of the settings file, if this one is given or none. -/
def Environment.settingsPath (e : Environment) : Option Text → Text
  | none => e.defaultPath
  | some path => normalizePath path

theorem Environment.Regular.normalize {e : Environment} (regular : e.Regular)
    (path : Option Text) : normalizePath (e.settingsPath path) = e.settingsPath path := by
  cases path with
  | some path => exact normalizePath_normalizePath path
  | none =>
      change normalizePath e.defaultPath = e.defaultPath
      unfold Environment.defaultPath
      split
      · exact regular
      · exact regular
      · exact normalizePath_normalizePath _

namespace Store

/-- Loading puts the layers together. -/
theorem load_result (e : Environment) (now : Text) (path : Option Text) :
    (load e now path).result = (build e.files e.vars (e.settingsPath path)).result.map
      fun data => ⟨e.settingsPath path, data, now⟩ := by
  cases path <;> rfl

/-- What loading gives was put together from the layers. -/
theorem of_load {e : Environment} {now : Text} {path : Option Text} {s : Store}
    (loads : (load e now path).result = .ok s) : ∃ data,
      (build e.files e.vars (e.settingsPath path)).result = .ok data ∧
        s = ⟨e.settingsPath path, data, now⟩ := by
  rw [load_result] at loads
  cases built : (build e.files e.vars (e.settingsPath path)).result with
  | error f =>
      rw [built] at loads
      contradiction
  | ok data =>
      rw [built] at loads
      exact ⟨data, rfl, (Except.ok.inj loads).symm⟩

/-- Stores that were loaded, and perhaps reloaded since, in whatever environments. -/
inductive Held : Store → Prop
  | load {e : Environment} {now : Text} {path : Option Text} {s : Store} : e.Regular →
      (load e now path).result = .ok s → Held s
  | reload {s : Store} (e : Environment) (now : Text) : Held s → Held (s.reload e now).2.1

theorem Held.normalize {s : Store} (held : s.Held) : normalizePath s.path = s.path := by
  induction held with
  | @load e now path s regular loaded =>
      obtain ⟨data, -, rfl⟩ := of_load loaded
      exact regular.normalize path
  | reload e now _ ih => rw [path_of_ends (ends_reload _ e now), ih]

/-- A store that was reloaded is the one that would be loaded anew from its path. -/
theorem load_of_reload {s : Store} (held : s.Held) {e : Environment} {now : Text}
    {cs : List Change} (reloads : (s.reload e now).2.2 = .ok cs) :
    (load e now (some s.path)).result = .ok (s.reload e now).2.1 := by
  have path : e.settingsPath (some s.path) = s.path := held.normalize
  obtain ⟨data, built, store, -⟩ := of_reload reloads
  rw [load_result, path, built, store]
  rfl

end Store

/-! ## The layers of loaded settings -/

theorem readFile_of_parse {files : Files} {path t : Text} {bytes : List UInt8} {file : Table}
    (stands : files.lookup path = some bytes) (reads : Utf8.decode bytes = .ok t)
    (parses : Toml.parse t = .ok file) : (readFile files path).result = .ok file := by
  simp only [readFile, stands, reads, parses]

theorem written_of_readFile {files : Files} {path : Text} {file : Table}
    (reads : (readFile files path).result = .ok file) : Written (.table file) := by
  unfold readFile at reads
  split at reads
  · obtain rfl := Except.ok.inj reads
    exact .empty
  · split at reads
    · contradiction
    · split at reads
      case h_1 table parsed =>
        obtain rfl := Except.ok.inj reads
        exact Toml.written_of_parse parsed
      case h_2 =>
        obtain rfl := Except.ok.inj reads
        exact .empty
      all_goals contradiction

theorem build_of_unread {files : Files} {vars : Variables} {path : Text} {f : Fault}
    (fails : (readFile files path).result = .error f) :
    (build files vars path).result = .error f := by
  unfold build
  generalize readFile files path = read at fails
  obtain ⟨log, result⟩ := read
  obtain rfl : result = .error f := fails
  rfl

theorem build_of_readFile {files : Files} {vars : Variables} {path : Text} {file : Table}
    (reads : (readFile files path).result = .ok file) :
    (build files vars path).result =
      (applyOverrides vars (mergeTable defaults file) overrides).result := by
  unfold build
  generalize readFile files path = read at reads
  obtain ⟨log, result⟩ := read
  obtain rfl : result = .ok file := reads
  rfl

/-- Loaded settings have the layers at every place: the value of its variable, where that is set and
can be read, and elsewhere what stands there when the file is put over the defaults. No table has a
key twice, so this says which settings they are, and they are the same in whichever order the
variables are looked at. The exception are files that have something else than a table for the group
of a variable that is set. And settings that are reloaded are those that would be loaded anew. -/
theorem layers_and_reload (e : Environment) (now : Text) :
    (∀ path file, (readFile e.files (e.settingsPath path)).result = .ok file →
      (∀ o ∈ overrides, (e.vars.lookup o.source).isSome →
        ∀ v, file.get? o.group = some v → v.table?.isSome) →
      ∃ data, (Store.load e now path).result = .ok ⟨e.settingsPath path, data, now⟩ ∧
        Distinct (.table data) ∧
        (∀ place, look (some (.table data)) place = layered e.vars file place) ∧
        ∀ os, os.Perm overrides →
          (applyOverrides e.vars (mergeTable defaults file) os).result = .ok data) ∧
    ∀ s : Store, s.Held → ∀ cs, (s.reload e now).2.2 = .ok cs →
      (Store.load e now (some s.path)).result = .ok (s.reload e now).2.1 := by
  refine ⟨fun path file reads groups => ?_,
    fun s held cs reloads => Store.load_of_reload held reloads⟩
  obtain ⟨data, written, stands, applies⟩ := look_layers (written_of_readFile reads) groups
  refine ⟨data, ?_, written.distinct, stands, applies⟩
  rw [Store.load_result, build_of_readFile reads, applies overrides (.refl _)]
  rfl

/-- A file that adds to a group and brings one of its own. -/
def householdText : Text := Text.ofString "[auth]\nrealm='x'\n[own]\nb=true\n"

/-- What the file says. -/
def householdFile : Table :=
  [("auth", .table [("realm", .text "x")]), ("own", .table [("b", .bool true)])]

/-- An environment with that file, which sets a token and a timeout that is no number. -/
def household : Environment where
  vars := [("SAC_OPEN_TIMEOUT", "soon"), ("SAC_TOKEN", "s3cret")]
  files := [("/etc/sac.toml", householdText.flatMap Utf8.encodeOne)]
  standardPath := "/etc/sac.toml"

theorem readFile_household :
    (readFile household.files (household.settingsPath none)).result = .ok householdFile :=
  readFile_of_parse rfl (Utf8.decode_ofChars _) (by decide +kernel)

theorem build_household : ∃ data,
    (build household.files household.vars household.standardPath).result = .ok data ∧
      Shallow data ∧ shown data "own.b" = some (.bool true) := by
  have made : ∃ data ∈ (applyOverrides household.vars (mergeTable defaults householdFile)
      overrides).result.toOption, Shallow data ∧ shown data "own.b" = some (.bool true) := by
    decide +kernel
  obtain ⟨data, made, shows⟩ := made
  exact ⟨data, (build_of_readFile readFile_household).trans (ok_of_mem_toOption made), shows⟩

theorem layers_and_reload_household : ∃ data s cs,
    (Store.load household "noon" none).result = .ok ⟨"/etc/sac.toml", data, "noon"⟩ ∧
    look (some (.table data)) ["auth"] = some (.table ["token", "realm"]) ∧
    look (some (.table data)) ["auth", "token"] = some (.leaf (.text "s3cret")) ∧
    look (some (.table data)) ["auth", "realm"] = some (.leaf (.text "x")) ∧
    look (some (.table data)) ["own", "b"] = some (.leaf (.bool true)) ∧
    look (some (.table data)) ["transport", "open_timeout"] = some (.leaf (.float 10.0)) ∧
    (applyOverrides household.vars (mergeTable defaults householdFile)
      overrides.reverse).result = .ok data ∧
    (Store.load { household with vars := [], files := [] } "dawn" none).result = .ok s ∧
    (s.reload household "noon").2.2 = .ok cs ∧
    (s.reload household "noon").2.1 = ⟨"/etc/sac.toml", data, "noon"⟩ := by
  have groups : ∀ o ∈ overrides, (householdFile.get? o.group).all (·.table?.isSome) := by decide
  obtain ⟨data, loads, -, stands, applies⟩ :=
    (layers_and_reload household "noon").1 none householdFile readFile_household
      fun o among _ v found => by simpa [found] using groups o among
  -- The settings were first loaded without the file and the variables.
  let s : Store := ⟨"/etc/sac.toml", defaults, "dawn"⟩
  have held : s.Held :=
    @Store.Held.load { household with vars := [], files := [] } "dawn" none s rfl rfl
  have built : (build household.files household.vars s.path).result = .ok data := by
    obtain ⟨_, built, ⟨⟩⟩ := Store.of_load loads
    exact built
  have shallow : Shallow data := by
    obtain ⟨made, built', shallow, -⟩ := build_household
    exact Except.ok.inj (built'.symm.trans built) ▸ shallow
  have reloads : (s.reload household "noon").2.2 =
      .ok (changes (flatten s.data) (flatten data)) :=
    Store.reload_of_built (by decide) built shallow (comparable_flatten (by decide) _)
  have again := (layers_and_reload household "noon").2 s held _ reloads
  exact ⟨data, s, _, loads, stands _, stands _, stands _, stands _, stands _,
    applies _ overrides.reverse_perm, rfl, reloads, Except.ok.inj (again.symm.trans loads)⟩

end EventStream.Config
