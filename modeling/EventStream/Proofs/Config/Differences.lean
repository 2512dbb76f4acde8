import EventStream.Proofs.Config.Flat
import EventStream.Proofs.Config.Reloading

/-
# What a reload reports

A reload compares the old settings with the new ones as flat tables, name by name, and reports every
name under which they show different values, in order. What is shown under a name is the last leaf
that bears it. So a place is reported truthfully if it bears its name alone (`Sole`), in particular
where no key holds a point; elsewhere one leaf can hide what happens to another
(`changes_of_reload`).
-/

namespace EventStream.Config

open Value (Distinct Written look)

/-! ## Values that differ -/

/-- Whether a place differs: it has a value in one tree only, or values that are not equal. -/
def Differ : Option Value → Option Value → Prop
  | none, none => False
  | some v, some w => v.same w = false
  | _, _ => True

theorem same_null {v : Value} (notNull : v ≠ .null) :
    v.same .null = false ∧ Value.same .null v = false := by
  cases v <;> first | contradiction | exact ⟨rfl, rfl⟩

/-- Where nothing is null, an absent value can stand for null in a comparison. -/
theorem differ_iff {old new : Option Value} (notNull : old ≠ some .null)
    (notNull' : new ≠ some .null) : Differ old new ↔ sameAt old new = false := by
  cases old with
  | none =>
      cases new with
      | none => exact ⟨False.elim, nofun⟩
      | some w =>
          have differs := (same_null fun null => notNull' (congrArg some null)).2
          exact ⟨fun _ => differs, fun _ => trivial⟩
  | some v =>
      cases new with
      | none =>
          have differs := (same_null fun null => notNull (congrArg some null)).1
          exact ⟨fun _ => differs, fun _ => trivial⟩
      | some w => exact .rfl

section

variable {before after : Table}

theorem mem_changes {c : Change} : c ∈ changes before after ↔
    c.old = before.get? c.path ∧ c.new = after.get? c.path ∧ sameAt c.old c.new = false := by
  obtain ⟨path, old, new⟩ := c
  simp only [changes, List.mem_filterMap]
  constructor
  · rintro ⟨name, -, reported⟩
    split at reported
    case isTrue => contradiction
    case isFalse differs =>
      obtain ⟨rfl, rfl, rfl⟩ := Change.mk.inj (Option.some.inj reported)
      exact ⟨rfl, rfl, Bool.eq_false_iff.mpr differs⟩
  · rintro ⟨rfl, rfl, differs⟩
    refine ⟨path, (Text.sort_perm _).mem_iff.mpr ?_, by rw [if_neg (by simp [differs])]⟩
    by_contra absent
    -- A name that neither table has shows null in both.
    rw [allNames, List.mem_append, List.mem_filter, not_or, not_and] at absent
    have old : before.get? path = none := Table.get?_eq_none_iff.mpr absent.1
    have new : after.get? path = none := by
      refine Table.get?_eq_none_iff.mpr fun among => absent.2 among ?_
      simp [Table.has, old]
    rw [old, new] at differs
    contradiction

theorem nodup_allNames (distinct : before.keys.Nodup) (distinct' : after.keys.Nodup) :
    (allNames before after).Nodup := by
  refine distinct.append (distinct'.filter _) fun name among among' => ?_
  obtain ⟨v, found⟩ := Table.exists_get?_of_mem among
  simp [Table.has, found] at among'

/-- The names that are reported come in order, each once. -/
theorem paths_changes (distinct : before.keys.Nodup) (distinct' : after.keys.Nodup) :
    ((changes before after).map (·.path)).Pairwise fun p q => Text.ble p q ∧ p ≠ q := by
  have names : (changes before after).map (·.path) =
      (Text.sort (allNames before after)).filter
        fun name => !sameAt (before.get? name) (after.get? name) := by
    rw [changes, List.map_filterMap, ← List.filterMap_eq_filter]
    refine List.filterMap_congr fun name _ => ?_
    cases same : sameAt (before.get? name) (after.get? name) <;> simp [same, Option.guard]
  have once : (Text.sort (allNames before after)).Nodup :=
    (Text.sort_perm _).nodup_iff.mpr (nodup_allNames distinct distinct')
  rw [names]
  exact ((Text.pairwise_sort _).and once).filter _

end

/-! ## Trees that were loaded -/

section

variable {files : Files} {vars : Variables} {path : Text} {data : Table}

/-- Settings that come about hold no key twice and no null. -/
theorem written_of_build (built : (build files vars path).result = .ok data) :
    Written (.table data) := by
  cases reads : (readFile files path).result with
  | error f =>
      rw [build_of_unread reads] at built
      contradiction
  | ok file =>
      rw [build_of_readFile reads] at built
      exact written_of_applyOverrides (written_mergeTable (written_of_readFile reads)) built

theorem Store.written_of_ends {s s' : Store} {e : Environment} {now : Text}
    {answer : Except Fault (List Change)} (written : Written (.table s.data))
    (ends : Ends s e now s' answer) : Written (.table s'.data) := by
  cases ends with
  | untried | unbuilt => exact written
  | unseen _ built | uncompared _ built | done _ built => exact written_of_build built

theorem Store.Held.written {s : Store} (held : s.Held) : Written (.table s.data) := by
  induction held with
  | load _ loads =>
      obtain ⟨data, built, rfl⟩ := of_load loads
      exact written_of_build built
  | reload e now _ ih => exact written_of_ends ih (ends_reload _ e now)

end

/-! ## Places and names -/

/-- The value at a place, if a value stands there and no table. -/
def leafAt (data : Table) (place : List Text) : Option Value :=
  match look (some (.table data)) place with
  | some (.leaf v) => some v
  | _ => none

/-- Whether no other value of a tree bears the name of a place. -/
def Sole (data : Table) (place : List Text) : Prop :=
  ∀ other v, leafAt data other = some v → dotted other = dotted place → other = place

/-- Whether the names that lead to the values of a tree hold no points. -/
def Dotless (data : Table) : Prop :=
  ∀ place v, leafAt data place = some v → ∀ key ∈ place, .scalar '.' ∉ key

section

variable {data : Table} {place : List Text} {v : Value}

theorem leafAt_eq_some_iff :
    leafAt data place = some v ↔ look (some (.table data)) place = some (.leaf v) := by
  unfold leafAt
  split
  case h_1 w stands => rw [stands, Option.some.injEq, Option.some.injEq, Value.Spot.leaf.injEq]
  case h_2 none => exact ⟨nofun, fun stands => absurd stands (none v)⟩

theorem ne_nil_of_leafAt (stands : leafAt data place = some v) : place ≠ [] := by
  rintro rfl
  contradiction

/-- A value that bears its name alone is shown under it. -/
theorem shown_of_sole (distinct : Distinct (.table data)) (sole : Sole data place) :
    shown data (dotted place) = leafAt data place := by
  refine Option.ext fun v => ?_
  rw [leafAt_eq_some_iff]
  exact shown_dotted distinct fun other w stands =>
    sole other w (leafAt_eq_some_iff.mpr stands)

theorem shown_ne_null (written : Written (.table data)) (name : Text) :
    shown data name ≠ some .null := by
  intro stands
  obtain ⟨place, among, -⟩ := exists_of_shown stands
  exact written.look_ne_null place ((mem_leavesOf written.distinct).mp among)

/-- Without points in the names, every place bears its name alone. -/
theorem sole_of_dotless (dotless : Dotless data) (below : place ≠ [])
    (plain : ∀ key ∈ place, .scalar '.' ∉ key) : Sole data place :=
  fun other v stands same =>
    eq_of_dotted_eq (ne_nil_of_leafAt stands) below (dotless other v stands) plain same

end

/-- A reload that succeeds reports, in order and once each, the names under which the old and the
new settings show different values, with those values. For a place that bears its name alone that
are the values that stand there; and without points in the names that lead to values this holds of
every place. -/
theorem changes_of_reload {s : Store} (held : s.Held) {e : Environment} {now : Text}
    {cs : List Change} (reloads : (s.reload e now).2.2 = .ok cs) :
    let new := (s.reload e now).2.1.data
    (cs.map (·.path)).Pairwise (fun p q => Text.ble p q ∧ p ≠ q) ∧
    (∀ c, c ∈ cs ↔
      c.old = shown s.data c.path ∧ c.new = shown new c.path ∧ Differ c.old c.new) ∧
    (∀ place, Sole s.data place → Sole new place → ∀ c, c.path = dotted place →
      (c ∈ cs ↔ c.old = leafAt s.data place ∧ c.new = leafAt new place ∧ Differ c.old c.new)) ∧
    (Dotless s.data → Dotless new → ∀ place, place ≠ [] → (∀ key ∈ place, .scalar '.' ∉ key) →
      ∀ c, c.path = dotted place →
      (c ∈ cs ↔ c.old = leafAt s.data place ∧ c.new = leafAt new place ∧ Differ c.old c.new)) := by
  intro new
  have old := held.written
  have made : Written (.table new) := Store.written_of_ends old (Store.ends_reload s e now)
  obtain ⟨data, -, store, rfl⟩ := Store.of_reload reloads
  obtain rfl : new = data := congrArg Store.data store
  have reported (c : Change) : c ∈ changes (flatten s.data) (flatten new) ↔
      c.old = shown s.data c.path ∧ c.new = shown new c.path ∧ Differ c.old c.new := by
    rw [mem_changes, get?_flatten, get?_flatten]
    refine and_congr_right fun before => and_congr_right fun after => ?_
    rw [before, after]
    exact (differ_iff (shown_ne_null old _) (shown_ne_null made _)).symm
  have sole (place : List Text) (here : Sole s.data place) (there : Sole new place) (c : Change)
      (name : c.path = dotted place) : c ∈ changes (flatten s.data) (flatten new) ↔
        c.old = leafAt s.data place ∧ c.new = leafAt new place ∧ Differ c.old c.new := by
    rw [reported, name, shown_of_sole old.distinct here, shown_of_sole made.distinct there]
  refine ⟨paths_changes (nodup_keys_flatten _) (nodup_keys_flatten _), reported, sole, ?_⟩
  intro dotless dotless' place below plain
  exact sole place (sole_of_dotless dotless below plain) (sole_of_dotless dotless' below plain)

/-- Settings that were loaded without a file report what the file of a household adds. -/
theorem changes_of_reload_household : ∃ cs,
    (⟨"/etc/sac.toml", defaults, "dawn"⟩ : Store).Held ∧
    ((⟨"/etc/sac.toml", defaults, "dawn"⟩ : Store).reload household "noon").2.2 = .ok cs ∧
    ⟨"own.b", none, some (.bool true)⟩ ∈ cs ∧
    (cs.map (·.path)).Pairwise fun p q => Text.ble p q ∧ p ≠ q := by
  let s : Store := ⟨"/etc/sac.toml", defaults, "dawn"⟩
  have held : s.Held :=
    @Store.Held.load { household with vars := [], files := [] } "dawn" none s rfl rfl
  obtain ⟨made, built, shallow, stands⟩ := build_household
  have reloads : (s.reload household "noon").2.2 =
      .ok (changes (flatten s.data) (flatten made)) :=
    Store.reload_of_built (by decide) built shallow (comparable_flatten (by decide) _)
  obtain ⟨sorted, reported, -⟩ := changes_of_reload held reloads
  refine ⟨_, held, reloads, (reported _).mpr ⟨rfl, ?_, trivial⟩, sorted⟩
  obtain ⟨data, built', store, -⟩ := Store.of_reload reloads
  obtain rfl : data = made := Except.ok.inj (built'.symm.trans built)
  rw [store]
  exact stands.symm

/-- A key that holds a point hides what happens to the value behind it. -/
example : changes (flatten [("a", .table [("b", .int 1)]), ("a.b", .int 0)])
    (flatten [("a", .table [("b", .int 2)]), ("a.b", .int 0)]) = [] := by cbv

end EventStream.Config
