import EventStream.Config.Store
import EventStream.Proofs.Config.Places
import Mathlib.Data.List.Perm.Basic

/-
# The layers, place by place

What should stand at each place of the settings is said here without regard to how they are put
together. A file over a table keeps the keys of the table and adds its own after them, and where
both have a table this goes on below; elsewhere the file has its way (`merged`). A variable puts its
value at one place, and nothing stands below it (`overridden`). The settings are built by changing
tables in place, entry after entry and variable after variable, and come to the same.

The order of the variables does not matter, since no two of them have the same place: whatever the
order, the same stands everywhere, so the settings are the same.
-/

namespace EventStream.Config

open Value (Distinct Written Spot look)

/-! ## A file over a table -/

section

variable {base file : Table}

theorem get?_mergeTable (distinct : file.keys.Nodup) (key : Text) :
    (mergeTable base file).get? key =
      match file.get? key with
      | none => base.get? key
      | some v => some (mergeValue (base.get? key) v) := by
  induction file generalizing base with
  | nil => rw [mergeTable, Table.get?_nil]
  | cons entry rest ih =>
      obtain ⟨k, v⟩ := entry
      obtain ⟨fresh, distinct⟩ := List.nodup_cons.mp distinct
      rw [mergeTable, ih distinct]
      by_cases same : k = key
      · subst same
        rw [Table.get?_eq_none_iff.mpr fresh, Table.get?_cons_self]
        exact Table.get?_set_self base k _
      · rw [Table.get?_cons_of_ne same, Table.get?_set_of_ne same]

/-- The keys of the table come first, then the new ones of the file. -/
theorem keys_mergeTable (distinct : file.keys.Nodup) :
    (mergeTable base file).keys = base.keys ++ file.keys.filter (· ∉ base.keys) := by
  induction file generalizing base with
  | nil => simp [mergeTable, Table.keys]
  | cons entry rest ih =>
      obtain ⟨k, v⟩ := entry
      obtain ⟨fresh, distinct⟩ := List.nodup_cons.mp distinct
      rw [mergeTable, ih distinct]
      change _ = base.keys ++ (k :: Table.keys rest).filter (· ∉ base.keys)
      by_cases known : k ∈ base.keys
      · simp [Table.keys_set_of_mem known, known]
      · have others : (Table.keys rest).filter (· ∉ base.keys ++ [k]) =
            (Table.keys rest).filter (· ∉ base.keys) := by
          refine List.filter_congr fun key among => ?_
          have other : key ≠ k := fun same => fresh (same ▸ among)
          simp [other]
        rw [Table.keys_set_of_not_mem known, others]
        simp [known]

/-- What should stand at a place when a value of a file is put over another one. -/
def merged : Option Value → Option Value → List Text → Option Spot
  | some (.table base), some (.table file), [] =>
    some (.table (Table.keys base ++ (Table.keys file).filter (· ∉ Table.keys base)))
  | some (.table base), some (.table file), key :: place =>
    merged (Table.get? base key) (Table.get? file key) place
  | _, some v, place => look (some v) place
  | base, none, place => look base place

theorem merged_none (current : Option Value) (place : List Text) :
    merged current none place = look current place := by
  cases place <;> unfold merged <;> split <;> simp_all

/-- Where not both values are tables, the value of the file stands. -/
theorem merged_of_leaf {current : Option Value} {v : Value}
    (leaf : current.bind Value.table? = none ∨ v.table? = none) (place : List Text) :
    merged current (some v) place = look (some v) place := by
  cases place <;> unfold merged <;> split <;> simp_all [Value.table?]

theorem mergeValue_of_leaf {current : Option Value} {v : Value}
    (leaf : current.bind Value.table? = none ∨ v.table? = none) : mergeValue current v = v := by
  unfold mergeValue
  split <;> [skip; rfl]
  split <;> [skip; rfl]
  simp_all [Value.table?]

/-- Either both values are tables, or one of them is a leaf. -/
theorem tables_or_leaf (current : Option Value) (v : Value) :
    (∃ base file, current = some (.table base) ∧ v = .table file) ∨
      (current.bind Value.table? = none ∨ v.table? = none) := by
  cases v with
  | table file =>
      cases current with
      | none => exact .inr (.inl rfl)
      | some c =>
          cases c with
          | table base => exact .inl ⟨base, file, rfl, rfl⟩
          | _ => exact .inr (.inl rfl)
  | _ => exact .inr (.inr rfl)

/-- Merging puts at each place what should stand there. -/
theorem look_mergeValue {v : Value} (distinct : v.Distinct) (current : Option Value)
    (place : List Text) :
    look (some (mergeValue current v)) place = merged current (some v) place := by
  induction place generalizing v current with
  | nil =>
      rcases tables_or_leaf current v with ⟨base, file, rfl, rfl⟩ | leaf
      · simp only [mergeValue, merged, look, Option.map_some, Value.spot,
          keys_mergeTable distinct.keys]
      · rw [mergeValue_of_leaf leaf, merged_of_leaf leaf]
  | cons key place ih =>
      rcases tables_or_leaf current v with ⟨base, file, rfl, rfl⟩ | leaf
      · rw [mergeValue, Value.look_table_cons, get?_mergeTable distinct.keys, merged]
        cases found : Table.get? file key with
        | none => exact (merged_none _ _).symm
        | some w => exact ih (distinct.get? found) _
      · rw [mergeValue_of_leaf leaf, merged_of_leaf leaf]

theorem written_mergeValue {v : Value} (written : v.Written) {current : Option Value}
    (written' : ∀ c, current = some c → c.Written) : (mergeValue current v).Written := by
  induction written generalizing current with
  | @leaf v plain =>
      rw [mergeValue_of_leaf (.inr (Value.leaf_of_plain plain))]
      exact .leaf plain
  | @table file keys values ih =>
      rcases tables_or_leaf current (.table file) with ⟨base, file, rfl, ⟨⟩⟩ | leaf
      · have ordered := written' _ rfl
        refine .table ?_ fun key v found => ?_
        · rw [keys_mergeTable keys]
          refine ordered.distinct.keys.append (keys.filter _) fun key known new => ?_
          simp [known] at new
        · rw [get?_mergeTable keys] at found
          cases among : Table.get? file key with
          | none =>
              rw [among] at found
              exact ordered.get? found
          | some w =>
              rw [among] at found
              obtain rfl := Option.some.inj found
              exact ih key w among fun c standing => ordered.get? standing
      · rw [mergeValue_of_leaf leaf]
        exact .table keys values

end

/-! ## Variables over the settings -/

/-- The value that a variable gives its place, if it is set and can be read. -/
def Override.value? (o : Override) (vars : Variables) : Option Value :=
  (vars.lookup o.source).bind fun raw => (o.cast.read raw).toOption

/-- The value that one of several variables gives an entry of a group. -/
def overriding (vars : Variables) (os : List Override) (group key : Text) : Option Value :=
  os.findSome? fun o => if o.group = group ∧ o.key = key then o.value? vars else none

/-- What should stand at a place when variables have been put over what stood there before. -/
def overridden (vars : Variables) (os : List Override) (before : List Text → Option Spot) :
    List Text → Option Spot
  | group :: key :: place =>
    match overriding vars os group key with
    | some v => look (some v) place
    | none => before (group :: key :: place)
  | place => before place

/-- Whether the settings have the entry of a variable. -/
def Override.Fits (o : Override) (data : Table) : Prop :=
  ∃ keys, look (some (.table data)) [o.group] = some (.table keys) ∧ o.key ∈ keys

section

variable {vars : Variables} {os : List Override} {data : Table} {o : Override}

theorem overriding_cons (group key : Text) : overriding vars (o :: os) group key =
    (if o.group = group ∧ o.key = key then o.value? vars else none).or
      (overriding vars os group key) := by
  rw [overriding, List.findSome?_cons]
  split
  case h_1 gives => rw [gives, Option.some_or]
  case h_2 gives => rw [gives, Option.none_or, overriding]

theorem overriding_single (group key : Text) : overriding vars [o] group key =
    if o.group = group ∧ o.key = key then o.value? vars else none := by
  rw [overriding_cons, overriding, List.findSome?_nil, Option.or_none]

theorem Override.plain_of_value {v : Value} (reads : o.value? vars = some v) : v.plain := by
  obtain ⟨raw, -, read⟩ := Option.bind_eq_some_iff.mp reads
  cases kind : o.cast with
  | text =>
      obtain rfl : Value.text raw = v := by simpa [kind, Cast.read, Except.toOption] using read
      rfl
  | double | integer =>
      rw [kind, Cast.read] at read
      revert read
      generalize (Value.text raw).toFloat = x, (Value.text raw).toInt = n
      cases x <;> cases n <;> rintro ⟨⟩ <;> rfl

/-- A variable that is not set, or that cannot be read, changes nothing. -/
theorem Override.apply_of_unread (unread : o.value? vars = none) :
    (o.apply vars data).result = .ok data := by
  unfold Override.apply
  unfold Override.value? at unread
  cases raw : vars.lookup o.source with
  | none => rfl
  | some raw' =>
      cases read : o.cast.read raw' with
      | error e => simp [read]
      | ok v => simp [raw, read, Except.toOption] at unread

theorem Override.apply_of_value {v : Value} {t : Table} (reads : o.value? vars = some v)
    (found : data.get? o.group = some (.table t)) :
    (o.apply vars data).result = .ok (data.set o.group (.table (Table.set t o.key v))) := by
  unfold Override.apply
  obtain ⟨raw, set, read⟩ := Option.bind_eq_some_iff.mp reads
  cases casts : o.cast.read raw with
  | error e => simp [casts, Except.toOption] at read
  | ok w =>
      obtain rfl : w = v := by simpa [casts, Except.toOption] using read
      simp [set, casts, setEntry, found]

/-- A variable that is put over the settings changes nothing or sets its entry. -/
theorem Override.cases_of_apply {next : Table} (applies : (o.apply vars data).result = .ok next) :
    o.value? vars = none ∧ next = data ∨ ∃ v t, o.value? vars = some v ∧
      (data.get? o.group).getD (.table []) = .table t ∧
      next = data.set o.group (.table (Table.set t o.key v)) := by
  cases reads : o.value? vars with
  | none =>
      rw [o.apply_of_unread reads] at applies
      exact .inl ⟨rfl, (Except.ok.inj applies).symm⟩
  | some v =>
      obtain ⟨raw, set, read⟩ := Option.bind_eq_some_iff.mp reads
      have casts : o.cast.read raw = .ok v := by
        cases cast : o.cast.read raw <;> simp_all [Except.toOption]
      simp only [Override.apply, set, casts, setEntry] at applies
      cases found : data.get? o.group with
      | none =>
          simp only [found] at applies
          exact .inr ⟨v, [], rfl, rfl, (Except.ok.inj applies).symm⟩
      | some w =>
          cases w with
          | table t =>
              simp only [found] at applies
              exact .inr ⟨v, t, rfl, rfl, (Except.ok.inj applies).symm⟩
          | _ => simp [found] at applies

theorem Override.Fits.table (fits : o.Fits data) :
    ∃ t, data.get? o.group = some (.table t) ∧ o.key ∈ Table.keys t := by
  obtain ⟨keys, stands, known⟩ := fits
  rw [Value.look_table_cons] at stands
  cases found : data.get? o.group with
  | none => simp [found] at stands
  | some v =>
      rw [found] at stands
      have spot : v.spot = .table keys := Option.some.inj stands
      cases v with
      | table t =>
          obtain rfl := Spot.table.inj spot
          exact ⟨t, rfl, known⟩
      | _ => contradiction

/-- An entry that is set stands in its place, and nothing else changes. -/
theorem look_set {t : Table} {group key : Text} (found : data.get? group = some (.table t))
    (known : key ∈ Table.keys t) (v : Value) (place : List Text) :
    look (some (.table (data.set group (.table (Table.set t key v))))) place =
      match place with
      | g :: k :: rest =>
        if group = g ∧ key = k then look (some v) rest else look (some (.table data)) place
      | _ => look (some (.table data)) place := by
  match place with
  | [] =>
      simp [look, Value.spot, Table.keys_set_of_mem (Table.mem_keys_of_get? found)]
  | [g] =>
      by_cases same : group = g
      · subst same
        simp [Table.get?_set_self, found, look, Value.spot, Table.keys_set_of_mem known]
      · simp [Table.get?_set_of_ne same]
  | g :: k :: rest =>
      by_cases same : group = g
      · subst same
        by_cases same' : key = k
        · subst same'
          simp [Table.get?_set_self]
        · simp [Table.get?_set_self, found, Table.get?_set_of_ne same', same']
      · simp [Table.get?_set_of_ne same, same]

/-- One variable. -/
theorem look_apply (fits : ∀ v, o.value? vars = some v → o.Fits data) :
    ∃ after, (o.apply vars data).result = .ok after ∧ ∀ place, look (some (.table after)) place =
      overridden vars [o] (look (some (.table data))) place := by
  cases reads : o.value? vars with
  | none =>
      refine ⟨data, o.apply_of_unread reads, fun place => ?_⟩
      unfold overridden
      split <;> simp [overriding_single, reads]
  | some v =>
      obtain ⟨t, found, known⟩ := (fits v reads).table
      refine ⟨_, o.apply_of_value reads found, fun place => ?_⟩
      rw [look_set found known v place]
      unfold overridden
      split
      · simp only [overriding_single, reads]
        split <;> rfl
      · rfl

/-- Whether two variables have different places. -/
def Override.Apart (o p : Override) : Prop := ¬ (o.group = p.group ∧ o.key = p.key)

/-- Where no two variables have the same place, each that can be read gives its value. -/
theorem overriding_eq_some_iff (apart : os.Pairwise Override.Apart) {group key : Text} {v : Value} :
    overriding vars os group key = some v ↔
      ∃ o ∈ os, (o.group = group ∧ o.key = key) ∧ o.value? vars = some v := by
  induction os with
  | nil => simp [overriding]
  | cons o os ih =>
      obtain ⟨first, later⟩ := List.pairwise_cons.mp apart
      rw [overriding_cons, Option.or_eq_some_iff, ih later]
      simp only [List.mem_cons, exists_eq_or_imp]
      by_cases here : o.group = group ∧ o.key = key
      · have none : ¬ ∃ p ∈ os, (p.group = group ∧ p.key = key) ∧ p.value? vars = some v := by
          rintro ⟨p, among, same, -⟩
          exact first p among ⟨here.1.trans same.1.symm, here.2.trans same.2.symm⟩
        simp [here, none]
      · simp [here]

/-- The order of variables with different places makes no difference. -/
theorem overriding_perm {ps : List Override} (apart : os.Pairwise Override.Apart)
    (perm : ps.Perm os) : overriding vars ps = overriding vars os := by
  have apart' : ps.Pairwise Override.Apart :=
    (perm.pairwise_iff fun {o p} other same => other ⟨same.1.symm, same.2.symm⟩).mpr apart
  funext group key
  refine Option.ext fun v => ?_
  rw [overriding_eq_some_iff apart', overriding_eq_some_iff apart]
  simp only [perm.mem_iff]

/-- Variables may be put over the settings one after the other. -/
theorem overridden_cons (apart : (o :: os).Pairwise Override.Apart)
    (before : List Text → Option Spot) (place : List Text) :
    overridden vars os (overridden vars [o] before) place =
      overridden vars (o :: os) before place := by
  match place with
  | [] | [g] => rfl
  | g :: k :: rest =>
      have first := (List.pairwise_cons.mp apart).1
      simp only [overridden, overriding_single]
      rw [@overriding_cons vars os o g k]
      cases later : overriding vars os g k with
      | none => simp
      | some v =>
          obtain ⟨p, among, same, -⟩ :=
            (overriding_eq_some_iff (List.pairwise_cons.mp apart).2).mp later
          have other : ¬ (o.group = g ∧ o.key = k) := fun here =>
            first p among ⟨here.1.trans same.1.symm, here.2.trans same.2.symm⟩
          simp [other]

theorem applyOverrides_cons {next : Table} (applies : (o.apply vars data).result = .ok next) :
    (applyOverrides vars data (o :: os)).result = (applyOverrides vars next os).result := by
  rw [applyOverrides]
  generalize o.apply vars data = first at applies
  obtain ⟨log, result⟩ := first
  obtain rfl : result = .ok next := applies
  rfl

/-- What is put over the settings first, and what is left to put over them. -/
theorem exists_of_applyOverrides_cons {after : Table}
    (applies : (applyOverrides vars data (o :: os)).result = .ok after) : ∃ next,
      (o.apply vars data).result = .ok next ∧ (applyOverrides vars next os).result = .ok after := by
  cases first : (o.apply vars data).result with
  | ok next => exact ⟨next, rfl, (applyOverrides_cons first).symm.trans applies⟩
  | error f =>
      rw [applyOverrides] at applies
      generalize o.apply vars data = made at first applies
      obtain ⟨log, result⟩ := made
      obtain rfl : result = .error f := first
      contradiction

theorem written_of_apply {next : Table} (written : Written (.table data))
    (applies : (o.apply vars data).result = .ok next) : Written (.table next) := by
  rcases o.cases_of_apply applies with ⟨-, rfl⟩ | ⟨v, t, reads, found, rfl⟩
  · exact written
  · have group : Written (.table t) := by
      cases stands : data.get? o.group with
      | none =>
          rw [stands] at found
          exact found ▸ .empty
      | some w =>
          rw [stands] at found
          exact found ▸ written.get? stands
    exact written.set _ (group.set _ (.leaf (o.plain_of_value reads)))

theorem written_of_applyOverrides {after : Table} (written : Written (.table data))
    (applies : (applyOverrides vars data os).result = .ok after) : Written (.table after) := by
  induction os generalizing data with
  | nil => exact Except.ok.inj applies ▸ written
  | cons o os ih =>
      obtain ⟨next, first, rest⟩ := exists_of_applyOverrides_cons applies
      exact ih (written_of_apply written first) rest

/-- Variables with different places, put over the settings one after the other, each give their
value. -/
theorem look_applyOverrides (apart : os.Pairwise Override.Apart)
    (fits : ∀ o ∈ os, ∀ v, o.value? vars = some v → o.Fits data) : ∃ after,
      (applyOverrides vars data os).result = .ok after ∧ ∀ place,
        look (some (.table after)) place =
          overridden vars os (look (some (.table data))) place := by
  induction os generalizing data with
  | nil =>
      refine ⟨data, rfl, fun place => ?_⟩
      unfold overridden
      split <;> rfl
  | cons o os ih =>
      obtain ⟨next, applies, stands⟩ := look_apply (fits o List.mem_cons_self)
      -- A variable leaves the keys of every group, so the others still fit.
      have fits' (p : Override) (among : p ∈ os) (v : Value) (reads : p.value? vars = some v) :
          p.Fits next := by
        obtain ⟨keys, here, known⟩ := fits p (List.mem_cons_of_mem o among) v reads
        exact ⟨keys, (stands [p.group]).trans here, known⟩
      obtain ⟨after, rest, stands'⟩ := ih (List.pairwise_cons.mp apart).2 fits'
      refine ⟨after, (applyOverrides_cons applies).trans rest, fun place => ?_⟩
      rw [stands' place, ← overridden_cons apart]
      exact congrFun (congrArg (overridden vars os) (funext stands)) place

end

/-! ## The three layers -/

instance (o p : Override) : Decidable (o.Apart p) := inferInstanceAs (Decidable (¬ _))

theorem apart_overrides : overrides.Pairwise Override.Apart := by decide

/-- Every variable has its entry in the defaults. -/
theorem fits_defaults : ∀ o ∈ overrides, ∃ t,
    defaults.get? o.group = some (.table t) ∧ o.key ∈ Table.keys t := by
  intro o among
  simp only [overrides, List.mem_cons, List.not_mem_nil, or_false] at among
  rcases among with rfl | rfl | rfl | rfl | rfl | rfl | rfl | rfl | rfl | rfl <;>
    exact ⟨_, rfl, by decide⟩

theorem written_defaults : Written (.table defaults) := by
  refine .of_entries (by decide) fun group among => ?_
  have flat (t : Table) (keys : t.keys.Nodup) (leaves : ∀ e ∈ t, e.2.plain) :
      Written (.table t) := .of_entries keys fun e entry => .leaf (leaves e entry)
  simp only [defaults, List.mem_cons, List.not_mem_nil, or_false] at among
  rcases among with rfl | rfl | rfl | rfl | rfl | rfl | rfl | rfl <;>
    exact flat _ (by decide) (by simp [Value.plain])

/-- What should stand at a place of the settings: the value of its variable, where that is set and
can be read, and elsewhere what stands there when the file is put over the defaults. -/
def layered (vars : Variables) (file : Table) : List Text → Option Spot :=
  overridden vars overrides (merged (some (.table defaults)) (some (.table file)))

section

variable {vars : Variables} {file : Table}

theorem written_mergeTable (written : Written (.table file)) :
    Written (.table (mergeTable defaults file)) :=
  written_mergeValue written fun _ standing => Option.some.inj standing ▸ written_defaults

theorem look_mergeTable (distinct : Distinct (.table file)) (place : List Text) :
    look (some (.table (mergeTable defaults file))) place =
      merged (some (.table defaults)) (some (.table file)) place :=
  look_mergeValue distinct (some (.table defaults)) place

/-- A file that has tables for the groups of the variables keeps their entries. -/
theorem fits_mergeTable (distinct : Distinct (.table file)) {o : Override} (among : o ∈ overrides)
    (group : ∀ v, file.get? o.group = some v → v.table?.isSome) :
    o.Fits (mergeTable defaults file) := by
  obtain ⟨t, found, known⟩ := fits_defaults o among
  have stands : look (some (.table (mergeTable defaults file))) [o.group] =
      merged (some (.table t)) (file.get? o.group) [] := by
    rw [look_mergeTable distinct, merged, found]
  cases filed : file.get? o.group with
  | none => exact ⟨Table.keys t, by rw [stands, filed]; rfl, known⟩
  | some v =>
      cases v with
      | table f => exact ⟨_, by rw [stands, filed]; rfl, List.mem_append_left _ known⟩
      | _ => exact absurd (group _ filed) (by simp [Value.table?])

/-- The three layers give the settings that should be, in whichever order the variables are looked
at, unless the file has something else than a table for the group of a variable that is set. -/
theorem look_layers (written : Written (.table file))
    (groups : ∀ o ∈ overrides, (vars.lookup o.source).isSome →
      ∀ v, file.get? o.group = some v → v.table?.isSome) :
    ∃ data, Written (.table data) ∧
      (∀ place, look (some (.table data)) place = layered vars file place) ∧
      ∀ os, os.Perm overrides →
        (applyOverrides vars (mergeTable defaults file) os).result = .ok data := by
  have distinct := written.distinct
  have written' : Written (.table (mergeTable defaults file)) := written_mergeTable written
  have applies (os : List Override) (perm : os.Perm overrides) : ∃ after,
      (applyOverrides vars (mergeTable defaults file) os).result = .ok after ∧
        Written (.table after) ∧
          ∀ place, look (some (.table after)) place = layered vars file place := by
    have apart : os.Pairwise Override.Apart :=
      (perm.pairwise_iff fun {o p} other same => other ⟨same.1.symm, same.2.symm⟩).mpr
        apart_overrides
    have fits (o : Override) (among : o ∈ os) (v : Value) (reads : o.value? vars = some v) :
        o.Fits (mergeTable defaults file) := by
      obtain ⟨raw, set, -⟩ := Option.bind_eq_some_iff.mp reads
      have listed : o ∈ overrides := perm.mem_iff.mp among
      exact fits_mergeTable distinct listed (groups o listed (by simp [set]))
    obtain ⟨after, result, stands⟩ := look_applyOverrides apart fits
    refine ⟨after, result, written_of_applyOverrides written' result, fun place => ?_⟩
    have same : overriding vars os = overriding vars overrides :=
      overriding_perm apart_overrides perm
    rw [stands, layered, funext (look_mergeTable distinct)]
    unfold overridden
    rw [same]
  obtain ⟨data, -, orderly, stands⟩ := applies overrides (.refl _)
  refine ⟨data, orderly, stands, fun os perm => ?_⟩
  obtain ⟨after, result, orderly', stands'⟩ := applies os perm
  have same : Value.table after = .table data :=
    Value.eq_of_look orderly'.distinct orderly.distinct fun place =>
      (stands' place).trans (stands place).symm
  rw [result, Value.table.inj same]

end

end EventStream.Config
