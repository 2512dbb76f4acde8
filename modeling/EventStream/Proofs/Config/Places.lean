import EventStream.Value.Lemmas
import Mathlib.Data.List.Nodup

/-
# Places in a tree of tables

Settings are a tree: a table whose values may be tables. A place in it is the list of the names that
lead there, and what stands at a place is either a value that is no table, or a table with its keys
in order. What stands at all places is everything there is to say about a tree (`eq_of_look`), so
two ways to put settings together are compared place by place, and what is said of a place needs no
recursion over the values.

That holds of trees in which no table has a key twice. A list is a value like any other here, with
whatever its items are. Settings have no null either (`Written`), so that a value that is there can
be told from one that is not.
-/

namespace EventStream

/-! ## Tables without repeated keys -/

namespace Table

variable {t u : Table} {key : Text} {v : Value}

theorem exists_get?_of_mem (known : key ∈ t.keys) : ∃ v, t.get? key = some v := by
  by_contra absent
  refine get?_eq_none_iff.mp ?_ known
  exact Option.eq_none_iff_forall_ne_some.mpr fun v found => absent ⟨v, found⟩

theorem mem_keys_of_get? (found : t.get? key = some v) : key ∈ t.keys := by
  by_contra absent
  rw [get?_eq_none_iff.mpr absent] at found
  contradiction

/-- A value that is found is one of the entries. -/
theorem mem_of_get? (found : t.get? key = some v) : (key, v) ∈ t := by
  induction t with
  | nil => contradiction
  | cons entry rest ih =>
      obtain ⟨k, w⟩ := entry
      by_cases same : k = key
      · subst same
        rw [get?_cons_self] at found
        obtain rfl := Option.some.inj found
        exact List.mem_cons_self
      · rw [get?_cons_of_ne same] at found
        exact List.mem_cons_of_mem _ (ih found)

/-- Where no key occurs twice the entries are what their keys find. -/
theorem mem_iff_get? (distinct : t.keys.Nodup) : (key, v) ∈ t ↔ t.get? key = some v := by
  refine ⟨fun among => ?_, mem_of_get?⟩
  induction t with
  | nil => contradiction
  | cons entry rest ih =>
      obtain ⟨k, w⟩ := entry
      obtain ⟨fresh, distinct⟩ := List.nodup_cons.mp distinct
      rcases List.mem_cons.mp among with same | among
      · obtain ⟨rfl, rfl⟩ := Prod.mk.inj same
        exact get?_cons_self ..
      · have other : k ≠ key := by
          rintro rfl
          exact fresh (List.mem_map.mpr ⟨_, among, rfl⟩)
        rw [get?_cons_of_ne other]
        exact ih distinct among

/-- Setting a new key adds it after the others. -/
theorem keys_set_of_not_mem (absent : key ∉ t.keys) : (t.set key v).keys = t.keys ++ [key] := by
  simp [set_of_not_mem absent, keys]

theorem nodup_keys_set (distinct : t.keys.Nodup) (key : Text) (v : Value) :
    (t.set key v).keys.Nodup := by
  by_cases known : key ∈ t.keys
  · rw [keys_set_of_mem known]
    exact distinct
  · rw [keys_set_of_not_mem known]
    exact distinct.append (List.nodup_singleton key) (by simpa using known)

/-- Tables with the same keys in the same order and the same values are the same. -/
theorem ext_get? (distinct : t.keys.Nodup) (keys : t.keys = u.keys)
    (values : ∀ key, t.get? key = u.get? key) : t = u := by
  induction t generalizing u with
  | nil => exact (List.map_eq_nil_iff.mp keys.symm).symm
  | cons entry rest ih =>
      obtain ⟨k, v⟩ := entry
      obtain ⟨⟨k', w⟩, others, rfl⟩ := List.exists_cons_of_ne_nil (l := u) (by
        rintro rfl
        simp [Table.keys] at keys)
      obtain ⟨rfl, tails⟩ : k = k' ∧ Table.keys rest = Table.keys others := by
        simpa [Table.keys] using keys
      have fresh : k ∉ Table.keys rest := (List.nodup_cons.mp distinct).1
      have first : v = w := by simpa [get?_cons_self] using values k
      have later : rest = others := by
        refine ih (List.nodup_cons.mp distinct).2 tails fun key => ?_
        by_cases same : k = key
        · subst same
          rw [get?_eq_none_iff.mpr fresh, get?_eq_none_iff.mpr (tails ▸ fresh)]
        · simpa [get?_cons_of_ne same] using values key
      rw [first, later]

end Table

namespace Value

/-- No table in a tree of tables has a key twice. -/
inductive Distinct : Value → Prop
  | leaf {v : Value} : v.table? = none → Distinct v
  | table {t : Table} : t.keys.Nodup → (∀ key v, t.get? key = some v → Distinct v) →
      Distinct (.table t)

namespace Distinct

variable {t : Table} {key : Text} {v : Value}

theorem keys (distinct : Distinct (.table t)) : t.keys.Nodup := by
  cases distinct with
  | leaf scalar => contradiction
  | table keys => exact keys

theorem get? (distinct : Distinct (.table t)) (found : t.get? key = some v) : Distinct v := by
  cases distinct with
  | leaf scalar => contradiction
  | table _ values => exact values key v found

end Distinct

/-- Whether a value is neither a table nor null. -/
def plain : Value → Bool
  | .table _ | .null => false
  | _ => true

theorem leaf_of_plain {v : Value} (plain : v.plain) : v.table? = none := by
  cases v <;> first | rfl | contradiction

/-- Trees that a settings file can hold: no table has a key twice, and nothing is null. -/
inductive Written : Value → Prop
  | leaf {v : Value} : v.plain → Written v
  | table {t : Table} : t.keys.Nodup → (∀ key v, t.get? key = some v → Written v) →
      Written (.table t)

namespace Written

variable {t : Table} {key : Text} {v : Value}

theorem distinct (written : Written v) : v.Distinct := by
  induction written with
  | leaf plain => exact .leaf (leaf_of_plain plain)
  | table keys _ ih => exact .table keys ih

theorem get? (written : Written (.table t)) (found : t.get? key = some v) : Written v := by
  cases written with
  | leaf plain => contradiction
  | table _ values => exact values key v found

theorem empty : Written (.table []) := .table List.nodup_nil nofun

theorem of_entries (keys : t.keys.Nodup) (values : ∀ e ∈ t, Written e.2) :
    Written (.table t) :=
  .table keys fun _ _ found => values _ (Table.mem_of_get? found)

theorem set (written : Written (.table t)) (key : Text) (value : Written v) :
    Written (.table (t.set key v)) := by
  refine .table (Table.nodup_keys_set written.distinct.keys key v) fun other w found => ?_
  by_cases same : key = other
  · subst same
    rw [Table.get?_set_self] at found
    exact Option.some.inj found ▸ value
  · rw [Table.get?_set_of_ne same] at found
    exact written.get? found

end Written

/-! ## What stands at a place -/

/-- What stands at a place: a value that is no table, or a table with these keys. -/
inductive Spot where
  | leaf (v : Value)
  | table (keys : List Text)

/-- A value as it stands at its place. -/
def spot : Value → Spot
  | .table t => .table (Table.keys t)
  | v => .leaf v

/-- What stands at a place of a tree, if anything does. -/
def look : Option Value → List Text → Option Spot
  | v, [] => v.map spot
  | some (.table t), key :: place => look (Table.get? t key) place
  | _, _ :: _ => none

@[simp] theorem look_none (place : List Text) : look none place = none := by
  cases place <;> rfl

@[simp] theorem look_table_cons (t : Table) (key : Text) (place : List Text) :
    look (some (.table t)) (key :: place) = look (t.get? key) place := rfl

theorem spot_leaf {v : Value} (scalar : v.table? = none) : v.spot = .leaf v := by
  cases v <;> first | rfl | contradiction

/-- No place of a tree that can be written holds null. -/
theorem Written.look_ne_null {v : Value} (written : Written v) (place : List Text) :
    look (some v) place ≠ some (.leaf .null) := by
  induction place generalizing v with
  | nil =>
      cases written with
      | leaf plain => cases v <;> first | contradiction | simp [look, spot]
      | table => exact nofun
  | cons key place ih =>
      cases written with
      | leaf plain => cases v <;> first | contradiction | simp [look]
      | @table t _ values =>
          rw [look_table_cons]
          cases found : t.get? key with
          | none => rw [look_none]; exact nofun
          | some w => exact ih (values key w found)

/-- Trees in which the same stands at every place are the same. -/
theorem eq_of_look {v w : Value} (distinct : v.Distinct) (distinct' : w.Distinct)
    (same : ∀ place, look (some v) place = look (some w) place) : v = w := by
  induction distinct generalizing w with
  | @leaf v scalar =>
      have here : v.spot = w.spot := Option.some.inj (same [])
      rw [spot_leaf scalar] at here
      cases distinct' with
      | leaf scalar' =>
          rw [spot_leaf scalar'] at here
          exact Spot.leaf.inj here
      | table => contradiction
  | @table t nodup values ih =>
      have here : Spot.table t.keys = w.spot := Option.some.inj (same [])
      cases distinct' with
      | leaf scalar =>
          rw [spot_leaf scalar] at here
          contradiction
      | @table u nodup' values' =>
          have keys : t.keys = u.keys := Spot.table.inj here
          refine congrArg Value.table (Table.ext_get? nodup keys fun key => ?_)
          have below (place : List Text) : look (t.get? key) place = look (u.get? key) place :=
            same (key :: place)
          cases found : t.get? key with
          | none =>
              rw [Table.get?_eq_none_iff, keys, ← Table.get?_eq_none_iff] at found
              exact found.symm
          | some v =>
              obtain ⟨w, found'⟩ : ∃ w, u.get? key = some w :=
                Table.exists_get?_of_mem (keys ▸ Table.mem_keys_of_get? found)
              rw [found, found'] at below
              rw [found', ih key v found (values' key w found') below]

end Value

end EventStream
