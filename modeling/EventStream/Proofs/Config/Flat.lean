import EventStream.Config.Store
import EventStream.Proofs.Config.Places
import EventStream.Text.Lemmas

/-
# Settings as flat tables

A flat table is made by going through the leaves of a tree in order (`leavesIn`) and setting each
under the names that lead to it, joined by points (`dotted`). So under a name stands the last leaf
that bears it (`get?_flatten`). Where no two leaves bear the same name a leaf can be found by its
name, and that is so if no key holds a point; a key that does can hide one leaf behind another.
-/

namespace EventStream.Config

open Value (Distinct look)

/-! ## Leaves -/

mutual

/-- The leaves of a tree in order: the places that hold no table, with what they hold. -/
def leavesOf : Value → List (List Text × Value)
  | .table entries => leavesIn entries
  | v => [([], v)]

/-- The leaves below the entries of a table. -/
def leavesIn : List (Text × Value) → List (List Text × Value)
  | [] => []
  | (key, v) :: rest => (leavesOf v).map (fun leaf => (key :: leaf.1, leaf.2)) ++ leavesIn rest

end

theorem leavesOf_leaf {v : Value} (leaf : v.table? = none) : leavesOf v = [([], v)] := by
  cases v <;> first | rfl | contradiction

theorem mem_leavesIn {t : Table} {place : List Text} {v : Value} : (place, v) ∈ leavesIn t ↔
    ∃ key w rest, (key, w) ∈ t ∧ (rest, v) ∈ leavesOf w ∧ place = key :: rest := by
  induction t with
  | nil => simp [leavesIn]
  | cons entry others ih =>
      obtain ⟨k, u⟩ := entry
      rw [leavesIn, List.mem_append, ih]
      constructor
      · rintro (here | ⟨key, w, rest, among, leaf, rfl⟩)
        · obtain ⟨⟨rest, _⟩, leaf, same⟩ := List.mem_map.mp here
          obtain ⟨rfl, rfl⟩ := Prod.mk.inj same
          exact ⟨k, u, rest, List.mem_cons_self, leaf, rfl⟩
        · exact ⟨key, w, rest, List.mem_cons_of_mem _ among, leaf, rfl⟩
      · rintro ⟨key, w, rest, among, leaf, rfl⟩
        rcases List.mem_cons.mp among with same | among
        · obtain ⟨rfl, rfl⟩ := Prod.mk.inj same
          exact .inl (List.mem_map.mpr ⟨(rest, v), leaf, rfl⟩)
        · exact .inr ⟨key, w, rest, among, leaf, rfl⟩

theorem ne_nil_of_mem_leavesIn {t : Table} {place : List Text} {v : Value}
    (among : (place, v) ∈ leavesIn t) : place ≠ [] := by
  obtain ⟨key, w, rest, -, -, rfl⟩ := mem_leavesIn.mp among
  exact List.cons_ne_nil key rest

/-- The leaves of a tree are what stands at the places that hold no table. -/
theorem mem_leavesOf {v : Value} (distinct : v.Distinct) {place : List Text} {w : Value} :
    (place, w) ∈ leavesOf v ↔ look (some v) place = some (.leaf w) := by
  induction distinct generalizing place with
  | @leaf v scalar =>
      rw [leavesOf_leaf scalar]
      cases place with
      | nil => simp [look, Value.spot_leaf scalar, eq_comm]
      | cons key rest => cases v <;> first | contradiction | simp [look]
  | @table t keys _ ih =>
      rw [leavesOf, mem_leavesIn]
      cases place with
      | nil => simp [look, Value.spot]
      | cons key rest =>
          rw [Value.look_table_cons]
          constructor
          · rintro ⟨_, u, _, among, leaf, ⟨⟩⟩
            have found := (Table.mem_iff_get? keys).mp among
            rw [found]
            exact (ih _ u found).mp leaf
          · intro stands
            cases found : t.get? key with
            | none => rw [found, Value.look_none] at stands; contradiction
            | some u =>
                rw [found] at stands
                exact ⟨key, u, rest, (Table.mem_iff_get? keys).mpr found,
                  (ih key u found).mpr stands, rfl⟩

/-! ## Names -/

/-- The names that lead to a place, joined by points. -/
def dotted (place : List Text) : Text := Text.join [.scalar '.'] place

theorem dotted_cons {place : List Text} (below : place ≠ []) (key : Text) :
    dotted (key :: place) = Text.concat [key, "."] ++ dotted place := by
  obtain ⟨next, rest, rfl⟩ := List.exists_cons_of_ne_nil below
  rw [dotted, Text.join_cons_cons]
  simp [Text.concat, dotted]
  rfl

/-- Names without points tell where they lead. -/
theorem eq_of_dotted_eq {place other : List Text} (here : place ≠ []) (there : other ≠ [])
    (plain : ∀ key ∈ place, .scalar '.' ∉ key) (plain' : ∀ key ∈ other, .scalar '.' ∉ key)
    (same : dotted place = dotted other) : place = other := by
  calc place
    _ = Text.split (.scalar '.') (dotted place) := (Text.split_join here plain).symm
    _ = Text.split (.scalar '.') (dotted other) := congrArg _ same
    _ = other := Text.split_join there plain'

/-! ## The flat table -/

/-- Set entries one after the other. -/
def setAll (t : Table) (entries : List (Text × Value)) : Table :=
  entries.foldl (fun t e => t.set e.1 e.2) t

theorem setAll_append (t : Table) (first second : List (Text × Value)) :
    setAll t (first ++ second) = setAll (setAll t first) second := List.foldl_append

theorem nodup_keys_setAll {t : Table} (distinct : t.keys.Nodup) (entries : List (Text × Value)) :
    (setAll t entries).keys.Nodup := by
  induction entries generalizing t with
  | nil => exact distinct
  | cons e rest ih => exact ih (Table.nodup_keys_set distinct e.1 e.2)

/-- The last entry of a key stands. -/
theorem get?_setAll (t : Table) (entries : List (Text × Value)) (key : Text) :
    (setAll t entries).get? key = (entries.reverse.lookup key).or (t.get? key) := by
  induction entries generalizing t with
  | nil => rfl
  | cons e rest ih =>
      obtain ⟨k, v⟩ := e
      rw [setAll, List.foldl_cons, ← setAll, ih, List.reverse_cons, List.lookup_append]
      by_cases same : k = key
      · subst same
        simp [Table.get?_set_self]
      · have other : (key == k) = false := by simpa using Ne.symm same
        simp [Table.get?_set_of_ne same, List.lookup_cons, other]

theorem flattenInto_eq (flat : Table) (before : Text) (t : Table) : flattenInto flat before t =
    setAll flat ((leavesIn t).map fun leaf => (before ++ dotted leaf.1, leaf.2)) := by
  fun_induction flattenInto flat before t with
  | case1 => rfl
  | case2 flat before key entries rest inner outer =>
      rw [outer, inner, leavesIn, List.map_append, setAll_append, leavesOf, List.map_map]
      congr 2
      refine List.map_congr_left fun leaf among => ?_
      simp [dotted_cons (ne_nil_of_mem_leavesIn among), Text.concat]
  | case3 flat before key v rest leaf ih =>
      have scalar : v.table? = none := by
        cases v <;> first | rfl | exact absurd rfl (leaf _)
      rw [ih, leavesIn, leavesOf_leaf scalar]
      rfl

/-- The leaf that is shown under a name: the last one that bears it. -/
def shown (data : Table) (name : Text) : Option Value :=
  ((leavesIn data).reverse.find? fun leaf => dotted leaf.1 = name).map (·.2)

theorem get?_flatten (data : Table) (name : Text) : (flatten data).get? name = shown data name := by
  have found (entries : List (List Text × Value)) :
      (entries.map fun leaf => (dotted leaf.1, leaf.2)).lookup name =
        (entries.find? fun leaf => dotted leaf.1 = name).map (·.2) := by
    induction entries with
    | nil => rfl
    | cons leaf rest ih =>
        by_cases same : dotted leaf.1 = name
        · subst same
          simp
        · have other : (name == dotted leaf.1) = false := by simpa using Ne.symm same
          rw [List.map_cons, List.lookup_cons, other, ih, List.find?_cons_of_neg (by simpa using same)]
  rw [flatten, flattenInto_eq, get?_setAll, ← List.map_reverse, Table.get?_nil, Option.or_none, shown]
  exact found _

theorem nodup_keys_flatten (data : Table) : (flatten data).keys.Nodup := by
  rw [flatten, flattenInto_eq]
  exact nodup_keys_setAll (t := []) List.nodup_nil _

section

variable {data : Table} {name : Text} {v : Value}

/-- What is shown under a name is a leaf that bears it. -/
theorem exists_of_shown (stands : shown data name = some v) :
    ∃ place, (place, v) ∈ leavesIn data ∧ dotted place = name := by
  obtain ⟨⟨place, _⟩, found, rfl⟩ := Option.map_eq_some_iff.mp stands
  have bears := List.find?_some found
  exact ⟨place, List.mem_reverse.mp (List.mem_of_find?_eq_some found), by simpa using bears⟩

/-- A leaf that alone bears its name is shown under it, and nothing is if there is none. -/
theorem shown_dotted (distinct : Distinct (.table data)) {place : List Text}
    (sole : ∀ other w, look (some (.table data)) other = some (.leaf w) →
      dotted other = dotted place → other = place) :
    shown data (dotted place) = some v ↔ look (some (.table data)) place = some (.leaf v) := by
  constructor
  · intro stands
    obtain ⟨other, among, same⟩ := exists_of_shown stands
    have here := (mem_leavesOf distinct).mp among
    rwa [sole other v here same] at here
  · intro here
    cases stands : shown data (dotted place) with
    | none =>
        have absent := List.find?_eq_none.mp (Option.map_eq_none_iff.mp stands) (place, v)
          (List.mem_reverse.mpr ((mem_leavesOf distinct).mpr here))
        simp at absent
    | some w =>
        obtain ⟨other, among, same⟩ := exists_of_shown stands
        have there := (mem_leavesOf distinct).mp among
        rw [sole other w there same, here] at there
        rw [Value.Spot.leaf.inj (Option.some.inj there)]

end

/-! ## Comparing -/

/-- Whether a value holds no others. -/
def single : Value → Bool
  | .list _ | .table _ => false
  | _ => true

/-- Settings that hold no lists can be compared with any others. -/
theorem comparable_flatten {data : Table} (singles : ∀ leaf ∈ leavesIn data, single leaf.2)
    (after : Table) : comparable (flatten data) after := by
  refine List.all_eq_true.mpr fun name _ => ?_
  have alone : single (((flatten data).get? name).getD .null) := by
    rw [get?_flatten]
    cases stands : shown data name with
    | none => rfl
    | some v =>
        obtain ⟨place, among, -⟩ := exists_of_shown stands
        exact singles _ among
  generalize ((flatten data).get? name).getD .null = v at alone ⊢
  cases v <;> first | rfl | contradiction

end EventStream.Config
