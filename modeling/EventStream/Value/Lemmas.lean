import EventStream.Value.Basic

/-
# Tables as maps with an order

A table is read through two views: the value of a key, and the keys in order. Setting a key changes
its own value and no other one, keeps the order of the keys that are there, and puts a new key at
the end.
-/

namespace EventStream.Table

variable {t : Table} {key other : Text} {v : Value}

theorem get?_nil (key : Text) : get? [] key = none := rfl

theorem get?_cons_self (key : Text) (v : Value) (t : Table) : get? ((key, v) :: t) key = some v := by
  simp [get?]

theorem get?_cons_of_ne (h : other ≠ key) (v : Value) (t : Table) :
    get? ((other, v) :: t) key = get? t key := by
  have hbeq : (key == other) = false := by simpa using Ne.symm h
  simp [get?, List.lookup_cons, hbeq]

/-- A key that was set has the value it was set to. -/
theorem get?_set_self (t : Table) (key : Text) (v : Value) : (t.set key v).get? key = some v := by
  induction t with
  | nil => exact get?_cons_self key v []
  | cons entry rest ih =>
    obtain ⟨k, w⟩ := entry
    by_cases h : k = key
    · subst h
      simpa [set] using get?_cons_self k v rest
    · rw [set, if_neg h]
      exact (get?_cons_of_ne h w _).trans ih

/-- Setting a key leaves the values of all others as they are. -/
theorem get?_set_of_ne (h : key ≠ other) (t : Table) (v : Value) :
    (t.set key v).get? other = t.get? other := by
  induction t with
  | nil => exact get?_cons_of_ne h v []
  | cons entry rest ih =>
    obtain ⟨k, w⟩ := entry
    by_cases hk : k = key
    · subst hk
      rw [set, if_pos rfl]
      exact (get?_cons_of_ne h v rest).trans (get?_cons_of_ne h w rest).symm
    · rw [set, if_neg hk]
      by_cases ho : k = other
      · subst ho
        exact (get?_cons_self k w _).trans (get?_cons_self k w rest).symm
      · exact (get?_cons_of_ne ho w _).trans (ih.trans (get?_cons_of_ne ho w rest).symm)

/-- A key has a value exactly if it is one of the keys. -/
theorem get?_eq_none_iff : t.get? key = none ↔ key ∉ t.keys := by
  induction t with
  | nil => simp [get?_nil, keys]
  | cons entry rest ih =>
    obtain ⟨k, w⟩ := entry
    by_cases h : k = key
    · subst h
      simp [get?_cons_self, keys]
    · rw [get?_cons_of_ne h, ih]
      simp [keys, Ne.symm h]

/-- Setting a key that is there keeps the keys. -/
theorem keys_set_of_mem (h : key ∈ t.keys) : (t.set key v).keys = t.keys := by
  induction t with
  | nil => simp [keys] at h
  | cons entry rest ih =>
    obtain ⟨k, w⟩ := entry
    by_cases hk : k = key
    · subst hk
      simp [set, keys]
    · have hrest : key ∈ keys rest := by simpa [keys, Ne.symm hk] using h
      rw [set, if_neg hk]
      exact congrArg (k :: ·) (ih hrest)

/-- Setting a new key puts it at the end. -/
theorem set_of_not_mem (h : key ∉ t.keys) : t.set key v = t ++ [(key, v)] := by
  induction t with
  | nil => rfl
  | cons entry rest ih =>
    obtain ⟨k, w⟩ := entry
    have hk : k ≠ key := fun e => h (by simp [keys, e])
    have hrest : key ∉ keys rest := fun hm => h (List.mem_cons_of_mem k hm)
    rw [set, if_neg hk, ih hrest]
    rfl

end EventStream.Table
