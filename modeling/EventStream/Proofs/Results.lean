/-
# Results of what may fail

Readers are put together from others that may fail. What is known of the parts of a reader that
succeeds follows from its success (`ok_of_bind`, `ok_of_map`), and how it fails follows from how its
parts fail (`FailsAs`).
-/

namespace EventStream

section

variable {ε ε' α β : Type} {x : Except ε α}

theorem ok_bind (a : α) (f : α → Except ε β) : (Except.ok a >>= f) = f a := rfl

/-- What is read after something else was read first. -/
theorem ok_of_bind {f : α → Except ε β} {b : β} (read : (x >>= f) = .ok b) :
    ∃ a, x = .ok a ∧ f a = .ok b := by
  cases x with
  | error e => contradiction
  | ok a => exact ⟨a, rfl, read⟩

theorem bind_eq_error_iff {f : α → Except ε β} {e : ε} :
    (x >>= f) = .error e ↔ x = .error e ∨ ∃ a, x = .ok a ∧ f a = .error e := by
  cases x with
  | error e' => simp [bind, Except.bind]
  | ok a => simp [ok_bind]

theorem ok_of_map {f : α → β} {b : β} (read : x.map f = .ok b) : ∃ a, x = .ok a ∧ f a = b := by
  cases x with
  | error e => contradiction
  | ok a => exact ⟨a, rfl, Except.ok.inj read⟩

theorem ok_of_mem_toOption {a : α} (read : a ∈ x.toOption) : x = .ok a := by
  cases x with
  | error e => contradiction
  | ok b => exact congrArg _ (Option.some.inj read)

theorem mapError_eq_ok_iff {f : ε → ε'} {a : α} : x.mapError f = .ok a ↔ x = .ok a := by
  cases x with
  | error e => exact ⟨nofun, nofun⟩
  | ok b => exact ⟨fun same => congrArg _ (Except.ok.inj same), fun same => same ▸ rfl⟩

theorem error_of_mapError {f : ε → ε'} {e' : ε'} (raised : x.mapError f = .error e') :
    ∃ e, x = .error e ∧ f e = e' := by
  cases x with
  | error e => exact ⟨e, rfl, Except.error.inj raised⟩
  | ok a => contradiction

/-- If a result is an error, the error has a property. -/
def FailsAs (P : ε → Prop) (x : Except ε α) : Prop := ∀ e, x = .error e → P e

namespace FailsAs

variable {P : ε → Prop}

theorem ok (a : α) : FailsAs P (.ok a : Except ε α) := nofun

theorem error {e : ε} (proper : P e) : FailsAs P (.error e : Except ε α) := by
  intro e' same
  cases same
  exact proper

theorem bind (first : FailsAs P x) {f : α → Except ε β} (next : ∀ a, FailsAs P (f a)) :
    FailsAs P (x >>= f) := by
  cases x with
  | error e => exact .error (first e rfl)
  | ok a => exact next a

theorem map (first : FailsAs P x) (f : α → β) : FailsAs P (x.map f) := by
  cases x with
  | error e => exact .error (first e rfl)
  | ok a => exact .ok (f a)

end FailsAs

end

end EventStream
