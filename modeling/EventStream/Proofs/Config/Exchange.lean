import EventStream.Config.Lock

/-
# One reload

A reload can end in five ways (`Ends`). The old settings may lie too deep to be looked at, and then
nothing is tried; the new ones may fail to come about, and then the old ones stay; and if they came
about they are in place, whether or not they can be gone through and compared after that. What is
said of reloads elsewhere is read off these five cases.

Under the lock it is the same (`Guarded.reload_of_free`): the lock is free again in every case.
-/

namespace EventStream.Config

namespace Reported

variable {α β : Type} {next : α → Reported β}

theorem andThen_ok (log : List LogRecord) (a : α) :
    (⟨log, .ok a⟩ : Reported α).andThen next = ⟨log ++ (next a).log, (next a).result⟩ := rfl

end Reported

/-- Whether settings can be gone through. -/
def Shallow (data : Table) : Prop := (Value.table data).depth ≤ callLimit

instance (data : Table) : Decidable (Shallow data) :=
  inferInstanceAs (Decidable ((Value.table data).depth ≤ callLimit))

/-- The fault of settings that cannot be gone through. -/
abbrev cannotGoThrough : Fault := tooDeep " while calling a Python object"

/-- The fault of settings that cannot be compared. -/
abbrev cannotCompare : Fault := tooDeep " in comparison"

section

variable {data before after : Table}

theorem flattened_of_shallow (shallow : Shallow data) : flattened data = .ok (flatten data) :=
  if_pos shallow

theorem flattened_of_deep (deep : ¬ Shallow data) : flattened data = .error cannotGoThrough :=
  if_neg deep

theorem compared_of_comparable (alike : comparable before after) :
    (compared before after).result = .ok (changes before after) := by
  rw [compared, if_pos alike]

theorem compared_of_not_comparable (deep : ¬ comparable before after) :
    (compared before after).result = .error cannotCompare := by
  rw [compared, if_neg deep]

end

namespace Store

variable {s : Store} {e : Environment} {now : Text} {data : Table} {f : Fault}

/-- The ways in which a reload can end: the settings that are in place, and the answer. -/
inductive Ends (s : Store) (e : Environment) (now : Text) :
    Store → Except Fault (List Change) → Prop
  | untried : ¬ Shallow s.data → Ends s e now s (.error cannotGoThrough)
  | unbuilt {f : Fault} : Shallow s.data → (build e.files e.vars s.path).result = .error f →
      Ends s e now s (.error f)
  | unseen {data : Table} : Shallow s.data → (build e.files e.vars s.path).result = .ok data →
      ¬ Shallow data → Ends s e now ⟨s.path, data, now⟩ (.error cannotGoThrough)
  | uncompared {data : Table} : Shallow s.data →
      (build e.files e.vars s.path).result = .ok data → Shallow data →
      ¬ comparable (flatten s.data) (flatten data) →
      Ends s e now ⟨s.path, data, now⟩ (.error cannotCompare)
  | done {data : Table} : Shallow s.data → (build e.files e.vars s.path).result = .ok data →
      Shallow data → comparable (flatten s.data) (flatten data) →
      Ends s e now ⟨s.path, data, now⟩ (.ok (changes (flatten s.data) (flatten data)))

theorem exchange_of_deep (e : Environment) (now : Text) (deep : ¬ Shallow s.data) :
    s.exchange e now = (s, ⟨[], .error cannotGoThrough⟩) := by
  simp only [exchange, flattened_of_deep deep]

theorem exchange_of_unbuilt (now : Text) (shallow : Shallow s.data)
    (unbuilt : (build e.files e.vars s.path).result = .error f) :
    s.exchange e now = (s, ⟨(build e.files e.vars s.path).log, .error f⟩) := by
  simp only [exchange, flattened_of_shallow shallow]
  generalize build e.files e.vars s.path = built at unbuilt ⊢
  obtain ⟨log, result⟩ := built
  obtain rfl : result = .error f := unbuilt
  rfl

theorem exchange_of_built (now : Text) (shallow : Shallow s.data)
    (built : (build e.files e.vars s.path).result = .ok data) :
    s.exchange e now = (⟨s.path, data, now⟩, ⟨(build e.files e.vars s.path).log,
      (flattened data).map fun after => (flatten s.data, after)⟩) := by
  simp only [exchange, flattened_of_shallow shallow]
  generalize build e.files e.vars s.path = made at built ⊢
  obtain ⟨log, result⟩ := made
  obtain rfl : result = .ok data := built
  rfl

theorem reload_of_exchange {s' : Store} {r : Reported (Table × Table)}
    (exchanged : s.exchange e now = (s', r)) :
    (s.reload e now).2.1 = s' ∧ (s.reload e now).2.2 =
      (r.andThen fun (before, after) => compared before after).result := by
  unfold reload
  rw [exchanged]
  exact ⟨rfl, rfl⟩

/-- A reload ends in one of the five ways. -/
theorem ends_reload (s : Store) (e : Environment) (now : Text) :
    Ends s e now (s.reload e now).2.1 (s.reload e now).2.2 := by
  by_cases shallow : Shallow s.data
  case neg =>
    obtain ⟨store, answer⟩ := reload_of_exchange (exchange_of_deep e now shallow)
    rw [store, answer]
    exact .untried shallow
  case pos =>
    cases built : (build e.files e.vars s.path).result with
    | error f =>
        obtain ⟨store, answer⟩ := reload_of_exchange (exchange_of_unbuilt now shallow built)
        rw [store, answer]
        exact .unbuilt shallow built
    | ok data =>
        obtain ⟨store, answer⟩ := reload_of_exchange (exchange_of_built now shallow built)
        rw [store, answer]
        by_cases shallow' : Shallow data
        case neg =>
          rw [flattened_of_deep shallow']
          exact .unseen shallow built shallow'
        case pos =>
          rw [flattened_of_shallow shallow', Except.map, Reported.andThen_ok]
          by_cases alike : comparable (flatten s.data) (flatten data)
          case pos =>
            rw [compared_of_comparable alike]
            exact .done shallow built shallow' alike
          case neg =>
            rw [compared_of_not_comparable alike]
            exact .uncompared shallow built shallow' alike

/-- A reload that answers has put the layers together and exchanged the settings. -/
theorem of_reload {cs : List Change} (reloads : (s.reload e now).2.2 = .ok cs) : ∃ data,
    (build e.files e.vars s.path).result = .ok data ∧
      (s.reload e now).2.1 = ⟨s.path, data, now⟩ ∧
      cs = changes (flatten s.data) (flatten data) := by
  have ends := ends_reload s e now
  rw [reloads] at ends
  generalize (s.reload e now).2.1 = s' at ends ⊢
  cases ends with
  | done _ built _ _ => exact ⟨_, built, rfl, rfl⟩

/-- A reload answers if the settings come about and can be gone through and compared. -/
theorem reload_of_built (shallow : Shallow s.data)
    (built : (build e.files e.vars s.path).result = .ok data) (shallow' : Shallow data)
    (alike : comparable (flatten s.data) (flatten data)) :
    (s.reload e now).2.2 = .ok (changes (flatten s.data) (flatten data)) := by
  obtain ⟨-, answer⟩ := reload_of_exchange (exchange_of_built now shallow built)
  rw [answer, flattened_of_shallow shallow', Except.map, Reported.andThen_ok]
  exact compared_of_comparable alike

/-- A reload does not change the path. -/
theorem path_of_ends {s' : Store} {answer : Except Fault (List Change)}
    (ends : Ends s e now s' answer) : s'.path = s.path := by
  cases ends <;> rfl

end Store

namespace Guarded

/-- Under a free lock a reload does what it does without one, and the lock is free again. -/
theorem reload_of_free (s : Store) (e : Environment) (now : Text) :
    (⟨s, false⟩ : Guarded).reload e now =
      some (⟨(s.reload e now).2.1, false⟩, ⟨(s.reload e now).1, (s.reload e now).2.2⟩) := rfl

end Guarded

end EventStream.Config
