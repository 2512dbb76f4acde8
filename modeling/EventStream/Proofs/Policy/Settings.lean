import EventStream.Policy.Configured
import EventStream.Proofs.Number.Signs
import EventStream.Proofs.Policy.Exact
import EventStream.Proofs.Results

/-
# What settings come to

Settings of a policy are read value by value, and a value that cannot be read is a mistake in the
configuration, with two exceptions: an infinity has no integer part, and an integer can lie beyond
all doubles. Such a value is out of range, which is not among the failures that are taken for
mistakes. So a policy comes about, or the configuration is at fault, or the first value that cannot
be read is one of the two (`proper_ofSettings_iff`).
-/

namespace EventStream

namespace Numeral

variable {shown : Text} {cs : List Char} {e : CoercionError}

theorem kind_of_readInt (failed : readInt shown cs = .error e) : e.kind = .value := by
  unfold readInt at failed
  dsimp only at failed
  split at failed
  · obtain rfl := Except.error.inj failed
    rfl
  · split at failed
    · obtain rfl := Except.error.inj failed
      rfl
    · split at failed
      · obtain rfl := Except.error.inj failed
        rfl
      · contradiction

theorem kind_of_readFloat (failed : readFloat shown cs = .error e) : e.kind = .value := by
  unfold readFloat at failed
  dsimp only at failed
  split at failed
  · obtain rfl := Except.error.inj failed
    rfl
  · contradiction

end Numeral

namespace Value

variable {v : Value} {e : CoercionError}

/-- A double without an integer part, though it is a number. -/
def IsInfinite : Value → Prop
  | .float x => x.isInf = true
  | _ => False

/-- An integer beyond all doubles. -/
def IsHuge : Value → Prop
  | .int i => Binary64.overflow ≤ i.natAbs
  | _ => False

theorem toInt_of_isInfinite (infinite : v.IsInfinite) : v.toInt = .error .integerOfInfinity := by
  cases v with
  | float x =>
      have infinite : x.isInf = true := infinite
      have known : x.isNaN = false := Binary64.isNaN_of_isInf infinite
      simp only [toInt, Binary64.truncate?_eq_none_iff.mpr (.inr infinite), known,
        Bool.false_eq_true, if_false]
  | _ => contradiction

theorem isInfinite_of_toInt (failed : v.toInt = .error e) (far : e.kind = .overflow) :
    v.IsInfinite := by
  cases v with
  | float x =>
      cases part : Binary64.truncate? x with
      | some i => simp [toInt, part] at failed
      | none =>
          rcases Binary64.truncate?_eq_none_iff.mp part with unknown | infinite
          · simp only [toInt, part, unknown, if_true, Except.error.injEq] at failed
            obtain rfl := failed
            contradiction
          · exact infinite
  | text t | bytes b =>
      rw [Numeral.kind_of_readInt failed] at far
      contradiction
  | bool | int => contradiction
  | null | list | table | moment =>
      obtain rfl := Except.error.inj failed
      contradiction

/-- Only an infinity is out of range as an integer. -/
theorem toInt_overflows_iff :
    v.toInt = .error e ∧ e.kind = .overflow ↔ v.IsInfinite ∧ e = .integerOfInfinity := by
  constructor
  · rintro ⟨failed, far⟩
    have infinite := isInfinite_of_toInt failed far
    rw [toInt_of_isInfinite infinite] at failed
    exact ⟨infinite, (Except.error.inj failed).symm⟩
  · rintro ⟨infinite, rfl⟩
    exact ⟨toInt_of_isInfinite infinite, rfl⟩

theorem floatOfInt_eq (i : Int) : floatOfInt i =
    if i.natAbs < Binary64.overflow then .ok (Float.ofInt i) else .error .doubleOfHuge := by
  by_cases small : i.natAbs < Binary64.overflow <;>
    simp [floatOfInt, Binary64.ofInt?, Binary64.isFinite_ofInt_iff_natAbs, small]

/-- Only an integer beyond all doubles is out of range as a double. -/
theorem toFloat_overflows_iff :
    v.toFloat = .error e ∧ e.kind = .overflow ↔ v.IsHuge ∧ e = .doubleOfHuge := by
  cases v with
  | int i =>
      rw [toFloat, floatOfInt_eq, IsHuge, ← not_lt]
      by_cases small : i.natAbs < Binary64.overflow
      · simp [small]
      · simp only [small, if_false, not_false_iff, true_and, Except.error.injEq]
        exact ⟨fun failed => failed.1.symm, fun failed => ⟨failed.symm, failed ▸ rfl⟩⟩
  | bool b =>
      refine iff_of_false (fun failed => ?_) fun far => far.1
      cases b <;> exact nomatch failed.1
  | text t | bytes b =>
      refine iff_of_false (fun ⟨failed, far⟩ => ?_) fun far => far.1
      rw [Numeral.kind_of_readFloat failed] at far
      contradiction
  | float x => exact iff_of_false (fun failed => nomatch failed.1) fun far => far.1
  | null | list | table | moment =>
      refine iff_of_false (fun ⟨failed, far⟩ => ?_) fun far => far.1
      obtain rfl := Except.error.inj failed
      contradiction

end Value

namespace Settings

variable {α : Type} {s : Settings} {key : Text} {default : α}
  {coerce : Value → Except CoercionError α} {e : CoercionError}

theorem read_eq_error_iff :
    s.read key default coerce = .error e ↔ ∃ v, s.get? key = some v ∧ coerce v = .error e := by
  unfold read
  cases s.get? key <;> simp

/-- What keeps settings from being read for want of range: the first value that cannot be read is
an infinite limit, or a delay, multiplier or cap beyond all doubles. -/
inductive Overflows (s : Settings) : CoercionError → Prop
  | attempts {v} : s.get? "max_attempts" = some v → v.IsInfinite → Overflows s .integerOfInfinity
  | base {v limit} : s.read "max_attempts" 0 Value.toInt = .ok limit →
      s.get? "base_delay" = some v → v.IsHuge → Overflows s .doubleOfHuge
  | multiplier {v limit base} : s.read "max_attempts" 0 Value.toInt = .ok limit →
      s.read "base_delay" 2.0 Value.toFloat = .ok base →
      s.get? "backoff_multiplier" = some v → v.IsHuge → Overflows s .doubleOfHuge
  | cap {v limit base factor} : s.read "max_attempts" 0 Value.toInt = .ok limit →
      s.read "base_delay" 2.0 Value.toFloat = .ok base →
      s.read "backoff_multiplier" 1.0 Value.toFloat = .ok factor →
      s.get? "max_delay" = some v → v.IsHuge → Overflows s .doubleOfHuge

theorem read_overflows_iff {far : Value → Prop} {e₀ : CoercionError}
    (overflows : ∀ v, coerce v = .error e ∧ e.kind = .overflow ↔ far v ∧ e = e₀) :
    s.read key default coerce = .error e ∧ e.kind = .overflow ↔
      (∃ v, s.get? key = some v ∧ far v) ∧ e = e₀ := by
  rw [read_eq_error_iff]
  constructor
  · rintro ⟨⟨v, found, failed⟩, range⟩
    obtain ⟨beyond, rfl⟩ := (overflows v).mp ⟨failed, range⟩
    exact ⟨⟨v, found, beyond⟩, rfl⟩
  · rintro ⟨⟨v, found, beyond⟩, rfl⟩
    obtain ⟨failed, range⟩ := (overflows v).mpr ⟨beyond, rfl⟩
    exact ⟨⟨v, found, failed⟩, range⟩

theorem limit_overflows_iff {limit : Int} :
    s.read key limit Value.toInt = .error e ∧ e.kind = .overflow ↔
      (∃ v, s.get? key = some v ∧ v.IsInfinite) ∧ e = .integerOfInfinity :=
  read_overflows_iff fun _ => Value.toInt_overflows_iff

theorem double_overflows_iff {x : Float} :
    s.read key x Value.toFloat = .error e ∧ e.kind = .overflow ↔
      (∃ v, s.get? key = some v ∧ v.IsHuge) ∧ e = .doubleOfHuge :=
  read_overflows_iff fun _ => Value.toFloat_overflows_iff

/-- The failures that are out of range are the overflows. -/
theorem backoff_overflows_iff : s.backoff = .error e ∧ e.kind = .overflow ↔ s.Overflows e := by
  simp only [backoff, bind_eq_error_iff]
  constructor
  · rintro ⟨failed | ⟨limit, attempts, failed | ⟨base, delay, failed | ⟨factor, multiplier,
      failed | ⟨cap, -, failed⟩⟩⟩⟩, range⟩
    · obtain ⟨⟨v, found, infinite⟩, rfl⟩ := limit_overflows_iff.mp ⟨failed, range⟩
      exact .attempts found infinite
    · obtain ⟨⟨v, found, huge⟩, rfl⟩ := double_overflows_iff.mp ⟨failed, range⟩
      exact .base attempts found huge
    · obtain ⟨⟨v, found, huge⟩, rfl⟩ := double_overflows_iff.mp ⟨failed, range⟩
      exact .multiplier attempts delay found huge
    · obtain ⟨⟨v, found, huge⟩, rfl⟩ := double_overflows_iff.mp ⟨failed, range⟩
      exact .cap attempts delay multiplier found huge
    · contradiction
  · rintro (⟨found, infinite⟩ | ⟨attempts, found, huge⟩ | ⟨attempts, delay, found, huge⟩ |
      ⟨attempts, delay, multiplier, found, huge⟩)
    · obtain ⟨failed, range⟩ := limit_overflows_iff.mpr ⟨⟨_, found, infinite⟩, rfl⟩
      exact ⟨.inl failed, range⟩
    · obtain ⟨failed, range⟩ := double_overflows_iff.mpr ⟨⟨_, found, huge⟩, rfl⟩
      exact ⟨.inr ⟨_, attempts, .inl failed⟩, range⟩
    · obtain ⟨failed, range⟩ := double_overflows_iff.mpr ⟨⟨_, found, huge⟩, rfl⟩
      exact ⟨.inr ⟨_, attempts, .inr ⟨_, delay, .inl failed⟩⟩, range⟩
    · obtain ⟨failed, range⟩ := double_overflows_iff.mpr ⟨⟨_, found, huge⟩, rfl⟩
      exact ⟨.inr ⟨_, attempts, .inr ⟨_, delay, .inr ⟨_, multiplier, .inl failed⟩⟩⟩, range⟩

/-- What is read keeps a limit and a cap only if they are not zero. -/
theorem backoff_kept {b : Backoff Number} (read : s.backoff = .ok b) :
    b.maxAttempts ≠ some 0 ∧ ∀ cap, b.maxDelay = some cap → ¬ cap.IsZero := by
  obtain ⟨limit, -, read⟩ := ok_of_bind read
  obtain ⟨base, -, read⟩ := ok_of_bind read
  obtain ⟨factor, -, read⟩ := ok_of_bind read
  obtain ⟨cap, -, read⟩ := ok_of_bind read
  obtain rfl := Except.ok.inj read
  constructor
  · by_cases zero : limit = 0 <;> simp [zero]
  · rintro kept capped
    dsimp only at capped
    split at capped
    · contradiction
    case isFalse other =>
      obtain rfl := Option.some.inj capped
      exact other

end Settings

namespace ReconnectPolicy

/-- A policy comes about with the settings as they are, unless they break a rule. -/
theorem make_cases (b : Backoff Number) : (∃ flaw, make b = .error (BackoffFlaw.toFault flaw)) ∨
    ∃ p, make b = .ok p ∧ p.toBackoff = b := by
  unfold make ofBackoff
  split
  · exact .inr ⟨_, rfl, rfl⟩
  · exact .inl ⟨_, rfl⟩

/-- A policy whose limit and cap are kept only if they are not zero, or a mistake in the
configuration. -/
inductive Proper : Except Fault (ReconnectPolicy Number) → Prop
  | refused (message : Text) (details : Details) : Proper (.error (.configuration message details))
  | built {p} : (∀ limit, p.maxAttempts = some limit → 1 ≤ limit) →
      (∀ cap, p.maxDelay = some cap → ¬ cap.IsZero) → Proper (.ok p)

variable {s : Settings}

/-- What is out of range is passed on. -/
theorem ofSettings_of_overflows {e : CoercionError} (overflows : s.Overflows e) :
    ofSettings s = .error e.toFault := by
  obtain ⟨failed, far⟩ := Settings.backoff_overflows_iff.mpr overflows
  simp [ofSettings, failed, far]

theorem proper_ofSettings (fits : ∀ e, ¬ s.Overflows e) : Proper (ofSettings s) := by
  unfold ofSettings
  cases read : s.backoff with
  | error e =>
      have near : e.kind ≠ .overflow := fun far =>
        fits e (Settings.backoff_overflows_iff.mp ⟨read, far⟩)
      simp only [near, if_false]
      exact .refused _ _
  | ok b =>
      obtain ⟨limited, capped⟩ := Settings.backoff_kept read
      rcases make_cases b with ⟨flaw, made⟩ | ⟨p, made, rfl⟩ <;> simp only [made]
      · exact .refused _ _
      · refine .built (fun limit some => ?_) capped
        have least := (p.toBackoff.flaw?_eq_none_iff.mp p.accepted).1 limit some
        have other : limit ≠ 0 := fun zero => limited (zero ▸ some)
        omega

theorem proper_ofSettings_iff : Proper (ofSettings s) ↔ ∀ e, ¬ s.Overflows e := by
  refine ⟨fun proper e overflows => ?_, proper_ofSettings⟩
  rw [ofSettings_of_overflows overflows] at proper
  contradiction

/-- Settings as they are handed over: any mapping, a table, or a group of loaded settings. -/
inductive Source where
  | mapping (s : Settings)
  | table (entries : Table)
  | group (g : Config.Section)

namespace Source

/-- The settings that are handed over. -/
def settings : Source → Settings
  | .mapping s => s
  | .table entries => Details.ofTable entries
  | .group g => Details.ofTable g.data

/-- The policy that is made of them. -/
def policy : Source → Except Fault (ReconnectPolicy Number)
  | .mapping s => ofSettings s
  | .table entries => ofValue (.table entries)
  | .group g => Config.Found.policy (.group g)

/-- Of settings a policy is made, or the configuration is at fault, exactly if no value is out of
range before another one cannot be read. -/
theorem proper_policy_iff (source : Source) :
    Proper source.policy ↔ ∀ e, ¬ source.settings.Overflows e := by
  cases source with
  | mapping s => exact proper_ofSettings_iff
  | table entries => exact proper_ofSettings_iff
  | group g => exact proper_ofSettings_iff

end Source

end ReconnectPolicy

end EventStream
