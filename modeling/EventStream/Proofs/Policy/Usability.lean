import EventStream.Proofs.Number.Signs
import EventStream.Proofs.Policy.Exact

/-
# Delays that can be waited for

Validation states each rule as a comparison that must not hold, so a NaN breaks none of them and is
accepted in the place of the base delay, the multiplier or the cap. A NaN also arises where a base
delay of zero meets an infinite multiplier. These are the only ways to a delay that cannot be waited
for: every other delay that there is is at least zero and at most the cap (`within_iff_usable`).
-/

namespace EventStream

namespace ReconnectPolicy

open Number

variable {p : ReconnectPolicy Number}

/-- A delay that is at least zero, and at most the cap if there is one. -/
def Within (p : ReconnectPolicy Number) (delay : Number) : Prop :=
  AtMost (.int 0) delay ∧ ∀ cap, p.maxDelay = some cap → delay.AtMost cap

/-- Settings that make no NaN of the delay before a reconnect, and whose cap is none. The multiplier
takes part from the second reconnect on. -/
structure Usable (p : ReconnectPolicy Number) (attempt : Int) : Prop where
  base : ¬ p.baseDelay.IsNaN
  cap (cap : Number) : p.maxDelay = some cap → ¬ cap.IsNaN
  factor : attempt ≠ 1 →
    ¬ p.multiplier.IsNaN ∧ ¬ (p.baseDelay.IsZero ∧ p.multiplier.IsInfinite)

/-- The cap keeps what is not less than zero there, because it is not less than the base delay. -/
theorem within_capped_iff {delay : Number} (nonneg : delay.lt (.int 0) = false)
    (known : ¬ delay.IsNaN → ¬ p.baseDelay.IsNaN) : p.Within (p.capped delay) ↔
      ¬ delay.IsNaN ∧ ∀ cap, p.maxDelay = some cap → ¬ cap.IsNaN := by
  have least := p.sound.1
  have zero : ¬ (Number.int 0).IsNaN := id
  unfold Within capped
  cases capped : p.maxDelay with
  | none => simp [atMost_iff_of_not_lt nonneg, zero]
  | some cap =>
      have above : cap.lt p.baseDelay = false :=
        (p.toBackoff.flaw?_eq_none_iff.mp p.accepted).2.2.2 cap capped
      simp only [Option.some_inj, forall_eq']
      change AtMost _ (if cap.lt delay then cap else delay) ∧
        AtMost (if cap.lt delay then cap else delay) _ ↔ _
      constructor
      · rintro ⟨positive, below⟩
        refine ⟨fun isNaN => ?_, below.not_isNaN.2⟩
        rw [lt_of_isNaN (.inr isNaN)] at positive
        exact positive.not_isNaN.2 isNaN
      · rintro ⟨isNumber, capIsNumber⟩
        have positive := (atMost_iff_of_not_lt nonneg).mpr ⟨isNumber, zero⟩
        cases less : cap.lt delay with
        | false => exact ⟨positive, (atMost_iff_of_not_lt less).mpr ⟨capIsNumber, isNumber⟩⟩
        | true =>
            have baseIsNumber := known isNumber
            have base : AtMost (.int 0) p.baseDelay :=
              (atMost_iff_of_not_lt least).mpr ⟨baseIsNumber, zero⟩
            exact ⟨base.trans ((atMost_iff_of_not_lt above).mpr ⟨capIsNumber, baseIsNumber⟩),
              atMost_self capIsNumber⟩

/-- A delay can be waited for exactly if the settings make no NaN of it and the cap is none. -/
theorem within_iff_usable {attempt : Int} {delay : Number} (first : 1 ≤ attempt)
    (delayed : p.delayFor attempt = .ok delay) : p.Within delay ↔ p.Usable attempt := by
  rw [delayFor_eq] at delayed
  obtain ⟨d, product, rfl⟩ := ok_of_map delayed
  obtain ⟨nonneg, isNaN⟩ := scaled_of_not_lt p.sound.1 p.sound.2 (mapError_eq_ok_iff.mp product)
  have later : (attempt - 1).toNat ≠ 0 ↔ attempt ≠ 1 := by omega
  rw [later] at isNaN
  rw [within_capped_iff nonneg fun known base => known (isNaN.mpr (.inl base)), isNaN]
  constructor
  · rintro ⟨known, cap⟩
    exact ⟨by tauto, cap, by tauto⟩
  · rintro ⟨base, cap, factor⟩
    exact ⟨by tauto, cap⟩

/-- No delay at first, an infinite multiplier later, and a cap of half a minute. -/
def stalling : ReconnectPolicy Number :=
  ⟨⟨none, .float 0.0, .float (1.0 / 0.0), some (.float 30.0)⟩, by decide +kernel⟩

theorem within_iff_usable_stalling :
    (∃ delay, stalling.delayFor 1 = .ok delay ∧ stalling.Within delay) ∧
      ∃ delay, stalling.delayFor 2 = .ok delay ∧ ¬ stalling.Within delay := by
  have first : stalling.delayFor 1 = .ok (.float 0.0) := by rfl
  have second : stalling.delayFor 2 = .ok (.float (0.0 / 0.0)) := by rfl
  have number (x : Float) (known : x.isNaN = false) : ¬ (Number.float x).IsNaN :=
    Bool.eq_false_iff.mp known
  refine ⟨⟨_, first, (within_iff_usable (by decide) first).mpr ⟨number _ rfl, ?_, nofun⟩⟩,
    _, second, fun within => ?_⟩
  · rintro cap ⟨⟩
    exact number _ rfl
  · have usable := (within_iff_usable (by decide) second).mp within
    exact (usable.factor (by decide)).2 ⟨rfl, rfl⟩

end ReconnectPolicy

end EventStream
