import EventStream.Policy.Basic
import EventStream.Proofs.Number.Powers

/-
# The delays of a capped policy

A delay is computed first and cut to the cap afterwards, so a cap bounds the delays that there are
(`delayFor_cases`) and does not keep the computation in range. A policy has a delay at every
attempt only if it counts in integers where it grows (`never_outgrown_iff`). One that doubles its
delays and in which a double takes part has none from attempt 1025 on, whatever its cap.
-/

namespace EventStream

namespace ReconnectPolicy

open Number
open Binary64 (Extent)

/-- Policies whose numbers are finite and whose delays are capped. -/
structure Capped (p : ReconnectPolicy Number) (cap : Number) : Prop where
  base : p.baseDelay.IsFinite
  multiplier : p.multiplier.IsFinite
  finite : cap.IsFinite
  maxDelay : p.maxDelay = some cap

/-- Whether the delay before a reconnect is computed from a number that is out of range. -/
def Outgrown (p : ReconnectPolicy Number) (attempt : Int) : Prop :=
  OutOfRange p.baseDelay p.multiplier (attempt - 1).toNat

variable {p : ReconnectPolicy Number} {cap : Number}

/-- The base delay is not negative, and the multiplier is at least one. -/
theorem sound (p : ReconnectPolicy Number) :
    p.baseDelay.lt (.int 0) = false ∧ p.multiplier.lt (.int 1) = false := by
  have sound : p.toBackoff.flaw? = none := p.accepted
  unfold Backoff.flaw? at sound
  split at sound
  · contradiction
  · split at sound
    · contradiction
    · split at sound
      · contradiction
      · exact ⟨by simp_all [DelayArithmetic.lt, DelayArithmetic.zero],
          by simp_all [DelayArithmetic.lt, DelayArithmetic.one]⟩

/-- The errors of arithmetic become faults at the end only. -/
theorem delayFor_eq (p : ReconnectPolicy Number) (attempt : Int) : p.delayFor attempt =
    ((scaled p.baseDelay p.multiplier (attempt - 1).toNat).mapError ArithmeticError.toFault).map
      p.capped := by
  change (((p.multiplier.pow _).mapError ArithmeticError.toFault) >>= fun power =>
    ((p.baseDelay.mul power).mapError ArithmeticError.toFault) >>= fun delay =>
      pure (p.capped delay)) = _
  unfold scaled
  cases p.multiplier.pow (attempt - 1).toNat with
  | error e => rfl
  | ok power =>
      change (((p.baseDelay.mul power).mapError ArithmeticError.toFault) >>= fun delay =>
        pure (p.capped delay)) = ((p.baseDelay.mul power).mapError _).map _
      cases p.baseDelay.mul power <;> rfl

theorem capped_atMost (capped : p.Capped cap) {delay : Number} {v : Extent}
    (value : delay.value? = some v) : (p.capped delay).AtMost cap := by
  obtain ⟨q, finite⟩ := capped.finite.value
  unfold ReconnectPolicy.capped
  rw [capped.maxDelay]
  change (if cap.lt delay then cap else delay).AtMost cap
  cases less : cap.lt delay with
  | true => exact ⟨_, _, finite, finite, le_rfl⟩
  | false => exact atMost_of_not_lt finite value less

/-- A capped delay is at most the cap, unless it is computed from a number that is out of range. -/
theorem delayFor_cases (capped : p.Capped cap) (attempt : Int) :
    p.Outgrown attempt ∧ (∃ e : ArithmeticError, p.delayFor attempt = .error e.toFault) ∨
      ¬ p.Outgrown attempt ∧ ∃ d, p.delayFor attempt = .ok d ∧ d.AtMost cap := by
  obtain ⟨nonneg, least⟩ := p.sound
  rw [delayFor_eq]
  rcases scaled_cases capped.base nonneg capped.multiplier least (attempt - 1).toNat with
    ⟨far, e, fails⟩ | ⟨near, d, v, product, value⟩
  · exact .inl ⟨far, e, by rw [fails]; rfl⟩
  · exact .inr ⟨near, _, by rw [product]; rfl, capped_atMost capped value⟩

/-- A policy under which a double takes part and each delay is at least twice the one before has no
delay from attempt 1025 on. -/
theorem outgrown_of_two_le (two : AtMost (.int 2) p.multiplier)
    (double : ¬ (p.baseDelay.IsInt ∧ p.multiplier.IsInt)) {attempt : Int} (late : 1025 ≤ attempt) :
    p.Outgrown attempt :=
  outOfRange_of_two_le two double (by omega)

/-- A policy has a delay at every attempt only if its multiplier is an integer, and either its base
delay is one too or its delays do not grow. -/
theorem never_outgrown_iff (p : ReconnectPolicy Number) : (∀ attempt, ¬ p.Outgrown attempt) ↔
    p.multiplier.IsInt ∧ (p.baseDelay.IsInt ∨ p.multiplier = .int 1) := by
  rw [← never_outOfRange_iff p.sound.2]
  exact ⟨fun never n => by simpa [Outgrown] using never (n + 1), fun never _ => never _⟩

/-- Whether a policy allows no reconnect with this number. -/
def Spent (p : ReconnectPolicy Number) (attempt : Int) : Prop :=
  ∃ limit, p.maxAttempts = some limit ∧ limit < attempt

theorem onDisconnect_of_spent {attempt : Int} (spent : p.Spent attempt) :
    p.onDisconnect attempt = .ok (.giveUp (attempt - 1)) := by
  obtain ⟨limit, limited, less⟩ := spent
  simp [onDisconnect, limited, less]

theorem onDisconnect_of_not_spent {attempt : Int} (left : ¬ p.Spent attempt) :
    p.onDisconnect attempt = (p.delayFor attempt).map .retry := by
  refine if_neg fun spent => left ?_
  cases limited : p.maxAttempts with
  | none => simp [limited] at spent
  | some limit => exact ⟨limit, limited, by simpa [limited] using spent⟩

/-- The arithmetic of a delay raises, and so does the policy, unless it gives up. -/
def Raises (p : ReconnectPolicy Number) (attempt : Int) : Prop :=
  ∃ e : ArithmeticError, p.delayFor attempt = .error e.toFault ∧
    (¬ p.Spent attempt → p.onDisconnect attempt = .error e.toFault)

/-- A delay is at most the cap, and the policy retries after it, unless it gives up. -/
def Delays (p : ReconnectPolicy Number) (cap : Number) (attempt : Int) : Prop :=
  ∃ d, p.delayFor attempt = .ok d ∧ d.AtMost cap ∧
    (¬ p.Spent attempt → p.onDisconnect attempt = .ok (.retry d))

/-- What a capped policy does at an attempt is settled by whether the delay is computed from a
number that is out of range. -/
theorem raises_or_delays (capped : p.Capped cap) (attempt : Int) :
    p.Outgrown attempt ∧ p.Raises attempt ∨ ¬ p.Outgrown attempt ∧ p.Delays cap attempt := by
  rcases delayFor_cases capped attempt with ⟨far, e, raised⟩ | ⟨near, d, delayed, least⟩
  · refine .inl ⟨far, e, raised, fun left => ?_⟩
    rw [onDisconnect_of_not_spent left, raised]
    rfl
  · refine .inr ⟨near, d, delayed, least, fun left => ?_⟩
    rw [onDisconnect_of_not_spent left, delayed]
    rfl

theorem not_outgrown_of_retry (capped : p.Capped cap) {attempt : Int} {d : Number}
    (decided : p.onDisconnect attempt = .ok (.retry d)) : ¬ p.Outgrown attempt := by
  intro far
  by_cases spent : p.Spent attempt
  · rw [onDisconnect_of_spent spent] at decided
    simp at decided
  · rcases raises_or_delays capped attempt with ⟨-, e, -, raised⟩ | ⟨near, -⟩
    · rw [raised spent] at decided
      contradiction
    · exact near far

/-- A capped policy decides at an attempt if it gives up or has a delay there, and only then. -/
theorem decides_iff (capped : p.Capped cap) (attempt : Int) :
    (∃ decision, p.onDisconnect attempt = .ok decision) ↔
      p.Spent attempt ∨ ¬ p.Outgrown attempt := by
  by_cases spent : p.Spent attempt
  · simp [spent, onDisconnect_of_spent spent]
  · rcases raises_or_delays capped attempt with ⟨far, e, -, raised⟩ | ⟨near, d, -, -, decided⟩
    · simp [spent, far, raised spent]
    · simp [near, decided spent]

end ReconnectPolicy

end EventStream
