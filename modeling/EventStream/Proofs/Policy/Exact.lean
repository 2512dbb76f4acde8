import EventStream.Proofs.Policy.Backoff

/-
# Backoff in exact arithmetic

The law of a policy is one of exact numbers. `DelayArithmetic` for the rational numbers computes
without rounding, so that a policy over them shows the law itself (`lawful`): delays start at the
base delay, never shrink, are at most the cap and stay there once they have reached it. All of it
rests on what validation asks for (`bounds`).

A policy with finite fields is accepted with its doubles exactly if it is accepted with the rational
numbers that they are worth (`flaw?_exact`), because only comparisons are made then, and those are
exact. If it counts in integers, its own arithmetic is exact as well (`agrees_exact`).
-/

namespace EventStream

/-- Arithmetic without rounding. -/
instance : DelayArithmetic ℚ where
  zero := 0
  one := 1
  lt a b := decide (a < b)
  mul a b := .ok (a * b)
  pow a n := .ok (a ^ n)

/-! ## What policies have in common -/

section

variable {α : Type} [DelayArithmetic α]

theorem eq_none_of_ite_iff {ι : Type} {c : Prop} [Decidable c] {a : ι} {x : Option ι} :
    (if c then some a else x) = none ↔ ¬ c ∧ x = none := by
  split <;> simp_all

/-- Settings that break no rule keep all four. -/
theorem Backoff.flaw?_eq_none_iff (b : Backoff α) : b.flaw? = none ↔
    (∀ limit, b.maxAttempts = some limit → 0 ≤ limit) ∧
      DelayArithmetic.lt b.baseDelay DelayArithmetic.zero = false ∧
      DelayArithmetic.lt b.multiplier DelayArithmetic.one = false ∧
      ∀ cap, b.maxDelay = some cap → DelayArithmetic.lt cap b.baseDelay = false := by
  unfold Backoff.flaw?
  simp only [eq_none_of_ite_iff, Bool.not_eq_true, Option.any_eq_false, decide_eq_false_iff_not,
    not_lt, and_true]

namespace ReconnectPolicy

/-- Whether a policy has a limit that an attempt is beyond. -/
def IsBeyond (p : ReconnectPolicy α) (attempt : Int) : Prop :=
  ∃ limit, p.maxAttempts = some limit ∧ limit < attempt

theorem isBeyond_iff {p : ReconnectPolicy α} {attempt : Int} :
    p.IsBeyond attempt ↔ p.maxAttempts.any (· < attempt) = true := by
  unfold IsBeyond
  cases p.maxAttempts <;> simp

theorem onDisconnect_of_isBeyond {p : ReconnectPolicy α} {attempt : Int}
    (beyond : p.IsBeyond attempt) : p.onDisconnect attempt = .ok (.giveUp (attempt - 1)) :=
  if_pos (isBeyond_iff.mp beyond)

theorem onDisconnect_of_not_isBeyond {p : ReconnectPolicy α} {attempt : Int}
    (within : ¬ p.IsBeyond attempt) : p.onDisconnect attempt = (p.delayFor attempt).map .retry :=
  if_neg fun beyond => within (isBeyond_iff.mpr beyond)

end ReconnectPolicy

end

/-! ## Rational policies -/

namespace ReconnectPolicy

section

variable (p : ReconnectPolicy ℚ)

/-- The base delay times the multiplier to the power of the attempts before. -/
def growth (attempt : Int) : ℚ := p.baseDelay * p.multiplier ^ (attempt - 1).toNat

/-- The growth cut to the cap, if there is one. -/
def delay (attempt : Int) : ℚ :=
  match p.maxDelay with
  | none => p.growth attempt
  | some cap => min (p.growth attempt) cap

/-- The law of backoff. -/
structure Lawful : Prop where
  computed (n : Int) : 1 ≤ n → p.delayFor n = .ok (p.delay n)
  least (n : Int) : 1 ≤ n → p.baseDelay ≤ p.delay n
  grows (n : Int) : 1 ≤ n → p.delay n ≤ p.delay (n + 1)
  atMost (cap : ℚ) : p.maxDelay = some cap → ∀ n, 1 ≤ n → p.delay n ≤ cap
  settles (cap : ℚ) : p.maxDelay = some cap → ∀ n, 1 ≤ n → p.delay n = cap →
    ∀ m, n ≤ m → p.delay m = cap
  givesUp (n : Int) : 1 ≤ n → (p.onDisconnect n = .ok (.giveUp (n - 1)) ↔
    ∃ limit, p.maxAttempts = some limit ∧ limit < n)
  retries (n : Int) : 1 ≤ n → (¬ ∃ limit, p.maxAttempts = some limit ∧ limit < n) →
    p.onDisconnect n = .ok (.retry (p.delay n))

variable {p}

theorem delayFor_rat (n : Int) : p.delayFor n = .ok (p.delay n) := by
  show Except.ok (p.capped (p.growth n)) = _
  unfold capped delay
  cases p.maxDelay with
  | none => rfl
  | some cap =>
      show Except.ok (if decide (cap < p.growth n) = true then cap else p.growth n) = _
      simp only [decide_eq_true_eq]
      split
      case isTrue less => rw [min_eq_right less.le]
      case isFalse least => rw [min_eq_left (not_lt.mp least)]

/-- What validation asks of a rational policy. -/
theorem bounds (p : ReconnectPolicy ℚ) : 0 ≤ p.baseDelay ∧ 1 ≤ p.multiplier ∧
    ∀ cap, p.maxDelay = some cap → p.baseDelay ≤ cap := by
  obtain ⟨-, nonneg, least, cap⟩ := p.toBackoff.flaw?_eq_none_iff.mp p.accepted
  simp only [DelayArithmetic.lt, DelayArithmetic.zero, DelayArithmetic.one,
    decide_eq_false_iff_not, not_lt] at nonneg least cap
  exact ⟨nonneg, least, cap⟩

/-- Growth never shrinks: the base delay is not negative and the multiplier at least one. -/
theorem growth_mono {n m : Int} (later : n ≤ m) : p.growth n ≤ p.growth m := by
  obtain ⟨nonneg, least, -⟩ := p.bounds
  have exponents : (n - 1).toNat ≤ (m - 1).toNat := by omega
  exact mul_le_mul_of_nonneg_left (pow_le_pow_right₀ least exponents) nonneg

theorem baseDelay_le_growth (n : Int) : p.baseDelay ≤ p.growth n := by
  obtain ⟨nonneg, least, -⟩ := p.bounds
  exact le_mul_of_one_le_right nonneg (one_le_pow₀ least)

theorem delay_mono {n m : Int} (later : n ≤ m) : p.delay n ≤ p.delay m := by
  unfold delay
  cases p.maxDelay with
  | none => exact growth_mono later
  | some cap => exact min_le_min_right cap (growth_mono later)

theorem baseDelay_le_delay (n : Int) : p.baseDelay ≤ p.delay n := by
  obtain ⟨-, -, cap_least⟩ := p.bounds
  unfold delay
  cases capped : p.maxDelay with
  | none => exact baseDelay_le_growth n
  | some cap => exact le_min (baseDelay_le_growth n) (cap_least cap capped)

theorem delay_le_cap {cap : ℚ} (capped : p.maxDelay = some cap) (n : Int) : p.delay n ≤ cap := by
  rw [delay, capped]
  exact min_le_right _ _

theorem onDisconnect_rat_of_within {n : Int} (within : ¬ p.IsBeyond n) :
    p.onDisconnect n = .ok (.retry (p.delay n)) := by
  rw [onDisconnect_of_not_isBeyond within, delayFor_rat]
  rfl

/-- Every rational policy obeys the law. -/
theorem lawful (p : ReconnectPolicy ℚ) : p.Lawful where
  computed n _ := delayFor_rat n
  least n _ := baseDelay_le_delay n
  grows n _ := delay_mono (by omega)
  atMost cap capped n _ := delay_le_cap capped n
  settles cap capped n _ reached m later :=
    le_antisymm (delay_le_cap capped m) (reached.symm.le.trans (delay_mono later))
  givesUp n _ := by
    constructor
    · intro decided
      by_contra within
      rw [onDisconnect_rat_of_within within] at decided
      cases decided
    · exact onDisconnect_of_isBeyond
  retries n _ within := onDisconnect_rat_of_within within

end

end ReconnectPolicy

/-! ## Numbers as rational numbers -/

open Binary64 (Extent)

/-- What a finite number is worth. -/
def Number.exact : Number → ℚ
  | .int i => i
  | .float x => (Binary64.dyadic? x).elim 0 Binary64.Dyadic.value

theorem Number.value?_exact {a : Number} (finite : a.IsFinite) :
    a.value? = some (.ofRat a.exact) := by
  cases a with
  | int i => rfl
  | float x =>
      obtain ⟨magnitude, known⟩ := Option.isSome_iff_exists.mp finite
      simp [Number.value?, Binary64.value?, Number.exact, Binary64.dyadic?, known]

/-- Finite numbers are compared by what they are worth. -/
theorem Number.lt_exact {a b : Number} (finite : a.IsFinite) (finite' : b.IsFinite) :
    a.lt b = decide (a.exact < b.exact) := by
  rw [Bool.eq_iff_iff, Number.lt_iff (Number.value?_exact finite) (Number.value?_exact finite'),
    Extent.ofRat_lt_ofRat, decide_eq_true_iff]

theorem Number.IsInt.exists_int {a : Number} (isInt : a.IsInt) : ∃ i, a = .int i := by
  cases a with
  | int i => exact ⟨i, rfl⟩
  | float x => exact isInt.elim

namespace Backoff

/-- Settings without an infinity or a NaN. -/
structure IsFinite (b : Backoff Number) : Prop where
  base : b.baseDelay.IsFinite
  multiplier : b.multiplier.IsFinite
  cap (cap : Number) : b.maxDelay = some cap → cap.IsFinite

/-- Settings that count in integers; the cap may be a double. -/
structure IsInteger (b : Backoff Number) : Prop where
  base : b.baseDelay.IsInt
  multiplier : b.multiplier.IsInt

/-- The same settings, with rational numbers in place of doubles. -/
def exact (b : Backoff Number) : Backoff ℚ where
  maxAttempts := b.maxAttempts
  baseDelay := b.baseDelay.exact
  multiplier := b.multiplier.exact
  maxDelay := b.maxDelay.map Number.exact

/-- Finite settings break the same rule in exact arithmetic, if they break one. -/
theorem flaw?_exact {b : Backoff Number} (finite : b.IsFinite) : b.exact.flaw? = b.flaw? := by
  have zero : (Number.int 0).exact = 0 := Int.cast_zero
  have one : (Number.int 1).exact = 1 := Int.cast_one
  have base := Number.lt_exact finite.base (b := .int 0) trivial
  have multiplier := Number.lt_exact finite.multiplier (b := .int 1) trivial
  have cap : (b.maxDelay.map Number.exact).any (fun cap => decide (cap < b.baseDelay.exact)) =
      b.maxDelay.any (fun cap => cap.lt b.baseDelay) := by
    cases capped : b.maxDelay with
    | none => rfl
    | some cap => exact (Number.lt_exact (finite.cap cap capped) finite.base).symm
  rw [zero] at base
  rw [one] at multiplier
  unfold flaw?
  show (if _ then _ else if decide (b.baseDelay.exact < 0) = true then _ else
      if decide (b.multiplier.exact < 1) = true then _ else
      if (b.maxDelay.map Number.exact).any (fun cap => decide (cap < b.baseDelay.exact)) = true
        then _ else _) = _
  rw [← base, ← multiplier, cap]
  rfl

end Backoff

namespace ReconnectPolicy

/-- A policy with finite fields in exact arithmetic. -/
def exact (p : ReconnectPolicy Number) (finite : p.toBackoff.IsFinite) : ReconnectPolicy ℚ :=
  ⟨p.toBackoff.exact, (Backoff.flaw?_exact finite).trans p.accepted⟩

/-- A policy decides at an attempt as an exact one does, and its delay is worth the same. -/
def Agrees (p : ReconnectPolicy Number) (q : ReconnectPolicy ℚ) (n : Int) : Prop :=
  ∃ d : Number, d.IsFinite ∧ d.exact = q.delay n ∧ p.delayFor n = .ok d ∧
    (p.IsBeyond n → p.onDisconnect n = .ok (.giveUp (n - 1))) ∧
    (¬ p.IsBeyond n → p.onDisconnect n = .ok (.retry d))

/-- Integers are multiplied and raised to powers without rounding. -/
theorem delayFor_int {p : ReconnectPolicy Number} {base multiplier : Int}
    (isBase : p.baseDelay = .int base) (isMultiplier : p.multiplier = .int multiplier) (n : Int) :
    p.delayFor n = .ok (p.capped (.int (base * multiplier ^ (n - 1).toNat))) := by
  rw [delayFor_eq, isBase, isMultiplier, ← Number.powInt_eq]
  rfl

/-- Cutting to the cap is exact, because it only compares. -/
theorem capped_exact {p : ReconnectPolicy Number} (finite : p.toBackoff.IsFinite) (d : Number)
    (isFinite : d.IsFinite) {n : Int} (growth : d.exact = (p.exact finite).growth n) :
    (p.capped d).IsFinite ∧ (p.capped d).exact = (p.exact finite).delay n := by
  have cut : (p.exact finite).maxDelay = p.maxDelay.map Number.exact := rfl
  rw [delay, cut, ← growth]
  unfold capped
  cases capped : p.maxDelay with
  | none => exact ⟨isFinite, rfl⟩
  | some cap =>
      have finiteCap := finite.cap cap capped
      have compared : DelayArithmetic.lt cap d = decide (cap.exact < d.exact) :=
        Number.lt_exact finiteCap isFinite
      simp only [compared, decide_eq_true_eq, Option.map_some]
      split
      case isTrue less => exact ⟨finiteCap, (min_eq_right less.le).symm⟩
      case isFalse least => exact ⟨isFinite, (min_eq_left (not_lt.mp least)).symm⟩

/-- A policy that counts in integers is exact in its own arithmetic. -/
theorem agrees_exact {p : ReconnectPolicy Number} (finite : p.toBackoff.IsFinite)
    (integer : p.toBackoff.IsInteger) (n : Int) : p.Agrees (p.exact finite) n := by
  obtain ⟨base, isBase⟩ := integer.base.exists_int
  obtain ⟨multiplier, isMultiplier⟩ := integer.multiplier.exists_int
  have growth : (Number.int (base * multiplier ^ (n - 1).toNat)).exact =
      (p.exact finite).growth n := by
    show _ = p.baseDelay.exact * p.multiplier.exact ^ (n - 1).toNat
    rw [isBase, isMultiplier]
    simp [Number.exact]
  have computed := delayFor_int isBase isMultiplier n
  obtain ⟨isFinite, same⟩ := capped_exact finite (.int _) trivial growth
  refine ⟨_, isFinite, same, computed, onDisconnect_of_isBeyond, ?_⟩
  intro within
  rw [onDisconnect_of_not_isBeyond within, computed]
  rfl

/-- The law of backoff. Every policy over rational numbers obeys it, and so does every policy with
finite fields in exact arithmetic; if it counts in integers, it computes these very delays itself
and decides accordingly. -/
theorem backoff_law :
    (∀ q : ReconnectPolicy ℚ, q.Lawful) ∧
    ∀ (p : ReconnectPolicy Number) (finite : p.toBackoff.IsFinite), (p.exact finite).Lawful ∧
      (p.toBackoff.IsInteger → ∀ n, 1 ≤ n → p.Agrees (p.exact finite) n) := by
  constructor
  · exact lawful
  · intro p finite
    exact ⟨lawful (p.exact finite), fun integer n _ => agrees_exact finite integer n⟩

/-- Three delays that triple up to a cap. -/
def tripling : ReconnectPolicy Number :=
  ⟨⟨some 3, .int 2, .int 3, some (.int 10)⟩, by decide⟩

theorem tripling_isFinite : tripling.toBackoff.IsFinite where
  base := trivial
  multiplier := trivial
  cap := by
    rintro cap ⟨⟩
    trivial

theorem backoff_law_tripling : (tripling.exact tripling_isFinite).Lawful ∧
    tripling.Agrees (tripling.exact tripling_isFinite) 3 := by
  obtain ⟨lawful, agrees⟩ := backoff_law.2 tripling tripling_isFinite
  exact ⟨lawful, agrees ⟨trivial, trivial⟩ 3 (by decide)⟩

end ReconnectPolicy

end EventStream
