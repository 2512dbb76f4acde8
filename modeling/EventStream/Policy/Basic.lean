import EventStream.Number.Basic

/-
# Reconnect policies

When a connection ends, a policy says how long to wait before the next one, or that there will be
none. The delay before reconnect `n`, counted from one, is the base delay times the multiplier to
the power `n - 1`, and no more than the cap if there is one. A policy with a limit of `N` attempts
gives up instead of making reconnect `N + 1`.

The law is the same for every kind of number, so the policy is generic in it: `DelayArithmetic`
lists what it needs. Validation states each rule as a comparison that must not hold, which for
numbers with a NaN is weaker than its opposite. A policy carries the evidence that no rule is
broken, so a policy that exists is one that was accepted.
-/

namespace EventStream

/-- What the backoff law needs of a kind of number. Products and powers may have no result. -/
class DelayArithmetic (α : Type) where
  /-- The least delay. -/
  zero : α
  /-- The multiplier of a fixed delay. -/
  one : α
  /-- Whether a number is less than another. -/
  lt : α → α → Bool
  /-- The product of two numbers. -/
  mul : α → α → Except Fault α
  /-- A power of a number. -/
  pow : α → Nat → Except Fault α

instance : DelayArithmetic Number where
  zero := .int 0
  one := .int 1
  lt := Number.lt
  mul a b := (a.mul b).mapError ArithmeticError.toFault
  pow a n := (a.pow n).mapError ArithmeticError.toFault

/-- The settings of a policy. -/
structure Backoff (α : Type) where
  /-- Reconnects allowed between two successful opens; none means any number. -/
  maxAttempts : Option Int
  /-- Seconds before the first reconnect. -/
  baseDelay : α
  /-- The factor by which each delay exceeds the one before. -/
  multiplier : α
  /-- The largest delay; none means that delays grow without end. -/
  maxDelay : Option α

/-- The rules that settings can break. -/
inductive BackoffFlaw where
  | negativeAttempts
  | negativeDelay
  | shrinkingDelay
  | capBelowBase
  deriving DecidableEq

/-- The wording of a broken rule. -/
def BackoffFlaw.message : BackoffFlaw → Text
  | .negativeAttempts => "max_attempts must be non-negative or None."
  | .negativeDelay => "base_delay must be non-negative."
  | .shrinkingDelay => "backoff_multiplier must be >= 1."
  | .capBelowBase => "max_delay must be >= base_delay."

/-- A broken rule as a fault. -/
def BackoffFlaw.toFault (f : BackoffFlaw) : Fault := .configuration f.message []

/-- What a policy decides when a connection has ended. -/
inductive Decision (α : Type) where
  | retry (delay : α)
  | giveUp (attempts : Int)

section

variable {α : Type} [DelayArithmetic α]

/-- The first rule that settings break, if any. -/
def Backoff.flaw? (b : Backoff α) : Option BackoffFlaw :=
  if b.maxAttempts.any (· < 0) then some .negativeAttempts
  else if DelayArithmetic.lt b.baseDelay DelayArithmetic.zero then some .negativeDelay
  else if DelayArithmetic.lt b.multiplier DelayArithmetic.one then some .shrinkingDelay
  else if b.maxDelay.any (DelayArithmetic.lt · b.baseDelay) then some .capBelowBase
  else none

variable (α) in
/-- Settings that break no rule. -/
structure ReconnectPolicy extends Backoff α where
  accepted : toBackoff.flaw? = none

/-- The policy with given settings, or the first rule that they break. -/
def ReconnectPolicy.ofBackoff (b : Backoff α) : Except BackoffFlaw (ReconnectPolicy α) :=
  match h : b.flaw? with
  | none => .ok ⟨b, h⟩
  | some flaw => .error flaw

namespace ReconnectPolicy

variable (p : ReconnectPolicy α)

/-- Whether any number of reconnects is allowed. -/
def unlimited : Bool := p.maxAttempts.isNone

/-- A delay cut to the cap. -/
def capped (delay : α) : α :=
  match p.maxDelay with
  | none => delay
  | some cap => if DelayArithmetic.lt cap delay then cap else delay

/-- The delay before reconnect `attempt`; attempts before the first count as the first. -/
def delayFor (attempt : Int) : Except Fault α := do
  let power ← DelayArithmetic.pow p.multiplier (attempt - 1).toNat
  let delay ← DelayArithmetic.mul p.baseDelay power
  return p.capped delay

/-- What to do before reconnect `attempt`. -/
def onDisconnect (attempt : Int) : Except Fault (Decision α) :=
  if p.maxAttempts.any (· < attempt) then .ok (.giveUp (attempt - 1))
  else (p.delayFor attempt).map .retry

end ReconnectPolicy

end

/-- The settings of the same delay every time. -/
def Backoff.fixed (delay : Number) (maxAttempts : Option Int) : Backoff Number :=
  ⟨maxAttempts, delay, .float 1.0, none⟩

/-- Reconnect every two seconds without end. -/
def ReconnectPolicy.patient : ReconnectPolicy Number :=
  ⟨Backoff.fixed (.float 2.0) none, by decide⟩

end EventStream
