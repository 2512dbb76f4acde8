import EventStream.Transport.HttpStream
import EventStream.Transport.WebSocket
import Mathlib.Logic.Relation

/-
# Courses of connections

The tasks of a connection move from wherever they stand, and in between its owner may send, take
back and close, also while a report is being heard. A course is any sequence of such turns, so what
holds of every course holds for every peer, every order in which the tasks run, and every use.

Both kinds of connections are used in the same way. What is common to their courses is stated over
`Connection`: how the task that reads is moved and cancelled, and how it ends.
-/

namespace EventStream.Transport

/-- A connection of some kind, and the moves of its tasks. -/
class Connection (σ : Type) where
  Move : Type
  move? (url : Text) (s : σ) (m : Move) : Option (σ × List Effect)
  send (s : σ) (payload : Value) : σ × Bool
  unsent (s : σ) : σ × List Value
  close (s : σ) : σ
  /-- Somebody else than the owner cancels the task that reads. -/
  interrupt (s : σ) : σ
  /-- Nothing is reported any more. -/
  isClosed (s : σ) : Bool
  /-- The task that reads has finished. -/
  isFinished (s : σ) : Bool
  /-- Whether a move is that hearing a report fails. -/
  raises (m : Move) : Bool
  /-- The failure with which the task that reads ends in a move. -/
  ending? (s : σ) (m : Move) : Option Failure
  /-- Whether such a failure is reported, unless the connection is closed. -/
  isReported (e : Failure) : Bool

namespace WebSocket

/-- The failure with which the reader ends in a move. -/
def ending? (w : WebSocket) (m : Move) : Option Failure :=
  match m, w.reader with
  | .refused e, .connecting => some e
  | .left (some e), .leaving _ => some e
  | .left none, .leaving (.broken e) => some e
  | _, _ => none

/-- Whether a move is that hearing a report fails. -/
def Move.raises : Move → Bool
  | .heard (some _) => true
  | _ => false

/-- Whether the reader has finished. -/
def isFinished (w : WebSocket) : Bool :=
  match w.reader with
  | .finished => true
  | _ => false

instance : Connection WebSocket where
  Move := Move
  move? := move?
  send := send
  unsent := unsent
  close := close
  interrupt w := { w with cancelReader := true }
  isClosed := closed
  isFinished := isFinished
  raises := Move.raises
  ending? := ending?
  isReported := Failure.known

end WebSocket

namespace HttpStream

/-- The failure with which the task ends in a move. -/
def ending? (h : HttpStream) (m : Move) : Option Failure :=
  match m, h.reader with
  | .unanswered e, .requesting => some e
  | .left (some e), .leaving _ => some e
  | .left none, .leaving (.broken e) => some e
  | _, _ => none

/-- Whether a move is that hearing a report fails. -/
def Move.raises : Move → Bool
  | .heard (some _) => true
  | _ => false

/-- Whether the task has finished. -/
def isFinished (h : HttpStream) : Bool :=
  match h.reader with
  | .finished => true
  | _ => false

/-- Nothing is accepted, so nothing is unsent. -/
instance : Connection HttpStream where
  Move := Move
  move? := move?
  send h payload := (h, h.send payload)
  unsent h := (h, [])
  close := close
  interrupt h := { h with cancelReader := true }
  isClosed := closed
  isFinished := isFinished
  raises := Move.raises
  ending? := ending?
  isReported e := e.fault.transport?.isSome || e.known

end HttpStream

/-! ## Turns -/

/-- What happens next to a connection. -/
inductive Turn (σ : Type) [Connection σ] where
  /-- One of its tasks moves. -/
  | move (m : Connection.Move σ)
  | send (payload : Value)
  | unsent
  | close
  | interrupt

/-- The report that is seen, if one is. -/
def Effect.report? : Effect → Option Report
  | .report r => some r
  | _ => none

/-- The reports that are seen, in order. -/
def reports (effects : List Effect) : List Report := effects.filterMap Effect.report?

@[simp] theorem reports_nil : reports [] = [] := rfl

@[simp] theorem reports_say (level : LogLevel) (parts : List Text) (effects : List Effect) :
    reports (say level parts :: effects) = reports effects := rfl

section

variable (σ : Type) [Connection σ]

/-- A turn that was taken: the connection that it met, and what was seen of it. -/
structure Entry where
  before : σ
  turn : Turn σ
  effects : List Effect

/-- The turns of a course, the latest first. -/
abbrev Chronicle := List (Entry σ)

/-- A chronicle and the connection that it led to. -/
structure Course where
  past : Chronicle σ := []
  now : σ

end

variable {σ : Type} [Connection σ]

/-- Take a turn, if it is possible. -/
def Turn.take? (url : Text) (s : σ) : Turn σ → Option (σ × List Effect)
  | .move m => Connection.move? url s m
  | .send payload => some ((Connection.send s payload).1, [])
  | .unsent => some ((Connection.unsent s).1, [])
  | .close => some (Connection.close s, [])
  | .interrupt => some (Connection.interrupt s, [])

/-- The payload that is accepted in a turn. -/
def Entry.accepted? (e : Entry σ) : Option Value :=
  match e.turn with
  | .send payload => if (Connection.send e.before payload).2 then some payload else none
  | _ => none

@[simp] theorem Entry.accepted_move (s : σ) (m : Connection.Move σ) (effects : List Effect) :
    Entry.accepted? ⟨s, .move m, effects⟩ = none := rfl

/-- Whether somebody else than the owner cancels the task that reads, or hearing a report fails. -/
def Turn.disturbs : Turn σ → Bool
  | .interrupt => true
  | .move m => Connection.raises m
  | .send _ | .unsent | .close => false

/-- Whether the task that reads ends with a failure that is not reported, although the connection is
not closed. -/
def Entry.loses (e : Entry σ) : Bool :=
  match e.turn with
  | .move m =>
    !Connection.isClosed e.before &&
      (Connection.ending? e.before m).any fun f => !Connection.isReported σ f
  | _ => false

theorem Entry.loses_of_closed {s : σ} {turn : Turn σ} {effects : List Effect}
    (closed : Connection.isClosed s = true) : Entry.loses ⟨s, turn, effects⟩ = false := by
  cases turn <;> simp [Entry.loses, closed]

instance (turn : Turn σ) : Decidable (turn = .close) :=
  match turn with
  | .close => isTrue rfl
  | .move _ | .send _ | .unsent | .interrupt => isFalse nofun

instance (turn : Turn σ) : Decidable (turn = .unsent) :=
  match turn with
  | .unsent => isTrue rfl
  | .move _ | .send _ | .close | .interrupt => isFalse nofun

namespace Chronicle

/-- The reports, in order. -/
def reports : Chronicle σ → List Report
  | [] => []
  | e :: past => reports past ++ Transport.reports e.effects

/-- The payloads that were accepted, in order. -/
def accepted : Chronicle σ → List Value
  | [] => []
  | e :: past => accepted past ++ e.accepted?.toList

/-- The last reports. -/
def lastReports (past : Chronicle σ) : List Report := past.reports.filter Report.isLast

/-- The owner has not closed the connection. -/
def Unclosed (past : Chronicle σ) : Prop := ∀ e ∈ past, e.turn ≠ .close

/-- Nothing was taken back. -/
def Untouched (past : Chronicle σ) : Prop := ∀ e ∈ past, e.turn ≠ .unsent

/-- Nobody else cancelled the task that reads, and no hearing of a report failed. -/
def Undisturbed (past : Chronicle σ) : Prop := ∀ e ∈ past, e.turn.disturbs = false

/-- The task that reads has ended with a failure that is not reported. -/
def Lost (past : Chronicle σ) : Prop := ∃ e ∈ past, e.loses = true

instance (past : Chronicle σ) : Decidable past.Unclosed :=
  inferInstanceAs (Decidable (∀ e ∈ past, e.turn ≠ .close))

instance (past : Chronicle σ) : Decidable past.Untouched :=
  inferInstanceAs (Decidable (∀ e ∈ past, e.turn ≠ .unsent))

instance (past : Chronicle σ) : Decidable past.Undisturbed :=
  inferInstanceAs (Decidable (∀ e ∈ past, e.turn.disturbs = false))

instance (past : Chronicle σ) : Decidable past.Lost :=
  inferInstanceAs (Decidable (∃ e ∈ past, e.loses = true))

variable (e : Entry σ) (past : Chronicle σ)

@[simp] theorem reports_cons :
    reports (e :: past) = reports past ++ Transport.reports e.effects := rfl

@[simp] theorem accepted_cons : accepted (e :: past) = accepted past ++ e.accepted?.toList := rfl

@[simp] theorem lastReports_cons : lastReports (e :: past) =
    lastReports past ++ (Transport.reports e.effects).filter Report.isLast := by
  simp [lastReports]

@[simp] theorem unclosed_cons : Unclosed (e :: past) ↔ e.turn ≠ .close ∧ Unclosed past :=
  List.forall_mem_cons

@[simp] theorem untouched_cons : Untouched (e :: past) ↔ e.turn ≠ .unsent ∧ Untouched past :=
  List.forall_mem_cons

@[simp] theorem undisturbed_cons :
    Undisturbed (e :: past) ↔ e.turn.disturbs = false ∧ Undisturbed past :=
  List.forall_mem_cons

@[simp] theorem lost_cons : Lost (e :: past) ↔ e.loses = true ∨ Lost past := by
  simp [Lost]

end Chronicle

/-! ## Courses -/

namespace Course

variable (url : Text)

/-- Take a turn, if it is possible. -/
def take? (c : Course σ) (turn : Turn σ) : Option (Course σ) :=
  (turn.take? url c.now).map fun (s, effects) => ⟨⟨c.now, turn, effects⟩ :: c.past, s⟩

/-- One turn. -/
def Next (c d : Course σ) : Prop := ∃ turn, c.take? url turn = some d

/-- Any number of turns. -/
def Leads : Course σ → Course σ → Prop := Relation.ReflTransGen (Next url)

/-- A course of a new connection. -/
def Reached (start : σ) (c : Course σ) : Prop := Leads url { now := start } c

/-- Take turns, one after the other, but for those that are not possible. -/
def plays (c : Course σ) (turns : List (Turn σ)) : Course σ :=
  turns.foldl (fun c turn => (c.take? url turn).getD c) c

variable {url}

theorem leads_plays (c : Course σ) (turns : List (Turn σ)) : Leads url c (c.plays url turns) := by
  induction turns generalizing c with
  | nil => exact .refl
  | cons turn turns ih =>
      refine .trans (b := (c.take? url turn).getD c) ?_ (ih _)
      cases taken : c.take? url turn with
      | none => exact .refl
      | some d => exact .single ⟨turn, taken⟩

/-- What holds before the first turn and is kept by every turn holds of every later course. -/
theorem Leads.induction {c d : Course σ} (leads : Leads url c d) {P : Chronicle σ → σ → Prop}
    (start : P c.past c.now)
    (step : ∀ past s turn s' effects, Leads url c ⟨past, s⟩ → P past s →
      turn.take? url s = some (s', effects) → P (⟨s, turn, effects⟩ :: past) s') :
    P d.past d.now := by
  induction leads with
  | refl => exact start
  | @tail b d before next ih =>
      obtain ⟨turn, taken⟩ := next
      obtain ⟨⟨s', effects⟩, moved, rfl⟩ := Option.map_eq_some_iff.mp taken
      exact step b.past b.now turn s' effects before ih moved

end Course

end EventStream.Transport
