import EventStream.Proofs.Session.Plans
import Mathlib.Data.List.Forall2
import Mathlib.Data.List.Perm.Basic

/-
# The turns of one call

Calls nest: while a call waits others come, and so the turns of one call are scattered over the
chronicle. `Chronicle.ongoing` and `Chronicle.finished` gather them again, for every call in
progress and for every call that has ended, and nothing is lost (`perm_finished_append_ongoing`).

What a call does by itself is proved over its own turns, by `Course.Reached.own`: a relation
between the turns of a call and what the call has left to do holds when the call begins and is kept
by each of its own turns. The turns of other calls are none of its turns, whatever they do to the
session, so nothing is to be proved about them.
-/

namespace EventStream.Session

/-- Whether a call ends with an effect. -/
def Effect.isEnd : Effect → Bool
  | .returns | .raises _ => true
  | _ => false

namespace Entry

variable (e : Entry)

/-- Whether the innermost call ends in a turn. -/
def ends : Bool := e.effects.any Effect.isEnd

/-- The call whose first task is done in a turn, if it is one. -/
def served? : Option Call :=
  match e.before.stack, e.turn with
  | ⟨_, none, .serve call :: _⟩ :: _, .work => some call
  | _, _ => none

end Entry

namespace Chronicle

/-- The turns of each call in progress, those of the innermost call first. -/
def ongoing : Chronicle → List Chronicle
  | [] => []
  | e :: past =>
    match e.turn.call?, ongoing past with
    | some _, calls => [e] :: calls
    | none, own :: calls => if e.ends then calls else (e :: own) :: calls
    | none, [] => []

/-- The turns of each call that has ended, those of the latest one first. -/
def finished : Chronicle → List Chronicle
  | [] => []
  | e :: past =>
    match e.turn.call?, ongoing past with
    | none, own :: _ => if e.ends then (e :: own) :: finished past else finished past
    | _, _ => finished past

end Chronicle

/-- The call that goes on after an outcome, unless a fault has ended it. -/
def Outcome.activation? (call : Call) (rest : List Task) : Outcome → Option Activation
  | .next first => some ⟨call, none, first ++ rest⟩
  | .wait a => some ⟨call, some a, rest⟩
  | .fail _ => none

variable {setup : Setup} {allowed : Surroundings}

section

variable {past : Chronicle} {s : State} {cue : Cue} {outcome : Outcome} {effects : List Effect}
  {m : Machine} {turn : Turn} {call : Call} {rest : List Task} {below : List Activation}
  {own : Chronicle} {calls : List Chronicle}

theorem stack_eq_activation (outcome : Outcome) (call : Call) (rest : List Task)
    (below : List Activation) :
    outcome.stack call rest below = (outcome.activation? call rest).toList ++ below := by
  cases outcome <;> rfl

@[simp] theorem Cue.call_turn (cue : Cue) : cue.turn.call? = none := by
  cases cue <;> rfl

/-- A call ends at a cue if a fault leaves it there. -/
theorem ends_of_seen (m : Machine) (turn : Turn) (call : Call) (rest : List Task)
    (seen : Seen s cue outcome effects) :
    Entry.ends ⟨m, turn, effects⟩ = (outcome.activation? call rest).isNone := by
  have shown : effects.any Effect.isEnd =
      (effects.filter (!·.isRecord)).any Effect.isEnd := by
    rw [List.any_filter]
    congr 1
    funext e
    cases e <;> rfl
  rw [Entry.ends, shown, seen.shown]
  cases outcome <;>
    simp [Cue.shows, Outcome.shows, Outcome.activation?, Effect.isEnd, List.any_map,
      Function.comp_def]

namespace Chronicle

theorem ongoing_called (begun : turn.call? = some call) :
    ongoing (⟨m, turn, effects⟩ :: past) = [⟨m, turn, effects⟩] :: past.ongoing := by
  simp [ongoing, begun]

theorem finished_called (begun : turn.call? = some call) :
    finished (⟨m, turn, effects⟩ :: past) = past.finished := by
  simp [finished, begun]

theorem ongoing_returned (calling : past.ongoing = own :: calls) :
    ongoing (⟨m, .work, [.returns]⟩ :: past) = calls := by
  simp [ongoing, Turn.call?, calling, Entry.ends, Effect.isEnd]

theorem finished_returned (calling : past.ongoing = own :: calls) :
    finished (⟨m, .work, [.returns]⟩ :: past) =
      (⟨m, .work, [.returns]⟩ :: own) :: past.finished := by
  simp [finished, Turn.call?, calling, Entry.ends, Effect.isEnd]

theorem ongoing_acted (seen : Seen s cue outcome effects) (calling : past.ongoing = own :: calls)
    (call : Call) (rest : List Task) :
    ongoing (⟨m, cue.turn, effects⟩ :: past) =
      (outcome.activation? call rest).toList.map (fun _ => ⟨m, cue.turn, effects⟩ :: own) ++
        calls := by
  have ends := ends_of_seen m cue.turn call rest seen
  cases goes : outcome.activation? call rest <;> simp_all [ongoing]

theorem finished_acted (seen : Seen s cue outcome effects) (calling : past.ongoing = own :: calls)
    (call : Call) (rest : List Task) :
    finished (⟨m, cue.turn, effects⟩ :: past) =
      if (outcome.activation? call rest).isNone then
        (⟨m, cue.turn, effects⟩ :: own) :: past.finished
      else past.finished := by
  have ends := ends_of_seen m cue.turn call rest seen
  simp [finished, calling, ends]

end Chronicle

end

/-- What holds of the turns of a call when it begins and is kept by each of its own turns holds of
every call in progress, and what its last turn makes of that holds of every call that has ended. -/
theorem Course.Reached.own {Going : Chronicle → Activation → Prop} {Gone : Chronicle → Prop}
    {c : Course} (reached : c.Reached setup allowed)
    (begun : ∀ {past s stack turn call}, Reached setup allowed ⟨past, s, stack⟩ →
      allowed ⟨past, s, stack⟩ turn → turn.call? = some call →
      Going [⟨⟨s, stack⟩, turn, []⟩] ⟨call, none, [.serve call]⟩)
    (returned : ∀ {past s call below own},
      Reached setup allowed ⟨past, s, ⟨call, none, []⟩ :: below⟩ →
      Going own ⟨call, none, []⟩ →
      Gone (⟨⟨s, ⟨call, none, []⟩ :: below⟩, .work, [.returns]⟩ :: own))
    (acted : ∀ {past s cue call rest below after outcome effects own a},
      Reached setup allowed ⟨past, s, cue.activation call rest :: below⟩ →
      Going own (cue.activation call rest) →
      allowed ⟨past, s, cue.activation call rest :: below⟩ cue.turn →
      Acts setup s cue after outcome → Seen s cue outcome effects →
      outcome.activation? call rest = some a →
      Going (⟨⟨s, cue.activation call rest :: below⟩, cue.turn, effects⟩ :: own) a)
    (failed : ∀ {past s cue call rest below after f effects own},
      Reached setup allowed ⟨past, s, cue.activation call rest :: below⟩ →
      Going own (cue.activation call rest) →
      allowed ⟨past, s, cue.activation call rest :: below⟩ cue.turn →
      Acts setup s cue after (.fail f) → Seen s cue (.fail f) effects →
      Gone (⟨⟨s, cue.activation call rest :: below⟩, cue.turn, effects⟩ :: own)) :
    List.Forall₂ Going c.past.ongoing c.now.stack ∧ ∀ own ∈ c.past.finished, Gone own := by
  refine reached.induction (P := fun past _ stack =>
    List.Forall₂ Going past.ongoing stack ∧ ∀ own ∈ past.finished, Gone own)
    ?start ?called ?returned ?acted
  case start => exact ⟨.nil, by simp [Chronicle.finished]⟩
  case called =>
    rintro past s stack turn call before ⟨going, gone⟩ permitted calls _
    rw [Chronicle.ongoing_called calls, Chronicle.finished_called calls]
    exact ⟨.cons (begun before permitted calls) going, gone⟩
  case returned =>
    rintro past s call below before ⟨going, gone⟩
    obtain ⟨own, calls, mine, theirs, calling⟩ := List.forall₂_cons_right_iff.mp going
    rw [Chronicle.ongoing_returned calling, Chronicle.finished_returned calling]
    exact ⟨theirs, List.forall_mem_cons.mpr ⟨returned before mine, gone⟩⟩
  case acted =>
    rintro past s cue call rest below after outcome effects before ⟨going, gone⟩ permitted acts seen
    obtain ⟨own, calls, mine, theirs, calling⟩ := List.forall₂_cons_right_iff.mp going
    rw [Chronicle.ongoing_acted seen calling call rest,
      Chronicle.finished_acted seen calling call rest,
      stack_eq_activation]
    cases outcome with
    | next | wait => exact ⟨.cons (acted before mine permitted acts seen rfl) theirs, gone⟩
    | fail =>
        exact ⟨theirs, List.forall_mem_cons.mpr ⟨failed before mine permitted acts seen, gone⟩⟩

/-- The turns of a call in progress belong to a call in progress. -/
theorem exists_call {Going : Chronicle → Activation → Prop} {calls : List Chronicle}
    {stack : List Activation} (going : List.Forall₂ Going calls stack) :
    ∀ own ∈ calls, ∃ a ∈ stack, Going own a := by
  induction going with
  | nil => simp
  | @cons own a calls stack mine _ ih =>
      intro other among
      rcases List.mem_cons.mp among with rfl | among
      · exact ⟨a, List.mem_cons_self, mine⟩
      · obtain ⟨b, deeper, theirs⟩ := ih other among
        exact ⟨b, List.mem_cons_of_mem a deeper, theirs⟩

/-- The turns of the calls, of those that have ended and of those in progress, are all turns. -/
theorem perm_finished_append_ongoing {c : Course} (reached : c.Reached setup allowed) :
    (c.past.finished.flatten ++ c.past.ongoing.flatten).Perm c.past := by
  have moved (own others later : Chronicle) :
      (own ++ others ++ later).Perm (others ++ (own ++ later)) := by
    rw [List.append_assoc]
    exact List.perm_append_comm_assoc own others later
  refine (reached.induction (P := fun past _ stack => past.ongoing.length = stack.length ∧
    (past.finished.flatten ++ past.ongoing.flatten).Perm past) ?start ?called ?returned ?acted).2
  case start => exact ⟨rfl, .nil⟩
  case called =>
    rintro past s stack turn call _ ⟨length, perm⟩ _ begun _
    rw [Chronicle.ongoing_called begun, Chronicle.finished_called begun]
    exact ⟨congrArg (· + 1) length, List.perm_middle.trans (perm.cons _)⟩
  case returned =>
    rintro past s call below _ ⟨length, perm⟩
    obtain ⟨own, calls, calling⟩ := List.exists_cons_of_length_eq_add_one length
    rw [calling] at length perm
    rw [Chronicle.ongoing_returned calling, Chronicle.finished_returned calling]
    exact ⟨Nat.succ.inj length, .cons _ (.trans (moved ..) perm)⟩
  case acted =>
    rintro past s cue call rest below after outcome effects _ ⟨length, perm⟩ _ _ seen
    obtain ⟨own, calls, calling⟩ := List.exists_cons_of_length_eq_add_one length
    rw [calling] at length perm
    rw [Chronicle.ongoing_acted seen calling call rest,
      Chronicle.finished_acted seen calling call rest]
    cases outcome with
    | next | wait =>
        exact ⟨length, List.perm_middle.trans (perm.cons _)⟩
    | fail => exact ⟨Nat.succ.inj length, .cons _ (.trans (moved ..) perm)⟩

end EventStream.Session
