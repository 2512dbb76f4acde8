import EventStream.Outbound.Queue
import Mathlib.Data.List.Basic

/-
# Draining a queue

A drain is a loop: while a message waits, the one at the head is offered; an answer that refuses ends
the loop, and after any other the head is removed, which is still the message that was offered, since
the queue only grows at its end meanwhile. The loop is given here pass by pass (`Drains`), with one
rule for each of its exits. It ends for every queue and every script, and always in the same way
(`drains_iff`): a script runs out, and from then on every pass makes the queue shorter.

What a drain comes to needs no loop to be said (`drain_eq`). The messages that wait, followed by the
ones that are added while the drain lasts, are one list; the drain cuts it where the first refusal
stands, or at its end. What is before the cut was accepted, and what is behind it waits.
-/

namespace EventStream.Outbound

/-! ## Answers -/

namespace SendAnswer

/-- Whether an answer accepts what was offered. -/
def accepts : SendAnswer → Bool
  | .accepted | .acceptedAfter _ => true
  | .rejected | .failed _ => false

/-- The payloads that an answer puts into the queue. -/
def added : SendAnswer → List Value
  | .acceptedAfter p => [p]
  | _ => []

/-- The failure that an answer is, if it is one. -/
def failure? : SendAnswer → Option Fault
  | .failed f => some f
  | _ => none

end SendAnswer

variable {Stamp : Type} {clock : Clock Stamp} {q : Queue Stamp} {script : List SendAnswer}

/-- The queue when an answer has been given. -/
def Queue.answered (clock : Clock Stamp) (q : Queue Stamp) (answer : SendAnswer) : Queue Stamp :=
  answer.added.foldl (Queue.enqueue clock) q

/-! ## The loop -/

/-- A drain with a script of answers, and with acceptance once the script is used up. -/
inductive Drains (clock : Clock Stamp) : Queue Stamp → List SendAnswer → Drained Stamp → Prop
  /-- Nothing waits. -/
  | empty {q : Queue Stamp} {script : List SendAnswer} : q.head? = none →
      Drains clock q script ⟨[], 0, q, none⟩
  /-- The message at the head is refused, and stays there. -/
  | refused {q : Queue Stamp} {script : List SendAnswer} {m : Message Stamp} :
      q.head? = some m → (script.headD .accepted).accepts = false →
      Drains clock q script ⟨[m.payload], 0, q, (script.headD .accepted).failure?⟩
  /-- The message at the head is accepted and removed, and the loop goes on. -/
  | accepted {q : Queue Stamp} {script : List SendAnswer} {m : Message Stamp} {d : Drained Stamp} :
      q.head? = some m → (script.headD .accepted).accepts = true →
      Drains clock (q.answered clock (script.headD .accepted)).dropHead script.tail d →
      Drains clock q script (d.after m.payload)

/-- Without a script the loop goes on until nothing waits. -/
theorem drains_nil (clock : Clock Stamp) (q : Queue Stamp) :
    Drains clock q [] (q.drain clock []) := by
  obtain ⟨messages, readings⟩ := q
  induction messages with
  | nil => exact .empty rfl
  | cons m rest ih =>
      have later : Drains clock ((Queue.answered clock ⟨m :: rest, readings⟩
          (List.headD [] .accepted)).dropHead) (List.tail []) _ := ih
      exact .accepted rfl rfl later

/-- The loop ends, whatever the queue and the script are. -/
theorem drains_drain (clock : Clock Stamp) (q : Queue Stamp) (script : List SendAnswer) :
    Drains clock q script (q.drain clock script) := by
  induction script generalizing q with
  | nil => exact drains_nil clock q
  | cons answer script ih =>
      cases head : q.head? with
      | none =>
          rw [Queue.drain, head]
          exact .empty head
      | some m =>
          rw [Queue.drain, head]
          cases answer with
          | accepted | acceptedAfter => exact .accepted head rfl (ih _)
          | rejected | failed => exact .refused head rfl

theorem drain_of_empty (empty : q.head? = none) : q.drain clock script = ⟨[], 0, q, none⟩ := by
  cases script with
  | nil =>
      obtain ⟨messages, readings⟩ := q
      obtain rfl : messages = [] := List.head?_eq_none_iff.mp empty
      rfl
  | cons answer script => rw [Queue.drain, empty]

theorem drain_of_refused {m : Message Stamp} (head : q.head? = some m)
    (refused : (script.headD .accepted).accepts = false) :
    q.drain clock script = ⟨[m.payload], 0, q, (script.headD .accepted).failure?⟩ := by
  cases script with
  | nil => contradiction
  | cons answer script =>
      rw [Queue.drain, head]
      cases answer <;> first | contradiction | rfl

theorem drain_of_accepted {m : Message Stamp} (head : q.head? = some m)
    (accepted : (script.headD .accepted).accepts = true) :
    q.drain clock script =
      ((q.answered clock (script.headD .accepted)).dropHead.drain clock script.tail).after
        m.payload := by
  cases script with
  | nil =>
      obtain ⟨messages, readings⟩ := q
      obtain ⟨rest, rfl⟩ := List.head?_eq_some_iff.mp head
      rfl
  | cons answer script =>
      rw [Queue.drain, head]
      cases answer <;> first | contradiction | rfl

/-- The loop ends in one way, which is what the drain answers. -/
theorem drains_iff {d : Drained Stamp} : Drains clock q script d ↔ d = q.drain clock script := by
  constructor
  · intro drains
    induction drains with
    | empty empty => exact (drain_of_empty empty).symm
    | refused head refused => exact (drain_of_refused head refused).symm
    | accepted head accepted _ ih => rw [drain_of_accepted head accepted, ← ih]
  · rintro rfl
    exact drains_drain clock q script

/-! ## Where a drain cuts -/

/-- How many messages a script accepts of a queue with so many: until none is left, or an answer
refuses one. -/
def acceptance : List SendAnswer → Nat → Nat
  | [], waiting => waiting
  | _ :: _, 0 => 0
  | answer :: script, waiting + 1 =>
    if answer.accepts then acceptance script (waiting + answer.added.length) + 1 else 0

/-- Payloads that are added one after another, each with a clock reading of its own. -/
def stamped (clock : Clock Stamp) (readings : Nat) (payloads : List Value) : List (Message Stamp) :=
  payloads.mapIdx fun i payload => ⟨payload, clock (readings + i)⟩

/-- The payloads that the answers before a cut put into the queue. -/
def arriving (script : List SendAnswer) (cut : Nat) : List Value :=
  (script.take cut).flatMap SendAnswer.added

/-- The messages that wait before a drain, and after them the ones that are added while it lasts. -/
def Queue.passing (clock : Clock Stamp) (q : Queue Stamp) (script : List SendAnswer) :
    List (Message Stamp) :=
  q.messages ++ stamped clock q.readings (arriving script (acceptance script q.size))

theorem stamped_append (clock : Clock Stamp) (readings : Nat) (ps qs : List Value) :
    stamped clock readings (ps ++ qs) =
      stamped clock readings ps ++ stamped clock (readings + ps.length) qs := by
  simp [stamped, List.mapIdx_append, Nat.add_assoc, Nat.add_comm ps.length]

theorem arriving_succ (answer : SendAnswer) (script : List SendAnswer) (cut : Nat) :
    arriving (answer :: script) (cut + 1) = answer.added ++ arriving script cut := rfl

/-- An answer adds its payloads at the end. -/
theorem answered_eq (clock : Clock Stamp) (q : Queue Stamp) (answer : SendAnswer) :
    q.answered clock answer = ⟨q.messages ++ stamped clock q.readings answer.added,
      q.readings + answer.added.length⟩ := by
  cases answer with
  | acceptedAfter p => rfl
  | accepted | rejected | failed => simp [Queue.answered, SendAnswer.added, stamped]

/-- What passes through a queue after its head was accepted is what passed before, less the head. -/
theorem passing_of_accepted {m : Message Stamp} {rest : List (Message Stamp)} {readings : Nat}
    {answer : SendAnswer} (accepted : answer.accepts = true) :
    Queue.passing clock ⟨m :: rest, readings⟩ (answer :: script) =
      m :: Queue.passing clock
        (Queue.answered clock ⟨m :: rest, readings⟩ answer).dropHead script := by
  have cut : acceptance (answer :: script) (rest.length + 1) =
      acceptance script (rest.length + answer.added.length) + 1 := if_pos accepted
  have size : (rest ++ stamped clock readings answer.added).length =
      rest.length + answer.added.length := by simp [stamped]
  simp only [Queue.passing, Queue.size, answered_eq, Queue.dropHead, List.cons_append,
    List.tail_cons, List.length_cons, cut, size, arriving, List.take_succ_cons, List.flatMap_cons,
    stamped_append, List.append_assoc]

/-- The failure with which a drain ends, if a message is left and the answer to it is one. -/
def ending (script : List SendAnswer) (cut : Nat) (left : List (Message Stamp)) : Option Fault :=
  left.head?.bind fun _ => script[cut]?.bind SendAnswer.failure?

/-- A drain cuts what passes through the queue: what is before the cut was accepted, what is behind
it waits, and the first message behind it was offered as well and refused. -/
theorem drain_eq (clock : Clock Stamp) (q : Queue Stamp) (script : List SendAnswer) :
    q.drain clock script =
      let cut := acceptance script q.size
      let passing := q.passing clock script
      { offered := (passing.take (cut + 1)).map (·.payload)
        count := cut
        queue := ⟨passing.drop cut, q.readings + (arriving script cut).length⟩
        failure := ending script cut (passing.drop cut) } := by
  induction script generalizing q with
  | nil =>
      have all : q.messages.take (q.messages.length + 1) = q.messages :=
        List.take_of_length_le (Nat.le_succ _)
      simp [Queue.drain, acceptance, Queue.passing, arriving, stamped, ending, Queue.size,
        Queue.payloads, Queue.clear, all]
  | cons answer script ih =>
      obtain ⟨messages, readings⟩ := q
      cases messages with
      | nil =>
          rw [drain_of_empty rfl]
          rfl
      | cons m rest =>
          by_cases accepted : answer.accepts
          · have goes : Queue.drain clock ⟨m :: rest, readings⟩ (answer :: script) =
                ((Queue.answered clock ⟨m :: rest, readings⟩ answer).dropHead.drain clock
                  script).after m.payload := drain_of_accepted rfl accepted
            have cut : acceptance (answer :: script) (rest.length + 1) =
                acceptance script (rest.length + answer.added.length) + 1 := if_pos accepted
            have size : (Queue.answered clock ⟨m :: rest, readings⟩ answer).dropHead.size =
                rest.length + answer.added.length := by
              simp [answered_eq, Queue.dropHead, Queue.size, stamped]
            have start : (⟨m :: rest, readings⟩ : Queue Stamp).size = rest.length + 1 := rfl
            rw [goes, ih, passing_of_accepted accepted]
            simp only [start, size, cut, arriving_succ, Drained.after, List.length_append,
              List.drop_succ_cons, List.take_succ_cons, List.map_cons]
            simp only [answered_eq, Queue.dropHead, Nat.add_assoc]
            rfl
          · have refused : answer.accepts = false := by simpa using accepted
            have cut : acceptance (answer :: script) (rest.length + 1) = 0 := if_neg accepted
            have stays : Queue.drain clock ⟨m :: rest, readings⟩ (answer :: script) =
                ⟨[m.payload], 0, ⟨m :: rest, readings⟩, answer.failure?⟩ :=
              drain_of_refused rfl refused
            simp [stays, Queue.passing, Queue.size, cut, arriving, stamped, ending]

/-- A script accepts no more than what passes through the queue. -/
theorem acceptance_le (script : List SendAnswer) (waiting : Nat) :
    acceptance script waiting ≤ waiting + (arriving script (acceptance script waiting)).length := by
  fun_induction acceptance script waiting with
  | case1 => exact Nat.le_add_right _ _
  | case2 => exact Nat.zero_le _
  | case3 answer script waiting accepted ih =>
      rw [arriving_succ, List.length_append]
      omega
  | case4 => exact Nat.zero_le _

/-- Every answer before the cut accepts. -/
theorem accepts_of_mem_take {answer : SendAnswer} {waiting : Nat}
    (among : answer ∈ script.take (acceptance script waiting)) : answer.accepts = true := by
  fun_induction acceptance script waiting with
  | case1 | case2 | case4 => simp at among
  | case3 first script waiting accepted ih =>
      rcases List.mem_cons.mp among with rfl | later
      · exact accepted
      · exact ih later

/-- Where a message is left, the answer at the cut refuses. -/
theorem refused_of_left {waiting : Nat} (left : acceptance script waiting <
    waiting + (arriving script (acceptance script waiting)).length) :
    ∃ answer, script[acceptance script waiting]? = some answer ∧ answer.accepts = false := by
  fun_induction acceptance script waiting with
  | case1 => simp [arriving] at left
  | case2 => simp [arriving] at left
  | case3 answer script waiting accepted ih =>
      rw [arriving_succ, List.length_append] at left
      exact ih (by omega)
  | case4 answer script waiting refused => exact ⟨answer, rfl, by simpa using refused⟩

/-- What a drain comes to, said of the messages that wait before it and, after them, the ones that
are added while it lasts. -/
structure Cuts (clock : Clock Stamp) (q : Queue Stamp) (script : List SendAnswer)
    (passing : List (Message Stamp)) (d : Drained Stamp) : Prop where
  /-- The loop ends so, and in no other way. -/
  ends : ∀ d', Drains clock q script d' ↔ d' = d
  passes : passing = q.messages ++ stamped clock q.readings (arriving script d.count)
  /-- The messages before the cut were accepted, which are as many as were counted. -/
  counted : (passing.take d.count).length = d.count
  accepted : ∀ answer ∈ script.take d.count, answer.accepts = true
  /-- They were offered in order, and after them the one at the cut. -/
  offered : d.offered = (passing.take (d.count + 1)).map (·.payload)
  /-- The ones behind the cut wait. -/
  waiting : d.queue.messages = passing.drop d.count
  /-- A message is left only if the answer to it refused it. -/
  refused : d.queue.messages ≠ [] → ∃ answer, script[d.count]? = some answer ∧
    answer.accepts = false ∧ d.failure = answer.failure?
  emptied : d.queue.messages = [] → d.failure = none

theorem cuts_drain (clock : Clock Stamp) (q : Queue Stamp) (script : List SendAnswer) :
    Cuts clock q script (q.passing clock script) (q.drain clock script) := by
  have ends (d : Drained Stamp) : Drains clock q script d ↔ d = q.drain clock script := drains_iff
  have length : (q.passing clock script).length =
      q.size + (arriving script (acceptance script q.size)).length := by
    simp [Queue.passing, Queue.size, stamped]
  rw [drain_eq] at ends ⊢
  constructor
  · exact ends
  · rfl
  · exact List.length_take_of_le (length ▸ acceptance_le script q.size)
  · exact fun answer among => accepts_of_mem_take among
  · rfl
  · rfl
  · intro left
    obtain ⟨m, rest, behind⟩ : ∃ m rest,
        (q.passing clock script).drop (acceptance script q.size) = m :: rest :=
      List.exists_cons_of_ne_nil left
    have below : acceptance script q.size < (q.passing clock script).length :=
      Nat.lt_of_not_le fun above => left (List.drop_of_length_le above)
    obtain ⟨answer, stands, refuses⟩ := refused_of_left (length ▸ below)
    refine ⟨answer, stands, refuses, ?_⟩
    simp [ending, behind, stands]
  · intro none
    have behind : (q.passing clock script).drop (acceptance script q.size) = [] := none
    simp [ending, behind]

end EventStream.Outbound
