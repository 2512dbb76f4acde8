import EventStream.Proofs.Outbound.Draining
import Mathlib.Data.List.Nodup
import Mathlib.Data.List.Perm.Basic
import Mathlib.Data.List.Range

/-
# The account of a queue

A queue shows what waits and says nothing of what it once held. The ledger keeps that: it numbers the
payloads as they come in and knows of every number whether it waits, was accepted or was cleared
away. It holds numbers in lists and nothing else, so that equal payloads are told apart, and it has
no clock: the messages that came in are read off from their batches, the first of which has the first
clock reading, and so on (`Ledger.arrivals`).

The queue and its ledger are changed by the same calls, the queue as it is done in place and the
ledger by cutting and joining lists. After any calls the messages of the queue are the ones that wait
by the ledger, and every number is in exactly one place (`Accounted`).
-/

namespace EventStream.Outbound

/-- What is done with a queue. -/
inductive Call where
  | enqueue (payload : Value)
  | requeue (batch : List Value)
  | clear
  | drain (script : List SendAnswer)

/-- The queue after a call. -/
def Queue.after {Stamp : Type} (clock : Clock Stamp) (q : Queue Stamp) : Call → Queue Stamp
  | .enqueue payload => q.enqueue clock payload
  | .requeue batch => q.requeue clock batch
  | .clear => q.clear
  | .drain script => (q.drain clock script).queue

/-- A queue that was empty, after calls one after the other. -/
def Queue.run {Stamp : Type} (clock : Clock Stamp) (calls : List Call) : Queue Stamp :=
  calls.foldl (Queue.after clock) {}

/-- What has become of the payloads that were put into a queue, numbered as they came in. -/
structure Ledger where
  /-- The payloads that came in, in the batches in which they did. -/
  batches : List (List Value) := []
  /-- The numbers of the payloads that wait, oldest first. -/
  waiting : List Nat := []
  /-- The numbers of the payloads that were offered, and whether they were accepted. -/
  offers : List (Nat × Bool) := []
  /-- The numbers of the payloads that were cleared away. -/
  cleared : List Nat := []

namespace Ledger

/-- How many payloads came in. -/
def size (l : Ledger) : Nat := l.batches.flatten.length

/-- The numbers of the payloads that were accepted, in the order in which they were. -/
def accepted (l : Ledger) : List Nat := (l.offers.filter (·.2)).map (·.1)

/-- The messages of batches that come in, the first of which has this clock reading. -/
def messagesFrom {Stamp : Type} (clock : Clock Stamp) (reading : Nat) (batches : List (List Value)) :
    List (Message Stamp) :=
  (batches.zipIdx reading).flatMap fun batch => batch.1.map (⟨·, clock batch.2⟩)

/-- The messages that came in, by their numbers: a batch has one clock reading, and the next one the
next. -/
def arrivals {Stamp : Type} (clock : Clock Stamp) (l : Ledger) : List (Message Stamp) :=
  messagesFrom clock 0 l.batches

/-- The numbers of the next payloads. -/
def next (l : Ledger) (count : Nat) : List Nat := List.range' l.size count

/-- The numbers that wait before a drain, and after them the ones that come in while it lasts. -/
def passing (l : Ledger) (script : List SendAnswer) : List Nat :=
  l.waiting ++ l.next (arriving script (acceptance script l.waiting.length)).length

/-- The offers of a drain that cuts a list of numbers: what is before the cut is accepted, and the
first one behind it is refused. -/
def offered (passing : List Nat) (cut : Nat) : List (Nat × Bool) :=
  (passing.take cut).map (·, true) ++ ((passing.drop cut).take 1).map (·, false)

/-- The ledger after a call. -/
def after (l : Ledger) : Call → Ledger
  | .enqueue payload =>
    { l with batches := l.batches ++ [[payload]], waiting := l.waiting ++ l.next 1 }
  | .requeue batch =>
    { l with batches := l.batches ++ [batch], waiting := l.next batch.length ++ l.waiting }
  | .clear => { l with waiting := [], cleared := l.cleared ++ l.waiting }
  | .drain script =>
    let cut := acceptance script l.waiting.length
    { l with
      batches := l.batches ++ (arriving script cut).map ([·])
      waiting := (l.passing script).drop cut
      offers := l.offers ++ offered (l.passing script) cut }

/-- An empty ledger after calls one after the other. -/
def run (calls : List Call) : Ledger := calls.foldl after {}

end Ledger

/-- A queue and its ledger. -/
structure Accounted {Stamp : Type} (clock : Clock Stamp) (q : Queue Stamp) (l : Ledger) : Prop where
  /-- There was one clock reading for each batch. -/
  readings : q.readings = l.batches.length
  /-- The messages of the queue are the ones that wait. -/
  messages : q.messages.map some = l.waiting.map ((l.arrivals clock)[·]?)
  /-- Every payload that came in was accepted, was cleared away or waits, and only one of these. -/
  once : (l.accepted ++ l.cleared ++ l.waiting).Perm (List.range l.size)
  /-- What was accepted is never offered again. -/
  final : l.offers.Pairwise fun earlier later => earlier.2 = true → earlier.1 ≠ later.1

/-! ## Numbers and messages -/

section

variable {Stamp : Type} {clock : Clock Stamp} {l : Ledger}

theorem messagesFrom_append (reading : Nat) (batches more : List (List Value)) :
    Ledger.messagesFrom clock reading (batches ++ more) =
      Ledger.messagesFrom clock reading batches ++
        Ledger.messagesFrom clock (reading + batches.length) more := by
  simp [Ledger.messagesFrom, List.zipIdx_append]

theorem length_messagesFrom (reading : Nat) (batches : List (List Value)) :
    (Ledger.messagesFrom clock reading batches).length = batches.flatten.length := by
  induction batches generalizing reading with
  | nil => rfl
  | cons batch rest ih =>
      have later := ih (reading + 1)
      simp only [Ledger.messagesFrom, List.zipIdx_cons, List.flatMap_cons, List.length_append,
        List.length_map, List.flatten_cons] at later ⊢
      rw [later]

theorem messagesFrom_single (reading : Nat) (batch : List Value) :
    Ledger.messagesFrom clock reading [batch] = batch.map (⟨·, clock reading⟩) := by
  simp [Ledger.messagesFrom]

/-- Payloads that come in one by one have one reading each. -/
theorem messagesFrom_singles (reading : Nat) (payloads : List Value) :
    Ledger.messagesFrom clock reading (payloads.map ([·])) = stamped clock reading payloads := by
  induction payloads generalizing reading with
  | nil => rfl
  | cons payload rest ih =>
      have first : stamped clock reading (payload :: rest) =
          ⟨payload, clock reading⟩ :: stamped clock (reading + 1) rest :=
        stamped_append clock reading [payload] rest
      rw [first, ← ih]
      rfl

/-- Numbers of messages that came in are still theirs when more come in. -/
theorem lookup_append {old new : List (Message Stamp)} {numbers : List Nat}
    (known : ∀ n ∈ numbers, n < old.length) :
    numbers.map ((old ++ new)[·]?) = numbers.map (old[·]?) :=
  List.map_congr_left fun n among => List.getElem?_append_left (known n among)

/-- The next numbers are those of the messages that come in. -/
theorem lookup_range' (old new : List (Message Stamp)) :
    (List.range' old.length new.length).map ((old ++ new)[·]?) = new.map some := by
  apply List.ext_getElem?
  intro i
  rcases Nat.lt_or_ge i new.length with below | above
  · simp [below]
  · simp [above]

end

theorem accepted_append (offers more : List (Nat × Bool)) (batches : List (List Value))
    (waiting cleared : List Nat) :
    (⟨batches, waiting, offers ++ more, cleared⟩ : Ledger).accepted =
      (offers.filter (·.2)).map (·.1) ++ (more.filter (·.2)).map (·.1) := by
  rw [Ledger.accepted, List.filter_append, List.map_append]

/-! ## A call -/

namespace Accounted

variable {Stamp : Type} {clock : Clock Stamp} {q : Queue Stamp} {l : Ledger}

theorem lt_size (accounted : Accounted clock q l) {n : Nat}
    (among : n ∈ l.accepted ++ l.cleared ++ l.waiting) : n < l.size :=
  List.mem_range.mp (accounted.once.mem_iff.mp among)

/-- More payloads come in, and the messages that waited are still found. -/
theorem waiting_map (accounted : Accounted clock q l) (more : List (List Value)) :
    l.waiting.map ((Ledger.messagesFrom clock 0 (l.batches ++ more))[·]?) =
      q.messages.map some := by
  rw [messagesFrom_append, accounted.messages]
  apply lookup_append
  intro n among
  rw [length_messagesFrom]
  exact accounted.lt_size (List.mem_append_right _ among)

/-- The next numbers are those of the messages that come in. -/
theorem next_map (accounted : Accounted clock q l) (more : List (List Value)) :
    (l.next more.flatten.length).map ((Ledger.messagesFrom clock 0 (l.batches ++ more))[·]?) =
      (Ledger.messagesFrom clock q.readings more).map some := by
  have size : l.size = (Ledger.messagesFrom clock 0 l.batches).length :=
    (length_messagesFrom 0 l.batches).symm
  have count : more.flatten.length =
      (Ledger.messagesFrom clock (0 + l.batches.length) more).length :=
    (length_messagesFrom _ more).symm
  rw [messagesFrom_append, Ledger.next, size, count, lookup_range', accounted.readings,
    Nat.zero_add]

/-- Payloads come in and others leave, and all of them are in one place again. -/
theorem once_grown (accounted : Accounted clock q l) (more : List (List Value))
    {placed : List Nat}
    (moved : placed.Perm (l.accepted ++ l.cleared ++ (l.waiting ++ l.next more.flatten.length))) :
    placed.Perm (List.range (l.batches ++ more).flatten.length) := by
  have range : List.range l.size ++ l.next more.flatten.length =
      List.range (l.batches ++ more).flatten.length := by
    rw [List.flatten_append, List.length_append, List.range_eq_range', List.range_eq_range']
    have start : l.next more.flatten.length = List.range' (0 + l.size) more.flatten.length := by
      rw [Nat.zero_add, Ledger.next]
    rw [start, List.range'_append_1, Ledger.size]
  rw [← List.append_assoc] at moved
  exact range ▸ moved.trans (accounted.once.append_right _)

theorem enqueue (accounted : Accounted clock q l) (payload : Value) :
    Accounted clock (q.enqueue clock payload) (l.after (.enqueue payload)) where
  readings := by simp [Queue.enqueue, Ledger.after, accounted.readings]
  messages := by
    have old := accounted.waiting_map [[payload]]
    have new := accounted.next_map [[payload]]
    rw [messagesFrom_single] at new
    simp only [Ledger.after, Ledger.arrivals, List.map_append, old]
    exact (List.map_append ..).trans (congrArg (_ ++ ·) new.symm)
  once := accounted.once_grown [[payload]] (.refl _)
  final := accounted.final

theorem requeue (accounted : Accounted clock q l) (batch : List Value) :
    Accounted clock (q.requeue clock batch) (l.after (.requeue batch)) where
  readings := by simp [Queue.requeue, Ledger.after, accounted.readings]
  messages := by
    have old := accounted.waiting_map [batch]
    have new := accounted.next_map [batch]
    rw [messagesFrom_single, List.flatten_singleton] at new
    simp only [Ledger.after, Ledger.arrivals, List.map_append, old, new]
    exact List.map_append ..
  once := by
    apply accounted.once_grown [batch]
    rw [List.flatten_singleton]
    exact List.perm_append_comm.append_left _
  final := accounted.final

theorem clear (accounted : Accounted clock q l) : Accounted clock q.clear (l.after .clear) where
  readings := accounted.readings
  messages := rfl
  once := by
    have placed : l.accepted ++ (l.cleared ++ l.waiting) ++ [] =
        l.accepted ++ l.cleared ++ l.waiting := by
      rw [List.append_nil, List.append_assoc]
    exact placed ▸ accounted.once
  final := accounted.final

theorem length_waiting (accounted : Accounted clock q l) : l.waiting.length = q.size := by
  have lengths := congrArg List.length accounted.messages
  rw [List.length_map, List.length_map] at lengths
  exact lengths.symm

theorem numbers_offered (passing : List Nat) (cut : Nat) :
    (Ledger.offered passing cut).map (·.1) = passing.take (cut + 1) := by
  simp [Ledger.offered, List.take_add, Function.comp_def]

theorem accepted_offered (passing : List Nat) (cut : Nat) :
    ((Ledger.offered passing cut).filter (·.2)).map (·.1) = passing.take cut := by
  simp only [Ledger.offered, List.filter_append, List.filter_map, Function.comp_def,
    List.filter_true, List.filter_false, List.map_map, List.map_nil, List.append_nil,
    List.map_id']

/-- The offers of a drain concern numbers that were not accepted before, each of them once. -/
theorem final_offered (accounted : Accounted clock q l) {passing : List Nat} (cut : Nat)
    (apart : (l.accepted ++ l.cleared ++ passing).Nodup) :
    (l.offers ++ Ledger.offered passing cut).Pairwise
      fun earlier later => earlier.2 = true → earlier.1 ≠ later.1 := by
  have numbers := numbers_offered passing cut
  rw [List.append_assoc] at apart
  refine List.pairwise_append.mpr ⟨accounted.final, ?_, ?_⟩
  · have distinct : ((Ledger.offered passing cut).map (·.1)).Nodup := by
      rw [numbers]
      have later := apart.of_append_right.of_append_right
      exact later.sublist (List.take_sublist _ _)
    apply (List.pairwise_map.mp distinct).imp
    intro earlier later other _
    exact other
  · intro earlier before later among accepted same
    have old : earlier.1 ∈ l.accepted :=
      List.mem_map_of_mem (List.mem_filter.mpr ⟨before, accepted⟩)
    have new : later.1 ∈ passing := by
      have taken : later.1 ∈ passing.take (cut + 1) := numbers ▸ List.mem_map_of_mem among
      exact List.mem_of_mem_take taken
    have disjoint := List.disjoint_of_nodup_append apart
    exact disjoint old (List.mem_append_right _ (same ▸ new))

/-- The numbers that pass are those of the messages that do. -/
theorem passing_map (accounted : Accounted clock q l) (script : List SendAnswer) :
    (l.passing script).map (((l.after (.drain script)).arrivals clock)[·]?) =
      (q.passing clock script).map some := by
  let came := arriving script (acceptance script q.size)
  have old := accounted.waiting_map (came.map ([·]))
  have new := accounted.next_map (came.map ([·]))
  have count : (came.map ([·])).flatten.length = came.length := by simp [Function.comp_def]
  rw [count, messagesFrom_singles] at new
  rw [Ledger.passing, Queue.passing, Ledger.after, Ledger.arrivals, accounted.length_waiting,
    List.map_append, List.map_append, old, new]

theorem once_passing (accounted : Accounted clock q l) (script : List SendAnswer) :
    (l.accepted ++ l.cleared ++ l.passing script).Perm
      (List.range (l.after (.drain script)).size) := by
  apply accounted.once_grown
  simp [Ledger.passing, Function.comp_def]

theorem drain (accounted : Accounted clock q l) (script : List SendAnswer) :
    Accounted clock (q.drain clock script).queue (l.after (.drain script)) := by
  obtain ⟨cut, cutting⟩ : ∃ cut, acceptance script q.size = cut := ⟨_, rfl⟩
  have passes := accounted.passing_map script
  have placed := accounted.once_passing script
  rw [drain_eq, cutting]
  rw [Ledger.after, accounted.length_waiting, cutting] at passes placed ⊢
  constructor
  · simp [accounted.readings]
  · rw [List.map_drop, List.map_drop, passes]
  · have moved : (l.accepted ++ (l.passing script).take cut ++ l.cleared ++
        (l.passing script).drop cut).Perm (l.accepted ++ l.cleared ++ l.passing script) := calc
      _ = l.accepted ++ ((l.passing script).take cut ++
          (l.cleared ++ (l.passing script).drop cut)) := by simp
      _ |>.Perm (l.accepted ++ (l.cleared ++ ((l.passing script).take cut ++
          (l.passing script).drop cut))) := (List.perm_append_comm_assoc _ _ _).append_left _
      _ = l.accepted ++ l.cleared ++ l.passing script := by
          rw [List.take_append_drop, List.append_assoc]
    apply List.Perm.trans _ placed
    rw [accepted_append, accepted_offered]
    exact moved
  · exact accounted.final_offered cut (placed.nodup_iff.mpr List.nodup_range)

/-- What a drain offers is what the ledger puts down, and it counts the accepted ones. -/
theorem offers_of_drain (accounted : Accounted clock q l) (script : List SendAnswer) : ∃ offers,
    (l.after (.drain script)).offers = l.offers ++ offers ∧
      (q.drain clock script).offered.map some = offers.map (fun offer =>
        (((l.after (.drain script)).arrivals clock)[offer.1]?).map (·.payload)) ∧
      (q.drain clock script).count = (offers.filter (·.2)).length := by
  obtain ⟨cut, cutting⟩ : ∃ cut, acceptance script q.size = cut := ⟨_, rfl⟩
  have passes := accounted.passing_map script
  have cuts := cuts_drain clock q script
  have count : (q.drain clock script).count = cut := by
    rw [drain_eq]
    exact cutting
  refine ⟨Ledger.offered (l.passing script) cut, ?_, ?_, ?_⟩
  · rw [Ledger.after, accounted.length_waiting, cutting]
  · let shown (n : Nat) : Option Value :=
      (((l.after (.drain script)).arrivals clock)[n]?).map (·.payload)
    have shows : (l.passing script).map shown =
        ((q.passing clock script).map (·.payload)).map some := calc
      _ = ((l.passing script).map (((l.after (.drain script)).arrivals clock)[·]?)).map
          (Option.map (·.payload)) := by rw [List.map_map]; rfl
      _ = ((q.passing clock script).map (·.payload)).map some := by
          rw [passes, List.map_map, List.map_map]; rfl
    calc (q.drain clock script).offered.map some
      _ = (((q.passing clock script).map (·.payload)).map some).take (cut + 1) := by
          rw [cuts.offered, count, List.map_take, List.map_take]
      _ = ((Ledger.offered (l.passing script) cut).map (·.1)).map shown := by
          rw [← shows, numbers_offered, List.map_take]
      _ = (Ledger.offered (l.passing script) cut).map (fun offer => shown offer.1) := List.map_map
  · have length : (l.passing script).length = (q.passing clock script).length := by
      have lengths := congrArg List.length passes
      rwa [List.length_map, List.length_map] at lengths
    have counted := cuts.counted
    rw [count, List.length_take, ← length, ← List.length_take, ← accepted_offered,
      List.length_map] at counted
    rw [count, counted]

/-- A call keeps the account. -/
theorem after (accounted : Accounted clock q l) (call : Call) :
    Accounted clock (q.after clock call) (l.after call) := by
  cases call with
  | enqueue payload => exact accounted.enqueue payload
  | requeue batch => exact accounted.requeue batch
  | clear => exact accounted.clear
  | drain script => exact accounted.drain script

end Accounted

/-! ## Calls one after the other -/

section

variable {Stamp : Type} {clock : Clock Stamp}

theorem accounted_empty : Accounted clock {} {} :=
  ⟨rfl, rfl, .refl _, .nil⟩

theorem accounted_foldl {q : Queue Stamp} {l : Ledger} (accounted : Accounted clock q l)
    (calls : List Call) :
    Accounted clock (calls.foldl (Queue.after clock) q) (calls.foldl Ledger.after l) := by
  induction calls generalizing q l with
  | nil => exact accounted
  | cons call calls ih => exact ih (accounted.after call)

/-- A queue is the list of what waits by its ledger, after any calls: every payload that came in was
accepted, was cleared away or waits, and only one of these; what was accepted is never offered
again; and the stamps are successive clock readings, one for each batch. A batch is put back in
front. A drain ends, cuts what passes through the queue at the first refusal, and is put down in the
ledger as it was. -/
theorem accounted_and_cut (clock : Clock Stamp) (calls : List Call) :
    let q := Queue.run clock calls
    let l := Ledger.run calls
    Accounted clock q l ∧
      (∀ batch, (q.requeue clock batch).payloads = batch ++ q.payloads) ∧
      ∀ script, Cuts clock q script (q.passing clock script) (q.drain clock script) ∧
        ∃ offers, (l.after (.drain script)).offers = l.offers ++ offers ∧
          (q.drain clock script).offered.map some = offers.map (fun offer =>
            (((l.after (.drain script)).arrivals clock)[offer.1]?).map (·.payload)) ∧
          (q.drain clock script).count = (offers.filter (·.2)).length := by
  intro q l
  have accounted : Accounted clock q l := accounted_foldl accounted_empty calls
  refine ⟨accounted, fun batch => q.payloads_requeue clock batch, fun script => ?_⟩
  exact ⟨cuts_drain clock q script, accounted.offers_of_drain script⟩

/-- A payload that comes in while another one is offered waits behind the rest. -/
example :
    let calls : List Call := [.enqueue (.int 7), .requeue [.int 7, .int 8],
      .drain [.acceptedAfter (.int 9), .rejected]]
    (Ledger.run calls).waiting = [2, 0, 3] ∧ (Ledger.run calls).offers = [(1, true), (2, false)] ∧
      (Queue.run id calls).messages.map (·.enqueuedAt) = [1, 0, 2] := by decide

end

end EventStream.Outbound
