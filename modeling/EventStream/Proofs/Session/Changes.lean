import EventStream.Proofs.Session.Lifecycle
import EventStream.Proofs.Session.Plans
import Mathlib.Data.List.Nodup

/-
# What handlers are told of the changes of phase

A change of phase is told to its handlers one after the other, and each of them may call the
session before the next one is told. If such a call changes the phase again, the handlers that are
still to be told of the first change hear of the second one before it. So a handler that was
registered while the session was idle, and was not removed since, is told of every change exactly
once, but what it hears is a connected history only as long as it is never overtaken in this way.

The bookkeeping is one equation for each step (`Acts.tells`): what is told in the step and what is
owed afterwards is what was owed before, behind the change that the step makes.
-/

namespace EventStream.Session

/-! ## Changes -/

/-- The change of phase that is told. -/
def Occurrence.change? : Occurrence → Option (Phase × Phase)
  | .phaseChanged old new => some (old, new)
  | _ => none

/-- The change of phase of which a handler is told. -/
def Request.change? (h : Handler) : Request → Option (Phase × Phase)
  | .tell g o => if g = h then o.change? else none
  | _ => none

/-- The change of phase that is made at a cue. -/
def Cue.change? (s : State) : Cue → Option (Phase × Phase)
  | .task (.enter p) => if s.phase = p then none else some (s.phase, p)
  | _ => none

/-- The change of phase that is made in a turn. -/
def Entry.change? (e : Entry) : Option (Phase × Phase) :=
  match e.turn, e.before.stack with
  | .work, ⟨_, none, t :: _⟩ :: _ => Cue.change? e.before.state (.task t)
  | _, _ => none

/-- What a turn registers a handler for. -/
def Turn.registered? : Turn → Option (Text × Handler)
  | .call (.on event h) => some (event, h)
  | _ => none

/-- What a turn removes a handler from. -/
def Turn.removed? : Turn → Option (Text × Handler)
  | .call (.off event h) => some (event, h)
  | _ => none

theorem Turn.eq_of_registered {turn : Turn} {event : Text} {h : Handler}
    (registers : turn.registered? = some (event, h)) : turn = .call (.on event h) := by
  unfold registered? at registers
  split at registers <;> simp_all

/-- Changes that are connected, from a phase to a phase: each begins where the last one ended. -/
def Linked : Phase → List (Phase × Phase) → Phase → Prop
  | p, [], q => p = q
  | p, (old, new) :: rest, q => old = p ∧ Linked new rest q

instance : ∀ p changes q, Decidable (Linked p changes q)
  | p, [], q => inferInstanceAs (Decidable (p = q))
  | p, (old, new) :: rest, q =>
    have : Decidable (Linked new rest q) := instDecidableLinked new rest q
    inferInstanceAs (Decidable (old = p ∧ Linked new rest q))

theorem linked_concat {p q : Phase} (r : Phase) {changes : List (Phase × Phase)}
    (linked : Linked p changes q) : Linked p (changes ++ [(q, r)]) r := by
  induction changes generalizing p with
  | nil => exact ⟨linked.symm, rfl⟩
  | cons c rest ih => exact ⟨linked.1, ih linked.2⟩

/-! ## What is owed to a handler -/

section

variable (h : Handler)

/-- The changes of which a task is still to tell a handler. -/
def Task.owed : Task → List (Phase × Phase)
  | .emit o => o.change?.toList
  | .notify o next => next.filterMap fun g => Request.change? h (.tell g o)
  | _ => []

/-- The changes of which a handler is still to be told after a wait. -/
def Await.owed : Await → List (Phase × Phase)
  | .telling _ o next => next.filterMap fun g => Request.change? h (.tell g o)
  | _ => []

/-- The changes of which a call is still to tell a handler. -/
def Activation.owed (a : Activation) : List (Phase × Phase) :=
  (a.awaiting.map (Await.owed h)).getD [] ++ a.tasks.flatMap (Task.owed h)

/-- The changes of which a handler is still to be told, the next one first. -/
def owed (stack : List Activation) : List (Phase × Phase) := stack.flatMap (Activation.owed h)

/-- The changes that are owed at a cue. -/
def Cue.owed : Cue → List (Phase × Phase)
  | .task t => t.owed h
  | .answer a _ => a.owed h

/-- The changes that are owed after an outcome. -/
def Outcome.owed (outcome : Outcome) : List (Phase × Phase) :=
  (outcome.await?.map (Await.owed h)).getD [] ++ outcome.tasks.flatMap (Task.owed h)

namespace Chronicle

/-- The changes of phase that were made, in order. -/
def changes : Chronicle → List (Phase × Phase)
  | [] => []
  | e :: past => changes past ++ e.change?.toList

/-- The changes of which a handler was told, in the order in which it was told. -/
def heard (past : Chronicle) : List (Phase × Phase) := past.requests.filterMap (Request.change? h)

/-- The handler was registered for the changes of phase while the session was idle, and it was not
removed since. -/
def Watched : Chronicle → Prop
  | [] => False
  | e :: past =>
    e.turn.registered? = some (EventKind.phaseChange.name, h) ∧ e.before.state.phase = .idle ∨
      Watched past ∧ e.turn.removed? ≠ some (EventKind.phaseChange.name, h)

instance : ∀ past, Decidable (Watched h past)
  | [] => inferInstanceAs (Decidable False)
  | e :: past =>
    have : Decidable (Watched h past) := instDecidableWatched past
    inferInstanceAs (Decidable (e.turn.registered? = some (EventKind.phaseChange.name, h) ∧
      e.before.state.phase = .idle ∨
      Watched h past ∧ e.turn.removed? ≠ some (EventKind.phaseChange.name, h)))

/-- The phase was changed while a handler was still to be told of an earlier change. -/
def Overtaken (past : Chronicle) : Prop :=
  ∃ e ∈ past, e.change?.isSome ∧ owed h e.before.stack ≠ []

instance (past : Chronicle) : Decidable (Overtaken h past) :=
  inferInstanceAs (Decidable (∃ e ∈ past, e.change?.isSome ∧ owed h e.before.stack ≠ []))

end Chronicle

end

namespace Chronicle

variable (h : Handler) (past : Chronicle) (e : Entry)

@[simp] theorem heard_cons :
    heard h (e :: past) = heard h past ++ e.asked.filterMap (Request.change? h) := by
  simp [heard, requests]

@[simp] theorem changes_cons : changes (e :: past) = changes past ++ e.change?.toList := rfl

end Chronicle

variable {setup : Setup} {allowed : Surroundings} {h : Handler}

section

variable {s after : State} {cue : Cue} {call : Call} {rest : List Task} {below : List Activation}
  {outcome : Outcome} {effects : List Effect}

theorem change_called (m : Machine) {turn : Turn} {call : Call} (begun : turn.call? = some call) :
    Entry.change? ⟨m, turn, effects⟩ = none := by
  cases turn <;> first | rfl | contradiction

@[simp] theorem change_returned :
    Entry.change? ⟨⟨s, ⟨call, none, []⟩ :: below⟩, .work, effects⟩ = none := rfl

@[simp] theorem change_acted :
    Entry.change? ⟨⟨s, cue.activation call rest :: below⟩, cue.turn, effects⟩ = cue.change? s := by
  cases cue <;> rfl

@[simp] theorem Outcome.owed_next (first : List Task) :
    (Outcome.next first).owed h = first.flatMap (Task.owed h) := rfl

@[simp] theorem Outcome.owed_wait (a : Await) : (Outcome.wait a).owed h = a.owed h :=
  List.append_nil _

@[simp] theorem Outcome.owed_fail (f : Fault) : (Outcome.fail f).owed h = [] := rfl

/-- Nothing is owed by what may be left while a call waits. -/
theorem Left.owed (left : Left rest) : rest.flatMap (Task.owed h) = [] := by
  cases left with
  | told follows => cases follows <;> rfl
  | _ => rfl

@[simp] theorem owed_cons (a : Activation) (stack : List Activation) :
    owed h (a :: stack) = a.owed h ++ owed h stack := rfl

theorem owed_activation (left : Left rest) :
    owed h (cue.activation call rest :: below) = cue.owed h ++ owed h below := by
  cases cue <;> simp [Cue.activation, Activation.owed, Cue.owed, left.owed]

theorem owed_outcome (left : Left rest) :
    owed h (outcome.stack call rest below) = outcome.owed h ++ owed h below := by
  cases outcome <;>
    simp [Outcome.stack, Activation.owed, Outcome.owed, Outcome.await?, Outcome.tasks, left.owed]

/-- Of distinct elements only one counts. -/
theorem filterMap_eq_toList {α β : Type} {f : α → Option β} {x : α} {xs : List α}
    (distinct : xs.Nodup) (among : x ∈ xs) (only : ∀ y, y ≠ x → f y = none) :
    xs.filterMap f = (f x).toList := by
  obtain ⟨before, later, rfl⟩ := List.append_of_mem among
  have apart := List.nodup_middle.mp distinct
  have unseen (ys : List α) (absent : x ∉ ys) : ys.filterMap f = [] := by
    rw [List.filterMap_eq_nil_iff]
    exact fun y present => only y fun same => absent (same ▸ present)
  have absent := (List.nodup_cons.mp apart).1
  rw [List.mem_append, not_or] at absent
  rw [List.filterMap_append, List.filterMap_cons, unseen before absent.1, unseen later absent.2]
  cases f x <;> rfl

/-- A handler that is registered is told once. -/
theorem owed_notify (distinct : s.registrations.Nodup)
    (registered : (EventKind.phaseChange, h) ∈ s.registrations) (o : Occurrence) :
    Task.owed h (.notify o (s.handlers o.kind)) = Task.owed h (.emit o) := by
  cases o with
  | phaseChanged old new =>
      simp only [Task.owed, State.handlers, List.filterMap_filterMap, Occurrence.kind]
      rw [filterMap_eq_toList distinct registered]
      · simp [Request.change?]
      · rintro ⟨k, g⟩ other
        by_cases kind : k = .phaseChange
        · have apart : g ≠ h := fun same => other (by rw [kind, same])
          simp [kind, Request.change?, apart]
        · simp [kind]
  | _ => simp [Task.owed, Request.change?, Occurrence.change?]

/-! ## The equation of a step -/

/-- Where nothing changes and nothing is added, nothing is owed either. -/
theorem Lapses.tells (lapses : Lapses setup s cue) : cue.change? s = none ∧ cue.owed h = [] := by
  cases lapses <;> simp [Cue.change?, Cue.owed, Task.owed, Await.owed]

theorem Faults.tells {f : Fault} (faults : Faults setup s cue f) :
    cue.change? s = none ∧ cue.owed h = [] := by
  cases faults <;> simp [Cue.change?, Cue.owed, Task.owed, Await.owed]

/-- What is told in a step and what is owed after it is the change that it makes and what was owed
before. -/
theorem Acts.tells (acts : Acts setup s cue after outcome)
    (once : ∀ o, cue = .task (.emit o) →
      Task.owed h (.notify o (s.handlers o.kind)) = Task.owed h (.emit o)) :
    outcome.asked.filterMap (Request.change? h) ++ outcome.owed h =
      (cue.change? s).toList ++ cue.owed h := by
  cases acts with
  | lapse lapses =>
      obtain ⟨unchanged, settled⟩ := lapses.tells (h := h)
      simp [unchanged, settled, Outcome.asked]
  | fault faults =>
      obtain ⟨unchanged, settled⟩ := faults.tells (h := h)
      simp [unchanged, settled, Outcome.asked]
  | queue queues =>
      cases queues <;> simp [Cue.change?, Cue.owed, Task.owed, Await.owed, Outcome.asked]
  | enter other =>
      simp [Cue.change?, Cue.owed, Task.owed, Outcome.asked, Occurrence.change?, other]
  | emit o => simpa [Cue.change?, Cue.owed, Outcome.asked] using once o rfl
  | notify o g next =>
      cases told : Request.change? h (.tell g o) <;>
        simp [Cue.change?, Cue.owed, Task.owed, Await.owed, Outcome.asked, Await.request, told]
  | reconnect | adopt =>
      split <;> simp [Cue.change?, Cue.owed, Task.owed, Await.owed, Outcome.asked]
  | ended =>
      cases s.connection <;> simp [Cue.change?, Cue.owed, Task.owed, Outcome.asked]
  | conclude e =>
      cases e <;> simp [Cue.change?, Cue.owed, Task.owed, Outcome.asked, Ending.occurrence,
        Occurrence.change?]
  | _ =>
      simp [Cue.change?, Cue.owed, Task.owed, Await.owed, Outcome.asked, Await.request,
        Request.change?, Occurrence.change?, Setup.stopping]

end

/-! ## Registrations -/

/-- A handler is registered at most once for a kind. -/
theorem distinct_of_reached {c : Course} (reached : c.Reached setup allowed) :
    c.now.state.registrations.Nodup := by
  refine reached.induction (P := fun _ s _ => s.registrations.Nodup)
    ?start ?called ?returned ?acted
  case start => exact List.nodup_nil
  case called => exact fun _ distinct _ _ _ => distinct
  case returned => exact fun _ distinct => distinct
  case acted =>
    intro past s cue call rest below after outcome effects _ distinct _ acts _
    cases acts with
    | register g known =>
        simp only [State.register]
        split
        case isTrue => exact distinct
        case isFalse absent =>
          refine List.nodup_append.mpr ⟨distinct, List.nodup_singleton _, ?_⟩
          intro x present y added same
          obtain rfl := List.mem_singleton.mp added
          exact absent (List.contains_iff_mem.mpr (same ▸ present))
    | unregister g known => exact distinct.erase _
    | _ => exact distinct

/-- A kind is known by its name only. -/
theorem ofName_phaseChange {event : Text} {k : EventKind}
    (known : EventKind.ofName? event = some k) :
    event = EventKind.phaseChange.name ↔ k = .phaseChange := by
  have named : k.name = event := by simpa using List.find?_some known
  constructor
  · rintro rfl
    have same : EventKind.ofName? EventKind.phaseChange.name = some .phaseChange := by decide
    exact Option.some.inj (known.symm.trans same)
  · rintro rfl
    exact named.symm

theorem mem_register {s : State} {k : EventKind} {g : Handler} {r : EventKind × Handler}
    (present : r ∈ s.registrations ∨ r = (k, g)) : r ∈ (s.register k g).registrations := by
  unfold State.register
  split
  case isTrue already =>
    exact present.elim id fun same => same ▸ List.contains_iff_mem.mp already
  case isFalse => simpa using present

/-- Serving the call that registers a handler for the changes of phase does so. -/
theorem Acts.registers {s after : State} {outcome : Outcome}
    (acts : Acts setup s (.task (.serve (.on EventKind.phaseChange.name h))) after outcome) :
    (EventKind.phaseChange, h) ∈ after.registrations := by
  cases acts with
  | register _ known =>
      obtain rfl := (ofName_phaseChange known).mp rfl
      exact mem_register (.inr rfl)
  | fault faults =>
      cases faults with
      | on _ unknown => exact absurd unknown (by decide)
  | lapse lapses =>
      cases lapses with
      | ending ends => contradiction
  | ended ends => contradiction
  | queue queues => cases queues

/-- A handler stays registered unless the call that removes it is served. -/
theorem Acts.stays_registered {s after : State} {cue : Cue} {outcome : Outcome}
    (acts : Acts setup s cue after outcome)
    (registered : (EventKind.phaseChange, h) ∈ s.registrations)
    (keeps : cue ≠ .task (.serve (.off EventKind.phaseChange.name h))) :
    (EventKind.phaseChange, h) ∈ after.registrations := by
  cases acts with
  | register _ known => exact mem_register (.inl registered)
  | @unregister event k g known =>
      refine (List.mem_erase_of_ne fun same => ?_).mpr registered
      obtain ⟨rfl, rfl⟩ := Prod.mk.inj same
      exact keeps (by rw [(ofName_phaseChange known).mpr rfl])
  | _ => exact registered

/-- A watched handler is registered and is not about to be removed, unless it is about to be
registered. -/
theorem registered_of_watched {c : Course} (reached : c.Reached setup allowed) :
    c.past.Watched h →
      (EventKind.phaseChange, h) ∈ c.now.state.registrations ∧
          front c.now.stack ≠ [.serve (.off EventKind.phaseChange.name h)] ∨
        front c.now.stack = [.serve (.on EventKind.phaseChange.name h)] := by
  refine reached.induction (P := fun past s stack => past.Watched h →
    (EventKind.phaseChange, h) ∈ s.registrations ∧
        front stack ≠ [.serve (.off EventKind.phaseChange.name h)] ∨
      front stack = [.serve (.on EventKind.phaseChange.name h)]) ?start ?called ?returned ?acted
  case start => exact fun never => never.elim
  case called =>
    rintro past s stack turn call _ ih _ begun free (⟨registers, -⟩ | ⟨watched, keeps⟩)
    · obtain rfl := Turn.eq_of_registered registers
      obtain rfl : .on EventKind.phaseChange.name h = call := Option.some.inj begun
      exact .inr rfl
    · have waits : front stack = [] := front_of_waiting free
      rcases ih watched with ⟨registered, -⟩ | serves
      · refine .inl ⟨registered, fun removes => keeps ?_⟩
        obtain rfl : call = .off EventKind.phaseChange.name h := by simpa using removes
        cases turn <;> simp_all [Turn.call?, Turn.removed?]
      · simp [waits] at serves
  case returned =>
    rintro past s call below before ih (⟨registers, -⟩ | ⟨watched, -⟩)
    · contradiction
    · have planned : Planned (⟨call, none, []⟩ :: below) := planned_of_reached before
      rcases ih watched with ⟨registered, -⟩ | serves
      · exact .inl ⟨registered, by simp [planned.front_below]⟩
      · simp at serves
  case acted =>
    rintro past s cue call rest below after outcome effects before ih _ acts _
      (⟨registers, -⟩ | ⟨watched, -⟩)
    · cases cue <;> contradiction
    · have planned : Planned (cue.activation call rest :: below) := planned_of_reached before
      have precedes := cue_precedes (planned.planned _ List.mem_cons_self)
      refine .inl ⟨?_, fun removes => ?_⟩
      · rcases ih watched with ⟨registered, keeps⟩ | serves
        · refine acts.stays_registered registered ?_
          rintro rfl
          obtain rfl : rest = [] := precedes
          exact keeps rfl
        · cases cue with
          | answer => contradiction
          | task t =>
              obtain ⟨rfl, rfl⟩ := List.cons.inj serves
              exact acts.registers
      · obtain ⟨first, rfl, -⟩ := planned.added rfl removes
        have origin := acts.origin _ List.mem_cons_self
        obtain ⟨n, f, other, -⟩ := origin
        contradiction

/-! ## Histories -/

/-- A step leaves the phase alone, or makes the change from the phase that it finds to the one that
it leaves. -/
theorem Acts.change {s after : State} {cue : Cue} {outcome : Outcome}
    (acts : Acts setup s cue after outcome) :
    cue.change? s = none ∧ after.phase = s.phase ∨
      cue.change? s = some (s.phase, after.phase) ∧ s.phase ≠ after.phase := by
  rcases acts.phase with same | ⟨p, other, rfl, rfl, -⟩
  · refine .inl ⟨?_, same⟩
    cases cue with
    | answer => rfl
    | task t =>
        cases t with
        | enter p => simp [Cue.change?, ← same, acts.entered]
        | _ => rfl
  · exact .inr ⟨by simp [Cue.change?, other], other⟩

/-- The changes of phase of a session are connected, from the idle phase to the present one. -/
theorem linked_changes {c : Course} (reached : c.Reached setup allowed) :
    Linked .idle c.past.changes c.phase := by
  refine reached.induction (P := fun past s _ => Linked .idle past.changes s.phase)
    ?start ?called ?returned ?acted
  case start => rfl
  case called =>
    intro past s stack turn call _ linked _ begun _
    simpa [change_called _ begun] using linked
  case returned =>
    intro past s call below _ linked
    simpa using linked
  case acted =>
    intro past s cue call rest below after outcome effects _ linked _ acts _
    rcases acts.change with ⟨none, same⟩ | ⟨some, -⟩
    · simpa [none, same] using linked
    · simpa [some] using linked_concat after.phase linked

/-- An idle session has changed its phase never, and has told nobody of a change. -/
theorem unheard_of_idle {c : Course} (reached : c.Reached setup allowed) :
    c.phase = .idle → c.past.changes = [] ∧ c.past.heard h = [] ∧ owed h c.now.stack = [] := by
  refine reached.induction (P := fun past s stack => s.phase = .idle →
    past.changes = [] ∧ past.heard h = [] ∧ owed h stack = []) ?start ?called ?returned ?acted
  case start => exact fun _ => ⟨rfl, rfl, rfl⟩
  case called =>
    intro past s stack turn call _ ih _ begun _ idle
    obtain ⟨unchanged, untold, settled⟩ := ih idle
    refine ⟨by simp [change_called _ begun, unchanged], by simp [untold], ?_⟩
    simpa [Activation.owed, Task.owed] using settled
  case returned =>
    intro past s call below _ ih idle
    obtain ⟨unchanged, untold, settled⟩ := ih idle
    exact ⟨by simp [unchanged], by simp [untold], (List.append_eq_nil_iff.mp settled).2⟩
  case acted =>
    intro past s cue call rest below after outcome effects before ih _ acts seen idle
    have planned : Planned (cue.activation call rest :: below) := planned_of_reached before
    have precedes := cue_precedes (planned.planned _ List.mem_cons_self)
    -- The idle phase is never entered, so the step found the session idle.
    obtain ⟨none, same⟩ := acts.change.resolve_right fun ⟨made, _⟩ => by
      cases cue with
      | answer => contradiction
      | task t =>
          cases t with
          | enter p =>
              obtain rfl : p = .idle := acts.entered.symm.trans idle
              exact precedes
          | _ => contradiction
    obtain ⟨unchanged, untold, settled⟩ := ih (same.symm.trans idle)
    rw [owed_activation precedes.left] at settled
    obtain ⟨mine, theirs⟩ := List.append_eq_nil_iff.mp settled
    have tells := acts.tells (h := h) fun o stands => by
      subst stands
      have other : o.change? = .none := by simpa [Cue.owed, Task.owed] using mine
      simp [Task.owed, Request.change?, other]
    rw [none, mine] at tells
    obtain ⟨silent, calm⟩ := List.append_eq_nil_iff.mp tells
    refine ⟨by simp [unchanged, none], ?_, ?_⟩
    · rw [Chronicle.heard_cons, Entry.asked, seen.asked, untold, silent]
      rfl
    · rw [owed_outcome precedes.left, calm, theirs]
      rfl

/-- The balance of a step: what a handler was told and is owed afterwards is what it was told
before, the change of the step, and what it was owed before. -/
theorem heard_append_owed_acted {past : Chronicle} {s after : State} {cue : Cue} {call : Call}
    {rest : List Task} {below : List Activation} {outcome : Outcome} {effects : List Effect}
    (reached : Course.Reached setup allowed ⟨past, s, cue.activation call rest :: below⟩)
    (watched : past.Watched h) (acts : Acts setup s cue after outcome)
    (seen : Seen s cue outcome effects) :
    Chronicle.heard h (⟨⟨s, cue.activation call rest :: below⟩, cue.turn, effects⟩ :: past) ++
        owed h (outcome.stack call rest below) =
      past.heard h ++ ((cue.change? s).toList ++ owed h (cue.activation call rest :: below)) := by
  have planned : Planned (cue.activation call rest :: below) := planned_of_reached reached
  have precedes := cue_precedes (planned.planned _ List.mem_cons_self)
  have tells := acts.tells (h := h) fun o stands => by
    subst stands
    rcases registered_of_watched reached watched with ⟨registered, -⟩ | serves
    · exact owed_notify (distinct_of_reached reached) registered o
    · simp [Cue.activation] at serves
  rw [Chronicle.heard_cons, Entry.asked, seen.asked, owed_outcome precedes.left,
    owed_activation precedes.left, List.append_assoc, ← List.append_assoc _ _ (owed h below),
    tells, List.append_assoc]

/-- What a watched handler was told and what it is still to be told are the changes of the session,
in order unless one overtook another. -/
theorem heard_append_owed {c : Course} (reached : c.Reached setup allowed) : c.past.Watched h →
    (c.past.heard h ++ owed h c.now.stack).Perm c.past.changes ∧
      (¬ c.past.Overtaken h → c.past.heard h ++ owed h c.now.stack = c.past.changes) := by
  refine reached.induction (P := fun past _ stack => past.Watched h →
    (past.heard h ++ owed h stack).Perm past.changes ∧
      (¬ past.Overtaken h → past.heard h ++ owed h stack = past.changes))
    ?start ?called ?returned ?acted
  case start => exact fun never => never.elim
  case called =>
    rintro past s stack turn call before ih _ begun _ (⟨-, idle⟩ | ⟨watched, -⟩)
    · obtain ⟨unchanged, untold, settled⟩ := unheard_of_idle (h := h) before idle
      simp [change_called _ begun, unchanged, untold, settled, Activation.owed, Task.owed]
    · obtain ⟨same, ordered⟩ := ih watched
      simp only [Chronicle.heard_cons, Entry.asked_call, Chronicle.changes_cons,
        change_called _ begun, owed_cons, Option.toList_none, List.filterMap_nil,
        List.append_nil]
      exact ⟨same, fun never => ordered fun ⟨e, among, overtakes⟩ =>
        never ⟨e, List.mem_cons_of_mem _ among, overtakes⟩⟩
  case returned =>
    rintro past s call below _ ih (⟨begins, -⟩ | ⟨watched, -⟩)
    · contradiction
    · obtain ⟨same, ordered⟩ := ih watched
      simp only [Chronicle.heard_cons, Entry.asked_return, Chronicle.changes_cons,
        change_returned, Option.toList_none, List.filterMap_nil, List.append_nil]
      exact ⟨same, fun never => ordered fun ⟨e, among, overtakes⟩ =>
        never ⟨e, List.mem_cons_of_mem _ among, overtakes⟩⟩
  case acted =>
    rintro past s cue call rest below after outcome effects before ih _ acts seen
      (⟨begins, -⟩ | ⟨watched, -⟩)
    · cases cue <;> contradiction
    obtain ⟨same, ordered⟩ := ih watched
    rw [heard_append_owed_acted before watched acts seen, Chronicle.changes_cons, change_acted]
    constructor
    · exact ((List.perm_append_comm.append_left _).trans
        (List.append_assoc .. ▸ same.append_right _))
    · intro never
      have ordered := ordered fun ⟨e, among, overtakes⟩ =>
        never ⟨e, List.mem_cons_of_mem _ among, overtakes⟩
      cases made : cue.change? s with
      | none => simpa using ordered
      | some change =>
          have settled : owed h (cue.activation call rest :: below) = [] := by
            by_contra owes
            exact never ⟨_, List.mem_cons_self, by simp [made], owes⟩
          simpa [settled] using ordered

/-- When no call is in progress, a handler that was registered while the session was idle, and was
not removed since, was told of every change of phase once, and the changes are connected, from the
idle phase to the present one. It was told of them in order if none was made while it was still to
be told of an earlier one. -/
theorem heard_perm_and_linked {c : Course} (reached : c.Reached setup Surroundings.Free)
    (rests : c.now.atRest) (watched : c.past.Watched h) :
    (c.past.heard h).Perm c.past.changes ∧ Linked .idle c.past.changes c.phase ∧
      (¬ c.past.Overtaken h →
        c.past.heard h = c.past.changes ∧ Linked .idle (c.past.heard h) c.phase) := by
  have settled : owed h c.now.stack = [] := by simp [List.isEmpty_iff.mp rests, owed]
  obtain ⟨same, ordered⟩ := heard_append_owed reached watched
  rw [settled, List.append_nil] at same ordered
  have linked := linked_changes reached
  exact ⟨same, linked, fun never => ⟨ordered never, ordered never ▸ linked⟩⟩

/-- Two handlers that are registered for the changes of phase, in this order. -/
def leader : Handler := ⟨0, "leader"⟩

@[inherit_doc leader] def follower : Handler := ⟨1, "follower"⟩

/-- A session with both handlers that has begun to tell them that it is connected. -/
def greeting : Course := Course.plays .plain {} [.call (.on "state_change" leader),
  .call (.on "state_change" follower), .call .start, .reply .returned, .reply .returned,
  .reply .returned, .call (.opened 2)]

/-- The handlers do nothing about it. -/
def greeted : Course := greeting.plays .plain [.reply .returned, .reply .returned]

theorem heard_linked_greeted : greeted.now.atRest ∧ greeted.past.Watched follower ∧
    ¬ greeted.past.Overtaken follower ∧
    greeted.past.heard follower = [(.idle, .connecting), (.connecting, .connected)] ∧
      Linked .idle (greeted.past.heard follower) greeted.phase := by
  have reached : greeted.Reached .plain Surroundings.Free :=
    .trans (Course.leads_plays_free _ _) (Course.leads_plays_free _ _)
  have watched : greeted.past.Watched follower := by decide
  have alone : ¬ greeted.past.Overtaken follower := by decide
  obtain ⟨-, -, chained⟩ := heard_perm_and_linked reached rfl watched
  exact ⟨rfl, watched, alone, rfl, (chained alone).2⟩

/-- The first handler stops the session when it is told that the session is connected, and the
second one hears of that last. -/
def outpaced : Course :=
  greeting.plays .plain (.call .stop :: List.replicate 7 (.reply .returned))

theorem not_linked_outpaced : outpaced.Reached .plain Surroundings.Free ∧
    outpaced.now.atRest ∧ outpaced.past.Watched follower ∧
    outpaced.past.heard follower = [(.idle, .connecting), (.connected, .closing),
      (.closing, .closed), (.connecting, .connected)] ∧
    ¬ Linked .idle (outpaced.past.heard follower) outpaced.phase := by
  have reached : outpaced.Reached .plain Surroundings.Free :=
    .trans (Course.leads_plays_free _ _) (Course.leads_plays_free _ _)
  exact ⟨reached, by decide +kernel, by decide +kernel, by decide +kernel, by decide +kernel⟩

end EventStream.Session
