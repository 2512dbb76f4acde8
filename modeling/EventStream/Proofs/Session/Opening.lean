import EventStream.Proofs.Session.Scripted
import EventStream.Proofs.Session.Messages

/-
# Connections that report before opening them has returned

A connection may report that it is usable while it is opened. The session does not hold it yet, so
what handlers send meanwhile is queued, and the queue is offered to the connection once opening it
has returned. Where a connection reports right after that, what waits is offered at once and what
handlers send is forwarded. Both come to the same (`early_eq_late`), whatever the connection
accepts and whatever handlers send.

The reason is that offering the queue commutes with all that handlers do: a payload that is sent and
then offered with all others, and a payload that is sent after all others were offered, meet the
same connection (`Scene.adopt_send`). From one call this goes to a handler, to a round of handlers,
and to all of an opening.
-/

namespace EventStream.Session

namespace Scene

/-! ## Offering what waits -/

section

variable {accepts : List Value → Value → Bool}

/-- A payload is offered if nothing waits before it, and otherwise it waits. -/
def offered (accepts : List Value → Value → Bool) (sofar : List Value × List Value) (p : Value) :
    List Value × List Value :=
  if sofar.2 = [] ∧ accepts sofar.1 p then (sofar.1 ++ [p], []) else (sofar.1, sofar.2 ++ [p])

/-- The last payload is offered after all others. -/
theorem drained_append (taken queued : List Value) (p : Value) :
    drained accepts taken (queued ++ [p]) = offered accepts (drained accepts taken queued) p := by
  induction queued generalizing taken with
  | nil => by_cases yes : accepts taken p <;> simp [drained, offered, yes]
  | cons q queued ih =>
      rw [List.cons_append, drained, drained]
      split
      case isTrue => exact ih (taken ++ [q])
      case isFalse => simp [offered]

/-- What still waits is not taken when it is offered again. -/
theorem drained_drained (taken queued : List Value) :
    drained accepts (drained accepts taken queued).1 (drained accepts taken queued).2 =
      drained accepts taken queued := by
  induction queued generalizing taken with
  | nil => rfl
  | cons p queued ih =>
      rw [drained]
      split
      case isTrue => exact ih (taken ++ [p])
      case isFalse rejects => simp [drained, rejects]

end

variable (setup : Setup) (script : Script) (n : Nat) (u : Scene)

/-- A connection is dialled, to which the session listens. -/
def dial : Scene := { u with state := { u.state with generation := n } }

/-- A connection is held from now on. -/
def hold : Scene := { u with state := { u.state with connection := some n } }

/-- A connection is held from now on, and what is queued is offered to it. -/
def adopt : Scene := (u.hold n).flush script

theorem adopt_eq : u.adopt script n = { u with
    state := { u.state with connection := some n }
    taken := (drained script.accepts u.taken u.queued).1
    queued := (drained script.accepts u.taken u.queued).2 } := rfl

/-- A connection that is held already is adopted when what is queued is offered to it. -/
theorem adopt_of_held (holds : u.state.connection = some n) :
    u.adopt script n = u.flush script := by
  rw [adopt, hold, ← holds]

theorem alike_flush : u.Alike (u.flush script) := by
  refine ⟨u.state.registrations, ?_⟩
  unfold flush
  split <;> rfl

/-- Adopting a connection after what waits was offered to it. -/
theorem adopt_flush : (u.flush script).adopt script n = u.adopt script n := by
  unfold flush
  split
  case isTrue => simp [adopt_eq, drained_drained]
  case isFalse => rfl

/-- A payload may be sent before the connection is adopted, or afterwards. -/
theorem adopt_send (p : Value) :
    (u.send setup script p).adopt script n = (u.adopt script n).send setup script p := by
  by_cases outbound : setup.outbound = false
  · simp [send, outbound]
  · have after : (u.adopt script n).send setup script p = { u with
        state := { u.state with connection := some n }
        taken := (offered script.accepts (drained script.accepts u.taken u.queued) p).1
        queued := (offered script.accepts (drained script.accepts u.taken u.queued) p).2 } := by
      rw [adopt_eq, send, if_neg outbound, offered]
      simp only [Option.isSome_some, true_and]
      split
      case isTrue taken => simp [taken]
      case isFalse => rfl
    rw [after, ← drained_append, send, if_neg outbound]
    split
    case isTrue direct =>
      obtain ⟨empty, -, accepted⟩ := direct
      simp [adopt_eq, empty, drained, accepted]
    case isFalse => rfl

/-- Handlers make no difference to what waits but by what they send. -/
theorem adopt_serve (call : Call) :
    (u.serve setup script call).adopt script n = (u.adopt script n).serve setup script call := by
  cases call with
  | send p => exact adopt_send setup script n u p
  | on event h =>
      simp only [serve]
      split
      · rw [adopt_eq, adopt_eq]
        simp only [State.register]
        split <;> rfl
      · rfl
  | off event h =>
      simp only [serve]
      split <;> rfl
  | _ => rfl

theorem adopt_tell (o : Occurrence) (h : Handler) :
    (u.tell setup script o h).adopt script n = (u.adopt script n).tell setup script o h := by
  have serves (calls : List Call) (u : Scene) :
      (calls.foldl (serve setup script) u).adopt script n =
        calls.foldl (serve setup script) (u.adopt script n) := by
    induction calls generalizing u with
    | nil => rfl
    | cons call calls ih => rw [List.foldl_cons, ih, adopt_serve]; rfl
  exact serves _ _

theorem adopt_emit (o : Occurrence) :
    (u.emit setup script o).adopt script n = (u.adopt script n).emit setup script o := by
  have rounds (handlers : List Handler) (u : Scene) :
      (handlers.foldl (tell setup script o) u).adopt script n =
        handlers.foldl (tell setup script o) (u.adopt script n) := by
    induction handlers generalizing u with
    | nil => rfl
    | cons h handlers ih => rw [List.foldl_cons, ih, adopt_tell]; rfl
  exact rounds _ _

/-! ## Opening -/

/-- The phase of a session that connects becomes connected, and no reconnects are counted. -/
def connect : Scene := { u with state := { u.state with attempts := 0, phase := .connected } }

/-- A connection reports that it is usable. -/
def opened : Scene :=
  if u.state.phase = .connecting then
    ((u.connect.emit setup script (.phaseChanged .connecting .connected)).flush script).emit
      setup script .opened
  else u

theorem alike_opened (connecting : u.state.phase = .connecting) :
    u.connect.Alike (u.opened setup script) := by
  rw [opened, if_pos connecting]
  exact ((alike_emit _ _).trans (alike_flush _ _)).trans (alike_emit _ _)

/-- A connection that is adopted after it has reported might as well have been held before. -/
theorem adopt_opened (connecting : u.state.phase = .connecting) :
    (u.opened setup script).adopt script n = (u.hold n).opened setup script := by
  let held := (u.hold n).connect.emit setup script (.phaseChanged .connecting .connected)
  have holds : held.state.connection = some n := by
    obtain ⟨registrations, same⟩ :=
      @alike_emit setup script (u.hold n).connect (.phaseChanged .connecting .connected)
    rw [same]
    rfl
  calc (u.opened setup script).adopt script n
    _ = ((u.connect.adopt script n).emit setup script (.phaseChanged .connecting .connected)).emit
          setup script .opened := by
        rw [opened, if_pos connecting, adopt_emit, adopt_flush, adopt_emit]
    _ = (held.adopt script n).emit setup script .opened := by rw [adopt_emit]; rfl
    _ = (u.hold n).opened setup script := by
        rw [adopt_of_held _ _ _ holds, opened,
          if_pos (show (u.hold n).state.phase = _ from connecting)]

/-- The same of a session that does not connect: it neither hears the report nor offers anything. -/
theorem opened_hold (other : u.state.phase ≠ .connected) :
    (if (u.opened setup script).state.phase = .connected then
        (u.opened setup script).adopt script n
      else (u.opened setup script).hold n) = (u.hold n).opened setup script := by
  by_cases connecting : u.state.phase = .connecting
  · obtain ⟨registrations, same⟩ := alike_opened setup script u connecting
    rw [if_pos (by rw [same]; rfl), adopt_opened _ _ _ _ connecting]
  · have unheard : u.opened setup script = u := if_neg connecting
    rw [unheard, if_neg other, opened,
      if_neg (show ¬ (u.hold n).state.phase = _ from connecting)]

theorem generation_opened :
    (u.opened setup script).state.generation = u.state.generation := by
  by_cases connecting : u.state.phase = .connecting
  · obtain ⟨registrations, same⟩ := alike_opened setup script u connecting
    rw [same]
    rfl
  · rw [opened, if_neg connecting]

end Scene

/-! ## Runs -/

namespace Staging

section

variable (g : Staging) {n : Nat} {c d : Course} {call : Call} {rest : List Task}
  {stack below : List Activation}

/-- Handlers make plain calls only while a connection is opened. -/
def IsPlain : Prop :=
  ∀ o : Occurrence, o.kind = .phaseChange ∨ o.kind = .opened → g.script.IsPlain o

/-- A session that was connecting is connected, and tells so. -/
theorem goes_of_enter (plain : g.IsPlain) (connecting : c.now.state.phase = .connecting)
    (held : ∀ m, c.now.state.connection = some m → m = n)
    (stands : c.now.stack = ⟨call, none, .enter .connected :: rest⟩ :: below)
    (deep : g.depth ≤ below.length) :
    ∃ d, g.Goes below.length c d ∧ d.now.stack = ⟨call, none, rest⟩ :: below ∧
      (d.scene n).Connected n ∧
      d.scene n =
        Scene.emit g.setup g.script (.phaseChanged .connecting .connected)
          { c.scene n with state := { (c.scene n).state with phase := .connected } } := by
  obtain ⟨effects, performs⟩ : ∃ effects, g.setup.perform c.now.state (.enter .connected) =
      ⟨{ c.now.state with phase := .connected }, effects,
        .next [.emit (.phaseChanged .connecting .connected)]⟩ := by
    simp [Setup.perform, Setup.enter, connecting]
  obtain ⟨b, first, leaves, -, scene⟩ := g.goes_of_task (n := n) stands deep performs
  have entered : b.scene n =
      { c.scene n with state := { (c.scene n).state with phase := .connected } } :=
    scene.trans <| by simp [Outcome.asked, Cue.emits, Course.scene]
  have connected : (b.scene n).Connected n := by
    rw [entered]
    exact ⟨rfl, held⟩
  obtain ⟨d, second, stands, scene⟩ := g.goes_of_emit (plain _ (.inl rfl)) connected
    (congrArg Machine.stack leaves) deep
  refine ⟨d, first.trans second, stands, ?_, scene.trans (by rw [entered])⟩
  rw [scene]
  exact (Scene.alike_emit _ _).connected connected

/-- A connected session offers what is queued and makes itself known. -/
theorem goes_of_announce (plain : g.IsPlain) (connected : (c.scene n).Connected n)
    (stands : c.now.stack = ⟨call, none, .announce :: rest⟩ :: below)
    (deep : g.depth ≤ below.length) :
    ∃ d, g.Goes below.length c d ∧ d.now.stack = ⟨call, none, rest⟩ :: below ∧
      d.scene n = ((c.scene n).flush g.script).emit g.setup g.script .opened := by
  have phase : c.now.state.phase = .connected := connected.phase
  obtain ⟨effects, performs⟩ : ∃ effects, g.setup.perform c.now.state .announce =
      ⟨c.now.state, effects, .next [.flush, .emit .opened]⟩ := by
    simp [Setup.perform, Setup.announce, State.isConnected, phase]
  obtain ⟨b, first, leaves, -, scene⟩ := g.goes_of_task (n := n) stands deep performs
  have same : b.scene n = c.scene n := scene.trans <| by
    simp [Outcome.asked, Cue.emits, Course.scene]
  obtain ⟨b', second, stands, flushed⟩ := g.goes_of_flush (n := n) (c := b)
    (same ▸ connected).held (congrArg Machine.stack leaves) deep
  rw [same] at flushed
  obtain ⟨d, third, stands, scene⟩ := g.goes_of_emit (plain _ (.inr rfl))
    (flushed ▸ (Scene.alike_flush _ _).connected connected) stands deep
  exact ⟨d, (first.trans second).trans third, stands, scene.trans (by rw [flushed])⟩

/-- A connection reports that it is usable, and the session listens to it. -/
theorem goes_of_opened (plain : g.IsPlain)
    (stands : c.now.stack = ⟨.opened n, none, [.serve (.opened n)]⟩ :: stack)
    (deep : g.depth ≤ stack.length) (listens : c.now.state.generation = n)
    (held : ∀ m, c.now.state.connection = some m → m = n) :
    ∃ d, g.Goes stack.length c d ∧ d.now.stack = stack ∧
      d.scene n = (c.scene n).opened g.setup g.script := by
  by_cases connecting : c.now.state.phase = .connecting
  · have performs : g.setup.perform c.now.state (.serve (.opened n)) =
        ⟨{ c.now.state with attempts := 0 }, [], .next [.enter .connected, .announce]⟩ := by
      simp [Setup.perform, Setup.serve, Setup.serveOpened, State.listensTo, listens, connecting]
    obtain ⟨b, first, leaves, -, cleared⟩ := g.goes_of_task (n := n) stands deep performs
    have stays : b.now.state = { c.now.state with attempts := 0 } := by rw [leaves]
    obtain ⟨b', second, stands, connected, entered⟩ := g.goes_of_enter (n := n) (c := b) plain
      (by rw [stays]; exact connecting) (by rw [stays]; exact held)
      (congrArg Machine.stack leaves) deep
    obtain ⟨b'', third, stands, told⟩ := g.goes_of_announce plain connected stands deep
    obtain ⟨d, fourth, back, same⟩ := g.goes_of_return (n := n) stands deep
    refine ⟨d, ((first.trans second).trans third).trans fourth, by rw [back], ?_⟩
    rw [same, told, entered, Scene.opened,
      if_pos (show (c.scene n).state.phase = _ from connecting)]
    congr 3
    rw [cleared]
    simp [Scene.connect, Outcome.asked, Cue.emits, Course.scene]
  · have performs : g.setup.perform c.now.state (.serve (.opened n)) =
        ⟨c.now.state, [], .next []⟩ := by
      simp [Setup.perform, Setup.serve, Setup.serveOpened, connecting]
    obtain ⟨d, goes, leaves, scene⟩ := g.goes_of_last (n := n) stands deep performs rfl
    refine ⟨d, goes, by rw [leaves], scene.trans ?_⟩
    rw [Scene.opened, if_neg (show ¬ (c.scene n).state.phase = _ from connecting)]
    rfl

/-- A connection is opened. -/
theorem goes_of_dial (stands : c.now.stack = ⟨call, none, .dial :: rest⟩ :: below)
    (deep : g.depth ≤ below.length) (next : n = c.now.state.generation + 1) :
    ∃ d, g.Goes below.length c d ∧
      d.now = ⟨{ c.now.state with generation := n }, ⟨call, some (.dialling n), rest⟩ :: below⟩ ∧
      d.past.made (below.length + 1) = 0 ∧
      d.scene n = (c.scene n).dial n := by
  subst next
  obtain ⟨d, goes, leaves, made, scene⟩ := g.goes_of_task stands deep
    (rfl : g.setup.perform c.now.state .dial = _)
  refine ⟨d, goes, leaves, made, scene.trans ?_⟩
  simp [Outcome.asked, Await.request, Request.tell?, Cue.emits, Course.scene, Scene.dial]

/-- Opening a connection has returned, and the session listens to it. -/
theorem goes_of_adopt (stands : c.now.stack = ⟨call, some (.dialling n), []⟩ :: below)
    (deep : g.depth ≤ below.length) (silent : (g.during n)[c.past.made (below.length + 1)]? = none)
    (listens : c.now.state.generation = n) :
    ∃ d, g.Goes below.length c d ∧ d.now.stack = below ∧
      d.scene n = if c.now.state.phase = .connected then (c.scene n).adopt g.script n
        else (c.scene n).hold n := by
  have returns : g.turn? c = some (.reply .returned) := by simp [turn?, stands, silent]
  have resumes : g.setup.resume c.now.state (.dialling n) .returned =
      some ⟨{ c.now.state with connection := some n }, [],
        .next (if c.now.state.isConnected then [.flush] else [])⟩ := by
    simp [Setup.resume, Setup.adopt, State.listensTo, listens]
  obtain ⟨b, first, leaves, -, scene⟩ := g.goes_of_step (n := n)
    (.answer (.dialling n) .returned) stands deep returns resumes
  have held : b.scene n = (c.scene n).hold n := scene.trans <| by
    simp [Outcome.asked, Cue.emits, Cue.accepts?, Course.scene, Scene.hold]
  split
  case isTrue connected =>
    have holds : ∀ m, b.now.state.connection = some m → m = n := by
      rw [leaves]
      rintro m ⟨⟩
      rfl
    have stands : b.now.stack = ⟨call, none, [.flush]⟩ :: below := by
      rw [leaves]
      simp [State.isConnected, connected, Outcome.stack]
    obtain ⟨b', second, stands, flushed⟩ := g.goes_of_flush (n := n) holds stands deep
    obtain ⟨d, third, back, same⟩ := g.goes_of_return (n := n) stands deep
    refine ⟨d, (first.trans second).trans third, by rw [back], ?_⟩
    rw [same, flushed, held, Scene.adopt]
  case isFalse other =>
    have stands : b.now.stack = ⟨call, none, []⟩ :: below := by
      rw [leaves]
      simp [State.isConnected, other, Outcome.stack]
    obtain ⟨d, second, back, same⟩ := g.goes_of_return (n := n) stands deep
    exact ⟨d, first.trans second, by rw [back], same.trans held⟩

end

/-- Connections report nothing while they are opened. -/
def late (setup : Setup) (script : Script) (depth : Nat) : Staging := { setup, script, depth }

/-- Every connection reports while it is opened that it is usable. -/
def early (setup : Setup) (script : Script) (depth : Nat) : Staging :=
  { setup, script, depth, during := fun n => [.opened n] }

section

variable {setup : Setup} {script : Script} {n : Nat} {c : Course} {call : Call}
  {below : List Activation}

/-- The connection is opened, and adopted after it has reported. -/
theorem finishes_early (plain : (early setup script below.length).IsPlain)
    (stands : c.now.stack = ⟨call, none, [.dial]⟩ :: below)
    (next : n = c.now.state.generation + 1) (idle : c.now.state.connection = none)
    (other : c.now.state.phase ≠ .connected) :
    ∃ d, (early setup script below.length).Finishes c d ∧ d.now.stack = below ∧
      d.scene n = (((c.scene n).dial n).hold n).opened setup script := by
  let g := early setup script below.length
  obtain ⟨b, dials, waits, made, begun⟩ := g.goes_of_dial stands (Nat.le_refl _) next
  have stays : b.now.stack = ⟨call, some (.dialling n), []⟩ :: below := congrArg Machine.stack waits
  have reports : g.turn? b = some (.call (.opened n)) := by
    simp [turn?, stays, made, g, early]
  obtain ⟨b', reported, called, counted, same⟩ :=
    g.goes_of_call (n := n) stays (Nat.le_refl _) reports
  have level : b.now.stack.length = below.length + 1 := by simp [stays]
  obtain ⟨b'', opens, stays', opened⟩ := g.goes_of_opened (n := n) (c := b') plain
    (congrArg Machine.stack called) (by simp [level, g, early]) (by rw [called, waits])
    (by rw [called, waits]; simp [idle])
  rw [same, begun] at opened
  have silent : (g.during n)[b''.past.made (below.length + 1)]? = none := by
    rw [opens.made _ (Nat.le_of_eq level.symm), counted, made]
    rfl
  have listens : b''.now.state.generation = n := by
    change (b''.scene n).state.generation = n
    rw [opened, Scene.generation_opened]
    rfl
  obtain ⟨d, adopts, back, ended⟩ :=
    g.goes_of_adopt (stays'.trans stays) (Nat.le_refl _) silent listens
  refine ⟨d, ⟨((dials.trans reported).plays.trans opens.plays).trans adopts.plays, ?_⟩, back, ?_⟩
  · rw [back]
    exact Nat.le_refl _
  · rw [opened] at ended
    have phase : b''.now.state.phase = (((c.scene n).dial n).opened setup script).state.phase :=
      congrArg (·.state.phase) opened
    rw [phase] at ended
    exact ended.trans (Scene.opened_hold setup script n ((c.scene n).dial n) other)

/-- The connection is opened and held before it reports. -/
theorem finishes_late (plain : (late setup script below.length).IsPlain)
    (stands : c.now.stack = ⟨call, none, [.dial]⟩ :: below)
    (next : n = c.now.state.generation + 1)
    (other : c.now.state.phase ≠ .connected) (waiting : ∀ a ∈ below, a.awaiting.isSome) :
    ∃ d e f, (late setup script below.length).Finishes c d ∧ d.now.stack = below ∧
      d.take? setup (.call (.opened n)) = some e ∧
      (late setup script below.length).Finishes e f ∧ f.now.stack = below ∧
      f.scene n = (((c.scene n).dial n).hold n).opened setup script := by
  let g := late setup script below.length
  obtain ⟨b, dials, waits, made, begun⟩ := g.goes_of_dial stands (Nat.le_refl _) next
  obtain ⟨d, adopts, back, held⟩ := g.goes_of_adopt (congrArg Machine.stack waits) (Nat.le_refl _)
    (by rfl) (by rw [waits])
  rw [if_neg (by rw [waits]; exact other), begun] at held
  have accepts : d.now.accepts := by
    unfold Machine.accepts Machine.atRest Machine.awaiting?
    rw [back]
    cases below with
    | nil => rfl
    | cons a below => simp [waiting a List.mem_cons_self]
  have takes := @Course.take_of_accepts setup d accepts (.opened n)
  have listens : (d.scene n).state.generation = n := by rw [held]; rfl
  have holds : (d.scene n).state.connection = some n := by rw [held]; rfl
  obtain ⟨f, opens, back', ended⟩ := g.goes_of_opened (n := n) plain
    (c := ⟨⟨d.now, .call (.opened n), []⟩ :: d.past, d.now.state,
      ⟨.opened n, none, [.serve (.opened n)]⟩ :: d.now.stack⟩) rfl
    (by rw [back]; exact Nat.le_refl _) listens
    (fun m same => Option.some.inj (same.symm.trans holds))
  refine ⟨d, _, f, ⟨(dials.trans adopts).plays, ?_⟩, back, takes, ⟨opens.plays, ?_⟩,
    back'.trans back, ?_⟩
  · rw [back]
    exact Nat.le_refl _
  · rw [back', back]
    exact Nat.le_refl _
  · rw [ended, scene_of_call, held]
    rfl

end

end Staging

variable {setup : Setup} {c : Course} {call : Call} {rest : List Task} {below : List Activation}

/-- A call that is about to dial has nothing else to do, and finds a session that is not connected
and holds no connection. -/
theorem alone_of_dial {allowed : Surroundings} (reached : c.Reached setup allowed)
    (sane : Sane allowed) (opens : c.now.stack = ⟨call, none, .dial :: rest⟩ :: below) :
    rest = [] ∧ c.now.state.connection = none ∧ c.now.state.phase ≠ .connected ∧
      ∀ a ∈ below, a.awaiting.isSome := by
  obtain ⟨past, s, stack⟩ := c
  obtain rfl : stack = Cue.activation call rest (.task .dial) :: below := opens
  have planned : Planned (Cue.activation call rest (.task .dial) :: below) :=
    planned_of_reached reached
  refine ⟨cue_precedes (planned.planned _ List.mem_cons_self), ?_, fun connected =>
    (steady_of_connected reached sane connected).1 rfl, planned.waiting⟩
  by_contra holds
  obtain ⟨n, held⟩ := Option.ne_none_iff_exists'.mp holds
  have known : n ∈ past.dialled := (numbered_of_reached reached).held n held
  obtain rfl : n = s.generation := current_of_reached reached sane n held
  exact (alone_of_prospect (prospects_le_one reached sane) rfl).1 known

/-- A connection that reports while it is opened that it is usable, and one that reports so as soon
as opening it has returned: either run ends, and they leave the session in the same state, with the
same payloads queued, the same payloads accepted and the same occurrences told, whatever handlers
and the connection make of what they are told and offered. -/
theorem early_eq_late
    (reached : c.Reached setup fun d turn => Surroundings.Genuine d turn ∧
      Surroundings.Timely d turn)
    (opens : c.now.stack = ⟨call, none, .dial :: rest⟩ :: below) (script : Script)
    (plain : ∀ o : Occurrence, o.kind = .phaseChange ∨ o.kind = .opened → script.IsPlain o) :
    let n := c.now.state.generation + 1
    let early := Staging.early setup script below.length
    let late := Staging.late setup script below.length
    (∃ d, early.Finishes c d ∧ d.now.stack = below) ∧
      (∃ d e f, late.Finishes c d ∧ d.now.stack = below ∧
        d.take? setup (.call (.opened n)) = some e ∧ late.Finishes e f ∧ f.now.stack = below) ∧
      ∀ b d e f, early.Finishes c b → late.Finishes c d →
        d.take? setup (.call (.opened n)) = some e → late.Finishes e f → b.scene n = f.scene n := by
  obtain ⟨rfl, idle, other, waiting⟩ := alone_of_dial reached
    ⟨fun _ _ allowed => allowed.1, fun _ _ allowed => allowed.2⟩ opens
  intro n early late
  obtain ⟨b, first, back, ended⟩ := Staging.finishes_early plain opens rfl idle other
  obtain ⟨d, e, f, opened, waits, calls, second, back', ended'⟩ :=
    Staging.finishes_late plain opens rfl other waiting
  refine ⟨⟨b, first, back⟩, ⟨d, e, f, opened, waits, calls, second, back'⟩, ?_⟩
  intro b' d' e' f' first' opened' calls' second'
  obtain rfl := first.unique first'
  obtain rfl := opened.unique opened'
  obtain rfl := Option.some.inj (calls.symm.trans calls')
  obtain rfl := second.unique second'
  exact ended.trans ended'.symm

/-- A handler that sends what it is told of, and fails when it is told that the session is open. The
connection accepts two payloads. -/
def Script.echo : Script where
  calls told :=
    match told.getLast? with
    | some (_, .phaseChanged _ new) => [.send (.text new.label), .off "state_change" ⟨1, "echo"⟩]
    | some (_, .opened) => [.start, .send (.text "hello")]
    | _ => []
  fault? told :=
    match told.getLast? with
    | some (_, .opened) => some (.raised .value "echo")
    | _ => none
  accepts taken _ := taken.length < 2

/-- The session is told to start, and tells so. -/
def starting : Course := Course.plays .plain {} [.call (.on "state_change" ⟨1, "echo"⟩),
  .call (.on "open" ⟨1, "echo"⟩), .call (.send (.text "first")), .call .start]

/-- The session is about to dial, and a payload waits. -/
def opening : Course :=
  Course.settle .plain 3 ((starting.take? .plain (.reply .returned)).getD starting)

theorem early_eq_late_opening : opening.now.stack = [⟨.start, none, [.dial]⟩] ∧
    ∃ b d e f, (Staging.early .plain .echo 0).Finishes opening b ∧
      (Staging.late .plain .echo 0).Finishes opening d ∧
      d.take? .plain (.call (.opened 2)) = some e ∧
      (Staging.late .plain .echo 0).Finishes e f ∧ b.scene 2 = f.scene 2 ∧
      f.past.taken 2 = [.text "first", .text "open"] ∧
      f.now.state.queue.payloads = [.text "hello"] := by
  have stands : opening.now.stack = [⟨.start, none, [.dial]⟩] := rfl
  have plain (o : Occurrence) (heard : o.kind = .phaseChange ∨ o.kind = .opened) :
      Script.echo.IsPlain o := by
    intro told h call among
    cases o with
    | phaseChanged | opened =>
        simp only [Script.echo, List.getLast?_concat, List.mem_cons, List.not_mem_nil,
          or_false] at among
        rcases among with rfl | rfl <;> rfl
    | _ => simp [Script.echo] at among
  have reached : opening.Reached .plain fun d turn => Surroundings.Genuine d turn ∧
      Surroundings.Timely d turn := by
    have works (d : Course) : Surroundings.Genuine d .work ∧ Surroundings.Timely d .work := by simp
    have started : starting.Reached .plain fun d turn => Surroundings.Genuine d turn ∧
        Surroundings.Timely d turn := by
      apply Course.leads_plays works
      simp [Course.Permits, Call.reporter?, Surroundings.Timely]
    exact (started.tail ⟨.reply .returned, by simp, rfl⟩).trans (Course.leads_settle works 3 _)
  obtain ⟨⟨b, early, -⟩, ⟨d, e, f, late, -, calls, late', -⟩, alike⟩ :=
    early_eq_late reached stands .echo plain
  have same : b.scene 2 = f.scene 2 := alike b d e f early late calls late'
  obtain ⟨b', early', -, ended⟩ := @Staging.finishes_early .plain .echo 2 _ _ _ plain stands
    rfl rfl (by decide)
  obtain rfl := early.unique early'
  refine ⟨stands, b, d, e, f, early, late, calls, late', same, ?_, ?_⟩
  · exact (congrArg Scene.taken (same.symm.trans ended)).trans rfl
  · exact (congrArg Scene.queued (same.symm.trans ended)).trans rfl

end EventStream.Session
