import EventStream.Proofs.Transport.Payloads

/-
# Which connections report their end

The task that reads reports how it ends when it has read to the end, and when it fails in a way that
transports are known to fail. Any other failure ends it silently: the connection is not closed, and
its subscriber never learns that nothing more will come. This is the only exception. If the owner
has not closed the connection, nobody else has cancelled the task and no hearing of a report has
failed, then a task that has finished has made exactly one last report, unless it was lost in this
way, when it has made none.

A connection that is not closed is calm: its reader is not to be cancelled, and no task stands where
it may only stand after the last report. The invariant is `Accounted`, and `Proceeds` says what one
turn has to do for it.
-/

namespace EventStream.Transport

section

variable {σ : Type} [Connection σ] [Orderly σ] {url : Text} {Calm : σ → Prop} {isDone : σ → Bool}

/-- What a turn does to a connection that is not closed, and whether the task that reads is lost in
it. -/
inductive Proceeds (Calm : σ → Prop) (isDone : σ → Bool) (s s' : σ) : Bool → Prop where
  /-- The last report is made. -/
  | ends (runs : isDone s = false) (closes : Connection.isClosed s' = true) :
      Proceeds Calm isDone s s' false
  | goesOn (listens : Connection.isClosed s' = false) (calm : Calm s')
      (same : isDone s' = isDone s) : Proceeds Calm isDone s s' false
  | loses (runs : isDone s = false) (listens : Connection.isClosed s' = false) (calm : Calm s')
      (done : isDone s' = true) : Proceeds Calm isDone s s' true

/-- The end of the task that reads is accounted for. -/
structure Accounted (Calm : σ → Prop) (isDone : σ → Bool) (past : Chronicle σ) (s : σ) : Prop where
  calm : Connection.isClosed s = false → Calm s
  done : isDone s = true → Connection.isClosed s = true ∨ past.Lost
  lost : past.Lost → Connection.isClosed s = false ∧ isDone s = true

variable {past : Chronicle σ} {s s' : σ} {turn : Turn σ} {effects : List Effect}

theorem Accounted.step (accounted : Accounted Calm isDone past s)
    (taken : turn.take? url s = some (s', effects))
    (proceeds : Connection.isClosed s = false → Calm s →
      Proceeds Calm isDone s s' (Entry.loses ⟨s, turn, effects⟩)) :
    Accounted Calm isDone (⟨s, turn, effects⟩ :: past) s' := by
  cases closed : Connection.isClosed s with
  | true =>
      have found : ¬ past.Lost := fun lost => by simp [(accounted.lost lost).1] at closed
      have stays := (Orderly.speaks taken).stays_closed closed
      refine ⟨by simp [stays], fun _ => .inl stays, fun lost => absurd lost ?_⟩
      simpa [Entry.loses_of_closed closed] using found
  | false =>
      have done (done : isDone s = true) : past.Lost :=
        (accounted.done done).resolve_left (by simp [closed])
      specialize proceeds closed (accounted.calm closed)
      generalize told : Entry.loses ⟨s, turn, effects⟩ = loses at proceeds
      have lost_iff : Chronicle.Lost (⟨s, turn, effects⟩ :: past) ↔ loses = true ∨ past.Lost := by
        simp [told]
      cases proceeds with
      | ends runs closes =>
          have found : ¬ past.Lost := fun lost => by simp [(accounted.lost lost).2] at runs
          exact ⟨by simp [closes], fun _ => .inl closes, by simp [lost_iff, found]⟩
      | goesOn listens calm same =>
          refine ⟨fun _ => calm, fun ended => .inr ?_, fun lost => ⟨listens, ?_⟩⟩
          · exact lost_iff.mpr (.inr (done (same ▸ ended)))
          · have before : past.Lost := by simpa using lost_iff.mp lost
            exact same.trans (accounted.lost before).2
      | loses runs listens calm done =>
          exact ⟨fun _ => calm, fun _ => .inr (lost_iff.mpr (.inl rfl)), fun _ => ⟨listens, done⟩⟩

/-- A task that is done has made one last report, unless it was lost. -/
theorem Accounted.lastReports_length (accounted : Accounted Calm isDone past s)
    (ordered : Ordered past s) (unclosed : past.Unclosed) (done : isDone s = true) :
    past.lastReports.length = if past.Lost then 0 else 1 := by
  by_cases lost : past.Lost
  · have unended : past.lastReports = [] := (ordered.fits (accounted.lost lost).1).unended
    simp [unended, lost]
  · rw [if_neg lost]
    exact ordered.ended unclosed ((accounted.done done).resolve_right lost)

end

/-! ## WebSocket connections -/

/-- Whether the reader stands where it may only stand on a closed connection. -/
def WebSocketReader.isAstray : WebSocketReader → Bool
  | .leaving .silent | .leaving .cancelled | .reporting => true
  | _ => false

namespace WebSocket

variable {url : Text} {w w' : WebSocket} {m : Move} {rs : List Report} {effects : List Effect}

/-- Nothing ends the reader but what it reads. -/
structure Calm (w : WebSocket) : Prop where
  kept : w.cancelReader = false
  reader : w.reader.isAstray = false
  writer : w.writer ≠ .reporting

theorem astray_exitAfter (e : Failure) :
    (WebSocketReader.leaving (exitAfter e)).isAstray = false := by
  unfold exitAfter
  split <;> rfl

theorem loses_of_listens (listens : w.closed = false) :
    Entry.loses ⟨w, .move m, effects⟩ = (w.ending? m).any fun e => !e.known := by
  simp [Entry.loses, Connection.ending?, listens, Connection.isClosed, Connection.isReported]

theorem past_of_finished (finished : w.isFinished = true) : w.reader.isPast = true := by
  unfold isFinished at finished
  split at finished
  case h_1 stands => rw [stands]; rfl
  case h_2 => contradiction

theorem unfinished_of_leaving {exit : WebSocketExit} (leaves : w.reader = .leaving exit) :
    w.isFinished = false := by
  simp [isFinished, leaves]

theorem unfinished_of_ending {e : Failure} (fails : w.ending? m = some e) :
    w.isFinished = false := by
  rcases reader_of_ending fails with connects | ⟨exit, leaves⟩
  · simp [isFinished, connects]
  · exact unfinished_of_leaving leaves

theorem Reads.proceeds (reads : Reads url w m w' rs) (steady : m.raises = false)
    (listens : w.closed = false) (calm : w.Calm) :
    Proceeds Calm isFinished w w' (Entry.loses ⟨w, .move m, effects⟩) := by
  rw [loses_of_listens listens]
  obtain ⟨kept, reader, writer⟩ := calm
  cases reads with
  | begin fresh => exact .goesOn listens ⟨kept, rfl, writer⟩ (by simp [isFinished, fresh])
  | abandon connects closed => simp [listens] at closed
  | connect connects =>
      exact .goesOn listens ⟨kept, rfl, writer⟩ (by simp [isFinished, connects])
  | opened opens => exact .goesOn listens ⟨kept, rfl, nofun⟩ (by simp [isFinished, opens])
  | openingFailed e opens => contradiction
  | frame frame reads => exact .goesOn listens ⟨kept, rfl, writer⟩ (by simp [isFinished, reads])
  | heard hears => exact .goesOn listens ⟨kept, rfl, writer⟩ (by simp [isFinished, hears])
  | leave exits =>
      cases exits with
      | frame _ _ closed => simp [listens] at closed
      | ended code reads => exact .goesOn listens ⟨kept, rfl, writer⟩ (by simp [isFinished, reads])
      | broken e reads =>
          exact .goesOn listens ⟨kept, astray_exitAfter e, writer⟩ (by simp [isFinished, reads])
      | raised => contradiction
  | leaveCancelled _ pending => simp [kept] at pending
  | conclude leaves =>
      have unfailing : w.ending? (.left none) = none := by simp [ending?, leaves]
      rw [unfailing]
      exact .ends (unfinished_of_leaving leaves) rfl
  | fail e fails known =>
      simp only [fails, known, Option.any_some, Bool.not_true]
      exact .ends (unfinished_of_ending fails) rfl
  | finish finishes =>
      cases finishes with
      | heard _ reports => simp [reports, WebSocketReader.isAstray] at reader
      | ended _ closed => simp [listens] at closed
      | silent leaves | cancelled leaves => simp [leaves, WebSocketReader.isAstray] at reader
      | failed e fails unheard =>
          have unknown : e.known = false := unheard.resolve_left (by simp [listens])
          simp only [fails, unknown, Option.any_some, Bool.not_false]
          exact .loses (unfinished_of_ending fails) listens ⟨kept, rfl, writer⟩ rfl
  | finishCancelled _ pending => simp [kept] at pending

theorem Writes.proceeds (writes : Writes url w m w' rs) (paired : w.Paired)
    (listens : w.closed = false) (calm : w.Calm) :
    Proceeds Calm isFinished w w' (Entry.loses ⟨w, .move m, effects⟩) := by
  rw [loses_of_listens listens]
  obtain ⟨kept, reader, writer⟩ := calm
  cases writes with
  | reject e writes goes =>
      -- A reader that has finished has left a muted writer, which refuses nothing.
      have runs : w.isFinished = false := Bool.eq_false_iff.mpr fun finished => by
        rcases paired.muted (past_of_finished finished) with pending | inactive | ⟨absent, -⟩
        · simp [goes] at pending
        · simp [writes] at inactive
        · simp [writes] at absent
      exact .ends runs rfl
  | rejectClosed _ _ _ closed => simp [listens] at closed
  | heard _ reports => exact absurd reports writer
  | begin | taken | written | unwritable | cancelled =>
      exact .goesOn listens ⟨kept, reader, nofun⟩ rfl

/-- A turn that neither closes the connection nor disturbs the reader. -/
theorem proceeds {turn : Turn WebSocket} (taken : turn.take? url w = some (w', effects))
    (paired : w.Paired) (other : turn ≠ .close) (steady : turn.disturbs = false)
    (listens : w.closed = false) (calm : w.Calm) :
    Proceeds Calm isFinished w w' (Entry.loses ⟨w, turn, effects⟩) := by
  cases turn with
  | move m =>
      cases moves_of_move taken with
      | reads reads => exact reads.proceeds steady listens calm
      | writes writes => exact writes.proceeds paired listens calm
  | send payload =>
      cases taken
      simp only [Connection.send, send]
      split <;> exact .goesOn listens ⟨calm.kept, calm.reader, calm.writer⟩ rfl
  | unsent =>
      cases taken
      exact .goesOn listens ⟨calm.kept, calm.reader, calm.writer⟩ rfl
  | close => exact absurd rfl other
  | interrupt => contradiction

theorem accounted_of_reached {c : Course WebSocket} (reached : c.Reached url {}) :
    c.past.Unclosed → c.past.Undisturbed → Accounted Calm isFinished c.past c.now := by
  refine reached.induction (P := fun past w => past.Unclosed → past.Undisturbed →
    Accounted Calm isFinished past w) ?start ?step
  case start =>
    exact fun _ _ => ⟨fun _ => ⟨rfl, rfl, nofun⟩, nofun, fun ⟨_, among, _⟩ => nomatch among⟩
  case step =>
    intro past w turn w' effects before ih taken unclosed undisturbed
    rw [Chronicle.unclosed_cons] at unclosed
    rw [Chronicle.undisturbed_cons] at undisturbed
    exact (ih unclosed.2 undisturbed.2).step taken
      (proceeds taken (paired_of_reached before) unclosed.1 undisturbed.1)

end WebSocket

/-! ## Streamed HTTP responses -/

/-- Whether the task stands where it may only stand on a closed connection. -/
def HttpReader.isAstray : HttpReader → Bool
  | .leaving .silent | .leaving .cancelled | .reporting => true
  | _ => false

/-- Whether the task is over, but perhaps for its own client. -/
def HttpReader.isOver : HttpReader → Bool
  | .disposing | .finished => true
  | _ => false

namespace HttpStream

variable {url : Text} {h h' : HttpStream} {m : Move} {rs : List Report} {effects : List Effect}

/-- Nothing ends the task but what it reads. -/
structure Calm (h : HttpStream) : Prop where
  kept : h.cancelReader = false
  reader : h.reader.isAstray = false

/-- Whether the task is over, but perhaps for its own client. -/
def isOver (h : HttpStream) : Bool := h.reader.isOver

theorem over_afterwards (h : HttpStream) : h.afterwards.isOver = true := by
  unfold afterwards
  split <;> rfl

theorem astray_afterwards (h : HttpStream) : h.afterwards.isAstray = false := by
  unfold afterwards
  split <;> rfl

theorem loses_of_listens (listens : h.closed = false) : Entry.loses ⟨h, .move m, effects⟩ =
    (h.ending? m).any fun e => !Connection.isReported HttpStream e := by
  simp [Entry.loses, Connection.ending?, listens, Connection.isClosed]

/-- A task that ends with a failure was requesting or leaving. -/
theorem running_of_ending {e : Failure} (fails : h.ending? m = some e) : h.isOver = false := by
  unfold ending? at fails
  split at fails
  case h_1 waits => simp [isOver, waits, HttpReader.isOver]
  case h_2 leaves => simp [isOver, leaves, HttpReader.isOver]
  case h_3 leaves => simp [isOver, leaves, HttpReader.isOver]
  case h_4 => contradiction

theorem Delivers.proceeds {before : HttpStream} {payloads : List Text}
    (delivers : Delivers h payloads h' rs) (listens : h.closed = false)
    (kept : h.cancelReader = false) (runs : before.isOver = false) :
    Proceeds Calm isOver before h' false := by
  cases delivers with
  | done => exact .goesOn listens ⟨kept, rfl⟩ runs.symm
  | late _ _ closed => simp [listens] at closed
  | payload => exact .goesOn listens ⟨kept, rfl⟩ runs.symm

theorem Moves.proceeds (moves : Moves url h m h' rs) (steady : m.raises = false)
    (listens : h.closed = false) (calm : h.Calm) :
    Proceeds Calm isOver h h' (Entry.loses ⟨h, .move m, effects⟩) := by
  rw [loses_of_listens listens]
  obtain ⟨kept, reader⟩ := calm
  have runs {reader : HttpReader} (stands : h.reader = reader) (running : reader.isOver = false) :
      h.isOver = false := by rw [isOver, stands, running]
  cases moves with
  | begin fresh => exact .goesOn listens ⟨kept, rfl⟩ (runs fresh rfl).symm
  | refusing waits => exact .goesOn listens ⟨kept, rfl⟩ (runs waits rfl).symm
  | answered waits => exact .goesOn listens ⟨kept, rfl⟩ (runs waits rfl).symm
  | opened opens => exact .goesOn listens ⟨kept, rfl⟩ (runs opens rfl).symm
  | piece text reads delivers => exact delivers.proceeds listens kept (runs reads rfl)
  | heard hears delivers => exact delivers.proceeds listens kept (runs hears rfl)
  | leave exits =>
      cases exits with
      | answered _ _ closed => simp [listens] at closed
      | refused body refuses => exact .goesOn listens ⟨kept, rfl⟩ (runs refuses rfl).symm
      | ended reads => exact .goesOn listens ⟨kept, rfl⟩ (runs reads rfl).symm
      | refusalBroken e refuses => exact .goesOn listens ⟨kept, rfl⟩ (runs refuses rfl).symm
      | broken e reads => exact .goesOn listens ⟨kept, rfl⟩ (runs reads rfl).symm
      | openingRaised | raised => contradiction
  | leaveCancelled _ pending | finishCancelled _ pending | endCancelled _ pending =>
      simp [kept] at pending
  | conclude leaves =>
      have unfailing : h.ending? (.left none) = none := by simp [ending?, leaves]
      rw [unfailing]
      exact .ends (runs leaves rfl) rfl
  | refuse leaves =>
      have unfailing : h.ending? (.left none) = none := by simp [ending?, leaves]
      rw [unfailing]
      exact .ends (runs leaves rfl) rfl
  | fail e fails known =>
      simp only [fails, known, Option.any_some, Bool.not_true]
      exact .ends (running_of_ending fails) rfl
  | finish finishes =>
      cases finishes with
      | heard _ reports => simp [reports, HttpReader.isAstray] at reader
      | ended _ closed | refused _ closed => simp [listens] at closed
      | silent leaves | cancelled leaves => simp [leaves, HttpReader.isAstray] at reader
      | failed e fails unheard =>
          have unknown : Connection.isReported HttpStream e = false :=
            unheard.resolve_left (by simp [listens])
          simp only [fails, unknown, Option.any_some, Bool.not_false]
          exact .loses (running_of_ending fails) listens ⟨kept, astray_afterwards h⟩
            (over_afterwards h)
  | disposed disposes =>
      have done : h.isOver = true := by rw [isOver, disposes]; rfl
      exact .goesOn listens ⟨kept, rfl⟩ done.symm

/-- A turn that neither closes the connection nor disturbs its task. -/
theorem proceeds {turn : Turn HttpStream} (taken : turn.take? url h = some (h', effects))
    (other : turn ≠ .close) (steady : turn.disturbs = false) (listens : h.closed = false)
    (calm : h.Calm) : Proceeds Calm isOver h h' (Entry.loses ⟨h, turn, effects⟩) := by
  cases turn with
  | move m => exact (moves_of_move taken).proceeds steady listens calm
  | send | unsent =>
      cases taken
      exact .goesOn listens calm rfl
  | close => exact absurd rfl other
  | interrupt => contradiction

theorem accounted_of_reached {ownsClient : Bool} {c : Course HttpStream}
    (reached : c.Reached url { ownsClient }) :
    c.past.Unclosed → c.past.Undisturbed → Accounted Calm isOver c.past c.now := by
  refine reached.induction (P := fun past h => past.Unclosed → past.Undisturbed →
    Accounted Calm isOver past h) ?start ?step
  case start =>
    exact fun _ _ => ⟨fun _ => ⟨rfl, rfl⟩, nofun, fun ⟨_, among, _⟩ => nomatch among⟩
  case step =>
    intro past h turn h' effects _ ih taken unclosed undisturbed
    rw [Chronicle.unclosed_cons] at unclosed
    rw [Chronicle.undisturbed_cons] at undisturbed
    exact (ih unclosed.2 undisturbed.2).step taken (proceeds taken unclosed.1 undisturbed.1)

theorem over_of_finished (finished : h.isFinished = true) : h.isOver = true := by
  unfold isFinished at finished
  split at finished
  case h_1 stands => rw [isOver, stands]; rfl
  case h_2 => contradiction

end HttpStream

/-! ## The end of a course -/

/-- A connection that is left to itself reports its end. When the task that reads has finished, the
owner has not closed the connection, nobody else has cancelled the task and no hearing of a report
has failed, then one last report was made, unless the task has ended with a failure that is not
reported; then none was made. What is reported as failed is a fault of the transport. -/
theorem lastReports_length_of_finished (url : Text) :
    (∀ c : Course WebSocket, c.Reached url {} → c.now.isFinished = true →
      c.past.Unclosed → c.past.Undisturbed →
        c.past.lastReports.length = (if c.past.Lost then 0 else 1) ∧
          ∀ f, .failed f ∈ c.past.reports → f.transport?.isSome) ∧
      ∀ (ownsClient : Bool) (c : Course HttpStream), c.Reached url { ownsClient } →
        c.now.isFinished = true → c.past.Unclosed → c.past.Undisturbed →
          c.past.lastReports.length = (if c.past.Lost then 0 else 1) ∧
            ∀ f, .failed f ∈ c.past.reports → f.transport?.isSome := by
  constructor
  · intro c reached finished unclosed undisturbed
    have ordered := ordered_of_reached rfl rfl reached
    have accounted := WebSocket.accounted_of_reached reached unclosed undisturbed
    exact ⟨accounted.lastReports_length ordered unclosed finished, ordered.transport⟩
  · intro ownsClient c reached finished unclosed undisturbed
    have ordered := ordered_of_reached rfl rfl reached
    have accounted := HttpStream.accounted_of_reached reached unclosed undisturbed
    exact ⟨accounted.lastReports_length ordered unclosed (HttpStream.over_of_finished finished),
      ordered.transport⟩

/-- A handshake that fails in a way that transports are not known to fail. -/
def mishandled : Course WebSocket := Course.plays "ws://localhost/odd" { now := {} }
  [.move .begin, .move (.refused { fault := .raised .value "odd", known := false })]

/-- A body that cannot be read as text. -/
def unreadable : Course HttpStream := Course.plays "http://localhost/odd"
  { now := { ownsClient := false } }
  [.move .begin, .move (.answered 200), .move (.heard none),
    .move (.broken { fault := .raised .value "odd", known := false }), .move (.left none)]

theorem lastReports_mishandled_unreadable :
    (mishandled.now.isFinished = true ∧ mishandled.past.Lost ∧
      mishandled.past.lastReports.length = 0) ∧
    unreadable.now.isFinished = true ∧ unreadable.past.reports = [.opened] ∧
      unreadable.past.Lost ∧ unreadable.past.lastReports.length = 0 := by
  have ends := lastReports_length_of_finished
  have refused := (ends _).1 mishandled (Course.leads_plays _ _) rfl (by decide) (by decide)
  have broken := (ends _).2 false unreadable (Course.leads_plays _ _) rfl (by decide) (by decide)
  exact ⟨⟨rfl, by decide, refused.1⟩, rfl, rfl, by decide, broken.1⟩

end EventStream.Transport
