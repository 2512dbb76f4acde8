import EventStream.Proofs.Transport.Course

/-
# How connections move

What one move can do to a connection is said once, here: where it finds the task that moves, what
it changes, and what it reports. Everything that is proved of courses goes by the cases of these
relations.
-/

namespace EventStream.Transport

variable {url : Text}

namespace WebSocket

/-- A move in which the reader turns to leaving an open connection. -/
inductive Exits (w : WebSocket) : Move → WebSocketExit → Prop where
  | frame (frame : Value) (reads : w.reader = .reading) (closed : w.closed = true) :
      Exits w (.frame frame) .silent
  | ended (code : Value) (reads : w.reader = .reading) : Exits w (.ended code) (.ended code)
  | broken (e : Failure) (reads : w.reader = .reading) : Exits w (.broken e) (exitAfter e)
  | raised (e : Failure) (hears : w.reader = .hearing) : Exits w (.heard (some e)) (exitAfter e)

/-- A move in which the reader finishes and reports nothing. -/
inductive Finishes (w : WebSocket) : Move → Prop where
  | heard (failure : Option Failure) (reports : w.reader = .reporting) : Finishes w (.heard failure)
  | ended {code : Value} (leaves : w.reader = .leaving (.ended code)) (closed : w.closed = true) :
      Finishes w (.left none)
  | silent (leaves : w.reader = .leaving .silent) : Finishes w (.left none)
  | cancelled (leaves : w.reader = .leaving .cancelled) : Finishes w (.left none)
  | failed {m : Move} (e : Failure) (fails : w.ending? m = some e)
      (unheard : w.closed = true ∨ e.known = false) : Finishes w m

/-- What a move of the reader does: the connection that it leaves, and what it reports. -/
inductive Reads (url : Text) (w : WebSocket) : Move → WebSocket → List Report → Prop where
  | begin (fresh : w.reader = .fresh) : Reads url w .begin { w with reader := .connecting } []
  /-- The handshake was completed too late. -/
  | abandon (connects : w.reader = .connecting) (closed : w.closed = true) :
      Reads url w .accepted { w with reader := .leaving .silent } []
  | connect (connects : w.reader = .connecting) (listens : w.closed = false) :
      Reads url w .accepted { w with attached := true, reader := .opening } [.opened]
  | opened (opens : w.reader = .opening) :
      Reads url w (.heard none) { w with reader := .reading, writer := .fresh } []
  /-- Hearing of the opening has failed. -/
  | openingFailed (e : Failure) (opens : w.reader = .opening) :
      Reads url w (.heard (some e)) { w with reader := .leaving (.broken e) } []
  | frame (frame : Value) (reads : w.reader = .reading) (listens : w.closed = false) :
      Reads url w (.frame frame) { w with reader := .hearing } [.received frame]
  | heard (hears : w.reader = .hearing) : Reads url w (.heard none) { w with reader := .reading } []
  | leave {m : Move} {exit : WebSocketExit} (exits : Exits w m exit) :
      Reads url w m (w.leave exit).1 []
  /-- The reader is cancelled while it reads. -/
  | leaveCancelled (reads : w.reader = .reading) (pending : w.cancelReader = true) :
      Reads url w .cancelled (leave { w with cancelReader := false } .cancelled).1 []
  | conclude {code : Value} (leaves : w.reader = .leaving (.ended code))
      (listens : w.closed = false) :
      Reads url w (.left none) { w with closed := true, reader := .reporting } [.closed code]
  | fail {m : Move} (e : Failure) (fails : w.ending? m = some e) (known : e.known = true)
      (listens : w.closed = false) :
      Reads url w m { w with closed := true, reader := .reporting }
        [.failed (faultOf url ["WebSocket connection failed: ", e.fault.shown] e.status)]
  | finish {m : Move} (finishes : Finishes w m) : Reads url w m { w with reader := .finished } []
  /-- The reader is cancelled while it waits for anything but a frame. -/
  | finishCancelled
      (waits : w.reader = .fresh ∨ w.reader = .connecting ∨ ∃ exit, w.reader = .leaving exit)
      (pending : w.cancelReader = true) :
      Reads url w .cancelled { w with reader := .finished, cancelReader := false } []

/-- What a move of the writer does. -/
inductive Writes (url : Text) (w : WebSocket) : Move → WebSocket → List Report → Prop where
  | begin (fresh : w.writer = .fresh) (goes : w.cancelWriter = false) :
      Writes url w .writerBegun { w with writer := .waiting } []
  | taken {payload : Value} {rest : List Value} (waits : w.writer = .waiting)
      (holds : w.outbox = payload :: rest) (goes : w.cancelWriter = false) :
      Writes url w .taken
        { w with outbox := rest, inFlight := noted payload, writer := .writing payload } []
  | written {payload : Value} (writes : w.writer = .writing payload)
      (goes : w.cancelWriter = false) :
      Writes url w .written { w with inFlight := none, writer := .waiting } []
  | unwritable {payload : Value} (writes : w.writer = .writing payload)
      (goes : w.cancelWriter = false) : Writes url w .unwritable { w with writer := .finished } []
  | reject {payload : Value} (e : Failure) (writes : w.writer = .writing payload)
      (goes : w.cancelWriter = false) (listens : w.closed = false) :
      Writes url w (.rejected e)
        { w with closed := true, inFlight := none, writer := .reporting }
        [.failed (faultOf url
          ["WebSocket send failed: ", e.fault.label, ": ", e.fault.shown] .null)]
  /-- A refusal is not reported when the connection is closed. -/
  | rejectClosed {payload : Value} (e : Failure) (writes : w.writer = .writing payload)
      (goes : w.cancelWriter = false) (closed : w.closed = true) :
      Writes url w (.rejected e)
        { w with inFlight := none, writer := .finished, cancelReader := true } []
  /-- A refusal has been heard, and the reader is to be cancelled if that did not fail. -/
  | heard (failure : Option Failure) (reports : w.writer = .reporting) :
      Writes url w (.heard failure)
        { w with writer := .finished, cancelReader := w.cancelReader || failure.isNone } []
  /-- A payload that was being written can still be taken back. -/
  | cancelled (waits : w.writer = .fresh ∨ w.writer = .waiting ∨ ∃ p, w.writer = .writing p)
      (pending : w.cancelWriter = true) :
      Writes url w .writerCancelled { w with writer := .finished, cancelWriter := false } []

/-- A move is one of the reader or of the writer. -/
inductive Moves (url : Text) (w : WebSocket) : Move → WebSocket → List Report → Prop where
  | reads {m : Move} {w' : WebSocket} {rs : List Report} (reads : Reads url w m w' rs) :
      Moves url w m w' rs
  | writes {m : Move} {w' : WebSocket} {rs : List Report} (writes : Writes url w m w' rs) :
      Moves url w m w' rs

@[simp] theorem leave_reader (w : WebSocket) (exit : WebSocketExit) :
    (w.leave exit).1.reader = .leaving exit := rfl

/-! What the owner does leaves the tasks where they stand. -/

section

variable (w : WebSocket) (payload : Value)

@[simp] theorem closed_send : (w.send payload).1.closed = w.closed := by
  unfold send
  split <;> rfl

@[simp] theorem reader_send : (w.send payload).1.reader = w.reader := by
  unfold send
  split <;> rfl

@[simp] theorem closed_close : w.close.closed = true := by
  unfold close
  split
  case isTrue closed => exact closed
  case isFalse => rfl

end

variable {w w' : WebSocket} {m : Move} {effects : List Effect}

theorem moves_of_eq {step : Step} (moved : some step = some (w', effects))
    (moves : Moves url w m step.1 (reports step.2)) : Moves url w m w' (reports effects) := by
  obtain rfl := Option.some.inj moved
  exact moves

theorem reads_readerFails {e : Failure} (fails : w.ending? m = some e) :
    Reads url w m (readerFails url w e).1 (reports (readerFails url w e).2) := by
  unfold readerFails fail
  by_cases known : e.known = true
  · rw [if_pos known]
    by_cases closed : w.closed = true
    · rw [if_pos closed]
      exact .finish (.failed e fails (.inl closed))
    · rw [if_neg closed]
      exact .fail e fails known (Bool.eq_false_iff.mpr closed)
  · rw [if_neg known]
    exact .finish (.failed e fails (.inr (Bool.eq_false_iff.mpr known)))

theorem reads_conclude {exit : WebSocketExit} (leaves : w.reader = .leaving exit) :
    Reads url w (.left none) (conclude url w exit).1 (reports (conclude url w exit).2) := by
  cases exit with
  | ended code =>
      simp only [conclude]
      by_cases closed : w.closed = true
      · rw [if_pos closed]
        exact .finish (.ended leaves closed)
      · rw [if_neg closed]
        exact .conclude leaves (Bool.eq_false_iff.mpr closed)
  | silent => exact .finish (.silent leaves)
  | cancelled => exact .finish (.cancelled leaves)
  | broken e => exact reads_readerFails (by simp [ending?, leaves])

theorem writes_reject {payload : Value} (e : Failure) (writes : w.writer = .writing payload)
    (goes : w.cancelWriter = false) :
    Writes url w (.rejected e) (reject url w e).1 (reports (reject url w e).2) := by
  unfold reject fail
  by_cases closed : w.closed = true
  · simp only [closed, if_true]
    simpa [closed] using Writes.rejectClosed e writes goes closed
  · simp only [closed]
    exact .reject e writes goes (Bool.eq_false_iff.mpr closed)

theorem moves_of_write (goes : w.cancelWriter = false)
    (moved : w.write? url m = some (w', effects)) : Moves url w m w' (reports effects) := by
  unfold write? at moved
  split at moved
  case h_1 fresh =>
    cases moved
    exact .writes (.begin fresh goes)
  case h_2 waits =>
    split at moved
    case h_1 => contradiction
    case h_2 payload rest holds =>
      cases moved
      exact .writes (.taken waits holds goes)
  case h_3 payload writes =>
    cases moved
    exact .writes (.written writes goes)
  case h_4 payload writes =>
    cases moved
    exact .writes (.unwritable writes goes)
  case h_5 e payload writes =>
    exact moves_of_eq moved (.writes (writes_reject e writes goes))
  case h_6 => contradiction

theorem moves_of_heard {failure : Option Failure} (moved : w.heard failure = some (w', effects)) :
    Moves url w (.heard failure) w' (reports effects) := by
  unfold heard at moved
  split at moved
  case h_1 _ _ _ opens =>
    cases moved
    exact .reads (.opened opens)
  case h_2 _ _ _ e opens =>
    cases moved
    exact .reads (.openingFailed e opens)
  case h_3 _ _ _ hears =>
    cases moved
    exact .reads (.heard hears)
  case h_4 _ _ _ e hears =>
    cases moved
    exact .reads (.leave (.raised e hears))
  case h_5 _ _ _ reports =>
    cases moved
    exact .reads (.finish (.heard _ reports))
  case h_6 _ _ _ reports _ _ _ =>
    cases moved
    simpa using Moves.writes (.heard none reports)
  case h_7 _ _ _ e reports _ _ _ =>
    cases moved
    simpa using Moves.writes (.heard (some e) reports)
  case h_8 => contradiction

theorem moves_of_cancel (pending : w.cancelReader = true)
    (moved : cancel url { w with cancelReader := false } = some (w', effects)) :
    Moves url w .cancelled w' (reports effects) := by
  unfold cancel at moved
  split at moved
  case h_1 fresh =>
    cases moved
    exact .reads (.finishCancelled (.inl fresh) pending)
  case h_2 connects =>
    cases moved
    exact .reads (.finishCancelled (.inr (.inl connects)) pending)
  case h_3 exit leaves =>
    cases moved
    exact .reads (.finishCancelled (.inr (.inr ⟨exit, leaves⟩)) pending)
  case h_4 reads =>
    cases moved
    exact .reads (.leaveCancelled reads pending)
  case h_5 => contradiction

theorem moves_of_advance (moved : w.advance? url m = some (w', effects)) :
    Moves url w m w' (reports effects) := by
  unfold advance? at moved
  split at moved
  case h_1 fresh =>
    cases moved
    exact .reads (.begin fresh)
  case h_2 connects =>
    split at moved
    case isTrue closed =>
      cases moved
      exact .reads (.abandon connects closed)
    case isFalse listens =>
      cases moved
      exact .reads (.connect connects (Bool.eq_false_iff.mpr listens))
  case h_3 e connects =>
    exact moves_of_eq moved (.reads (reads_readerFails (by simp [ending?, connects])))
  case h_4 frame reads =>
    split at moved
    case isTrue closed =>
      cases moved
      exact .reads (.leave (.frame frame reads closed))
    case isFalse listens =>
      cases moved
      exact .reads (.frame frame reads (Bool.eq_false_iff.mpr listens))
  case h_5 code reads =>
    cases moved
    exact .reads (.leave (.ended code reads))
  case h_6 e reads =>
    cases moved
    exact .reads (.leave (.broken e reads))
  case h_7 exit leaves =>
    exact moves_of_eq moved (.reads (reads_conclude leaves))
  case h_8 e exit leaves =>
    exact moves_of_eq moved (.reads (reads_readerFails (by simp [ending?, leaves])))
  case h_9 =>
    split at moved
    case isTrue pending => exact moves_of_cancel pending moved
    case isFalse => contradiction
  case h_10 =>
    split at moved
    case isTrue pending =>
      unfold cancelWriting at moved
      split at moved
      case h_1 fresh =>
        cases moved
        exact .writes (.cancelled (.inl fresh) pending)
      case h_2 waits =>
        cases moved
        exact .writes (.cancelled (.inr (.inl waits)) pending)
      case h_3 payload writes =>
        cases moved
        exact .writes (.cancelled (.inr (.inr ⟨payload, writes⟩)) pending)
      case h_4 => contradiction
    case isFalse => contradiction
  case h_11 =>
    split at moved
    case isTrue => contradiction
    case isFalse goes => exact moves_of_write (Bool.eq_false_iff.mpr goes) moved

/-- A move does what `Moves` says. -/
theorem moves_of_move (moved : w.move? url m = some (w', effects)) :
    Moves url w m w' (reports effects) := by
  unfold move? at moved
  split at moved
  case h_1 => exact moves_of_heard moved
  case h_2 =>
    split at moved
    case isTrue => contradiction
    case isFalse => exact moves_of_advance moved

end WebSocket

namespace HttpStream

/-- A move in which the task turns to leaving the response. -/
inductive Exits (h : HttpStream) : Move → HttpExit → Prop where
  | answered {status : Nat} (waits : h.reader = .requesting) (success : isSuccess status = true)
      (closed : h.closed = true) : Exits h (.answered status) .silent
  | refused {status : Nat} (body : Text) (refuses : h.reader = .refusing status) :
      Exits h (.refused body) (.refused status body)
  | ended (reads : h.reader = .reading) : Exits h .ended .ended
  | refusalBroken {status : Nat} (e : Failure) (refuses : h.reader = .refusing status) :
      Exits h (.broken e) (.broken e)
  | broken (e : Failure) (reads : h.reader = .reading) : Exits h (.broken e) (.broken e)
  | openingRaised (e : Failure) (opens : h.reader = .opening) :
      Exits h (.heard (some e)) (.broken e)
  | raised {next : List Text} (e : Failure) (hears : h.reader = .hearing next) :
      Exits h (.heard (some e)) (.broken e)

/-- What becomes of the payloads of a piece. -/
inductive Delivers (h : HttpStream) : List Text → HttpStream → List Report → Prop where
  | done : Delivers h [] { h with reader := .reading } []
  | late (payload : Text) (next : List Text) (closed : h.closed = true) :
      Delivers h (payload :: next) { h with reader := .leaving .silent } []
  | payload (payload : Text) (next : List Text) (listens : h.closed = false) :
      Delivers h (payload :: next) { h with reader := .hearing next } [.received (.text payload)]

/-- A move in which the task is over, but for its own client, and reports nothing. -/
inductive Finishes (h : HttpStream) : Move → Prop where
  | heard (failure : Option Failure) (reports : h.reader = .reporting) : Finishes h (.heard failure)
  | ended (leaves : h.reader = .leaving .ended) (closed : h.closed = true) : Finishes h (.left none)
  | silent (leaves : h.reader = .leaving .silent) : Finishes h (.left none)
  | cancelled (leaves : h.reader = .leaving .cancelled) : Finishes h (.left none)
  | refused {status : Nat} {body : Text} (leaves : h.reader = .leaving (.refused status body))
      (closed : h.closed = true) : Finishes h (.left none)
  | failed {m : Move} (e : Failure) (fails : h.ending? m = some e)
      (unheard : h.closed = true ∨ Connection.isReported HttpStream e = false) : Finishes h m

/-- Where the task stands when it is over, but for its own client. -/
def afterwards (h : HttpStream) : HttpReader := if h.ownsClient then .disposing else .finished

/-- How a failure is reported. -/
def reportOf (url : Text) (e : Failure) : Fault :=
  match e.fault.transport? with
  | some _ => e.fault
  | none => failure url e.fault

/-- What a move does: the connection that it leaves, and what it reports. -/
inductive Moves (url : Text) (h : HttpStream) : Move → HttpStream → List Report → Prop where
  | begin (fresh : h.reader = .fresh) : Moves url h .begin { h with reader := .requesting } []
  | refusing {status : Nat} (waits : h.reader = .requesting) (refuses : isSuccess status = false) :
      Moves url h (.answered status) { h with reader := .refusing status } []
  | answered {status : Nat} (waits : h.reader = .requesting) (success : isSuccess status = true)
      (listens : h.closed = false) :
      Moves url h (.answered status) { h with reader := .opening } [.opened]
  | opened (opens : h.reader = .opening) :
      Moves url h (.heard none) { h with reader := .reading } []
  | piece {h' : HttpStream} {reported : List Report} (text : Text) (reads : h.reader = .reading)
      (delivers : Delivers { h with buffer := (h.buffer.feed text).2 } (h.buffer.feed text).1
        h' reported) : Moves url h (.piece text) h' reported
  | heard {h' : HttpStream} {reported : List Report} {next : List Text}
      (hears : h.reader = .hearing next) (delivers : Delivers h next h' reported) :
      Moves url h (.heard none) h' reported
  | leave {m : Move} {exit : HttpExit} (exits : Exits h m exit) :
      Moves url h m { h with reader := .leaving exit } []
  /-- The task is cancelled while it reads a body. -/
  | leaveCancelled (reads : h.reader = .reading ∨ ∃ status, h.reader = .refusing status)
      (pending : h.cancelReader = true) :
      Moves url h .cancelled { h with reader := .leaving .cancelled, cancelReader := false } []
  | conclude (leaves : h.reader = .leaving .ended) (listens : h.closed = false) :
      Moves url h (.left none) { h with closed := true, reader := .reporting } [.closed .null]
  | refuse {status : Nat} {body : Text} (leaves : h.reader = .leaving (.refused status body))
      (listens : h.closed = false) :
      Moves url h (.left none) { h with closed := true, reader := .reporting }
        [.failed (refusal url status body)]
  | fail {m : Move} (e : Failure) (fails : h.ending? m = some e)
      (known : Connection.isReported HttpStream e = true) (listens : h.closed = false) :
      Moves url h m { h with closed := true, reader := .reporting } [.failed (reportOf url e)]
  | finish {m : Move} (finishes : Finishes h m) : Moves url h m { h with reader := h.afterwards } []
  /-- The task is cancelled while it waits for anything but a body. -/
  | finishCancelled (waits : h.reader = .requesting ∨ ∃ exit, h.reader = .leaving exit)
      (pending : h.cancelReader = true) :
      Moves url h .cancelled { h with reader := h.afterwards, cancelReader := false } []
  | endCancelled (waits : h.reader = .fresh ∨ h.reader = .disposing)
      (pending : h.cancelReader = true) :
      Moves url h .cancelled { h with reader := .finished, cancelReader := false } []
  | disposed (disposes : h.reader = .disposing) :
      Moves url h .disposed { h with reader := .finished } []

@[simp] theorem closed_close (h : HttpStream) : h.close.closed = true := by
  unfold close
  split
  case isTrue closed => exact closed
  case isFalse => rfl

variable {h h' : HttpStream} {m : Move} {effects : List Effect}

theorem moves_of_eq {step : Step} (moved : some step = some (h', effects))
    (moves : Moves url h m step.1 (reports step.2)) : Moves url h m h' (reports effects) := by
  obtain rfl := Option.some.inj moved
  exact moves

theorem finish_fst (effects : List Effect) :
    (finish h effects).1 = { h with reader := h.afterwards } := by
  unfold finish afterwards
  split <;> rfl

theorem reports_finish (effects : List Effect) :
    reports (finish h effects).2 = reports effects := by
  unfold finish
  split
  case isTrue => simp [reports, Effect.report?]
  case isFalse => rfl

theorem moves_finish {effects : List Effect} (silent : reports effects = [])
    (finishes : Finishes h m) :
    Moves url h m (finish h effects).1 (reports (finish h effects).2) := by
  rw [finish_fst, reports_finish, silent]
  exact .finish finishes

/-- A fault ends the task, and is reported unless the connection is closed. -/
theorem moves_fail {f : Fault} (closed : h.closed = true → Finishes h m)
    (listens : h.closed = false →
      Moves url h m { h with closed := true, reader := .reporting } [.failed f]) :
    Moves url h m (fail url h f).1 (reports (fail url h f).2) := by
  unfold fail
  by_cases shut : h.closed = true
  · rw [if_pos shut]
    exact moves_finish rfl (closed shut)
  · rw [if_neg shut]
    exact listens (Bool.eq_false_iff.mpr shut)

theorem moves_failWith {e : Failure} (fails : h.ending? m = some e) :
    Moves url h m (failWith url h e).1 (reports (failWith url h e).2) := by
  have late (closed : h.closed = true) : Finishes h m := .failed e fails (.inl closed)
  have heard := @Moves.fail url h m e fails
  simp only [Connection.isReported, reportOf] at heard
  unfold failWith
  split
  case h_1 transport =>
    simp only [transport] at heard
    exact moves_fail late (heard rfl)
  case h_2 other =>
    simp only [other] at heard
    split
    case isTrue known => exact moves_fail late (heard (by simp [known]))
    case isFalse unknown =>
      exact moves_finish rfl
        (.failed e fails (.inr (by simp [Connection.isReported, other, unknown])))

theorem moves_conclude {exit : HttpExit} (leaves : h.reader = .leaving exit) :
    Moves url h (.left none) (conclude url h exit).1 (reports (conclude url h exit).2) := by
  cases exit with
  | ended =>
      simp only [conclude]
      by_cases closed : h.closed = true
      · rw [if_pos closed]
        exact moves_finish rfl (.ended leaves closed)
      · rw [if_neg closed]
        exact .conclude leaves (Bool.eq_false_iff.mpr closed)
  | silent => exact moves_finish rfl (.silent leaves)
  | cancelled => exact moves_finish rfl (.cancelled leaves)
  | broken e => exact moves_failWith (by simp [ending?, leaves])
  | refused status body =>
      exact moves_fail (.refused leaves) (.refuse leaves)

theorem delivers (h : HttpStream) (payloads : List Text) :
    Delivers h payloads (deliver h payloads).1 (reports (deliver h payloads).2) := by
  cases payloads with
  | nil => exact .done
  | cons payload next =>
      simp only [deliver]
      by_cases closed : h.closed = true
      · rw [if_pos closed]
        exact .late payload next closed
      · rw [if_neg closed]
        exact .payload payload next (Bool.eq_false_iff.mpr closed)

theorem moves_answered {status : Nat} (waits : h.reader = .requesting) :
    Moves url h (.answered status) (answered url h status).1
      (reports (answered url h status).2) := by
  unfold answered
  by_cases success : isSuccess status = true
  · simp only [success, Bool.not_true, if_neg Bool.false_ne_true]
    by_cases closed : h.closed = true
    · rw [if_pos closed]
      exact .leave (.answered waits success closed)
    · rw [if_neg closed]
      exact .answered waits success (Bool.eq_false_iff.mpr closed)
  · simp only [success]
    exact .refusing waits (Bool.eq_false_iff.mpr success)

theorem moves_of_cancel (pending : h.cancelReader = true)
    (moved : cancel url { h with cancelReader := false } = some (h', effects)) :
    Moves url h .cancelled h' (reports effects) := by
  unfold cancel at moved
  split at moved
  case h_1 fresh =>
    cases moved
    exact .endCancelled (.inl fresh) pending
  case h_2 disposes =>
    cases moved
    exact .endCancelled (.inr disposes) pending
  case h_3 waits =>
    refine moves_of_eq moved ?_
    simp only [endCancelled, finish_fst, reports_finish]
    exact .finishCancelled (.inl waits) pending
  case h_4 exit leaves =>
    refine moves_of_eq moved ?_
    simp only [endCancelled, finish_fst, reports_finish]
    exact .finishCancelled (.inr ⟨exit, leaves⟩) pending
  case h_5 status refuses =>
    cases moved
    exact .leaveCancelled (.inr ⟨status, refuses⟩) pending
  case h_6 reads =>
    cases moved
    exact .leaveCancelled (.inl reads) pending
  case h_7 => contradiction

/-- A move does what `Moves` says. -/
theorem moves_of_move (moved : h.move? url m = some (h', effects)) :
    Moves url h m h' (reports effects) := by
  unfold move? at moved
  split at moved
  case h_1 fresh =>
    cases moved
    exact .begin fresh
  case h_2 status waits =>
    exact moves_of_eq moved (moves_answered waits)
  case h_3 e waits =>
    exact moves_of_eq moved (moves_failWith (by simp [ending?, waits]))
  case h_4 body status refuses =>
    cases moved
    exact .leave (.refused body refuses)
  case h_5 text reads =>
    exact moves_of_eq moved (.piece text reads (delivers _ _))
  case h_6 reads =>
    cases moved
    exact .leave (.ended reads)
  case h_7 e status refuses =>
    cases moved
    exact .leave (.refusalBroken e refuses)
  case h_8 e reads =>
    cases moved
    exact .leave (.broken e reads)
  case h_9 exit leaves =>
    exact moves_of_eq moved (moves_conclude leaves)
  case h_10 e exit leaves =>
    exact moves_of_eq moved (moves_failWith (by simp [ending?, leaves]))
  case h_11 =>
    split at moved
    case isTrue pending => exact moves_of_cancel pending moved
    case isFalse => contradiction
  case h_12 opens =>
    cases moved
    exact .opened opens
  case h_13 next hears =>
    exact moves_of_eq moved (.heard hears (delivers _ _))
  case h_14 reported =>
    exact moves_of_eq moved (moves_finish rfl (.heard none reported))
  case h_15 e opens =>
    cases moved
    exact .leave (.openingRaised e opens)
  case h_16 e next hears =>
    cases moved
    exact .leave (.raised e hears)
  case h_17 e reported =>
    exact moves_of_eq moved (moves_finish rfl (.heard (some e) reported))
  case h_18 disposes =>
    cases moved
    exact .disposed disposes
  case h_19 => contradiction

end HttpStream

end EventStream.Transport
