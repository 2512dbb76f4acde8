import EventStream.Proofs.Transport.Protocol

/-
# Where accepted payloads are

A payload that a WebSocket connection has accepted waits in the outbox until the writer takes it.
Then it is in flight, and from there it is written, or refused and dropped, or it stays in flight
because the socket is closed or the writer was cancelled. So as long as nothing was taken back, what
was accepted is what was written, what was refused, what is in flight and what is in the outbox, in
this order (`Balanced`).

By the time of the last report the writer is muted: it has finished, or it is to be cancelled before
it moves again, or there never was one. Then what was taken back is never written.
-/

namespace EventStream.Transport

open WebSocket (Reads Writes Moves)

variable {url : Text}

/-! ## The two tasks -/

/-- Whether the opening has not been heard yet. -/
def WebSocketReader.isEarly : WebSocketReader → Bool
  | .fresh | .connecting | .opening => true
  | _ => false

/-- Whether the reader is past its last frame. -/
def WebSocketReader.isPast : WebSocketReader → Bool
  | .leaving _ | .reporting | .finished => true
  | _ => false

/-- Whether the writer may still write, or has not begun. -/
@[simp] def WebSocketWriter.isActive : WebSocketWriter → Bool
  | .absent | .fresh | .waiting | .writing _ => true
  | .reporting | .finished => false

/-- The payload that the writer is writing. -/
@[simp] def WebSocketWriter.payload? : WebSocketWriter → Option Value
  | .writing payload => some payload
  | .absent | .fresh | .waiting | .reporting | .finished => none

namespace WebSocket

/-- The writer writes nothing more. -/
def Muted (w : WebSocket) : Prop :=
  w.cancelWriter = true ∨ w.writer.isActive = false ∨
    w.writer = .absent ∧ w.reader.isEarly = false

/-- How the two tasks stand to each other. -/
structure Paired (w : WebSocket) : Prop where
  absent : w.reader.isEarly = true → w.writer = .absent
  muted : w.reader.isPast = true → w.Muted

variable {w w' : WebSocket} {m : Move} {rs : List Report}

/-- The reader leaves the payloads alone, and begins the writer when the opening was heard. -/
theorem Reads.payloads (reads : Reads url w m w' rs) :
    w'.inFlight = w.inFlight ∧ w'.outbox = w.outbox ∧
      (w'.writer = w.writer ∨
        w.reader = .opening ∧ w'.reader = .reading ∧ w'.writer = .fresh) := by
  cases reads with
  | opened opens => exact ⟨rfl, rfl, .inr ⟨opens, rfl, rfl⟩⟩
  | _ => exact ⟨rfl, rfl, .inl rfl⟩

/-- A muted writer does nothing but finish. -/
theorem Writes.of_muted (writes : Writes url w m w' rs) (muted : w.Muted) :
    w'.writer = .finished ∧ w'.inFlight = w.inFlight ∧ w'.outbox = w.outbox ∧
      (m = .writerCancelled ∨ ∃ failure, m = .heard failure) := by
  rcases muted with pending | inactive | ⟨absent, -⟩ <;> cases writes <;> simp_all

theorem Writes.muted (writes : Writes url w m w' rs) (muted : w.Muted) : w'.Muted := by
  obtain ⟨finished, -⟩ := writes.of_muted muted
  exact .inr (.inl (by rw [finished]; rfl))

/-- A reader that ends with a failure was connecting or leaving. -/
theorem reader_of_ending {e : Failure} (fails : w.ending? m = some e) :
    w.reader = .connecting ∨ ∃ exit, w.reader = .leaving exit := by
  unfold ending? at fails
  split at fails
  case h_1 connects => exact .inl connects
  case h_2 exit leaves => exact .inr ⟨exit, leaves⟩
  case h_3 e leaves => exact .inr ⟨_, leaves⟩
  case h_4 => contradiction

/-- Past its last frame, the reader stays there. -/
theorem Reads.late (reads : Reads url w m w' rs) (late : w.reader.isEarly = false) :
    w'.reader.isEarly = false := by
  cases reads with
  | begin fresh => simp [fresh, WebSocketReader.isEarly] at late
  | connect connects => simp [connects, WebSocketReader.isEarly] at late
  | _ => rfl

/-- The reader comes past its last frame from where the opening was not heard, or it cancels the
writer. -/
theorem Reads.past (reads : Reads url w m w' rs) (past : w'.reader.isPast = true) :
    w.reader.isPast = true ∨ w.reader.isEarly = true ∨ w'.cancelWriter = true := by
  have failing {e : Failure} (fails : w.ending? m = some e) :
      w.reader.isPast = true ∨ w.reader.isEarly = true ∨ w'.cancelWriter = true := by
    rcases reader_of_ending fails with connects | ⟨exit, leaves⟩
    · exact .inr (.inl (by rw [connects]; rfl))
    · exact .inl (by rw [leaves]; rfl)
  cases reads with
  | leave | leaveCancelled => exact .inr (.inr rfl)
  | abandon connects => exact .inr (.inl (by rw [connects]; rfl))
  | openingFailed e opens => exact .inr (.inl (by rw [opens]; rfl))
  | conclude leaves => exact .inl (by rw [leaves]; rfl)
  | fail e fails => exact failing fails
  | finish finishes =>
      cases finishes with
      | heard _ reports => exact .inl (by rw [reports]; rfl)
      | ended leaves | silent leaves | cancelled leaves => exact .inl (by rw [leaves]; rfl)
      | failed e fails => exact failing fails
  | finishCancelled waits =>
      rcases waits with fresh | connects | ⟨exit, leaves⟩
      · exact .inr (.inl (by rw [fresh]; rfl))
      · exact .inr (.inl (by rw [connects]; rfl))
      · exact .inl (by rw [leaves]; rfl)
  | begin | connect | opened | frame | heard => contradiction

theorem Reads.muted (reads : Reads url w m w' rs) (paired : w.Paired) (muted : w.Muted) :
    w'.Muted := by
  have keeps : w'.cancelWriter = w.cancelWriter ∨ w'.cancelWriter = true := by
    cases reads with
    | leave | leaveCancelled => exact .inr rfl
    | _ => exact .inl rfl
  obtain ⟨-, -, same | ⟨opens, -⟩⟩ := reads.payloads
  · rcases muted with pending | inactive | ⟨absent, late⟩
    · exact .inl (keeps.elim (·.trans pending) id)
    · exact .inr (.inl (same ▸ inactive))
    · exact .inr (.inr ⟨same.trans absent, reads.late late⟩)
  · have early : w.reader.isEarly = true := by rw [opens]; rfl
    rcases muted with pending | inactive | ⟨-, late⟩
    · exact .inl (keeps.elim (·.trans pending) id)
    · simp [paired.absent early] at inactive
    · simp [early] at late

theorem Reads.paired (reads : Reads url w m w' rs) (paired : w.Paired) : w'.Paired where
  absent early := by
    have before : w.reader.isEarly = true := by
      cases stood : w.reader.isEarly with
      | true => rfl
      | false => simp [reads.late stood] at early
    obtain ⟨-, -, same | ⟨-, reading, -⟩⟩ := reads.payloads
    · exact same.trans (paired.absent before)
    · simp [reading, WebSocketReader.isEarly] at early
  muted past := by
    rcases reads.past past with before | early | pending
    · exact reads.muted paired (paired.muted before)
    · obtain ⟨-, -, same | ⟨-, reading, -⟩⟩ := reads.payloads
      · refine .inr (.inr ⟨same.trans (paired.absent early), ?_⟩)
        cases stands : w'.reader <;> simp_all [WebSocketReader.isPast, WebSocketReader.isEarly]
      · simp [reading, WebSocketReader.isPast] at past
    · exact .inl pending

theorem Writes.paired (writes : Writes url w m w' rs) (paired : w.Paired) : w'.Paired where
  absent early := by
    have absent : w.writer = .absent := paired.absent (by cases writes <;> exact early)
    cases writes <;> simp_all
  muted past := writes.muted (paired.muted (by cases writes <;> exact past))

theorem Moves.paired (moves : Moves url w m w' rs) (paired : w.Paired) : w'.Paired := by
  cases moves with
  | reads reads => exact reads.paired paired
  | writes writes => exact writes.paired paired

/-- What the owner does leaves the tasks where they stand. -/
theorem owned {turn : Turn WebSocket} {effects : List Effect}
    (taken : turn.take? url w = some (w', effects)) (own : ∀ m, turn ≠ .move m) :
    w'.reader = w.reader ∧ w'.writer = w.writer ∧ w'.cancelWriter = w.cancelWriter ∧
      effects = [] := by
  cases turn with
  | move m => exact absurd rfl (own m)
  | send payload =>
      cases taken
      simp only [Connection.send, send, and_true]
      split <;> exact ⟨rfl, rfl, rfl⟩
  | close =>
      cases taken
      simp only [Connection.close, close, and_true]
      split <;> exact ⟨rfl, rfl, rfl⟩
  | unsent | interrupt =>
      cases taken
      exact ⟨rfl, rfl, rfl, rfl⟩

theorem Muted.of_eq (muted : w.Muted) (reader : w'.reader = w.reader)
    (writer : w'.writer = w.writer) (pending : w'.cancelWriter = w.cancelWriter) : w'.Muted := by
  simpa [Muted, reader, writer, pending] using muted

theorem Paired.of_eq (paired : w.Paired) (reader : w'.reader = w.reader)
    (writer : w'.writer = w.writer) (pending : w'.cancelWriter = w.cancelWriter) : w'.Paired where
  absent early := writer.trans (paired.absent (reader ▸ early))
  muted past := (paired.muted (reader ▸ past)).of_eq reader writer pending

theorem Moves.muted (moves : Moves url w m w' rs) (paired : w.Paired) (muted : w.Muted) :
    w'.Muted := by
  cases moves with
  | reads reads => exact reads.muted paired muted
  | writes writes => exact writes.muted muted

section

variable {turn : Turn WebSocket} {effects : List Effect}

theorem Paired.step (paired : w.Paired) (taken : turn.take? url w = some (w', effects)) :
    w'.Paired := by
  cases turn with
  | move m => exact (moves_of_move taken).paired paired
  | _ =>
      obtain ⟨reader, writer, pending, -⟩ := owned taken fun _ => nofun
      exact paired.of_eq reader writer pending

/-- A writer that is muted stays so. -/
theorem Muted.step (muted : w.Muted) (paired : w.Paired)
    (taken : turn.take? url w = some (w', effects)) : w'.Muted := by
  cases turn with
  | move m => exact (moves_of_move taken).muted paired muted
  | _ =>
      obtain ⟨reader, writer, pending, -⟩ := owned taken fun _ => nofun
      exact muted.of_eq reader writer pending

end

theorem paired_of_reached {c : Course WebSocket} (reached : c.Reached url {}) : c.now.Paired :=
  reached.induction (P := fun _ w => w.Paired) ⟨fun _ => rfl, nofun⟩
    fun _ _ _ _ _ _ paired => paired.step

/-- By its last report the writer of a connection is muted. -/
theorem Moves.muted_of_last {r : Report} (moves : Moves url w m w' rs) (paired : w'.Paired)
    (among : r ∈ rs) (last : r.isLast = true) : w'.Muted := by
  cases moves with
  | reads reads =>
      cases reads with
      | conclude | fail => exact paired.muted rfl
      | connect | frame =>
          obtain rfl := List.mem_singleton.mp among
          contradiction
      | _ => nomatch among
  | writes writes =>
      cases writes with
      | reject => exact .inr (.inl rfl)
      | _ => nomatch among

end WebSocket

/-! ## The balance of payloads -/

/-- The payload that is written in a turn. -/
def Entry.written? (e : Entry WebSocket) : Option Value :=
  match e.turn, e.before.writer with
  | .move .written, .writing payload => some payload
  | _, _ => none

/-- The payload that is refused in a turn. -/
def Entry.refused? (e : Entry WebSocket) : Option Value :=
  match e.turn, e.before.writer with
  | .move (.rejected _), .writing payload => some payload
  | _, _ => none

namespace Chronicle

/-- The payloads that were written, in order. -/
def written : Chronicle WebSocket → List Value
  | [] => []
  | e :: past => written past ++ e.written?.toList

/-- The payloads that were refused, in order. -/
def refused : Chronicle WebSocket → List Value
  | [] => []
  | e :: past => refused past ++ e.refused?.toList

variable (past : Chronicle WebSocket) (e : Entry WebSocket)

@[simp] theorem written_cons : written (e :: past) = written past ++ e.written?.toList := rfl

@[simp] theorem refused_cons : refused (e :: past) = refused past ++ e.refused?.toList := rfl

end Chronicle

/-- What was accepted is accounted for, as long as nothing was taken back. -/
structure Balanced (past : Chronicle WebSocket) (w : WebSocket) : Prop where
  balance : past.accepted = past.written ++ past.refused ++ w.inFlight.toList ++ w.outbox
  one : past.refused.length ≤ 1
  /-- A writer that goes on has had nothing refused, and what is in flight is what it writes. -/
  active : w.writer.isActive = true → past.refused = [] ∧ w.inFlight = w.writer.payload?

section

variable {past : Chronicle WebSocket} {w w' : WebSocket} {m : WebSocket.Move} {rs : List Report}
  {effects : List Effect}

theorem unwritten_of_ending {e : Failure} (effects : List Effect) (fails : w.ending? m = some e) :
    Entry.written? ⟨w, .move m, effects⟩ = none ∧ Entry.refused? ⟨w, .move m, effects⟩ = none := by
  cases m with
  | written | rejected => contradiction
  | _ => exact ⟨rfl, rfl⟩

/-- The reader writes nothing. -/
theorem unwritten_of_reads (effects : List Effect) (reads : Reads url w m w' rs) :
    Entry.written? ⟨w, .move m, effects⟩ = none ∧ Entry.refused? ⟨w, .move m, effects⟩ = none := by
  cases reads with
  | leave exits => cases exits <;> exact ⟨rfl, rfl⟩
  | fail e fails => exact unwritten_of_ending effects fails
  | finish finishes =>
      cases finishes with
      | failed e fails => exact unwritten_of_ending effects fails
      | _ => exact ⟨rfl, rfl⟩
  | _ => exact ⟨rfl, rfl⟩

theorem Balanced.reads (balanced : Balanced past w) (paired : w.Paired)
    (reads : Reads url w m w' rs) : Balanced (⟨w, .move m, effects⟩ :: past) w' := by
  obtain ⟨unwritten, unrefused⟩ := unwritten_of_reads effects reads
  obtain ⟨inFlight, outbox, writer⟩ := reads.payloads
  refine ⟨?balance, ?one, ?active⟩
  case balance =>
    simpa [unwritten, unrefused, inFlight, outbox] using balanced.balance
  case one => simpa [unrefused] using balanced.one
  case active =>
    intro goes
    rcases writer with same | ⟨opens, -, fresh⟩
    · simpa [unrefused, inFlight, same] using balanced.active (same ▸ goes)
    · have absent : w.writer = .absent := paired.absent (by rw [opens]; rfl)
      simpa [unrefused, inFlight, fresh, absent] using balanced.active

theorem noted_of_ne_null {payload : Value} (data : payload ≠ .null) :
    WebSocket.noted payload = some payload := by
  cases payload with
  | null => contradiction
  | _ => rfl

/-- The writer moves payloads on. -/
theorem Balanced.writes (balanced : Balanced past w) (data : .null ∉ past.accepted)
    (writes : Writes url w m w' rs) : Balanced (⟨w, .move m, effects⟩ :: past) w' := by
  obtain ⟨balance, one, active⟩ := balanced
  cases writes with
  | begin fresh =>
      obtain ⟨none, empty⟩ : past.refused = [] ∧ w.inFlight = .none := by simpa [fresh] using active
      exact ⟨by simpa [Entry.written?, Entry.refused?, empty] using balance,
        by simp [Entry.refused?, none], by simp [Entry.refused?, none, empty]⟩
  | @taken payload rest waits holds =>
      obtain ⟨none, empty⟩ : past.refused = [] ∧ w.inFlight = .none := by simpa [waits] using active
      have accepted : payload ∈ past.accepted := by simp [balance, holds]
      have noted := noted_of_ne_null fun null => data (null ▸ accepted)
      exact ⟨by simpa [Entry.written?, Entry.refused?, empty, noted, holds] using balance,
        by simp [Entry.refused?, none], by simp [Entry.refused?, none, noted]⟩
  | @written payload writes =>
      obtain ⟨none, flies⟩ : past.refused = [] ∧ w.inFlight = some payload := by
        simpa [writes] using active
      exact ⟨by simpa [Entry.written?, Entry.refused?, none, flies, writes] using balance,
        by simp [Entry.refused?, none], by simp [Entry.refused?, none]⟩
  | @reject payload _ writes | @rejectClosed payload _ writes =>
      obtain ⟨none, flies⟩ : past.refused = [] ∧ w.inFlight = some payload := by
        simpa [writes] using active
      exact ⟨by simpa [Entry.written?, Entry.refused?, none, flies, writes] using balance,
        by simp [Entry.refused?, none, writes], by simp⟩
  | unwritable | heard | cancelled =>
      exact ⟨by simpa [Entry.written?, Entry.refused?] using balance,
        by simpa [Entry.refused?] using one, by simp⟩

theorem Balanced.send (balanced : Balanced past w) (payload : Value) :
    Balanced (⟨w, .send payload, effects⟩ :: past) (w.send payload).1 := by
  obtain ⟨balance, one, active⟩ := balanced
  refine ⟨?balance, by simpa [Entry.refused?] using one, ?active⟩
  case balance =>
    simp only [Entry.accepted?, Connection.send, WebSocket.send, Chronicle.accepted_cons,
      Chronicle.written_cons, Chronicle.refused_cons, Entry.written?, Entry.refused?]
    split <;> simp [balance]
  case active =>
    unfold WebSocket.send
    split <;> simpa [Entry.refused?] using active

/-- Closing, and cancelling the reader, leave the payloads alone. -/
theorem Balanced.stay {turn : Turn WebSocket} (balanced : Balanced past w)
    (quiet : turn = .close ∨ turn = .interrupt)
    (same : w'.inFlight = w.inFlight ∧ w'.outbox = w.outbox ∧ w'.writer = w.writer) :
    Balanced (⟨w, turn, effects⟩ :: past) w' := by
  obtain ⟨inFlight, outbox, writer⟩ := same
  have none : Entry.accepted? ⟨w, turn, effects⟩ = none ∧
      Entry.written? ⟨w, turn, effects⟩ = none ∧ Entry.refused? ⟨w, turn, effects⟩ = none := by
    rcases quiet with rfl | rfl <;> exact ⟨rfl, rfl, rfl⟩
  exact ⟨by simpa [none, inFlight, outbox] using balanced.balance,
    by simpa [none] using balanced.one,
    by simpa [none, inFlight, writer] using balanced.active⟩

/-- As long as nothing was taken back, what was accepted is accounted for. Null is not a payload
that can be in flight. -/
theorem balanced_of_reached {c : Course WebSocket} (reached : c.Reached url {}) :
    c.past.Untouched → .null ∉ c.past.accepted → Balanced c.past c.now := by
  refine reached.induction
    (P := fun past w => past.Untouched → .null ∉ past.accepted → Balanced past w) ?start ?step
  case start => exact fun _ _ => ⟨rfl, Nat.zero_le 1, fun _ => ⟨rfl, rfl⟩⟩
  case step =>
    intro past w turn w' effects before ih taken untouched data
    rw [Chronicle.untouched_cons] at untouched
    rw [Chronicle.accepted_cons, List.mem_append, not_or] at data
    have balanced := ih untouched.2 data.1
    cases turn with
    | move m =>
        cases WebSocket.moves_of_move taken with
        | reads reads => exact balanced.reads (WebSocket.paired_of_reached before) reads
        | writes writes => exact balanced.writes data.1 writes
    | send payload =>
        cases taken
        exact balanced.send payload
    | unsent => exact absurd rfl untouched.1
    | close =>
        cases taken
        refine balanced.stay (.inl rfl) ?_
        simp only [Connection.close, WebSocket.close]
        split <;> exact ⟨rfl, rfl, rfl⟩
    | interrupt =>
        cases taken
        exact balanced.stay (.inr rfl) ⟨rfl, rfl, rfl⟩

end

/-! ## After the last report -/

/-- The connection has made its last report. -/
def Chronicle.Over {σ : Type} [Connection σ] (past : Chronicle σ) : Prop :=
  ∃ r ∈ past.reports, r.isLast = true

/-- What a connection is after its last report: closed, with a muted writer. -/
structure WebSocket.Spent (w : WebSocket) : Prop where
  paired : w.Paired
  muted : w.Muted
  closed : w.closed = true

/-- After the last report the writer is muted. -/
theorem muted_of_over {c : Course WebSocket} (reached : c.Reached url {}) :
    c.past.Over → c.now.Muted := by
  refine reached.induction (P := fun past w => past.Over → w.Muted) ?start ?step
  case start => exact fun ⟨_, among, _⟩ => nomatch among
  case step =>
    rintro past w turn w' effects before ih taken ⟨r, among, last⟩
    have paired := WebSocket.paired_of_reached before
    rcases List.mem_append.mp among with earlier | now
    · exact (ih ⟨r, earlier, last⟩).step paired taken
    · cases turn with
      | move m =>
          exact (WebSocket.moves_of_move taken).muted_of_last (paired.step taken) now last
      | _ =>
          obtain ⟨-, -, -, rfl⟩ := WebSocket.owned taken fun _ => nofun
          contradiction

/-- A connection that has made its last report is closed. -/
theorem closed_of_over {c : Course WebSocket} (reached : c.Reached url {}) (ended : c.past.Over) :
    c.now.closed = true := by
  obtain ⟨r, among, last⟩ := ended
  have last : r ∈ c.past.lastReports := List.mem_filter.mpr ⟨among, last⟩
  have ordered := ordered_of_reached rfl rfl reached
  cases closed : c.now.closed with
  | true => rfl
  | false =>
      have unended : c.past.lastReports = [] := (ordered.fits closed).unended
      simp [unended] at last

theorem spent_of_over {c : Course WebSocket} (reached : c.Reached url {}) (ended : c.past.Over) :
    c.now.Spent where
  paired := WebSocket.paired_of_reached reached
  muted := muted_of_over reached ended
  closed := closed_of_over reached ended

/-- A turn after the last report writes nothing, and at most takes back what is left. -/
theorem WebSocket.Spent.step {w w' : WebSocket} {turn : Turn WebSocket} {effects : List Effect}
    (spent : w.Spent) (taken : turn.take? url w = some (w', effects)) :
    w'.Spent ∧ Entry.written? ⟨w, turn, effects⟩ = none ∧
      (w'.inFlight = w.inFlight ∧ w'.outbox = w.outbox ∨ w'.inFlight = none ∧ w'.outbox = []) := by
  have after : w'.Spent := ⟨spent.paired.step taken, spent.muted.step spent.paired taken,
    (Orderly.speaks taken).stays_closed spent.closed⟩
  refine ⟨after, ?_⟩
  cases turn with
  | move m =>
      cases WebSocket.moves_of_move taken with
      | reads reads =>
          obtain ⟨inFlight, outbox, -⟩ := reads.payloads
          exact ⟨(unwritten_of_reads effects reads).1, .inl ⟨inFlight, outbox⟩⟩
      | writes writes =>
          obtain ⟨-, inFlight, outbox, rfl | ⟨failure, rfl⟩⟩ := writes.of_muted spent.muted
          · exact ⟨rfl, .inl ⟨inFlight, outbox⟩⟩
          · exact ⟨rfl, .inl ⟨inFlight, outbox⟩⟩
  | send payload =>
      cases taken
      exact ⟨rfl, .inl (by simp [Connection.send, WebSocket.send_of_closed spent.closed])⟩
  | unsent =>
      cases taken
      exact ⟨rfl, .inr ⟨rfl, rfl⟩⟩
  | close =>
      cases taken
      exact ⟨rfl, .inl (by simp [Connection.close, WebSocket.close, spent.closed])⟩
  | interrupt =>
      cases taken
      exact ⟨rfl, .inl ⟨rfl, rfl⟩⟩

/-- After the last report nothing is written. -/
theorem written_of_leads {c d : Course WebSocket} (spent : c.now.Spent)
    (leads : Course.Leads url c d) : d.now.Spent ∧ d.past.written = c.past.written := by
  refine leads.induction (P := fun past w => w.Spent ∧ past.written = c.past.written)
    ⟨spent, rfl⟩ ?_
  rintro past w turn w' effects - ⟨before, same⟩ taken
  obtain ⟨after, unwritten, -⟩ := before.step taken
  exact ⟨after, by simp [unwritten, same]⟩

/-- After the last report, what was taken back once leaves nothing to be taken back. -/
theorem unsent_of_leads {c d : Course WebSocket} (spent : c.now.Spent)
    (taken : c.now.inFlight = none ∧ c.now.outbox = []) (leads : Course.Leads url c d) :
    d.now.inFlight = none ∧ d.now.outbox = [] := by
  refine (leads.induction
    (P := fun _ w => w.Spent ∧ w.inFlight = none ∧ w.outbox = []) ⟨spent, taken⟩ ?_).2
  rintro past w turn w' effects - ⟨before, inFlight, outbox⟩ moved
  obtain ⟨after, -, ⟨sameInFlight, sameOutbox⟩ | empty⟩ := before.step moved
  · exact ⟨after, sameInFlight.trans inFlight, sameOutbox.trans outbox⟩
  · exact ⟨after, empty⟩

/-- Payloads are conserved. As long as nothing was taken back, the accepted payloads are, in order,
those that were written, the one that was refused, if any, the one in flight, if any, and those in
the outbox. After the last report, what is taken back first is what was accepted and neither written
nor refused, oldest first; from then on nothing is written, nothing is accepted, and nothing more
can be taken back. -/
theorem accepted_eq_append {c : Course WebSocket} (reached : c.Reached url {})
    (data : .null ∉ c.past.accepted) :
    (c.past.Untouched →
      c.past.accepted =
          c.past.written ++ c.past.refused ++ c.now.inFlight.toList ++ c.now.outbox ∧
        c.past.refused.length ≤ 1) ∧
    (c.past.Over →
      (c.past.Untouched →
        c.past.accepted = c.past.written ++ c.past.refused ++ c.now.unsent.2) ∧
      (∀ d, Course.Leads url c d →
        d.past.written = c.past.written ∧ ∀ payload, (d.now.send payload).2 = false) ∧
      ∀ d e, c.take? url .unsent = some d → Course.Leads url d e → e.now.unsent.2 = []) := by
  have balanced := fun untouched => balanced_of_reached reached untouched data
  refine ⟨fun untouched => ⟨(balanced untouched).balance, (balanced untouched).one⟩, ?_⟩
  intro ended
  have spent := spent_of_over reached ended
  refine ⟨?first, ?silent, ?further⟩
  case first =>
    intro untouched
    rw [(balanced untouched).balance, List.append_assoc]
    rfl
  case silent =>
    intro d leads
    obtain ⟨after, same⟩ := written_of_leads spent leads
    exact ⟨same, fun payload => by rw [WebSocket.send_of_closed after.closed]⟩
  case further =>
    rintro d e taken leads
    obtain ⟨⟨w, effects⟩, moved, rfl⟩ := Option.map_eq_some_iff.mp taken
    obtain ⟨after, -, -⟩ := spent.step moved
    cases moved
    obtain ⟨inFlight, outbox⟩ := unsent_of_leads after ⟨rfl, rfl⟩ leads
    simp [WebSocket.unsent, inFlight, outbox]

/-- A connection that breaks off while the second of three payloads is in flight, and is about to
have its end heard. -/
def brokenOff : Course WebSocket := Course.plays "ws://localhost/off" { now := {} }
  [.move .begin, .move .accepted, .send (.text "one"), .move (.heard none), .move .writerBegun,
    .move .taken, .send (.text "two"), .move .written, .send (.text "three"), .move .taken,
    .move (.ended (.int 1006)), .move (.left none)]

theorem accepted_eq_append_brokenOff :
    brokenOff.past.Untouched ∧ brokenOff.past.Over ∧
    brokenOff.past.accepted = [.text "one", .text "two", .text "three"] ∧
    brokenOff.past.written = [.text "one"] ∧
    brokenOff.past.accepted =
      brokenOff.past.written ++ brokenOff.past.refused ++ brokenOff.now.unsent.2 ∧
    (brokenOff.now.send (.text "four")).2 = false := by
  have untouched : brokenOff.past.Untouched := by decide
  have reported : brokenOff.past.Over := ⟨.closed (.int 1006), .tail _ (.head _), rfl⟩
  have data : .null ∉ brokenOff.past.accepted := by
    have accepted : brokenOff.past.accepted = [.text "one", .text "two", .text "three"] := rfl
    simp [accepted]
  obtain ⟨-, ended⟩ := accepted_eq_append (Course.leads_plays _ _) data
  obtain ⟨first, silent, -⟩ := ended reported
  exact ⟨untouched, reported, rfl, rfl, first untouched, (silent _ .refl).2 _⟩

end EventStream.Transport
