import EventStream.Proofs.Transport.Moves

/-
# In which order connections report

A connection reports its opening, then frames, and at last that it has ended; if it was never
opened, that it has failed is all that it reports. Nothing is reported after the last report, and
nothing after the owner has closed the connection.

The mark `closed` serves both purposes: a report is made only while the mark is not set, and the
last report sets it. What was reported before then can be read off from where the task that reads
stands (`Stage`), so it is enough to say what one turn reports (`Speaks`).
-/

namespace EventStream.Transport

/-- What a connection may have reported at some time. -/
inductive Spoken : List Report → Prop where
  | nothing : Spoken []
  | opened (frames : List Value) : Spoken (.opened :: frames.map .received)
  | closed (frames : List Value) (code : Value) :
      Spoken (.opened :: frames.map .received ++ [.closed code])
  | failed (frames : List Value) (f : Fault) :
      Spoken (.opened :: frames.map .received ++ [.failed f])
  /-- It has failed before it was opened. -/
  | refused (f : Fault) : Spoken [.failed f]

/-- What a connection that is not closed has reported, as far as it can be seen from where its task
stands. -/
inductive Stage where
  /-- It has reported nothing. -/
  | unopened
  /-- It has reported its opening. -/
  | opened
  /-- It reports no more than that it has failed. -/
  | spent

/-- These reports were made by a connection that is not closed, at this stage. -/
def Stage.Fits : Stage → List Report → Prop
  | .unopened, rs => rs = []
  | .opened, rs => ∃ frames : List Value, rs = .opened :: frames.map .received
  | .spent, rs => rs = [] ∨ ∃ frames : List Value, rs = .opened :: frames.map .received

section

variable {stage : Stage} {rs : List Report}

theorem Stage.Fits.spent (fits : stage.Fits rs) : Stage.spent.Fits rs := by
  cases stage with
  | unopened => exact .inl fits
  | opened => exact .inr fits
  | spent => exact fits

theorem Stage.Fits.spoken_failed (fits : stage.Fits rs) (f : Fault) :
    Spoken (rs ++ [.failed f]) := by
  obtain rfl | ⟨frames, rfl⟩ := fits.spent
  · exact .refused f
  · exact .failed frames f

theorem Stage.Fits.unended (fits : stage.Fits rs) : rs.filter Report.isLast = [] := by
  obtain rfl | ⟨frames, rfl⟩ := fits.spent
  · rfl
  · simp [Report.isLast]

end

/-- Nothing is reported after the owner has closed the connection. -/
def Chronicle.Silenced {σ : Type} [Connection σ] (past : Chronicle σ) : Prop :=
  past.Pairwise fun later earlier => earlier.turn = .close → Transport.reports later.effects = []

/-- What a turn reports, and what it does to the stage of a connection. -/
inductive Speaks {σ : Type} [Connection σ] (stage : σ → Stage) (s s' : σ) :
    Turn σ → List Report → Prop where
  | nothing {turn : Turn σ} (other : turn ≠ .close)
      (same : Connection.isClosed s' = Connection.isClosed s)
      (stays : stage s' = stage s ∨ stage s' = .spent) : Speaks stage s s' turn []
  | silenced (closes : Connection.isClosed s' = true) : Speaks stage s s' .close []
  | opened (m : Connection.Move σ) (listens : Connection.isClosed s = false)
      (unopened : stage s = .unopened) (opens : stage s' = .opened)
      (still : Connection.isClosed s' = false) :
      Speaks stage s s' (.move m) [.opened]
  | received (m : Connection.Move σ) (frame : Value) (listens : Connection.isClosed s = false)
      (opened : stage s = .opened) (stays : stage s' = .opened)
      (still : Connection.isClosed s' = false) :
      Speaks stage s s' (.move m) [.received frame]
  | closed (m : Connection.Move σ) (code : Value) (listens : Connection.isClosed s = false)
      (opened : stage s = .opened) (closes : Connection.isClosed s' = true) :
      Speaks stage s s' (.move m) [.closed code]
  | failed (m : Connection.Move σ) (tf : TransportFault) (listens : Connection.isClosed s = false)
      (closes : Connection.isClosed s' = true) :
      Speaks stage s s' (.move m) [.failed (.transport tf)]

/-- No turn opens a connection that is closed. -/
theorem Speaks.stays_closed {σ : Type} [Connection σ] {stage : σ → Stage} {s s' : σ}
    {turn : Turn σ} {rs : List Report} (speaks : Speaks stage s s' turn rs)
    (closed : Connection.isClosed s = true) : Connection.isClosed s' = true := by
  cases speaks with
  | nothing other same => exact same.trans closed
  | silenced closes | closed _ _ _ _ closes | failed _ _ _ closes => exact closes
  | opened _ listens | received _ _ listens => simp [closed] at listens

/-- A kind of connections that report in order. -/
class Orderly (σ : Type) [Connection σ] where
  stage : σ → Stage
  speaks {url : Text} {s s' : σ} {turn : Turn σ} {effects : List Effect}
    (taken : turn.take? url s = some (s', effects)) : Speaks stage s s' turn (reports effects)

/-! ## Courses of connections that report in order -/

section

variable {σ : Type} [Connection σ] [Orderly σ] {url : Text}

/-- What was reported in a course, next to where it has led. -/
structure Ordered (past : Chronicle σ) (s : σ) : Prop where
  spoken : Spoken past.reports
  fits : Connection.isClosed s = false → (Orderly.stage s).Fits past.reports
  silenced : past.Silenced
  closed : ¬ past.Unclosed → Connection.isClosed s = true
  /-- A connection that its owner has not closed is closed by its last report. -/
  ended : past.Unclosed → Connection.isClosed s = true → past.lastReports.length = 1
  transport : ∀ f, .failed f ∈ past.reports → f.transport?.isSome

variable {past : Chronicle σ} {s s' : σ} {turn : Turn σ} {effects : List Effect}

/-- A turn that reports nothing. -/
theorem Ordered.silent (ordered : Ordered past s) (said : Transport.reports effects = [])
    (stays : Connection.isClosed s = true → Connection.isClosed s' = true)
    (closes : turn = .close → Connection.isClosed s' = true)
    (fits : Connection.isClosed s' = false → (Orderly.stage s').Fits past.reports)
    (ended : turn ≠ .close → Connection.isClosed s' = true → Connection.isClosed s = true) :
    Ordered (⟨s, turn, effects⟩ :: past) s' := by
  refine ⟨?spoken, ?fits, ?silenced, ?closed, ?ended, ?transport⟩
  case spoken => simpa [said] using ordered.spoken
  case fits => simpa [said] using fits
  case silenced => exact List.pairwise_cons.mpr ⟨fun _ _ _ => said, ordered.silenced⟩
  case closed =>
    intro given
    by_cases never : past.Unclosed
    · exact closes (by simpa [never] using given)
    · exact stays (ordered.closed never)
  case ended =>
    intro never shut
    obtain ⟨other, before⟩ := (Chronicle.unclosed_cons _ _).mp never
    simpa [said] using ordered.ended before (ended other shut)
  case transport => simpa [said] using ordered.transport

/-- A turn that makes a report. -/
theorem Ordered.report {r : Report} {m : Connection.Move σ} (ordered : Ordered past s)
    (said : Transport.reports effects = [r]) (listens : Connection.isClosed s = false)
    (spoken : Spoken (past.reports ++ [r]))
    (fits : Connection.isClosed s' = false → (Orderly.stage s').Fits (past.reports ++ [r]))
    (ends : Connection.isClosed s' = true → r.isLast = true)
    (transport : ∀ f, r = .failed f → f.transport?.isSome) :
    Ordered (⟨s, .move m, effects⟩ :: past) s' := by
  have never : past.Unclosed := Classical.not_not.mp fun closed => by
    simp [ordered.closed closed] at listens
  refine ⟨?spoken, ?fits, ?silenced, ?closed, ?ended, ?transport⟩
  case spoken => simpa [said] using spoken
  case fits => simpa [said] using fits
  case silenced =>
    exact List.pairwise_cons.mpr
      ⟨fun e among closes => absurd closes (never e among), ordered.silenced⟩
  case closed => exact fun given => absurd (by simpa using never) given
  case ended =>
    intro _ shut
    have unended : past.lastReports = [] := (ordered.fits listens).unended
    simp [said, unended, ends shut]
  case transport =>
    intro f among
    rw [Chronicle.reports_cons, said] at among
    rcases List.mem_append.mp among with earlier | now
    · exact ordered.transport f earlier
    · exact transport f (List.mem_singleton.mp now).symm

/-- A turn keeps the reports in order. -/
theorem ordered_step (ordered : Ordered past s) (taken : turn.take? url s = some (s', effects)) :
    Ordered (⟨s, turn, effects⟩ :: past) s' := by
  have speaks := Orderly.speaks taken
  obtain ⟨rs, said⟩ : ∃ rs, Transport.reports effects = rs := ⟨_, rfl⟩
  rw [said] at speaks
  cases speaks with
  | nothing other same stays =>
      refine ordered.silent said same.trans (absurd · other) (fun listens => ?_)
        fun _ => same.symm.trans
      have fits := ordered.fits (same ▸ listens)
      rcases stays with stays | stays <;> rw [stays]
      · exact fits
      · exact fits.spent
  | silenced closes =>
      refine ordered.silent said (fun _ => closes) (fun _ => closes) (fun listens => ?_)
        (absurd rfl ·)
      simp [closes] at listens
  | opened m listens unopened opens still =>
      have fits := ordered.fits listens
      rw [unopened] at fits
      have now : past.reports ++ [.opened] = .opened :: [].map Report.received :=
        congrArg (· ++ [Report.opened]) fits
      refine ordered.report said listens ?_ (fun _ => ?_) (by simp [still]) nofun
      · rw [now]
        exact .opened []
      · rw [opens, now]
        exact ⟨[], rfl⟩
  | received m frame listens opened stays still =>
      have fits := ordered.fits listens
      rw [opened] at fits
      obtain ⟨frames, before⟩ := fits
      have now : past.reports ++ [.received frame] =
          .opened :: (frames ++ [frame]).map Report.received := by simp [before]
      refine ordered.report said listens ?_ (fun _ => ?_) (by simp [still]) nofun
      · rw [now]
        exact .opened _
      · rw [stays, now]
        exact ⟨_, rfl⟩
  | closed m code listens opened closes =>
      have fits := ordered.fits listens
      rw [opened] at fits
      obtain ⟨frames, before⟩ := fits
      exact ordered.report said listens (before ▸ .closed frames code) (by simp [closes])
        (fun _ => rfl) nofun
  | failed m tf listens closes =>
      refine ordered.report said listens ((ordered.fits listens).spoken_failed _)
        (by simp [closes]) (fun _ => rfl) ?_
      rintro _ ⟨⟩
      rfl

theorem ordered_of_reached {start : σ} (unopened : Orderly.stage start = .unopened)
    (listens : Connection.isClosed start = false)
    {c : Course σ} (reached : c.Reached url start) : Ordered c.past c.now := by
  refine reached.induction (P := Ordered) ?start fun _ _ _ _ _ _ => ordered_step
  case start =>
    refine ⟨.nothing, fun _ => ?_, .nil, fun never => ?_, fun _ shut => ?_, nofun⟩
    · rw [unopened]
      rfl
    · exact absurd (fun _ among => nomatch among) never
    · rw [listens] at shut
      contradiction

end

/-! ## WebSocket connections -/

/-- The stage at which the reader stands. -/
def WebSocketReader.stage : WebSocketReader → Stage
  | .fresh | .connecting => .unopened
  | .opening | .reading | .hearing | .leaving (.ended _) => .opened
  | .leaving _ | .reporting | .finished => .spent

namespace WebSocket

variable {url : Text} {w w' : WebSocket} {m : Move} {rs : List Report}

/-- Leaving an open connection, the reader may still report that the frames have ended. -/
theorem stage_leaving (exit : WebSocketExit) :
    (WebSocketReader.leaving exit).stage = .opened ∨
      (WebSocketReader.leaving exit).stage = .spent := by
  cases exit with
  | ended => exact .inl rfl
  | _ => exact .inr rfl

theorem Exits.stage {exit : WebSocketExit} (exits : Exits w m exit) : w.reader.stage = .opened := by
  cases exits with
  | frame _ reads | ended _ reads | broken _ reads => rw [reads]; rfl
  | raised _ hears => rw [hears]; rfl

theorem Reads.speaks (reads : Reads url w m w' rs) :
    Speaks (fun w : WebSocket => w.reader.stage) w w' (.move m) rs := by
  cases reads with
  | begin fresh => exact .nothing nofun rfl (.inl (by simp [fresh, WebSocketReader.stage]))
  | connect connects listens =>
      exact .opened _ listens (by simp [connects, WebSocketReader.stage]) rfl listens
  | opened opens => exact .nothing nofun rfl (.inl (by simp [opens, WebSocketReader.stage]))
  | frame frame reads listens =>
      exact .received _ frame listens (by simp [reads, WebSocketReader.stage]) rfl listens
  | heard hears => exact .nothing nofun rfl (.inl (by simp [hears, WebSocketReader.stage]))
  | @leave _ exit exits =>
      exact .nothing nofun rfl ((stage_leaving exit).imp (·.trans exits.stage.symm) id)
  | conclude leaves listens =>
      exact .closed _ _ listens (by simp [leaves, WebSocketReader.stage]) rfl
  | fail e fails known listens => exact .failed _ _ listens rfl
  | abandon | openingFailed | leaveCancelled | finish | finishCancelled =>
      exact .nothing nofun rfl (.inr rfl)

theorem Writes.speaks (writes : Writes url w m w' rs) :
    Speaks (fun w : WebSocket => w.reader.stage) w w' (.move m) rs := by
  cases writes with
  | reject e writes goes listens => exact .failed _ _ listens rfl
  | _ => exact .nothing nofun rfl (.inl rfl)

theorem Moves.speaks (moves : Moves url w m w' rs) :
    Speaks (fun w : WebSocket => w.reader.stage) w w' (.move m) rs := by
  cases moves with
  | reads reads => exact reads.speaks
  | writes writes => exact writes.speaks

end WebSocket

instance : Orderly WebSocket where
  stage w := w.reader.stage
  speaks {_ w _ turn _} taken := by
    cases turn with
    | move m => exact (WebSocket.moves_of_move taken).speaks
    | send payload =>
        cases taken
        exact .nothing nofun (w.closed_send payload)
          (.inl (congrArg WebSocketReader.stage (w.reader_send payload)))
    | close =>
        cases taken
        exact .silenced w.closed_close
    | unsent | interrupt =>
        cases taken
        exact .nothing nofun rfl (.inl rfl)

/-! ## Streamed HTTP responses -/

/-- The stage at which the task of a response stands. -/
def HttpReader.stage : HttpReader → Stage
  | .fresh | .requesting => .unopened
  | .opening | .reading | .hearing _ | .leaving .ended => .opened
  | .refusing _ | .leaving _ | .reporting | .disposing | .finished => .spent

namespace HttpStream

variable {url : Text} {h h' : HttpStream} {m : Move} {rs : List Report}

/-- Only a body that has ended is left with more to report than a failure. -/
theorem Exits.stage {exit : HttpExit} (exits : Exits h m exit) :
    (HttpReader.leaving exit).stage = h.reader.stage ∨
      (HttpReader.leaving exit).stage = .spent := by
  cases exits with
  | ended reads => exact .inl (by rw [reads]; rfl)
  | _ => exact .inr rfl

/-- A piece has changed the buffer of the connection before its payloads are delivered. -/
theorem Delivers.speaks {before : HttpStream} {payloads : List Text}
    (delivers : Delivers h payloads h' rs) (same : h.closed = before.closed)
    (opened : before.reader.stage = .opened) :
    Speaks (fun h : HttpStream => h.reader.stage) before h' (.move m) rs := by
  cases delivers with
  | done => exact .nothing nofun same (.inl opened.symm)
  | late => exact .nothing nofun same (.inr rfl)
  | payload payload next listens =>
      exact .received _ _ (same.symm.trans listens) opened rfl listens

theorem reportOf_eq (url : Text) (e : Failure) : ∃ tf, reportOf url e = .transport tf := by
  unfold reportOf
  split
  case h_1 tf transport =>
    refine ⟨tf, ?_⟩
    cases fault : e.fault <;> simp_all [Fault.transport?]
  case h_2 => exact ⟨_, rfl⟩

theorem stage_afterwards (h : HttpStream) : h.afterwards.stage = .spent := by
  unfold afterwards
  split <;> rfl

theorem Moves.speaks (moves : Moves url h m h' rs) :
    Speaks (fun h : HttpStream => h.reader.stage) h h' (.move m) rs := by
  cases moves with
  | begin fresh => exact .nothing nofun rfl (.inl (by simp [fresh, HttpReader.stage]))
  | answered waits success listens =>
      exact .opened _ listens (by simp [waits, HttpReader.stage]) rfl listens
  | opened opens => exact .nothing nofun rfl (.inl (by simp [opens, HttpReader.stage]))
  | piece text reads delivers =>
      exact delivers.speaks rfl (by simp [reads, HttpReader.stage])
  | heard hears delivers => exact delivers.speaks rfl (by simp [hears, HttpReader.stage])
  | leave exits => exact .nothing nofun rfl exits.stage
  | conclude leaves listens =>
      exact .closed _ _ listens (by simp [leaves, HttpReader.stage]) rfl
  | refuse leaves listens => exact .failed _ _ listens rfl
  | fail e fails known listens =>
      obtain ⟨tf, same⟩ := reportOf_eq url e
      exact same ▸ .failed _ tf listens rfl
  | finish | finishCancelled => exact .nothing nofun rfl (.inr (stage_afterwards _))
  | refusing | leaveCancelled | endCancelled | disposed => exact .nothing nofun rfl (.inr rfl)

end HttpStream

instance : Orderly HttpStream where
  stage h := h.reader.stage
  speaks {_ h _ turn _} taken := by
    cases turn with
    | move m => exact (HttpStream.moves_of_move taken).speaks
    | close =>
        cases taken
        exact .silenced h.closed_close
    | send | unsent | interrupt =>
        cases taken
        exact .nothing nofun rfl (.inl rfl)

/-! ## The reports of a course -/

/-- A connection of either kind reports its opening, then frames, and then at most once that it was
closed or has failed; one that was not opened reports nothing, or that it has failed. Nothing is
reported after its owner has closed it. -/
theorem spoken_and_silenced (url : Text) :
    (∀ c : Course WebSocket, c.Reached url {} → Spoken c.past.reports ∧ c.past.Silenced) ∧
      ∀ (ownsClient : Bool) (c : Course HttpStream), c.Reached url { ownsClient } →
        Spoken c.past.reports ∧ c.past.Silenced := by
  constructor
  · intro c reached
    have ordered := ordered_of_reached rfl rfl reached
    exact ⟨ordered.spoken, ordered.silenced⟩
  · intro ownsClient c reached
    have ordered := ordered_of_reached rfl rfl reached
    exact ⟨ordered.spoken, ordered.silenced⟩

/-- A connection that its owner closes while it hears the first of two frames. -/
def hushed : Course WebSocket := Course.plays "ws://localhost/hushed" { now := {} }
  [.move .begin, .move .accepted, .move (.heard none), .move (.frame (.text "one")), .close,
    .move (.heard none), .move (.frame (.text "two")), .move (.left none)]

/-- A response with one payload that is read to its end. -/
def readOut : Course HttpStream := Course.plays "http://localhost/out" { now := {} }
  [.move .begin, .move (.answered 200), .move (.heard none), .move (.piece "data: one\n\n"),
    .move (.heard none), .move .ended, .move (.left none)]

theorem spoken_hushed_readOut :
    (hushed.past.reports = [.opened, .received (.text "one")] ∧ Spoken hushed.past.reports ∧
      hushed.past.Silenced) ∧
    readOut.past.reports = [.opened, .received (.text "one"), .closed .null] ∧
      Spoken readOut.past.reports ∧ readOut.past.Silenced :=
  ⟨⟨rfl, (spoken_and_silenced _).1 hushed (Course.leads_plays _ _)⟩,
    rfl, (spoken_and_silenced _).2 true readOut (Course.leads_plays _ _)⟩

end EventStream.Transport
