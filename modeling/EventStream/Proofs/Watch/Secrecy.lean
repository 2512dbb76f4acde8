import EventStream.Proofs.Session.LateReports
import EventStream.Proofs.Transport.Course
import EventStream.Proofs.Url.Redaction
import EventStream.Watch

/-
# The token never reaches the log

A subscription that carries a token in its endpoint is run twice, with two tokens, in the same
surroundings. No record of the log, no occurrence and no fault that the session makes tells the two
apart: every run of the one is a run of the other, turn by turn and effect by effect, and so is
every course of the WebSocket connections that carry it (`runs_of_tokens`). What a session may show
of its endpoint is the endpoint with its tokens hidden, and there the two endpoints are equal,
whatever separators the base and the tokens hold.

The proof has two halves. A session depends on its endpoint only through what may be shown of it,
which goes from the tasks to the moves and from there to whole runs; a WebSocket connection depends
on its URL in the same way. And the quoted token stands at the end of a query, where redaction hides
it.
-/

namespace EventStream

namespace Session

variable {setup : Setup} {endpoint : Text}

/-! ## Sessions that differ in their endpoint -/

theorem Setup.openFailure_of_redacted (same : Url.redact endpoint = setup.redacted) (f : Fault) :
    Setup.openFailure { setup with endpoint } f = setup.openFailure f := by
  unfold Setup.openFailure
  cases f.transport? with
  | some => rfl
  | none => simp [Setup.redacted] at same ⊢; exact same

theorem Setup.perform_of_redacted (same : Url.redact endpoint = setup.redacted) (s : State)
    (t : Task) : Setup.perform { setup with endpoint } s t = setup.perform s t := by
  cases t with
  | serve call =>
      cases call with
      | start =>
          have shown : Setup.redacted { setup with endpoint } = setup.redacted := same
          simp [Setup.perform, Setup.serve, Setup.serveStart, shown, Setup.say]
      | _ => rfl
  | notify o handlers => cases handlers <;> rfl
  | _ => rfl

theorem Setup.resume_of_redacted (same : Url.redact endpoint = setup.redacted) (s : State)
    (a : Await) (r : Reply) : Setup.resume { setup with endpoint } s a r = setup.resume s a r := by
  cases a with
  | dialling n =>
      cases r with
      | raised f =>
          simp [Setup.resume, Setup.dialFailed, Setup.openFailure_of_redacted same, Setup.say]
      | _ => rfl
  | sending n p | draining n p sent =>
      cases r with
      | accepted yes => cases yes <;> rfl
      | _ => rfl
  | _ => cases r <;> rfl

theorem Machine.move_of_redacted (same : Url.redact endpoint = setup.redacted) (m : Machine)
    (move : Move) : m.move? { setup with endpoint } move = m.move? setup move := by
  cases move with
  | call => rfl
  | work => simp only [move?, work?, Setup.perform_of_redacted same]
  | reply => simp only [move?, reply?, Setup.resume_of_redacted same]

/-- Two endpoints of which the same may be shown make no difference to a run. -/
theorem Course.run_of_redacted (same : Url.redact endpoint = setup.redacted) (c : Course)
    (turns : List Turn) : c.run? { setup with endpoint } turns = c.run? setup turns := by
  have takes (c : Course) (turn : Turn) :
      c.take? { setup with endpoint } turn = c.take? setup turn := by
    simp only [take?, Machine.move_of_redacted same]
  induction turns generalizing c with
  | nil => rfl
  | cons turn turns ih =>
      simp only [run?, List.foldlM_cons, takes]
      exact bind_congr ih

end Session

/-- A WebSocket connection shows its URL only with the tokens hidden. -/
theorem Transport.WebSocket.move_of_redacted {url other : Text}
    (same : Url.redact url = Url.redact other) : move? url = move? other := by
  have shown : redacted url = redacted other := same
  have faults : faultOf url = faultOf other := by unfold faultOf; rw [shown]
  have fails : fail url = fail other := by unfold fail; rw [shown]
  have ends : readerFails url = readerFails other := by unfold readerFails; rw [faults, fails]
  have stops : readerCancelled url = readerCancelled other := by unfold readerCancelled; rw [shown]
  have concludes : conclude url = conclude other := by
    funext w exit
    cases exit <;> simp only [conclude, shown, ends, stops]
  have rejects : reject url = reject other := by unfold reject; rw [shown, faults, fails]
  have cancels : cancel url = cancel other := by unfold cancel; rw [stops]
  have writes : write? url = write? other := by unfold write?; rw [rejects]
  have advances : advance? url = advance? other := by
    unfold advance?
    rw [shown, ends, concludes, cancels, writes]
  unfold move?
  rw [advances]

/-- Two URLs of which the same may be shown make no difference to the courses of a connection. -/
theorem Transport.Course.leads_of_redacted {url other : Text}
    (same : Url.redact url = Url.redact other) (c d : Course WebSocket) :
    c.Leads url d ↔ c.Leads other d := by
  have takes (c : Course WebSocket) (turn : Turn WebSocket) :
      c.take? url turn = c.take? other turn := by
    cases turn with
    | move m =>
        have moves : Connection.move? url c.now m = Connection.move? other c.now m :=
          congrFun (congrFun (WebSocket.move_of_redacted same) c.now) m
        simp only [take?, Turn.take?, moves]
    | _ => rfl
  have nexts : (Next url : Course WebSocket → Course WebSocket → Prop) = Next other := by
    funext c d
    simp only [Next, takes]
  rw [Leads, Leads, nexts]

/-! ## Endpoints that carry a token -/

namespace Endpoint

/-- What may be shown of a URL with a token. -/
theorem redact_watchUrl (base path : Text) (agent : Value) {token : Text}
    (plain : token.all CodePoint.isScalar) :
    (watchUrl base path agent (.text token)).map Url.redact =
      ((written agent).bind (quoted .query)).map fun agent =>
        Url.redact (Text.concat [trimSlashes base, path, "?agent_id=", agent]) ++
          Text.ofString "&token=***" := by
  obtain ⟨shown, writes⟩ := Url.exists_quote .query plain
  have carries : quoted .query token = .ok shown := by simp [quoted, writes, Except.mapError]
  have given : written (.text token) = .ok token := rfl
  unfold watchUrl
  cases written agent with
  | error e => rfl
  | ok agent =>
      rw [given]
      change Except.map Url.redact (quoted .query agent >>= fun agent =>
        quoted .query token >>= fun token => _) = (quoted .query agent).map _
      cases quoted .query agent with
      | error e => rfl
      | ok agent =>
          let front : Text := Text.concat [trimSlashes base, path, "?agent_id=", agent]
          have query : .scalar '?' ∈ front := by simp [front, Text.concat, Text.ofString]
          have hidden := Url.redact_append_token query (Url.not_mem_of_quote (by decide) writes)
          have parts :
              Text.concat [trimSlashes base, path, "?agent_id=", agent, "&token=", shown] =
                front ++ Text.ofString "&token=" ++ shown := by simp [front, Text.concat]
          rw [carries]
          exact congrArg Except.ok ((congrArg Url.redact parts).trans hidden)

/-- A token that is given is used. -/
theorem tokenFor_of_given (s : Config.Store) {token : Text} (given : token ≠ []) :
    tokenFor s (.text token) = .ok token := by
  cases token with
  | nil => contradiction
  | cons => rfl

end Endpoint

namespace Watch

/-- The subscriptions that carry a token in their endpoint. -/
def carryingToken (agent : Value) : List (Text → Watch) :=
  [fun token => .skillSync agent (.text token), fun token => .output agent (.text token)]

variable {s : Config.Store} {agent : Value} {watch : Text → Watch} {t u : Text}

theorem endpoint_of_given (carries : watch ∈ carryingToken agent) : ∃ path, ∀ token ≠ [],
    (watch token).endpoint s = (Endpoint.webSocketBase s).bind fun base =>
      Endpoint.watchUrl base path agent (.text token) := by
  simp only [carryingToken, List.mem_cons, List.not_mem_nil, or_false] at carries
  rcases carries with rfl | rfl
  · refine ⟨"/api/skill-sync/watch", fun token given => ?_⟩
    simp only [endpoint, Endpoint.tokenFor_of_given s given]
    rfl
  · refine ⟨"/api/workspace/output/watch", fun token given => ?_⟩
    simp only [endpoint, Endpoint.tokenFor_of_given s given]
    rfl

/-- The endpoints for two tokens are the same as far as they may be shown. -/
theorem redact_endpoint (carries : watch ∈ carryingToken agent) (given : t ≠ [])
    (given' : u ≠ []) (plain : t.all CodePoint.isScalar) (plain' : u.all CodePoint.isScalar) :
    ((watch t).endpoint s).map Url.redact = ((watch u).endpoint s).map Url.redact := by
  obtain ⟨path, reads⟩ := @endpoint_of_given s agent watch carries
  rw [reads t given, reads u given']
  cases Endpoint.webSocketBase s with
  | error e => rfl
  | ok base =>
      exact (Endpoint.redact_watchUrl base path _ plain).trans
        (Endpoint.redact_watchUrl base path _ plain').symm

/-- A subscription that carries a token is run with two tokens, in the same surroundings. Either it
cannot be begun with either of them, for the same reason, or every run of the one is a run of the
other: in every turn the same is written to the log, the same is told, the same is asked for, and
the same fault leaves a call; and so it is with the courses of the WebSocket connections to the two
endpoints. In particular the same may be shown of the two endpoints, and the same fault is made of
an opening that fails. -/
theorem runs_of_tokens {α : Type} (carries : watch ∈ carryingToken agent) (given : t ≠ [])
    (given' : u ≠ []) (plain : t.all CodePoint.isScalar) (plain' : u.all CodePoint.isScalar)
    (carrier : Except Fault α) :
    (∃ f, (watch t).plan s carrier = .error f ∧ (watch u).plan s carrier = .error f) ∨
    ∃ a b x, (watch t).plan s carrier = .ok (a, x) ∧ (watch u).plan s carrier = .ok (b, x) ∧
      a.redacted = b.redacted ∧ (∀ f, a.openFailure f = b.openFailure f) ∧
      (∀ c turns, Session.Course.run? a c turns = Session.Course.run? b c turns) ∧
      ∀ c d : Transport.Course Transport.WebSocket,
        c.Leads a.endpoint d ↔ c.Leads b.endpoint d := by
  have shown := @redact_endpoint s agent watch t u carries given given' plain plain'
  obtain ⟨group, name, decoder, outbound⟩ : (watch t).group = (watch u).group ∧
      (watch t).name = (watch u).name ∧ (watch t).decoder = (watch u).decoder ∧
      (watch t).isOutbound = (watch u).isOutbound := by
    simp only [carryingToken, List.mem_cons, List.not_mem_nil, or_false] at carries
    rcases carries with rfl | rfl <;> exact ⟨rfl, rfl, rfl, rfl⟩
  unfold plan
  rw [group, name, decoder, outbound]
  cases first : (watch t).endpoint s with
  | error e =>
      cases second : (watch u).endpoint s with
      | error e' =>
          obtain rfl : e = e' := by simpa [first, second, Except.map] using shown
          exact .inl ⟨e.toFault, rfl, rfl⟩
      | ok => simp [first, second, Except.map] at shown
  | ok e =>
      cases second : (watch u).endpoint s with
      | error => simp [first, second, Except.map] at shown
      | ok e' =>
          have same : Url.redact e = Url.redact e' := by
            simpa [first, second, Except.map] using shown
          cases carrier with
          | error f => exact .inl ⟨f, rfl, rfl⟩
          | ok x =>
              cases s.policy (watch u).group with
              | error f => exact .inl ⟨f, rfl, rfl⟩
              | ok policy =>
                  let b : Session.Setup := {
                    endpoint := e'
                    name := (watch u).name
                    decode := Session.decodeBy (watch u).decoder
                    policy
                    outbound := (watch u).isOutbound }
                  exact .inr ⟨{ b with endpoint := e }, b, x, rfl, rfl, same,
                    Session.Setup.openFailure_of_redacted same,
                    Session.Course.run_of_redacted same, Transport.Course.leads_of_redacted same⟩

/-- Settings whose base holds separators and a token of its own. -/
def gateway : Config.Store where
  path := []
  data := [("endpoints", .table [("ws_url", .text "wss://host/a?b&token=c")]),
    ("skill_sync", .table [])]

/-- The synchronisation of skills is watched with a token. -/
def synced (token : Text) : Watch := .skillSync (.int 3) (.text token)

/-- The subscriber's handler is registered and the session started, whose first connection cannot be
opened. -/
def refusedStart : List Session.Turn := [.call (.on "message" ⟨1, "subscriber"⟩), .work, .work,
  .call .start, .work, .work, .work, .work, .work, .work, .work,
  .reply (.raised (.raised .runtime "no route")), .work, .work, .work, .work]

theorem runs_of_tokens_synced : ∃ a b c,
    (synced "s3cret").plan gateway (.ok ()) = .ok (a, ()) ∧
    (synced "x&token=y?z").plan gateway (.ok ()) = .ok (b, ()) ∧
    a.endpoint = Text.ofString
      "wss://host/a?b&token=c/api/skill-sync/watch?agent_id=3&token=s3cret" ∧
    b.endpoint = Text.ofString
      "wss://host/a?b&token=c/api/skill-sync/watch?agent_id=3&token=x%26token%3Dy%3Fz" ∧
    a.redacted = Text.ofString "wss://host/a?b&token=***&token=***" ∧ a.redacted = b.redacted ∧
    Session.Course.run? a {} refusedStart = some c ∧
    Session.Course.run? b {} refusedStart = some c ∧ c.now.state.phase = .connecting := by
  have carries : synced ∈ carryingToken (.int 3) := List.mem_cons_self
  have first : ((synced "s3cret").plan gateway (.ok ())).toOption.map (fun r => r.1.endpoint) =
      some (Text.ofString
        "wss://host/a?b&token=c/api/skill-sync/watch?agent_id=3&token=s3cret") := by
    decide +kernel
  have second : ((synced "x&token=y?z").plan gateway (.ok ())).toOption.map
      (fun r => r.1.endpoint) = some (Text.ofString
        "wss://host/a?b&token=c/api/skill-sync/watch?agent_id=3&token=x%26token%3Dy%3Fz") := by
    decide +kernel
  have goes : ((synced "s3cret").plan gateway (.ok ())).toOption.bind (fun r =>
      (Session.Course.run? r.1 {} refusedStart).map fun c => c.now.state.phase) =
        some .connecting := rfl
  have unseen := @runs_of_tokens gateway _ _ "s3cret" "x&token=y?z" _ carries (by decide)
    (by decide) (by decide) (by decide) (.ok ())
  rcases unseen with ⟨f, fails, -⟩ | ⟨a, b, x, plans, plans', same, -, runs, -⟩
  · rw [fails] at first
    exact absurd first.symm (Option.some_ne_none _)
  · rw [plans] at first goes
    rw [plans'] at second
    have endpoint : a.endpoint = Text.ofString
        "wss://host/a?b&token=c/api/skill-sync/watch?agent_id=3&token=s3cret" :=
      Option.some.inj first
    have shown : a.redacted = Text.ofString "wss://host/a?b&token=***&token=***" := by
      rw [Session.Setup.redacted, endpoint]
      decide +kernel
    simp only [Except.toOption, Option.bind_some] at goes
    obtain ⟨c, ran, phase⟩ := Option.map_eq_some_iff.mp goes
    exact ⟨a, b, c, plans, plans', endpoint, Option.some.inj second, shown, same, ran,
      (runs {} refusedStart).symm.trans ran, phase⟩

end Watch

end EventStream
