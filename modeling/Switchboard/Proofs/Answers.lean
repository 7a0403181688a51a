import Switchboard.Proofs.BatchReplies
import Switchboard.Proofs.HeaderLines
import Switchboard.Proofs.TwinRuns

namespace Switchboard

theorem Params.acceptsJson_false {p : Params} : p.acceptsJson = false ↔ ∃ accept, p.accept = some accept ∧
    ¬ "json".toList <:+: accept.toList ∧ ¬ "*/*".toList <:+: accept.toList := by
  unfold acceptsJson
  cases p.accept with
  | none => simp
  | some accept => simp [← Text.occursIn_iff]

theorem Output.unwritten_iff {o : Output} : o.isUnwritten = true ↔ o.isTerminated = false ∧ o.phase ≠ .flushed := by
  obtain ⟨phase, _, _, _⟩ := o
  cases phase <;> simp [isUnwritten, isTerminated]

namespace Dispatcher
open Eval

theorem status_lasts : Outlives (fun o => o.response.status = 200) fun _ => False where
  pending _ good := good
  sent reply good := by
    unfold Output.emit
    split
    · cases reply <;> exact good
    · exact good
  ended good := good
  header _ o _ _ good := by
    obtain ⟨phase, _, _, _⟩ := o
    cases phase <;> exact ⟨good, good⟩
  contentType _ o _ good := by
    obtain ⟨phase, _, _, _⟩ := o
    cases phase <;> exact good
  echo _ o _ good := by
    obtain ⟨phase, _, _, _⟩ := o
    cases phase <;> exact good

def failureResponse (failure : Failure) (fields : List (String × String)) (contentType : Option String) :
    Response where
  status := 200
  headers := fields
  contentType := some (contentType.getD Output.jsonType)
  body := (Json.object [("response", .number (.int failure.status.code)), ("error", .string failure.message)]).render

-- what it takes for a failure to go unreported: the request is no batch, it names a program, this fails with a
-- message of the machinery, and the client takes something that is no JSON
structure Unreported (d : Dispatcher) (params : Params) (path : FunctionPath) (message : String) : Prop where
  single : params.envelope = none
  named : params.functionPath = some path
  fails : (({ d with params } : Dispatcher).process path true).1 = .failed (.structural message)
  accept : ∃ accept, params.accept = some accept ∧
    ¬ "json".toList <:+: accept.toList ∧ ¬ "*/*".toList <:+: accept.toList

structure Answered (d : Dispatcher) (params : Params) : Prop where
  error : ∀ e, (d.respond params).1 = .error e ↔
    ∃ path message, Unreported d params path message ∧ e = ⟨path.text, .structural message⟩
  status : ∀ response, (d.respond params).1 = .ok response → response.status = 200
  nameless : params.envelope = none → params.functionPath = none →
    (d.respond params).1 = .ok (failureResponse (unnamed params) [] none)
  thrown : ∀ path message, params.envelope = none → params.functionPath = some path →
    (({ d with params } : Dispatcher).process path true).1 = .failed (.application message) →
    ∃ response, (d.respond params).1 = .ok response
  failed : ∀ path failure, params.envelope = none → params.functionPath = some path →
    (({ d with params } : Dispatcher).process path true).1 = .failed failure →
    ¬ Invokes (· = .echo) path (d.requested params) →
    ∀ response, (d.respond params).1 = .ok response →
      response = failureResponse failure (d.requestFields params) (d.requestType params)
  accept : ∀ accept, (params.envelope = none → ∀ path, params.functionPath = some path →
      ∀ message, (({ d with params } : Dispatcher).process path true).1 ≠ .failed (.structural message)) →
    (d.respond (params.withAccept accept)).1 = (d.respond params).1

section
variable {d after : Dispatcher} {params : Params} {path : FunctionPath}

theorem start_named (single : params.envelope = none) (named : params.functionPath = some path) :
    d.start params = (path.text, ({ d with params } : Dispatcher).process path true) := by
  unfold start
  rw [single, named]
  rfl

theorem start_nameless (single : params.envelope = none) (nameless : params.functionPath = none) :
    d.start params = ("<none>", .failed (unnamed params), { d with params, context := {} }) := by
  unfold start
  rw [single, nameless]

theorem emit_failure (unwritten : d.output.isUnwritten = true) (status : d.output.response.status = 200)
    (failure : Failure) : (d.emit failure.reply.value).output.finish =
      failureResponse failure d.output.response.headers d.output.contentType := by
  have members : withStatus [("response", .number (.int failure.status.code)), ("error", .string failure.message)] =
      [("response", .number (.int failure.status.code)), ("error", .string failure.message)] := by
    simp [withStatus, Entries.has, Entries.find]
  have written := emit_unwritten unwritten
    [("response", .number (.int failure.status.code)), ("error", .string failure.message)]
  rw [members] at written
  show (d.emit (.object _)).output.response = _
  rw [failureResponse, ← status]
  exact written

theorem run_status (fits : d.maxDepth ≤ Context.maxDepth) (path : FunctionPath)
    (status : d.output.response.status = 200) : (run path d).2.output.response.status = 200 := by
  by_contra lost
  obtain ⟨_, _, _, _, _, _, _, _, impossible⟩ := status_lasts.run_invokes path d fits status lost
  exact impossible

-- A failure leaves the output open, and as long as nothing is echoed nothing is written in it.
theorem run_unwritten (fits : d.maxDepth ≤ Context.maxDepth) (single : d.batch = false)
    (unwritten : d.output.isUnwritten = true) {failure : Failure} (fails : run path d = (.failed failure, after))
    (silent : ¬ Invokes (· = .echo) path d) : after.output.isUnwritten = true := by
  obtain ⟨unended, unflushed⟩ := Output.unwritten_iff.mp unwritten
  have left := live_lasts.run path d ⟨single, unended⟩
  have silent' : (run path d).2.output.phase ≠ .flushed := by
    by_contra lost
    exact silent (echo_flushes.run_invokes path d fits unflushed (not_not.mpr lost))
  rw [fails] at left silent'
  have live : Live after := left.live nofun
  exact Output.unwritten_iff.mpr ⟨live.unended, silent'⟩

end

section
variable {d after : Dispatcher} {params : Params} {path : FunctionPath}

theorem process_kept (fits : d.maxDepth ≤ Context.maxDepth) {outcome : Outcome}
    (ends : ({ d with params } : Dispatcher).process path true = (outcome, after)) : after.params = params := by
  have kept := run_orderly path { d with params, context := {} } fits
  rw [show run path { d with params, context := {} } = (outcome, after) from ends] at kept
  exact kept.params

theorem respond_failed (fits : d.maxDepth ≤ Context.maxDepth) (single : params.envelope = none)
    (named : params.functionPath = some path) {failure : Failure}
    (ends : ({ d with params } : Dispatcher).process path true = (.failed failure, after)) :
    (d.respond params).1 =
      if failure.isAlwaysReported || params.acceptsJson then .ok (after.emit failure.reply.value).output.finish
      else .error ⟨path.text, failure⟩ := by
  unfold respond
  rw [start_named single named, ends]
  dsimp only
  rw [process_kept fits ends]
  split <;> rfl

theorem respond_ended (single : params.envelope = none) (named : params.functionPath = some path)
    {outcome : Outcome} (ends : ({ d with params } : Dispatcher).process path true = (outcome, after))
    (fine : ∀ failure, outcome ≠ .failed failure) : (d.respond params).1 = .ok after.output.finish := by
  unfold respond
  rw [start_named single named, ends]
  cases outcome with
  | failed failure => exact absurd rfl (fine failure)
  | _ => rfl

theorem respond_nameless (single : params.envelope = none) (nameless : params.functionPath = none) :
    (d.respond params).1 =
      .ok (({ d with params, context := {} } : Dispatcher).emit (unnamed params).reply.value).output.finish := by
  unfold respond
  rw [start_nameless single nameless]
  rfl

-- The failures that a program comes to are its own or those of the machinery.
theorem process_failed (fits : d.maxDepth ≤ Context.maxDepth) {failure : Failure}
    (ends : ({ d with params } : Dispatcher).process path true = (.failed failure, after)) :
    (∃ message, failure = .application message) ∨ ∃ message, failure = .structural message := by
  have settled := run_settled path { d with params, context := {} } fits
  rw [show run path { d with params, context := {} } = (.failed failure, after) from ends] at settled
  cases failure with
  | functionNotFound missing => exact absurd rfl (settled.failed missing)
  | application message => exact .inl ⟨message, rfl⟩
  | structural message => exact .inr ⟨message, rfl⟩

theorem respond_error (fits : d.maxDepth ≤ Context.maxDepth) (single : params.envelope = none) (e : Unhandled) :
    (d.respond params).1 = .error e ↔
      ∃ path message, Unreported d params path message ∧ e = ⟨path.text, .structural message⟩ := by
  constructor
  · intro fails
    cases named : params.functionPath with
    | none =>
      rw [respond_nameless single named] at fails
      cases fails
    | some path =>
      cases ends : ({ d with params } : Dispatcher).process path true with
      | mk outcome after =>
        by_cases fine : ∀ failure, outcome ≠ .failed failure
        · rw [respond_ended single named ends fine] at fails
          cases fails
        · obtain ⟨failure, same⟩ := not_forall_not.mp fine
          subst same
          rw [respond_failed fits single named ends] at fails
          split at fails
          · cases fails
          · next unreported =>
            obtain ⟨unheard, refused⟩ := Bool.or_eq_false_iff.mp (Bool.eq_false_of_not_eq_true unreported)
            rcases process_failed fits ends with ⟨message, rfl⟩ | ⟨message, rfl⟩
            · cases unheard
            · cases fails
              exact ⟨path, message, ⟨single, named, congrArg Prod.fst ends, Params.acceptsJson_false.mp refused⟩, rfl⟩
  · rintro ⟨path, message, unreported, rfl⟩
    cases ends : ({ d with params } : Dispatcher).process path true with
    | mk outcome after =>
      have fails := unreported.fails
      rw [ends] at fails
      dsimp only at fails
      subst fails
      rw [respond_failed fits single unreported.named ends, Params.acceptsJson_false.mpr unreported.accept]
      rfl

theorem respond_status (fits : d.maxDepth ≤ Context.maxDepth) (single : params.envelope = none)
    (status : d.output.response.status = 200) {response : Response}
    (answers : (d.respond params).1 = .ok response) : response.status = 200 := by
  have emitted {m : Dispatcher} (good : m.output.response.status = 200) (value : Json) :
      (m.emit value).output.finish.status = 200 := status_lasts.sent (.normalize value) good
  cases named : params.functionPath with
  | none =>
    rw [respond_nameless single named] at answers
    cases answers
    exact emitted status _
  | some path =>
    cases ends : ({ d with params } : Dispatcher).process path true with
    | mk outcome after =>
      have kept : (run path { d with params, context := {} }).2.output.response.status = 200 :=
        run_status (d := { d with params, context := {} }) fits path status
      rw [show run path { d with params, context := {} } = (outcome, after) from ends] at kept
      by_cases fine : ∀ failure, outcome ≠ .failed failure
      · rw [respond_ended single named ends fine] at answers
        cases answers
        exact kept
      · obtain ⟨failure, same⟩ := not_forall_not.mp fine
        subst same
        rw [respond_failed fits single named ends] at answers
        split at answers <;> cases answers
        exact emitted kept _

-- What a run puts to an empty output is what was asked for in the request.
theorem requested_head (fits : d.maxDepth ≤ Context.maxDepth) (fresh : head d.output = ([], none))
    (single : params.envelope = none) (named : params.functionPath = some path) {outcome : Outcome}
    (ends : ({ d with params } : Dispatcher).process path true = (outcome, after)) :
    head after.output = (d.requestFields params, d.requestType params) := by
  have puts := run_puts d.maxDepth path (d.requested params) fits (Nat.sub_le _ _)
  have ran : run path (d.requested params) = (outcome, after) := ends
  have begun : head (d.requested params).output = ([], none) := fresh
  unfold Puts at puts
  rw [ran, begun] at puts
  unfold requestFields requestType requestLines
  rw [single, named, puts]
  refine Prod.ext ?_ ?_
  · rw [put_fields, List.nil_append]
  · rw [put_type, Option.or_none]

theorem respond_failure (fits : d.maxDepth ≤ Context.maxDepth) (plain : d.batch = false)
    (unwritten : d.output.isUnwritten = true) (status : d.output.response.status = 200)
    (fresh : head d.output = ([], none)) (single : params.envelope = none)
    (named : params.functionPath = some path) {failure : Failure}
    (fails : (({ d with params } : Dispatcher).process path true).1 = .failed failure)
    (silent : ¬ Invokes (· = .echo) path (d.requested params)) {response : Response}
    (answers : (d.respond params).1 = .ok response) :
    response = failureResponse failure (d.requestFields params) (d.requestType params) := by
  cases ends : ({ d with params } : Dispatcher).process path true with
  | mk outcome after =>
    rw [ends] at fails
    dsimp only at fails
    subst fails
    have ran : run path (d.requested params) = (.failed failure, after) := ends
    have kept := run_status (d := d.requested params) fits path status
    rw [ran] at kept
    have left := run_unwritten (d := d.requested params) fits plain unwritten ran silent
    obtain ⟨fields, contentType⟩ := Prod.mk.inj (requested_head fits fresh single named ends)
    rw [respond_failed fits single named ends] at answers
    split at answers <;> cases answers
    rw [emit_failure left kept failure, fields, contentType]

theorem respond_accept (params : Params) (accept : Option String)
    (unstructural : params.envelope = none → ∀ path, params.functionPath = some path →
      ∀ message, (({ d with params } : Dispatcher).process path true).1 ≠ .failed (.structural message)) :
    (d.respond (params.withAccept accept)).1 = (d.respond params).1 := by
  have twin : Twin (fun p => p.withAccept accept) d { d with params := d.params.withAccept accept } :=
    ⟨d.cache, .refl d.cache, rfl⟩
  -- what a dispatcher was asked before makes no difference
  show (({ d with params := d.params.withAccept accept } : Dispatcher).respond (params.withAccept accept)).1 = _
  refine respond_twin (.accept accept) twin params (.inr fun message => ?_)
  cases single : params.envelope with
  | some envelope =>
    unfold start
    rw [single]
    exact Outcome.noConfusion
  | none =>
    cases named : params.functionPath with
    | none =>
      rw [start_nameless single named]
      unfold unnamed
      simp
    | some path =>
      rw [start_named single named]
      exact unstructural single path named message

end

-- Whatever the sources are and whatever is requested.
theorem request_answered (cache : ProgramCache) (limit : Nat) (fits : limit ≤ Context.maxDepth) (params : Params) :
    Answered { cache, maxDepth := limit } params := by
  refine ⟨?_, ?_, ?_, ?_, ?_, fun accept => respond_accept params accept⟩
  · intro e
    cases single : params.envelope with
    | none => exact respond_error fits single e
    | some envelope =>
      rw [respond_batch fits single]
      refine iff_of_false nofun ?_
      rintro ⟨_, _, unreported, _⟩
      cases single.symm.trans unreported.single
  · intro response answers
    cases single : params.envelope with
    | none => exact respond_status fits single rfl answers
    | some envelope =>
      rw [respond_batch fits single] at answers
      cases answers
      rfl
  · intro single nameless
    rw [respond_nameless single nameless]
    exact congrArg Except.ok (emit_failure rfl rfl _)
  · intro path message single named thrown
    cases ends : ({ cache, maxDepth := limit, params } : Dispatcher).process path true with
    | mk outcome after =>
      rw [ends] at thrown
      dsimp only at thrown
      subst thrown
      exact ⟨_, (respond_failed fits single named ends).trans (if_pos rfl)⟩
  · intro path failure single named fails silent response answers
    exact respond_failure fits rfl rfl rfl rfl single named fails silent answers

-- one source, the program of which tells its content type and then makes a call
def refusing : ProgramCache := .sourceOnly "(content-type 'text/csv')(icall '')" ⟨5, 0⟩

def refusingProgram : Source.Program :=
  [.template (.call "content-type" [.literal (.string "text/csv")]),
    .template (.call "icall" [.literal (.string "")])]

theorem refusing_full {d : Dispatcher} (cache : d.cache = refusing) (top : d.stack = []) (limit : d.maxDepth = 0)
    (single : d.batch = false) (unwritten : d.output.isUnwritten = true) :
    (run ⟨"a"⟩ d).1 = .failed (.structural "Maximum call depth of 0 exceeded calling \"\"") ∧
      ¬ Invokes (· = .echo) ⟨"a"⟩ d ∧ lines 0 ⟨"a"⟩ d = [("content-type", "text/csv")] := by
  have compiles : ProgramCache.compileText ⟨"a"⟩ "(content-type 'text/csv')(icall '')" = .ok refusingProgram := by cbv
  obtain ⟨inside, opened⟩ := sourceOnly_opening compiles cache top
  obtain ⟨_, batch, _, limit', output, _⟩ := opening_kept opened
  let typed : Dispatcher := { inside with output := inside.output.setContentType "text/csv" }
  have none : typed.maxDepth = 0 := limit'.trans limit
  have goes : (host (some run)).invoke "content-type" [.string "text/csv"] inside = (.ok .null, typed) := by
    rw [host_invoke]
    show unlessBatch _ inside = _
    unfold unlessBatch
    rw [if_neg (by simp [batch, single])]
    rfl
  have refused (mode : CallMode) : started mode [.string ""] typed = .error (typed.depthExceeded "") := by
    simp only [started, namedArgs, none, Nat.zero_le, if_true]
    rfl
  have invoked : (host (some run)).invoke "icall" [.string ""] typed = (.error (typed.depthExceeded ""), typed) := by
    rw [host_invoke]
    show callOperator (some run) .isolated [.string ""] typed = _
    rw [callOperator_some, refused]
  let first : Invocation Dispatcher := ⟨"content-type", [.string "text/csv"], inside, .ok .null, typed⟩
  let second : Invocation Dispatcher := ⟨"icall", [.string ""], typed, .error (typed.depthExceeded ""), typed⟩
  have recorded : events ⟨"a"⟩ d = [.invoked first, .invoked second] := by
    rw [events_eq opened, refusingProgram, operators_events _ rfl rfl rfl rfl _ _ goes, invoked]
  have only {i : Invocation Dispatcher} (happens : .invoked i ∈ events ⟨"a"⟩ d) : i = first ∨ i = second := by
    rw [recorded] at happens
    simpa using happens
  refine ⟨?_, ?_, ?_⟩
  · have happens : .invoked second ∈ history (host (some run)) refusingProgram inside := by
      rw [← events_eq opened, recorded]
      simp
    have message : "Maximum call depth of " ++ toString 0 ++ " exceeded calling \"" ++ "" ++ "\"" =
        "Maximum call depth of 0 exceeded calling \"\"" := by decide
    have exceeded : typed.depthExceeded "" = .failed "Maximum call depth of 0 exceeded calling \"\"" := by
      rw [depthExceeded, none, message]
    rw [run_opened (limit ▸ Nat.zero_le _) opened, (history_failed happens rfl).1, exceeded]
    rfl
  · rintro ⟨calls, caller, s, i, p, activation, happens, named, rfl⟩
    -- neither invocation starts a call
    have uncalled (mode : CallMode) : first.operator ≠ mode.operator := by
      change "content-type" ≠ mode.operator
      cases mode <;> decide
    have alone {calls : Nat} {caller : FunctionPath} {s : Dispatcher}
        (activation : Activation ⟨"a"⟩ d calls caller s) : caller = ⟨"a"⟩ ∧ s = d := by
      induction activation with
      | start => exact ⟨rfl, rfl⟩
      | call _ makes ih =>
        obtain ⟨rfl, rfl⟩ := ih
        have starts := makes.starts
        rcases only makes.happens with rfl | rfl
        · exact absurd makes.operator (uncalled _)
        · rw [refused] at starts
          cases starts
    obtain ⟨rfl, rfl⟩ := alone activation
    rcases only happens with rfl | rfl <;> cases named
  · show (events ⟨"a"⟩ d).flatMap (eventLines fun _ _ => []) = _
    have room : inside.batch = false ∧ inside.output.isUnwritten = true := by
      rw [batch, output]
      exact ⟨single, unwritten⟩
    have told : eventLines (fun _ _ => []) (.invoked first) = [("content-type", "text/csv")] := if_pos room
    have called : eventLines (fun _ _ => []) (.invoked second) = [] := by
      have isolated : Primitive.ofName? second.operator = some .icall := rfl
      have starts : started .isolated second.args second.before = .error (typed.depthExceeded "") := refused .isolated
      simp only [eventLines, isolated, callLines, starts]
    rw [recorded, List.flatMap_cons, List.flatMap_cons, told, called]
    rfl

-- A client that takes no JSON is not told of the limit, one that does is, with the content type of the program;
-- and every client is told that a name is missing.
theorem request_answered_full :
    let d : Dispatcher := { cache := refusing, maxDepth := 0 }
    let params : Params := { values := [("f", "a")], accept := some "text/html" }
    let heard : Params := params.withAccept (some "application/json")
    let nameless : Params := { accept := some "text/html" }
    let message := "Maximum call depth of 0 exceeded calling \"\""
    0 ≤ Context.maxDepth ∧ (d.respond params).1 = .error ⟨"a", .structural message⟩ ∧
      (d.respond heard).1 = .ok (failureResponse (.structural message) [] (some "text/csv")) ∧
      (d.respond nameless).1 = .ok (failureResponse (.functionNotFound ⟨""⟩) [] none) ∧
      (d.respond (nameless.withAccept none)).1 = .ok (failureResponse (.functionNotFound ⟨""⟩) [] none) := by
  intro d params heard nameless message
  have fits : 0 ≤ Context.maxDepth := Nat.zero_le _
  have single : params.envelope = none := by decide
  have named : params.functionPath = some ⟨"a"⟩ := by cbv
  have accept : ¬ "json".toList <:+: "text/html".toList ∧ ¬ "*/*".toList <:+: "text/html".toList := by decide
  have ends (p : Params) : (({ d with params := p } : Dispatcher).process ⟨"a"⟩ true).1 =
      .failed (.structural message) ∧ ¬ Invokes (· = .echo) ⟨"a"⟩ (d.requested p) ∧
        lines 0 ⟨"a"⟩ (d.requested p) = [("content-type", "text/csv")] := refusing_full rfl rfl rfl rfl rfl
  have refused := request_answered refusing 0 fits params
  have told := request_answered refusing 0 fits heard
  have missing := request_answered refusing 0 fits nameless
  refine ⟨fits, ?_, ?_, ?_, ?_⟩
  · exact (refused.error _).mpr ⟨⟨"a"⟩, message, ⟨single, named, (ends params).1, _, rfl, accept⟩, rfl⟩
  · obtain ⟨fails, silent, asked⟩ := ends heard
    have fields : d.requestFields heard = [] := by
      show (lines 0 ⟨"a"⟩ (d.requested heard)).filter isField = []
      rw [asked]
      cbv
    have contentType : d.requestType heard = some "text/csv" := by
      show ((lines 0 ⟨"a"⟩ (d.requested heard)).filter _).getLast?.map Prod.snd = _
      rw [asked]
      cbv
    cases answers : (d.respond heard).1 with
    | error e =>
      obtain ⟨_, _, unreported, _⟩ := (told.error e).mp answers
      obtain ⟨accept, same, refuses, _⟩ := unreported.accept
      cases same
      exact absurd (by decide) refuses
    | ok response => rw [told.failed ⟨"a"⟩ _ single named fails silent response answers, fields, contentType]
  · exact missing.nameless (by decide) (by cbv)
  · rw [missing.accept none (fun _ path named => by cases named)]
    exact missing.nameless (by decide) (by cbv)

end Dispatcher
end Switchboard
