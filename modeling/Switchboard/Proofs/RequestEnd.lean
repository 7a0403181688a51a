import Switchboard.Dispatch.Request
import Switchboard.Proofs.BatchSilence
import Switchboard.Proofs.EvaluationOrder
import Switchboard.Proofs.RunInvariants

namespace Switchboard

theorem Output.emit_terminated (o : Output) (sent : Reply) : (o.emit sent).1.isTerminated = true := by
  unfold Output.emit
  split <;> rfl

namespace Dispatcher
open Eval

-- What the program of a run does by itself: it evaluates something, assigns a variable or invokes an operator
-- of the dispatcher, in some state.
inductive Acts (path : FunctionPath) (d : Dispatcher) : Dispatcher → Prop where
  | evaluates {program inside m} : opening path d = some (program, inside) →
    Evaluates (host (some run)) program inside m → Acts path d m
  | happens {event} : event ∈ events path d → Acts path d event.before

-- what a run does, and all the runs that are called in it
inductive Active (path : FunctionPath) (d : Dispatcher) : Dispatcher → Prop where
  | within {calls caller s m} : Activation path d calls caller s → Acts caller s m → Active path d m

section
variable {ok : Dispatcher → Prop} {ended : Fault → Dispatcher → Prop} {path caller : FunctionPath}
  {d s m : Dispatcher} {calls : Nat}

theorem Acts.keeps (keep : (host (some run)).Keeps ok ended)
    (opens : ∀ {path d program inside}, ok d → opening path d = some (program, inside) → ok inside)
    (acts : Acts path d m) (good : ok d) : ok m := by
  cases acts with
  | evaluates opened evaluates => exact evaluates.keeps keep (opens good opened)
  | happens happens =>
    obtain ⟨program, inside, opened, same⟩ := events_opened happens
    rw [same] at happens
    exact history_before keep (opens good opened) happens

-- What the host, the opening of a program and the entering of a call keep, holds whenever anything is done.
theorem Activation.keeps (keep : (host (some run)).Keeps ok ended)
    (opens : ∀ {path d program inside}, ok d → opening path d = some (program, inside) → ok inside)
    (enters : ∀ {d} mode fields, ok d → ok (entered mode fields d))
    (activation : Activation path d calls caller s) (good : ok d) : ok s := by
  induction activation with
  | start => exact good
  | call _ makes ih => exact enters _ _ (Acts.keeps keep opens (.happens makes.happens) ih)

end

structure Live (d : Dispatcher) : Prop where
  single : d.batch = false
  unended : d.output.isTerminated = false

-- where a fault has left a program: the output is ended exactly if the signal says so
structure Parting (e : Fault) (d : Dispatcher) : Prop where
  single : d.batch = false
  ended : d.output.isTerminated = true ↔ e = .unwinding .terminated

-- where a run has ended: the output is ended exactly if the outcome says so
structure Over (outcome : Outcome) (d : Dispatcher) : Prop where
  single : d.batch = false
  ended : d.output.isTerminated = true ↔ outcome = .terminated

section
variable {d : Dispatcher}

theorem Live.pending (live : Live d) (reply : Option Reply) :
    Live { d with output := d.output.setPending reply } := ⟨live.single, live.unended⟩

theorem Live.parting (live : Live d) {e : Fault} (other : e ≠ .unwinding .terminated) : Parting e d :=
  ⟨live.single, by simp [live.unended, other]⟩

theorem Live.goes {outcome : Outcome} (live : Live d) (other : outcome ≠ .terminated) : Over outcome d :=
  ⟨live.single, by simp [live.unended, other]⟩

theorem Over.live {outcome : Outcome} (left : Over outcome d) (other : outcome ≠ .terminated) : Live d :=
  ⟨left.single, by simpa [other] using left.ended⟩

theorem reply_parting (live : Live d) (value : Json) : Leaves Live Parting (d.reply value) := by
  cases nested : d.context.isNested with
  | true =>
    rw [reply_nested nested]
    exact .fault ((live.pending _).parting (by simp))
  | false =>
    rw [reply_request nested live.single]
    exact .fault ⟨live.single, by simp [Output.emit_terminated]⟩

theorem stop_request (single : d.batch = false) :
    stop d = (.error (.unwinding .terminated), { d with output := d.output.terminate }) := by
  simp [stop, single]

theorem stop_parting (live : Live d) : Leaves Live Parting (stop d) := by
  have ended : d.output.terminate.isTerminated = true := rfl
  rw [stop_request live.single]
  exact .fault ⟨live.single, by simp [ended]⟩

theorem afterCall_parting {outcome : Outcome} (left : Over outcome d) :
    Leaves Live Parting (afterCall outcome d) := by
  cases outcome with
  | completed value => exact .value (left.live (by simp))
  | earlyReturn reply =>
    have live := left.live (by simp)
    unfold afterCall
    dsimp only
    split
    · exact reply_parting live reply.value
    · exact .value live
  | suppressed reply =>
    have live := left.live (by simp)
    exact .fault ((live.pending _).parting (by simp))
  | terminated => exact .fault ⟨left.single, by simp [left.ended]⟩
  | failed failure =>
    have live := left.live (by simp)
    cases failure <;> exact .fault (live.parting (by simp))

theorem Parting.live {e : Fault} (parting : Parting e d) (other : e ≠ .unwinding .terminated) : Live d :=
  ⟨parting.single, by simpa [other] using parting.ended⟩

theorem settle_over {result : Except Fault Json × Dispatcher} (leaves : Leaves Live Parting result) :
    Over (settle result).1 (settle result).2 := by
  cases leaves with
  | value live => exact live.goes nofun
  | fault parting =>
    rename_i e left
    by_cases same : e = .unwinding .terminated
    · subst same
      exact ⟨parting.single, iff_of_true (parting.ended.mpr rfl) rfl⟩
    · have live := parting.live same
      have taken : Live left.takeReply.2 := live.pending none
      cases e with
      | unwinding signal =>
        cases signal with
        | earlyReturn =>
          show Over (.earlyReturn left.takeReply.1) left.takeReply.2
          exact taken.goes nofun
        | suppressed =>
          show Over (.suppressed left.takeReply.1) left.takeReply.2
          exact taken.goes nofun
        | terminated => exact absurd rfl same
      | _ => exact live.goes nofun

end

theorem live_lasts : Lasts Live Parting Over where
  framed _ _ _ live := ⟨live.single, live.unended⟩
  popped _ parting := ⟨parting.single, parting.ended⟩
  resumed _ left := ⟨left.single, left.ended⟩
  plain plain live := live.parting fun same => by simp [same, Fault.isUnwinding] at plain
  writes _ mild live := ⟨live.single, (mild.terminated _).trans live.unended⟩
  reply value live := reply_parting live value
  stop := stop_parting
  afterCall := afterCall_parting
  settle := settle_over

theorem Activation.live {path caller : FunctionPath} {d s : Dispatcher} {calls : Nat}
    (activation : Activation path d calls caller s) (live : Live d) : Live s :=
  activation.keeps live_lasts.asked live_lasts.opening live_lasts.entered live

theorem Active.live {path : FunctionPath} {d m : Dispatcher} (active : Active path d m) (live : Live d) :
    Live m := by
  obtain ⟨activation, acts⟩ := active
  exact acts.keeps live_lasts.asked live_lasts.opening (activation.live live)

theorem Active.quiet {path : FunctionPath} {start d m : Dispatcher} (active : Active path d m)
    (quiet : Quiet start d) : Quiet start m := by
  have keep : (host (some run)).Keeps (Quiet start) fun _ => Quiet start := host_silent (only_callee run_silent)
  obtain ⟨activation, acts⟩ := active
  exact acts.keeps keep opening_quiet
    (activation.keeps keep opening_quiet (fun mode fields quiet => quiet.entered mode fields) quiet)

-- A run that was taken along by the end of the request: what it did last ended the output.
structure Taken (path : FunctionPath) (d : Dispatcher) (output : Output) : Prop where
  outcome : (run path d).1 = .terminated
  left : (run path d).2.output = output
  last : ∃ i, (events path d).getLast? = some (.invoked i) ∧ i.after.output = output

section
variable {path caller : FunctionPath} {d s : Dispatcher} {calls : Nat} {i : Invocation Dispatcher}

theorem ended_signal (live : Live s) (happens : .invoked i ∈ events caller s)
    (ended : i.after.output.isTerminated = true) : i.result = .error (.unwinding .terminated) := by
  have leaves := live_lasts.asked.invoke i.operator i.args i.before (live_lasts.event live happens)
  rw [event_invoked happens] at leaves
  generalize i.result = result at leaves
  cases leaves with
  | value live' => exact absurd ended (by simp [live'.unended])
  | fault parting => rw [parting.ended.mp ended]

theorem closing_last (fits : s.maxDepth ≤ Context.maxDepth) (live : Live s)
    (happens : .invoked i ∈ events caller s) (ended : i.after.output.isTerminated = true) :
    (events caller s).getLast? = some (.invoked i) ∧ Taken caller s i.after.output := by
  have signal := ended_signal live happens ended
  obtain ⟨program, inside, opened, same⟩ := events_opened happens
  have failed := history_failed (same ▸ happens) signal
  have last : (events caller s).getLast? = some (.invoked i) := same ▸ failed.2
  have ran : run caller s = settle (closing (.error (.unwinding .terminated), i.after)) := by
    rw [run_opened fits opened, failed.1]
  exact ⟨last, by rw [ran]; rfl, by rw [ran]; rfl, i, last, rfl⟩

theorem Makes.taken {mode : CallMode} {callee : FunctionPath} {fields : Fields} {output : Output}
    (makes : Makes path d i mode callee fields) (fits : d.maxDepth ≤ Context.maxDepth)
    (taken : Taken callee (entered mode fields i.before) output) : Taken path d output := by
  obtain ⟨same, left⟩ := call_eq mode callee fields i.before
  have outcome : (i.before.call mode callee fields).1 = .terminated := same.trans taken.outcome
  have final : (i.before.call mode callee fields).2.output = output := left.trans taken.left
  have relayed : relay d (i.before.call mode callee fields).2.output (i.before.call mode callee fields).1 =
      some (.terminated, output) := by
    rw [outcome, final]
    rfl
  obtain ⟨reported, passed, last⟩ := makes.relayed fits relayed
  have invoked := event_invoked makes.happens
  rw [makes.operator, invoke_call makes.starts, outcome] at invoked
  have after : i.after = (i.before.call mode callee fields).2 := (congrArg Prod.snd invoked).symm
  exact ⟨reported, passed, i, last, by rw [after, final]⟩

theorem Activation.taken {output : Output} (activation : Activation path d calls caller s)
    (fits : d.maxDepth ≤ Context.maxDepth) (start : d.context.depth ≤ d.maxDepth)
    (taken : Taken caller s output) : Taken path d output := by
  induction activation with
  | start => exact taken
  | call activation makes ih =>
    have limit := (activation.counted fits start).limit
    exact ih (makes.taken (limit.symm ▸ fits) taken)

end

-- The ways in which an operator ends the output of a request: a stop in any program, a reply in the outermost
-- one, whether its own or the failing one of a callee, and a call of a program in which that happened.
inductive Finishes (path : FunctionPath) (d : Dispatcher) (i : Invocation Dispatcher) : Prop where
  | stopped : Primitive.ofName? i.operator = some .stop → Finishes path d i
  | replied : Primitive.ofName? i.operator = some .reply → d.context.isNested = false → Finishes path d i
  | passed {mode callee fields reply} : Makes path d i mode callee fields →
    (i.before.call mode callee fields).1 = .earlyReturn reply → reply.isFailure = true →
    d.context.isNested = false → Finishes path d i
  | taken {mode callee fields} : Makes path d i mode callee fields →
    (i.before.call mode callee fields).1 = .terminated → Finishes path d i

section
variable {path : FunctionPath} {d : Dispatcher} {i : Invocation Dispatcher}

theorem reply_ended (live : Live d) (top : d.context.isNested = false) (value : Json) :
    (d.reply value).2.output.isTerminated = true := by
  rw [reply_request top live.single]
  exact Output.emit_terminated _ _

theorem afterCall_failing {reply : Reply} (failing : reply.isFailure = true) (d : Dispatcher) :
    afterCall (.earlyReturn reply) d = d.reply reply.value := by
  simp only [afterCall, failing, if_true]

theorem Makes.resumes {mode : CallMode} {callee : FunctionPath} {fields : Fields}
    (makes : Makes path d i mode callee fields) (fits : d.maxDepth ≤ Context.maxDepth) (live : Live d) :
    (i.before.call mode callee fields).2.context.isNested = d.context.isNested ∧
      Over (i.before.call mode callee fields).1 (i.before.call mode callee fields).2 := by
  obtain ⟨limit, depth, _⟩ := makes.kept fits
  have kept := call_kept (limit.symm ▸ fits) (makes.room fits) mode callee fields
  constructor
  · unfold Context.isNested
    rw [kept.depth, depth]
  · exact live_lasts.callBy live_lasts.run mode callee fields (live_lasts.event live makes.happens)

theorem Finishes.ended (ends : Finishes path d i) (fits : d.maxDepth ≤ Context.maxDepth) (live : Live d)
    (happens : .invoked i ∈ events path d) : i.after.output.isTerminated = true := by
  have invoked := event_invoked happens
  have before : Live i.before := live_lasts.event live happens
  cases ends with
  | stopped named =>
    rw [host_invoke, named] at invoked
    have stopped : stop i.before = (i.result, i.after) := invoked
    rw [stop_request before.single] at stopped
    obtain ⟨_, after⟩ := Prod.mk.inj stopped
    rw [← after]
    rfl
  | replied named top =>
    rw [host_invoke, named] at invoked
    have replied : i.before.reply (i.args.head?.getD .null) = (i.result, i.after) := invoked
    have nested : i.before.context.isNested = false := (event_place fits happens).1.trans top
    have ended := reply_ended before nested (i.args.head?.getD .null)
    rwa [replied] at ended
  | @passed mode callee fields reply makes called failing top =>
    obtain ⟨nested, left⟩ := makes.resumes fits live
    rw [makes.operator, invoke_call makes.starts, called, afterCall_failing failing] at invoked
    have ended := reply_ended (left.live (by simp [called])) (nested.trans top) reply.value
    rwa [invoked] at ended
  | taken makes called =>
    obtain ⟨_, left⟩ := makes.resumes fits live
    rw [makes.operator, invoke_call makes.starts, called] at invoked
    obtain ⟨_, after⟩ := Prod.mk.inj invoked
    rw [← after]
    exact left.ended.mpr called

theorem reply_top {value : Json} {after : Dispatcher}
    (ends : d.reply value = (.error (.unwinding .terminated), after)) : d.context.isNested = false := by
  cases nested : d.context.isNested with
  | false => rfl
  | true =>
    rw [reply_nested nested] at ends
    cases ends

theorem ended_finishes (fits : d.maxDepth ≤ Context.maxDepth) (live : Live d) (happens : .invoked i ∈ events path d)
    (ended : i.after.output.isTerminated = true) : Finishes path d i := by
  have signal := ended_signal live happens ended
  have invoked := event_invoked happens
  rw [host_invoke, signal] at invoked
  cases named : Primitive.ofName? i.operator with
  | none =>
    rw [named] at invoked
    cases invoked
  | some p =>
    rw [named] at invoked
    rcases primitive_unwound invoked rfl with rfl | rfl | ⟨mode, callee, fields, rfl, starts, ends⟩
    · exact .replied named ((event_place fits happens).1.symm.trans (reply_top invoked))
    · exact .stopped named
    · have makes : Makes path d i mode callee fields := ⟨happens, CallMode.operator_named named, starts⟩
      cases called : (i.before.call mode callee fields).1 with
      | terminated => exact .taken makes called
      | earlyReturn reply =>
        cases failing : reply.isFailure with
        | true =>
          -- the caller replies with it again, which ends the request only at the top
          rw [called, afterCall_failing failing] at ends
          exact .passed makes called failing ((makes.resumes fits live).1.symm.trans (reply_top ends))
        | false => simp [called, afterCall, failing] at ends
      | completed value =>
        rw [called] at ends
        cases ends
      | suppressed reply =>
        rw [called] at ends
        cases ends
      | failed failure =>
        rw [called] at ends
        cases failure <;> cases ends

end

inductive EntryActive (requested : Params) : List BatchEntry → Dispatcher → Dispatcher → Prop where
  | inside {entry rest d m params path} : entryParams requested entry = some params →
    params.functionPath = some path → Active path { d with params, context := {} } m →
    EntryActive requested (entry :: rest) d m
  | later {entry rest d m} : EntryActive requested rest (d.runEntry requested entry).2 m →
    EntryActive requested (entry :: rest) d m

theorem EntryActive.quiet {requested : Params} {entries : List BatchEntry} {start d m : Dispatcher}
    (active : EntryActive requested entries d m) (quiet : Quiet start d) : Quiet start m := by
  induction active with
  | inside _ _ active => exact active.quiet ⟨quiet.batch, quiet.fits, quiet.written⟩
  | later _ ih => exact ih (runEntry_quiet requested _ quiet)

-- the state in which a request starts its program
def requested (d : Dispatcher) (params : Params) : Dispatcher := { d with params, context := {} }

inductive Executes (d : Dispatcher) (params : Params) : Dispatcher → Prop where
  | single {path m} : params.envelope = none → params.functionPath = some path →
    Active path (d.requested params) m → Executes d params m
  | entry {envelope m} : params.envelope = some envelope →
    EntryActive params (Envelope.entries envelope) { d.requested params with batch := true } m →
    Executes d params m

-- what comes of the end of the output, which the program of `caller` brought about in `s`
structure Closed (d : Dispatcher) (params : Params) (path caller : FunctionPath) (s : Dispatcher)
    (i : Invocation Dispatcher) : Prop where
  last : (events caller s).getLast? = some (.invoked i)
  callers : ∀ calls outer t further, Activation path (d.requested params) calls outer t →
    Activation outer t further caller s → Taken outer t i.after.output
  answer : (d.respond params).1 = .ok i.after.output.finish

structure Conclusive (d : Dispatcher) (params : Params) : Prop where
  single : params.envelope = none → ∀ m, Executes d params m → m.output.isTerminated = false
  batch : params.envelope ≠ none → ∀ m, Executes d params m → m.output.phase = .opened
  ends : params.envelope = none → ∀ path calls caller s i, params.functionPath = some path →
    Activation path (d.requested params) calls caller s → .invoked i ∈ events caller s →
    (i.after.output.isTerminated = true ↔ Finishes caller s i)
  closed : params.envelope = none → ∀ path calls caller s i, params.functionPath = some path →
    Activation path (d.requested params) calls caller s → .invoked i ∈ events caller s →
    i.after.output.isTerminated = true → Closed d params path caller s i

section
variable {d : Dispatcher} {params : Params} {path : FunctionPath}

theorem respond_terminated (single : params.envelope = none) (named : params.functionPath = some path)
    (ends : (run path (d.requested params)).1 = .terminated) :
    (d.respond params).1 = .ok (run path (d.requested params)).2.output.finish := by
  have started : d.start params = (path.text, run path (d.requested params)) := by
    unfold start
    rw [single, named]
    rfl
  unfold respond
  rw [started]
  generalize run path (d.requested params) = result at ends ⊢
  obtain ⟨outcome, after⟩ := result
  cases ends
  rfl

theorem executes_live (live : Live d) (single : params.envelope = none) {m : Dispatcher}
    (executes : Executes d params m) : Live m := by
  cases executes with
  | single _ _ active => exact active.live ⟨live.single, live.unended⟩
  | entry many _ => cases single.symm.trans many

theorem executes_opened (fits : d.maxDepth ≤ Context.maxDepth) (opened : d.output.phase = .opened)
    (many : params.envelope ≠ none) {m : Dispatcher} (executes : Executes d params m) :
    m.output.phase = .opened := by
  cases executes with
  | single single _ _ => exact absurd single many
  | entry _ active =>
    have quiet : Quiet { d.requested params with batch := true } m := active.quiet ⟨rfl, fits, rfl⟩
    have same : m.written = d.written := quiet.written
    have phase : m.written.phase = d.written.phase := congrArg Output.phase same
    exact phase.trans opened

end

-- Nothing runs after the end of a request, and nothing is written before the end of a batch.
theorem nothing_after_end (d : Dispatcher) (fits : d.maxDepth ≤ Context.maxDepth) (single : d.batch = false)
    (opened : d.output.phase = .opened) (params : Params) : Conclusive d params := by
  have live : Live d := ⟨single, by rw [Output.isTerminated, opened]; rfl⟩
  have live' : Live (d.requested params) := ⟨live.single, live.unended⟩
  have start : (d.requested params).context.depth ≤ (d.requested params).maxDepth := Nat.zero_le _
  refine ⟨fun one m executes => (executes_live live one executes).unended,
    fun many m executes => executes_opened fits opened many executes, ?_, ?_⟩
  · intro _ path calls caller s i _ activation happens
    have fits' : s.maxDepth ≤ Context.maxDepth := (activation.counted fits start).limit.symm ▸ fits
    have live' := activation.live live'
    exact ⟨ended_finishes fits' live' happens, fun ends => ends.ended fits' live' happens⟩
  · intro one path calls caller s i named activation happens ended
    have fits' : s.maxDepth ≤ Context.maxDepth := (activation.counted fits start).limit.symm ▸ fits
    obtain ⟨last, taken⟩ := closing_last fits' (activation.live live') happens ended
    have whole := activation.taken fits start taken
    refine ⟨last, ?_, ?_⟩
    · intro calls outer t further reached within
      have counted := reached.counted fits start
      exact within.taken (counted.limit.symm ▸ fits) (counted.limit.symm ▸ counted.bound) taken
    · rw [respond_terminated one named whole.outcome, whole.left]

-- The failing reply of a callee ends the request of the outermost program.
theorem nothing_after_end_passed :
    let params : Params := { values := [("f", "a")] }
    calling.maxDepth ≤ Context.maxDepth ∧ calling.batch = false ∧ calling.output.phase = .opened ∧
      Conclusive calling params ∧ ∃ i, Executes calling params i.before ∧ i.before.output.isTerminated = false ∧
        Closed calling params ⟨"a"⟩ ⟨"a"⟩ (calling.requested params) i := by
  intro params
  have fits : calling.maxDepth ≤ Context.maxDepth := by decide
  have conclusive := nothing_after_end calling fits rfl rfl params
  have one : params.envelope = none := by decide
  have named : params.functionPath = some ⟨"a"⟩ := by cbv
  obtain ⟨i, makes⟩ := calling_makes (d := calling.requested params) rfl rfl (by decide)
  have executes : Executes calling params i.before := .single one named (.within .start (.happens makes.happens))
  have called := makes.outcome fits ((nameless_concludes _).outcome ((makes.inside fits).1 ▸ fits))
  have ends : Finishes ⟨"a"⟩ (calling.requested params) i := .passed makes called rfl rfl
  have ended := (conclusive.ends one ⟨"a"⟩ 0 ⟨"a"⟩ _ i named .start makes.happens).mpr ends
  exact ⟨fits, rfl, rfl, conclusive, i, executes, conclusive.single one i.before executes,
    conclusive.closed one ⟨"a"⟩ 0 ⟨"a"⟩ _ i named .start makes.happens ended⟩

end Dispatcher
end Switchboard
