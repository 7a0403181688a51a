import Switchboard.Proofs.CallDepth

namespace Switchboard

namespace Eval
open Source

theorem history_loses {host : Host σ} {ok : σ → Prop}
    (assign : ∀ {s} path value, ok s → ok (host.withContext s ((host.context s).set path value)))
    {program : Program} {s : σ} (start : ok s) (lost : ¬ ok (evalProgram host program s).2) :
    ∃ i, .invoked i ∈ history host program s ∧ ok i.before ∧ ¬ ok i.after := by
  let found (journal : List (Event σ)) : Prop := ∃ i, .invoked i ∈ journal ∧ ok i.before ∧ ¬ ok i.after
  let held (t : σ × List (Event σ)) : Prop := ok t.1 ∨ found t.2
  have later {event : Event σ} {journal : List (Event σ)} (before : found journal) : found (event :: journal) := by
    obtain ⟨i, present, lost⟩ := before
    exact ⟨i, List.mem_cons_of_mem _ present, lost⟩
  have keeps : host.recorded.Keeps held fun _ => held := by
    refine ⟨?_, ?_, fun _ good => good⟩
    · rintro ⟨s, journal⟩ path value (good | before)
      · exact .inl (assign path value good)
      · exact .inr (later before)
    · rintro operator args ⟨s, journal⟩ good
      rw [recorded_invoke]
      refine .of_state ?_
      rcases good with good | before
      · by_cases good' : ok (host.invoke operator args s).2
        · exact .inl good'
        · exact .inr ⟨_, List.mem_cons_self, good, good'⟩
      · exact .inr (later before)
  have ends := (evalProgram_keeps keeps program (s, []) (.inl start)).state
  rw [evalProgram_recorded host program s []] at lost
  simp only [mem_history]
  exact ends.resolve_left lost

end Eval

namespace Dispatcher
open Eval

-- an operator of this kind is invoked, in the program of a run or in one that is called in it
def Invokes (kind : Primitive → Prop) (path : FunctionPath) (d : Dispatcher) : Prop :=
  ∃ calls caller s i p, Activation path d calls caller s ∧ .invoked i ∈ events caller s ∧
    Primitive.ofName? i.operator = some p ∧ kind p

-- a property of the output that no end of a program takes away, and no operator that writes but those of a kind
structure Outlives (held : Output → Prop) (kind : Primitive → Prop) : Prop where
  pending : ∀ {o} reply, held o → held (o.setPending reply)
  sent : ∀ {o} reply, held o → held (o.emit reply).1
  ended : ∀ {o}, held o → held o.terminate
  header : ¬ kind .header → ∀ {o} name value, held o → held (o.setContentType value) ∧ held (o.addHeader name value)
  contentType : ¬ kind .contentType → ∀ {o} value, held o → held (o.setContentType value)
  echo : ¬ kind .echo → ∀ {o} content, held o → held (o.echo content)

section
variable {path callee caller : FunctionPath} {d s : Dispatcher} {i : Invocation Dispatcher} {mode : CallMode}
  {fields : Fields} {calls : Nat}

theorem Makes.activation (makes : Makes path d i mode callee fields)
    (activation : Activation callee (entered mode fields i.before) calls caller s) :
    Activation path d (calls + 1) caller s := by
  induction activation with
  | start => exact .call .start makes
  | call _ inner ih => exact .call ih inner

theorem Makes.invokes {kind : Primitive → Prop} (makes : Makes path d i mode callee fields)
    (invokes : Invokes kind callee (entered mode fields i.before)) : Invokes kind path d := by
  obtain ⟨calls, caller, s, inner, p, activation, happens, named⟩ := invokes
  exact ⟨calls + 1, caller, s, inner, p, makes.activation activation, happens, named⟩

end

theorem unlessBatch_holds {held : Output → Prop} {change : Output → Output} {d : Dispatcher}
    (keeps : held d.output → held (change d.output)) (good : held d.output) :
    held (unlessBatch change d).2.output := by
  unfold unlessBatch
  dsimp only
  split
  · exact good
  · exact keeps good

namespace Outlives

variable {held : Output → Prop} {kind : Primitive → Prop} {d : Dispatcher}

theorem reply (outlives : Outlives held kind) (value : Json) (good : held d.output) :
    held (d.reply value).2.output := by
  cases nested : d.context.isNested with
  | true =>
    rw [reply_nested nested]
    exact outlives.pending _ good
  | false =>
    cases batch : d.batch with
    | true =>
      rw [reply_entry nested batch]
      exact outlives.pending _ good
    | false =>
      rw [reply_request nested batch]
      exact outlives.sent _ good

theorem afterCall (outlives : Outlives held kind) (outcome : Outcome) (good : held d.output) :
    held (afterCall outcome d).2.output := by
  cases outcome with
  | completed value => exact good
  | earlyReturn reply =>
    unfold Dispatcher.afterCall
    dsimp only
    split
    · exact outlives.reply _ good
    · exact good
  | suppressed reply => exact outlives.pending _ good
  | terminated => exact good
  | failed failure => cases failure <;> exact good

theorem closing (outlives : Outlives held kind) {result : Except Fault Json × Dispatcher}
    (good : held result.2.output) : held (closing result).2.output := by
  obtain ⟨r, d⟩ := result
  unfold Dispatcher.closing
  cases r with
  | error e => exact good
  | ok value =>
    dsimp only
    split
    · exact good
    · exact outlives.reply _ good

theorem settle (outlives : Outlives held kind) {result : Except Fault Json × Dispatcher}
    (good : held result.2.output) : held (settle result).2.output := by
  obtain ⟨r, d⟩ := result
  cases r with
  | ok value => exact good
  | error e =>
    cases e with
    | unwinding signal =>
      cases signal with
      | terminated => exact good
      | _ => exact outlives.pending none good
    | _ => exact good

theorem setHeader (outlives : Outlives held kind) (other : ¬ kind .header) (name value : String)
    (good : held d.output) : held (setHeader name value d).2.output := by
  unfold Dispatcher.setHeader
  split
  · exact good
  · refine unlessBatch_holds (fun good => ?_) good
    obtain ⟨typed, added⟩ := outlives.header other name value good
    split
    · exact typed
    · exact added

theorem primitive (outlives : Outlives held kind) {p : Primitive} (noCall : p ≠ .call) (noIcall : p ≠ .icall)
    (other : ¬ kind p) (args : List Json) (good : held d.output) : held (p.run (some run) args d).2.output := by
  cases p with
  | call => exact absurd rfl noCall
  | icall => exact absurd rfl noIcall
  | reply => exact outlives.reply _ good
  | trace => exact good
  | throw => exact good
  | request => exact congrArg Dispatcher.output ((request_reads args).same d) ▸ good
  | echo => exact unlessBatch_holds (outlives.echo other _) good
  | stop =>
    show held (Dispatcher.stop d).2.output
    unfold Dispatcher.stop
    split
    · exact outlives.pending none good
    · exact outlives.ended good
  | contentType =>
    rcases args with _ | ⟨value, _ | ⟨_, _⟩⟩
    · exact good
    · exact unlessBatch_holds (outlives.contentType other _) good
    · exact good
  | header =>
    rcases args with _ | ⟨line, _ | ⟨value, _ | ⟨_, _⟩⟩⟩
    · exact good
    · show held (Dispatcher.header [line] d).2.output
      simp only [Dispatcher.header]
      cases Text.cutString ':' line.text with
      | none => exact good
      | some parts => exact outlives.setHeader other _ _ good
    · exact outlives.setHeader other _ _ good
    · exact good

theorem call (outlives : Outlives held kind) (mode : CallMode) {args : List Json} (good : held d.output)
    (lost : ¬ held (callOperator (some run) mode args d).2.output) : ∃ callee fields,
      started mode args d = .ok (callee, fields) ∧ ¬ held (run callee (entered mode fields d)).2.output := by
  rw [callOperator_some] at lost
  cases starts : started mode args d with
  | error e =>
    rw [starts] at lost
    exact absurd good lost
  | ok call =>
    obtain ⟨callee, fields⟩ := call
    rw [starts] at lost
    refine ⟨callee, fields, rfl, fun kept => lost (outlives.afterCall _ ?_)⟩
    rwa [callBy_parts, resumed_output]

-- An invocation that loses the property is of that kind, or a call in which it is lost.
theorem invocation (outlives : Outlives held kind) {path : FunctionPath} {i : Invocation Dispatcher}
    (happens : .invoked i ∈ events path d) (good : held i.before.output) (lost : ¬ held i.after.output) :
    (∃ p, Primitive.ofName? i.operator = some p ∧ kind p) ∨ ∃ mode callee fields,
      Makes path d i mode callee fields ∧ ¬ held (run callee (entered mode fields i.before)).2.output := by
  have invoked := event_invoked happens
  rw [host_invoke] at invoked
  cases named : Primitive.ofName? i.operator with
  | none =>
    rw [named] at invoked
    rw [← (Prod.mk.inj invoked).2] at lost
    exact absurd good lost
  | some p =>
    rw [named] at invoked
    have after : (p.run (some run) i.args i.before).2 = i.after := congrArg Prod.snd invoked
    rw [← after] at lost
    have calls (mode : CallMode) (same : p = mode.primitive)
        (lost : ¬ held (callOperator (some run) mode i.args i.before).2.output) : ∃ mode callee fields,
          Makes path d i mode callee fields ∧ ¬ held (run callee (entered mode fields i.before)).2.output := by
      obtain ⟨callee, fields, starts, inside⟩ := outlives.call mode good lost
      exact ⟨mode, callee, fields, ⟨happens, CallMode.operator_named (same ▸ named), starts⟩, inside⟩
    by_cases isKind : kind p
    · exact .inl ⟨p, rfl, isKind⟩
    · by_cases isCall : p = .call
      · subst isCall
        exact .inr (calls .shared rfl lost)
      · by_cases isIcall : p = .icall
        · subst isIcall
          exact .inr (calls .isolated rfl lost)
        · exact absurd (outlives.primitive isCall isIcall isKind i.args good) lost

-- What a run loses, an operator of the kind has taken.
theorem run_invokes (outlives : Outlives held kind) (path : FunctionPath) (d : Dispatcher)
    (fits : d.maxDepth ≤ Context.maxDepth) :
    held d.output → ¬ held (run path d).2.output → Invokes kind path d := by
  refine run_induction (motive := fun path d =>
    held d.output → ¬ held (run path d).2.output → Invokes kind path d) ?_ path d fits
  intro path d fits ih good lost
  cases opened : opening path d with
  | none =>
    rw [run_eq path d fits] at lost
    refine absurd (outlives.settle ?_) lost
    rcases execute_unopened opened with ⟨message, cache, same⟩ | ⟨value, cache, same⟩
    · rw [same]
      exact good
    · rw [same]
      exact outlives.reply value good
  | some found =>
    obtain ⟨program, inside⟩ := found
    obtain ⟨_, _, _, _, output, _⟩ := opening_kept opened
    rw [run_opened fits opened] at lost
    -- neither the end of the run nor that of the program loses it, so an invocation has
    have lost : ¬ held (evalProgram (host (some run)) program inside).2.output :=
      fun kept => lost (outlives.settle (outlives.closing kept))
    let ok (m : Dispatcher) : Prop := held m.output
    have begun : ok inside := by
      show held inside.output
      rwa [output]
    obtain ⟨i, happens, before, after⟩ := history_loses (fun _ _ good => good) begun lost
    rw [← events_eq opened] at happens
    rcases outlives.invocation happens before after with ⟨p, named, isKind⟩ | ⟨mode, callee, fields, makes, left⟩
    · exact ⟨0, path, d, i, p, .start, happens, named, isKind⟩
    · have entering : (entered mode fields i.before).output = i.before.output := by cases mode <;> rfl
      exact makes.invokes (ih makes (entering ▸ before) left)

end Outlives

-- Only what is echoed is written while more can follow.
theorem echo_flushes : Outlives (fun o => o.phase ≠ .flushed) (· = .echo) where
  pending _ good := good
  sent reply _ := by
    unfold Output.emit
    split <;> exact nofun
  ended _ := nofun
  header _ o _ _ good := by
    obtain ⟨phase, _, _, _⟩ := o
    cases phase with
    | flushed => exact absurd rfl good
    | _ => exact ⟨Phase.noConfusion, Phase.noConfusion⟩
  contentType _ o _ good := by
    obtain ⟨phase, _, _, _⟩ := o
    cases phase with
    | flushed => exact absurd rfl good
    | _ => exact Phase.noConfusion
  echo other := absurd rfl other

end Dispatcher
end Switchboard
