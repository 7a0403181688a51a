import Switchboard.Proofs.OutputCauses
import Switchboard.Proofs.RequestEnd

namespace Switchboard

namespace Eval
open Source

-- What invocations put to a part of the state, a program puts to it all of, in the order of its events.
theorem history_puts {host : Host σ} {β κ : Type} (kept : σ → κ) (put : κ → β → κ) (share : Event σ → List β)
    (assign : ∀ {s} path value, kept (host.withContext s ((host.context s).set path value)) = kept s)
    (silent : ∀ before context, share (.assigned before context) = []) {program : Program} {s : σ}
    (invoked : ∀ i, .invoked i ∈ history host program s →
      kept i.after = (share (.invoked i)).foldl put (kept i.before)) :
    kept (evalProgram host program s).2 = ((history host program s).flatMap share).foldl put (kept s) := by
  let whole (t : σ × List (Event σ)) : Prop :=
    (∀ i, .invoked i ∈ t.2 → kept i.after = (share (.invoked i)).foldl put (kept i.before)) →
      kept t.1 = (t.2.reverse.flatMap share).foldl put (kept s)
  have keeps : host.recorded.Keeps whole fun _ => whole := by
    refine ⟨?_, ?_, fun _ good => good⟩
    · rintro ⟨m, journal⟩ path value good shares
      have before := good fun i present => shares i (List.mem_cons_of_mem _ present)
      show kept (host.withContext m ((host.context m).set path value)) = _
      rw [assign, before]
      simp [Host.recorded, silent]
    · rintro operator args ⟨m, journal⟩ good
      rw [recorded_invoke]
      refine .of_state fun shares => ?_
      have before := good fun i present => shares i (List.mem_cons_of_mem _ present)
      have added := shares _ List.mem_cons_self
      dsimp only at before added ⊢
      rw [added, before]
      simp
  have ends : whole (evalProgram host.recorded program (s, [])).2 :=
    (evalProgram_keeps keeps program (s, []) fun _ => by simp).state
  rw [evalProgram_recorded host program s []]
  exact ends fun i present => invoked i (mem_history.mpr present)

end Eval

namespace Dispatcher
open Eval

-- the name and the value that one of the two operators takes from its arguments
def lineOf? : Primitive → List Json → Option (String × String)
  | .header, [line] => (Text.cutString ':' line.text).map fun (name, value) => (Text.trim name, Text.trim value)
  | .header, [name, value] => some (name.text, value.text)
  | .contentType, [value] => some ("content-type", value.text)
  | _, _ => none

def callLines (inner : FunctionPath → Dispatcher → List (String × String)) (mode : CallMode)
    (i : Invocation Dispatcher) : List (String × String) :=
  match started mode i.args i.before with
  | .ok (callee, fields) => inner callee (entered mode fields i.before)
  | .error _ => []

-- No line counts once something is written, nor in a batch.
def eventLines (inner : FunctionPath → Dispatcher → List (String × String)) :
    Event Dispatcher → List (String × String)
  | .assigned .. => []
  | .invoked i =>
    match Primitive.ofName? i.operator with
    | some .call => callLines inner .shared i
    | some .icall => callLines inner .isolated i
    | some p => if i.before.batch = false ∧ i.before.output.isUnwritten = true then (lineOf? p i.args).toList else []
    | none => []

-- all lines of a run in the order of its events, with those of the runs inside it to so many levels
def lines : Nat → FunctionPath → Dispatcher → List (String × String)
  | 0, path, d => (events path d).flatMap (eventLines fun _ _ => [])
  | levels + 1, path, d => (events path d).flatMap (eventLines (lines levels))

-- The content type is no field, by whatever spelling it is asked for.
def isField (line : String × String) : Bool := line.1 != "" && !isContentType line.1

abbrev Head := List (String × String) × Option String

def head (o : Output) : Head := (o.response.headers, o.contentType)

def Head.put (h : Head) (line : String × String) : Head :=
  if line.1 = "" then h
  else if isContentType line.1 then (h.1, some line.2)
  else (h.1 ++ [line], h.2)

theorem put_fields (lines : List (String × String)) (h : Head) :
    (lines.foldl Head.put h).1 = h.1 ++ lines.filter isField := by
  induction lines generalizing h with
  | nil => simp
  | cons line lines ih =>
    rw [List.foldl_cons, ih, List.filter_cons]
    unfold Head.put isField
    by_cases nameless : line.1 = ""
    · simp [nameless]
    · by_cases typed : isContentType line.1 = true <;> simp [nameless, typed]

theorem put_type (lines : List (String × String)) (h : Head) : (lines.foldl Head.put h).2 =
    ((lines.filter fun line => isContentType line.1).getLast?.map Prod.snd).or h.2 := by
  have unnamed : isContentType "" = false := by cbv
  induction lines generalizing h with
  | nil => simp
  | cons line lines ih =>
    rw [List.foldl_cons, ih, List.filter_cons]
    unfold Head.put
    by_cases nameless : line.1 = ""
    · simp [nameless, unnamed]
    · by_cases typed : isContentType line.1 = true
      · simp [nameless, typed, List.getLast?_cons]
      · simp [nameless, typed]

theorem setHeader_head (name value : String) (d : Dispatcher) : head (setHeader name value d).2.output =
    (if d.batch = false ∧ d.output.isUnwritten = true then [(name, value)] else []).foldl Head.put
      (head d.output) := by
  unfold setHeader
  by_cases nameless : name = ""
  · rw [if_pos nameless]
    split <;> simp [Run.fail, Head.put, nameless]
  · rw [if_neg nameless]
    unfold unlessBatch
    cases d.batch with
    | true => rfl
    | false =>
      cases typed : isContentType name <;> cases unwritten : d.output.isUnwritten <;>
        simp [head, Head.put, nameless, typed, unwritten, Output.setContentType, Output.addHeader]

theorem operator_head {p : Primitive} (kind : p = .header ∨ p = .contentType) (args : List Json) (d : Dispatcher) :
    head (p.run (some run) args d).2.output =
      (if d.batch = false ∧ d.output.isUnwritten = true then (lineOf? p args).toList else []).foldl Head.put
        (head d.output) := by
  have unchanged : head d.output =
      (if d.batch = false ∧ d.output.isUnwritten = true then [] else []).foldl Head.put (head d.output) := by
    split <;> rfl
  rcases kind with rfl | rfl
  · rcases args with _ | ⟨line, _ | ⟨value, _ | ⟨_, _⟩⟩⟩
    · exact unchanged
    · show head (header [line] d).2.output = _
      simp only [header, lineOf?]
      cases Text.cutString ':' line.text with
      | none => exact unchanged
      | some parts => exact setHeader_head _ _ d
    · exact setHeader_head _ _ d
    · exact unchanged
  · rcases args with _ | ⟨value, _ | ⟨_, _⟩⟩
    · exact unchanged
    · have typed : isContentType "content-type" = true := by cbv
      have same : (setHeader "content-type" value.text d) = contentType [value] d := by
        rw [setHeader, if_neg (by decide)]
        simp [typed, contentType]
      show head (contentType [value] d).2.output = _
      rw [← same]
      exact setHeader_head _ _ d
    · exact unchanged

-- Nothing else changes what lines are put to.
theorem head_outlives (h : Head) : Outlives (fun o => head o = h) fun p => p = .header ∨ p = .contentType where
  pending _ good := good
  sent reply good := by
    unfold Output.emit
    split
    · cases reply <;> exact good
    · exact good
  ended good := good
  header other := absurd (.inl rfl) other
  contentType other := absurd (.inr rfl) other
  echo _ o _ good := by
    obtain ⟨phase, _, _, _⟩ := o
    cases phase <;> exact good

section
variable {path : FunctionPath} {d : Dispatcher} {inner : FunctionPath → Dispatcher → List (String × String)}

def Puts (inner : FunctionPath → Dispatcher → List (String × String)) (path : FunctionPath) (d : Dispatcher) : Prop :=
  head (run path d).2.output = (inner path d).foldl Head.put (head d.output)

theorem call_puts (mode : CallMode) {i : Invocation Dispatcher} (puts : ∀ callee fields,
      started mode i.args i.before = .ok (callee, fields) → Puts inner callee (entered mode fields i.before)) :
    head (callOperator (some run) mode i.args i.before).2.output =
      (callLines inner mode i).foldl Head.put (head i.before.output) := by
  rw [callOperator_some]
  unfold callLines
  cases starts : started mode i.args i.before with
  | error e => rfl
  | ok call =>
    obtain ⟨callee, fields⟩ := call
    have entering : (entered mode fields i.before).output = i.before.output := by cases mode <;> rfl
    dsimp only
    rw [← entering, ← puts callee fields starts, callBy_parts]
    refine (head_outlives _).afterCall _ ?_
    rw [resumed_output]

theorem invocation_puts
    (puts : ∀ i mode callee fields, Makes path d i mode callee fields →
      Puts inner callee (entered mode fields i.before))
    {i : Invocation Dispatcher} (happens : .invoked i ∈ events path d) :
    head i.after.output = (eventLines inner (.invoked i)).foldl Head.put (head i.before.output) := by
  have invoked := event_invoked happens
  rw [host_invoke] at invoked
  unfold eventLines
  dsimp only
  cases named : Primitive.ofName? i.operator with
  | none =>
    rw [named] at invoked
    rw [← (Prod.mk.inj invoked).2]
    rfl
  | some p =>
    rw [named] at invoked
    have after : (p.run (some run) i.args i.before).2 = i.after := congrArg Prod.snd invoked
    have calls (mode : CallMode) (same : p = mode.primitive) :
        head (callOperator (some run) mode i.args i.before).2.output =
          (callLines inner mode i).foldl Head.put (head i.before.output) :=
      call_puts mode fun callee fields starts =>
        puts i mode callee fields ⟨happens, CallMode.operator_named (same ▸ named), starts⟩
    have other (noCall : p ≠ .call) (noIcall : p ≠ .icall) (noHeader : p ≠ .header) (noType : p ≠ .contentType) :
        head i.after.output = head i.before.output :=
      after ▸ (head_outlives _).primitive noCall noIcall (not_or.mpr ⟨noHeader, noType⟩) i.args rfl
    cases p with
    | header => exact after ▸ operator_head (.inl rfl) i.args i.before
    | contentType => exact after ▸ operator_head (.inr rfl) i.args i.before
    | call => exact after ▸ calls .shared rfl
    | icall => exact after ▸ calls .isolated rfl
    | _ => simpa [lineOf?] using other nofun nofun nofun nofun

theorem level_puts (fits : d.maxDepth ≤ Context.maxDepth)
    (puts : ∀ i mode callee fields, Makes path d i mode callee fields →
      Puts inner callee (entered mode fields i.before)) :
    Puts (fun path d => (events path d).flatMap (eventLines inner)) path d := by
  have outlive := head_outlives (head d.output)
  show head (run path d).2.output = ((events path d).flatMap (eventLines inner)).foldl Head.put (head d.output)
  cases opened : opening path d with
  | none =>
    have idle : events path d = [] := by
      unfold events
      rw [opened]
    rw [run_eq path d fits, idle, List.flatMap_nil, List.foldl_nil]
    refine outlive.settle ?_
    rcases execute_unopened opened with ⟨message, cache, same⟩ | ⟨value, cache, same⟩
    · rw [same]
    · rw [same]
      exact outlive.reply value rfl
  | some found =>
    obtain ⟨program, inside⟩ := found
    obtain ⟨_, _, _, _, output, _⟩ := opening_kept opened
    rw [run_opened fits opened, events_eq opened, ← output]
    have whole : head (evalProgram (host (some run)) program inside).2.output =
        ((history (host (some run)) program inside).flatMap (eventLines inner)).foldl Head.put (head inside.output) :=
      history_puts (fun m => head m.output) Head.put (eventLines inner) (fun _ _ => rfl) (fun _ _ => rfl)
        fun i happens => invocation_puts puts (events_eq opened ▸ happens)
    rw [← whole]
    exact (head_outlives _).settle ((head_outlives _).closing rfl)

end

-- Every run puts its own lines and those of its calls, if as many levels are looked at as calls can be deep.
theorem run_puts (levels : Nat) : ∀ path (d : Dispatcher), d.maxDepth ≤ Context.maxDepth → d.levels ≤ levels →
    Puts (lines levels) path d := by
  induction levels with
  | zero =>
    intro path d fits few
    refine level_puts fits fun i mode callee fields makes => ?_
    obtain ⟨limit, depth, _⟩ := makes.kept fits
    have room := started_room makes.starts
    unfold Dispatcher.levels at few
    omega
  | succ levels ih =>
    intro path d fits few
    refine level_puts fits fun i mode callee fields makes => ih callee _ ?_ ?_
    · rw [(makes.inside fits).1]
      exact fits
    · obtain ⟨limit, depth, _⟩ := makes.inside fits
      unfold Dispatcher.levels at few ⊢
      omega

-- The lines of a request: a batch has none.
def requestLines (d : Dispatcher) (params : Params) : List (String × String) :=
  match params.envelope, params.functionPath with
  | none, some path => lines d.maxDepth path (d.requested params)
  | _, _ => []

def requestFields (d : Dispatcher) (params : Params) : List (String × String) := (d.requestLines params).filter isField

-- the content type for which the programs of a request asked last
def requestType (d : Dispatcher) (params : Params) : Option String :=
  ((d.requestLines params).filter fun line => isContentType line.1).getLast?.map Prod.snd

end Dispatcher
end Switchboard
