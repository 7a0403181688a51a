import Switchboard.Dispatch.Request
import Switchboard.Proofs.BatchSilence
import Switchboard.Proofs.SteadySources

namespace Switchboard

namespace Eval
open Source

inductive Event.Related (ok : σ → τ → Prop) : Event σ → Event τ → Prop where
  | assigned {s t context} : ok s t → Related ok (.assigned s context) (.assigned t context)
  | invoked {operator args s t result s' t'} : ok s t → ok s' t' →
    Related ok (.invoked ⟨operator, args, s, result, s'⟩) (.invoked ⟨operator, args, t, result, t'⟩)

theorem Event.Related.before {ok : σ → τ → Prop} {event : Event σ} {other : Event τ}
    (related : event.Related ok other) : ok event.before other.before := by
  cases related with
  | assigned related => exact related
  | invoked related _ => exact related

theorem history_related {host : Host σ} {other : Host τ} {ok : σ → τ → Prop}
    (agree : host.Agrees other ok fun _ => ok) {s : σ} {t : τ} (start : ok s t) (program : Program)
    {event : Event σ} (happens : event ∈ history host program s) :
    ∃ twin ∈ history other program t, event.Related ok twin := by
  let paired (journal : List (Event σ)) (journal' : List (Event τ)) : Prop :=
    ∀ event ∈ journal, ∃ twin ∈ journal', event.Related ok twin
  have longer {journal journal' event twin} (related : event.Related ok twin)
      (before : paired journal journal') : paired (event :: journal) (twin :: journal') := by
    intro other present
    rcases List.mem_cons.mp present with rfl | earlier
    · exact ⟨twin, List.mem_cons_self, related⟩
    · obtain ⟨found, inside, same⟩ := before other earlier
      exact ⟨found, List.mem_cons_of_mem _ inside, same⟩
  have recorded : host.recorded.Agrees other.recorded (fun s t => ok s.1 t.1 ∧ paired s.2 t.2)
      (fun _ s t => ok s.1 t.1 ∧ paired s.2 t.2) := by
    refine ⟨fun related => agree.context related.1, ?_, ?_, fun _ related => related⟩
    · rintro ⟨s, journal⟩ ⟨t, journal'⟩ path value ⟨related, before⟩
      have assigned : (Event.assigned s ((host.context s).set path value)).Related ok
          (.assigned t ((other.context t).set path value)) := by
        rw [agree.context related]
        exact .assigned related
      exact ⟨agree.assign path value related, longer assigned before⟩
    · rintro operator args ⟨s, journal⟩ ⟨t, journal'⟩ ⟨related, before⟩
      have ends := agree.invoke operator args s t related
      rw [recorded_invoke, recorded_invoke]
      generalize host.invoke operator args s = left at ends ⊢
      generalize other.invoke operator args t = right at ends ⊢
      cases ends with
      | value after => exact .value ⟨after, longer (.invoked related after) before⟩
      | fault after => exact .fault ⟨after, longer (.invoked related after) before⟩
  have ends := evalProgram_agrees recorded program (s, []) (t, []) ⟨start, by simp [paired]⟩
  rw [mem_history] at happens
  simp only [mem_history]
  generalize evalProgram host.recorded program (s, []) = left at ends happens
  generalize evalProgram other.recorded program (t, []) = right at ends ⊢
  cases ends with
  | value related => exact related.2 event happens
  | fault related => exact related.2 event happens

end Eval

namespace ProgramCache

-- two caches that answer every lookup alike, whatever was looked up in both before
def Interchangeable (one other : ProgramCache) : Prop :=
  ∀ paths, (∀ path ∈ paths, path.isValid = true) → ∀ path, path.isValid = true →
    ((other.looked paths).resolve path).1 = ((one.looked paths).resolve path).1

theorem Interchangeable.refl (c : ProgramCache) : Interchangeable c c := fun _ _ _ _ => rfl

section
variable {one other : ProgramCache} {path : FunctionPath}

theorem Interchangeable.now (same : Interchangeable one other) (valid : path.isValid = true) :
    (other.resolve path).1 = (one.resolve path).1 :=
  same [] (by simp) path valid

theorem Interchangeable.later (same : Interchangeable one other) (valid : path.isValid = true) :
    Interchangeable (one.resolve path).2 (other.resolve path).2 := by
  intro paths before next valid'
  rw [← looked_cons, ← looked_cons]
  exact same (path :: paths) (by simpa using ⟨valid, before⟩) next valid'

-- Both give the same, and leave two caches of this kind.
theorem Interchangeable.resolved (same : Interchangeable one other) (valid : path.isValid = true) :
    ∃ result left right, one.resolve path = (result, left) ∧ other.resolve path = (result, right) ∧
      Interchangeable left right := by
  have now := same.now valid
  have later := same.later valid
  generalize one.resolve path = found at now later
  generalize other.resolve path = found' at now later
  obtain ⟨result, left⟩ := found
  obtain ⟨_, right⟩ := found'
  cases now
  exact ⟨result, left, right, rfl, rfl, later⟩

theorem Answers.interchangeable {answers : FunctionPath → Except CacheError Source.Program}
    (known : Answers answers one) (known' : Answers answers other) : Interchangeable one other :=
  fun paths before path valid => (known' paths before path valid).trans (known paths before path valid).symm

end

end ProgramCache

-- a change to a request by which programs find the same values, and entries of a batch the same programs
structure Params.Unseen (f : Params → Params) : Prop where
  values : ∀ p, (f p).values = p.values
  route : ∀ p, (f p).route = p.route
  overlay : ∀ p own, (f p).overlay own = f (p.overlay own)
  withRoute : ∀ p route, (f p).withRoute route = f (p.withRoute route)

namespace Params.Unseen

variable {f : Params → Params}

theorem same : Unseen id := ⟨fun _ => rfl, fun _ => rfl, fun _ _ => rfl, fun _ _ => rfl⟩

theorem accept (accept : Option String) : Unseen fun p => p.withAccept accept :=
  ⟨fun _ => rfl, fun _ => rfl, fun _ _ => rfl, fun _ _ => rfl⟩

theorem get (unseen : Unseen f) (p : Params) (name : String) : (f p).get name = p.get name := by
  unfold Params.get
  rw [unseen.values]

theorem functionPath (unseen : Unseen f) (p : Params) : (f p).functionPath = p.functionPath := by
  unfold Params.functionPath
  rw [unseen.get, unseen.route]

theorem envelope (unseen : Unseen f) (p : Params) : (f p).envelope = p.envelope := by
  unfold Params.envelope
  rw [unseen.get, unseen.get]

end Params.Unseen

namespace Dispatcher
open Eval ProgramCache

def Twin (f : Params → Params) (one other : Dispatcher) : Prop :=
  ∃ cache, one.cache.Interchangeable cache ∧ other = { one with cache, params := f one.params }

def Fair (f : Params → Params) (run : Callee) : Prop :=
  ∀ path one other, Twin f one other →
    (run path other).1 = (run path one).1 ∧ Twin f (run path one).2 (run path other).2

section
variable {f : Params → Params} {one other : Dispatcher}

theorem reply_twin (twin : Twin f one other) (ok : Dispatcher → Dispatcher → Prop) (value : Json) :
    Ends ok (fun _ => Twin f) (one.reply value) (other.reply value) := by
  obtain ⟨cache, same, rfl⟩ := twin
  exact .fault ⟨cache, same, rfl⟩

theorem stop_twin (twin : Twin f one other) : Ends (Twin f) (fun _ => Twin f) (stop one) (stop other) := by
  obtain ⟨cache, same, rfl⟩ := twin
  unfold stop
  dsimp only
  split <;> exact .fault ⟨cache, same, rfl⟩

theorem Writes.twin {operator : Run Dispatcher Json} (writes : Writes operator) (twin : Twin f one other) :
    Ends (Twin f) (fun _ => Twin f) (operator one) (operator other) := by
  obtain ⟨cache, same, rfl⟩ := twin
  cases writes with
  | refused _ refused =>
    rw [refused, refused]
    exact .fault ⟨cache, same, rfl⟩
  | change change changed =>
    rw [changed, changed]
    unfold unlessBatch
    dsimp only
    split <;> exact .value ⟨cache, same, rfl⟩

theorem request_twin (unseen : Params.Unseen f) (args : List Json) (twin : Twin f one other) :
    Ends (Twin f) (fun _ => Twin f) (request args one) (request args other) := by
  have read (value value' : Json) (same : value' = value) :
      Ends (Twin f) (fun _ => Twin f) ((.ok value, one) : Except Fault Json × Dispatcher) (.ok value', other) :=
    same ▸ .value twin
  have params : other.params = f one.params := by
    obtain ⟨_, _, rfl⟩ := twin
    rfl
  rcases args with _ | ⟨name, _ | ⟨_, _⟩⟩
  · refine read one.params.toJson other.params.toJson ?_
    unfold Params.toJson
    rw [params, unseen.values]
  · refine read ((one.params.get name.text).elim .null .string) ((other.params.get name.text).elim .null .string) ?_
    rw [params, unseen.get]
  · exact .fault twin

theorem afterCall_twin (twin : Twin f one other) (outcome : Outcome) :
    Ends (Twin f) (fun _ => Twin f) (afterCall outcome one) (afterCall outcome other) := by
  cases outcome with
  | completed value => exact .value twin
  | earlyReturn reply =>
    unfold afterCall
    dsimp only
    split
    · exact reply_twin twin _ _
    · exact .value twin
  | suppressed reply =>
    obtain ⟨cache, same, rfl⟩ := twin
    exact .fault ⟨cache, same, rfl⟩
  | terminated => exact .fault twin
  | failed failure => cases failure <;> exact .fault twin

theorem entered_twin (twin : Twin f one other) (mode : CallMode) (fields : Fields) :
    Twin f (entered mode fields one) (entered mode fields other) := by
  obtain ⟨cache, same, rfl⟩ := twin
  cases mode <;> exact ⟨cache, same, rfl⟩

theorem resumed_twin {caller caller' : Dispatcher} (before : Twin f caller caller') (after : Twin f one other)
    (mode : CallMode) : Twin f (resumed mode caller one) (resumed mode caller' other) := by
  obtain ⟨_, _, rfl⟩ := before
  obtain ⟨cache, same, rfl⟩ := after
  cases mode <;> exact ⟨cache, same, rfl⟩

theorem started_twin (twin : Twin f one other) (mode : CallMode) (args : List Json) :
    started mode args other = started mode args one := by
  obtain ⟨_, _, rfl⟩ := twin
  rfl

variable {callee : Option Callee}

theorem callBy_twin {run : Callee} (fair : Fair f run) (mode : CallMode) (path : FunctionPath)
    (fields : Fields) (twin : Twin f one other) :
    (callBy mode run path fields other).1 = (callBy mode run path fields one).1 ∧
      Twin f (callBy mode run path fields one).2 (callBy mode run path fields other).2 := by
  obtain ⟨same, after⟩ := fair path _ _ (entered_twin twin mode fields)
  rw [callBy_parts, callBy_parts]
  exact ⟨same, resumed_twin twin after mode⟩

theorem callOperator_twin (fair : ∀ run, callee = some run → Fair f run) (mode : CallMode) (args : List Json)
    (twin : Twin f one other) : Ends (Twin f) (fun _ => Twin f) (callOperator callee mode args one)
      (callOperator callee mode args other) := by
  cases callee with
  | none =>
    obtain ⟨cache, same, rfl⟩ := twin
    unfold callOperator
    cases args with
    | nil => exact .fault ⟨cache, same, rfl⟩
    | cons name rest =>
      dsimp only
      cases namedArgs mode rest <;> exact .fault ⟨cache, same, rfl⟩
  | some run =>
    rw [callOperator_some, callOperator_some, started_twin twin]
    cases started mode args one with
    | error e => exact .fault twin
    | ok call =>
      obtain ⟨path, fields⟩ := call
      obtain ⟨same, after⟩ := callBy_twin (fair run rfl) mode path fields twin
      dsimp only
      rw [same]
      exact afterCall_twin after _

theorem primitive_twin (unseen : Params.Unseen f) (fair : ∀ run, callee = some run → Fair f run) (p : Primitive)
    (args : List Json) : Run.Agrees (Twin f) (fun _ => Twin f) (p.run callee args) (p.run callee args) := by
  intro one other twin
  cases p with
  | call => exact callOperator_twin fair .shared args twin
  | icall => exact callOperator_twin fair .isolated args twin
  | reply => exact reply_twin twin _ _
  | stop => exact stop_twin twin
  | header => exact (header_writes args).twin twin
  | contentType => exact (contentType_writes args).twin twin
  | echo => exact (echo_writes args).twin twin
  | request => exact request_twin unseen args twin
  | trace => exact .value twin
  | throw => exact .fault twin

theorem host_twin (unseen : Params.Unseen f) (fair : ∀ run, callee = some run → Fair f run) :
    (host callee).Agrees (host callee) (Twin f) fun _ => Twin f := by
  refine ⟨?_, ?_, ?_, fun _ twin => twin⟩
  · rintro one _ ⟨cache, _, rfl⟩
    rfl
  · rintro one _ path value ⟨cache, same, rfl⟩
    exact ⟨cache, same, rfl⟩
  · intro operator args one other twin
    rw [host_invoke, host_invoke]
    cases Primitive.ofName? operator with
    | none => exact .fault twin
    | some p => exact primitive_twin unseen fair p args one other twin

theorem closing_twin {left right : Except Fault Json × Dispatcher}
    (ends : Ends (Twin f) (fun _ => Twin f) left right) :
    Ends (Twin f) (fun _ => Twin f) (closing left) (closing right) := by
  cases ends with
  | fault twin =>
    obtain ⟨cache, same, rfl⟩ := twin
    exact .fault ⟨cache, same, rfl⟩
  | value twin =>
    obtain ⟨cache, same, rfl⟩ := twin
    unfold closing
    dsimp only
    split
    · exact .value ⟨cache, same, rfl⟩
    · exact .fault ⟨cache, same, rfl⟩

-- The one place where a cache is asked; whatever comes of it, both go on with caches of this kind.
theorem execute_twin (unseen : Params.Unseen f) (fair : ∀ run, callee = some run → Fair f run)
    (path : FunctionPath) :
    Run.Agrees (Twin f) (fun _ => Twin f) (execute (host callee) path) (execute (host callee) path) := by
  rintro one _ ⟨cache, same, rfl⟩
  unfold execute
  dsimp only
  cases CallStack.resolve one.stack path with
  | error e => exact .fault ⟨cache, same, rfl⟩
  | ok target =>
    dsimp only
    split
    · next valid =>
      obtain ⟨result, left, right, found, found', later⟩ := same.resolved valid
      rw [found, found']
      dsimp only
      have cached : Twin f { one with cache := left } { one with cache := right, params := f one.params } :=
        ⟨right, later, rfl⟩
      cases result with
      | ok program =>
        exact closing_twin (evalProgram_agrees (host_twin unseen fair) program _ _ ⟨right, later, rfl⟩)
      | error e =>
        cases e with
        | notFound unfound => exact reply_twin cached _ _
        | parse path e => exact .fault cached
        | access place obstacle => exact .fault cached
    · exact reply_twin ⟨cache, same, rfl⟩ _ _

theorem settle_twin {left right : Except Fault Json × Dispatcher}
    (ends : Ends (Twin f) (fun _ => Twin f) left right) :
    (settle right).1 = (settle left).1 ∧ Twin f (settle left).2 (settle right).2 := by
  cases ends with
  | value twin => exact ⟨rfl, twin⟩
  | fault twin =>
    rename_i e one other
    obtain ⟨cache, same, rfl⟩ := twin
    cases e with
    | unwinding signal => cases signal <;> exact ⟨rfl, cache, same, rfl⟩
    | _ => exact ⟨rfl, cache, same, rfl⟩

theorem processWithin_twin (unseen : Params.Unseen f) (levels : Nat) : Fair f (processWithin levels) :=
  processWithin_induction
    (fun _ fair path _ _ twin => settle_twin (execute_twin unseen fair path _ _ twin)) levels

theorem run_twin (unseen : Params.Unseen f) : Fair f run := by
  intro path one other twin
  have levels : other.levels = one.levels := by
    obtain ⟨_, _, rfl⟩ := twin
    rfl
  unfold run
  rw [levels]
  exact processWithin_twin unseen one.levels path one other twin

end

section
variable {f : Params → Params} {one other : Dispatcher} {path : FunctionPath}

theorem opening_twin (twin : Twin f one other) {program : Source.Program} {inside : Dispatcher}
    (opened : opening path one = some (program, inside)) :
    ∃ inside', opening path other = some (program, inside') ∧ Twin f inside inside' := by
  obtain ⟨cache, same, rfl⟩ := twin
  unfold opening at opened ⊢
  dsimp only
  split at opened
  · cases opened
  · split at opened
    · next target _ valid =>
      obtain ⟨result, left, right, found, found', later⟩ := same.resolved valid
      rw [found] at opened
      rw [if_pos valid, found']
      cases result with
      | error e => cases opened
      | ok program =>
        cases opened
        exact ⟨_, rfl, right, later, rfl⟩
    · cases opened

theorem events_twin (unseen : Params.Unseen f) (twin : Twin f one other) {event : Event Dispatcher}
    (happens : event ∈ events path one) : ∃ event' ∈ events path other, event.Related (Twin f) event' := by
  obtain ⟨program, inside, opened, same⟩ := events_opened happens
  obtain ⟨inside', opened', inside_twin⟩ := opening_twin twin opened
  rw [same] at happens
  rw [events_eq opened']
  exact history_related (host_twin unseen (only_callee (run_twin unseen))) inside_twin program happens

theorem During.twin {m : Dispatcher} (during : During path one m) (unseen : Params.Unseen f)
    (twin : Twin f one other) : ∃ m', During path other m' ∧ Twin f m m' := by
  induction during generalizing other with
  | opened found =>
    obtain ⟨inside', found', twin'⟩ := opening_twin twin found
    exact ⟨inside', .opened found', twin'⟩
  | before happens =>
    obtain ⟨event', happens', related⟩ := events_twin unseen twin happens
    exact ⟨event'.before, .before happens', related.before⟩
  | after happens =>
    obtain ⟨event', happens', related⟩ := events_twin unseen twin happens
    cases related with
    | invoked _ after => exact ⟨_, .after happens', after⟩
  | @called path one i mode callee fields m makes _ ih =>
    obtain ⟨event', happens', related⟩ := events_twin unseen twin makes.happens
    cases related with
    | invoked before after =>
      obtain ⟨m', during', twin'⟩ := ih (entered_twin before mode fields)
      have makes' : Makes path other _ mode callee fields :=
        ⟨happens', makes.operator, (started_twin before mode _).trans makes.starts⟩
      exact ⟨m', .called makes' during', twin'⟩
  | ended => exact ⟨_, .ended, (run_twin unseen _ _ _ twin).2⟩

theorem unnamed_twin (unseen : Params.Unseen f) (p : Params) : unnamed (f p) = unnamed p := by
  unfold unnamed
  rw [unseen.get]

theorem runNamed_twin (unseen : Params.Unseen f) (twin : Twin f one other) :
    other.runNamed.1 = one.runNamed.1 ∧ Twin f one.runNamed.2 other.runNamed.2 := by
  obtain ⟨cache, same, rfl⟩ := twin
  unfold runNamed
  dsimp only
  rw [unseen.functionPath]
  cases one.params.functionPath with
  | none =>
    dsimp only
    rw [unnamed_twin unseen]
    exact ⟨rfl, cache, same, rfl⟩
  | some path =>
    have fresh : Twin f { one with context := {} } { one with cache, params := f one.params, context := {} } :=
      ⟨cache, same, rfl⟩
    obtain ⟨outcome, after⟩ := run_twin unseen path _ _ fresh
    exact ⟨congrArg entryValue outcome, after⟩

theorem entryParams_twin (unseen : Params.Unseen f) (requested : Params) (entry : BatchEntry) :
    entryParams (f requested) entry = (entryParams requested entry).map f := by
  unfold entryParams
  cases Params.ofEncoded entry.encoded with
  | none => rfl
  | some own =>
    simp only [Option.map_some, unseen.overlay, unseen.withRoute]

theorem runEntry_twin (unseen : Params.Unseen f) (twin : Twin f one other) (requested : Params)
    (entry : BatchEntry) : (other.runEntry (f requested) entry).1 = (one.runEntry requested entry).1 ∧
      Twin f (one.runEntry requested entry).2 (other.runEntry (f requested) entry).2 := by
  unfold runEntry
  rw [entryParams_twin unseen]
  cases entryParams requested entry with
  | none => exact ⟨rfl, twin⟩
  | some params =>
    obtain ⟨cache, same, rfl⟩ := twin
    exact runNamed_twin unseen ⟨cache, same, rfl⟩

theorem runEntries_twin (unseen : Params.Unseen f) (requested : Params) (entries : List BatchEntry) :
    ∀ (done : Fields) (one other : Dispatcher), Twin f one other →
      (runEntries (f requested) done entries other).1 = (runEntries requested done entries one).1 ∧
        Twin f (runEntries requested done entries one).2 (runEntries (f requested) done entries other).2 := by
  induction entries with
  | nil => exact fun _ _ _ twin => ⟨rfl, twin⟩
  | cons entry rest ih =>
    intro done one other twin
    obtain ⟨same, after⟩ := runEntry_twin unseen twin requested entry
    simp only [runEntries, same]
    exact ih _ _ _ after

theorem runBatch_twin (unseen : Params.Unseen f) (twin : Twin f one other) (envelope : String) :
    (other.runBatch envelope).1 = (one.runBatch envelope).1 ∧
      Twin f (one.runBatch envelope).2 (other.runBatch envelope).2 := by
  obtain ⟨cache, same, rfl⟩ := twin
  have inside : Twin f { one with batch := true } { one with cache, params := f one.params, batch := true } :=
    ⟨cache, same, rfl⟩
  obtain ⟨values, after⟩ := runEntries_twin unseen one.params (Envelope.entries envelope) [] _ _ inside
  unfold runBatch
  dsimp only at values after ⊢
  generalize runEntries one.params [] (Envelope.entries envelope) { one with batch := true } = left at values after ⊢
  generalize runEntries (f one.params) [] (Envelope.entries envelope) _ = right at values after ⊢
  obtain ⟨results, left⟩ := left
  obtain ⟨_, right⟩ := right
  cases values
  obtain ⟨cache', same', rfl⟩ := after
  exact ⟨rfl, cache', same', rfl⟩

theorem start_twin (unseen : Params.Unseen f) (twin : Twin f one other) (params : Params) :
    (other.start (f params)).1 = (one.start params).1 ∧ (other.start (f params)).2.1 = (one.start params).2.1 ∧
      Twin f (one.start params).2.2 (other.start (f params)).2.2 := by
  have fresh : Twin f { one with params, context := {} } { other with params := f params, context := {} } := by
    obtain ⟨cache, same, rfl⟩ := twin
    exact ⟨cache, same, rfl⟩
  unfold start
  dsimp only
  rw [unseen.envelope, unseen.functionPath, unnamed_twin unseen]
  cases params.envelope with
  | some envelope => exact ⟨rfl, runBatch_twin unseen fresh envelope⟩
  | none =>
    cases params.functionPath with
    | some path => exact ⟨rfl, run_twin unseen path _ _ fresh⟩
    | none => exact ⟨rfl, rfl, fresh⟩

-- A client is answered the same, if what it accepts says the same or the failure does not depend on it.
theorem respond_twin (unseen : Params.Unseen f) (twin : Twin f one other) (params : Params)
    (told : (∀ p, (f p).acceptsJson = p.acceptsJson) ∨
      ∀ message, (one.start params).2.1 ≠ .failed (.structural message)) :
    (other.respond (f params)).1 = (one.respond params).1 := by
  obtain ⟨label, outcome, after⟩ := start_twin unseen twin params
  unfold respond
  generalize one.start params = left at label outcome after told
  generalize other.start (f params) = right at label outcome after
  obtain ⟨_, _, left⟩ := left
  obtain ⟨_, ended, right⟩ := right
  obtain ⟨cache, _, same⟩ := after
  dsimp only at label outcome same told
  subst label outcome same
  cases ended with
  | failed failure =>
    have reported : (failure.isAlwaysReported || (f left.params).acceptsJson) =
        (failure.isAlwaysReported || left.params.acceptsJson) := by
      rcases told with told | told
      · rw [told]
      · cases failure with
        | structural message => exact absurd rfl (told message)
        | _ => rfl
    dsimp only
    rw [reported]
    split <;> rfl
  | _ => rfl

end

end Dispatcher
end Switchboard
