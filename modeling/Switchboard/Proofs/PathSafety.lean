import Switchboard.Proofs.PathNames
import Switchboard.Proofs.RequestEnd
import Switchboard.Proofs.StoredArtifacts

namespace Switchboard

-- the frame of a path that can be dispatched, with no other scope than that of the path
structure CallFrame.Sound (frame : CallFrame) : Prop where
  valid : frame.path.isValid = true
  absolute : frame.path.isRelative = false
  scope : frame.scope = frame.path.scope

theorem CallFrame.sound_of {path : FunctionPath} (valid : path.isValid = true) : (CallFrame.of path).Sound :=
  ⟨valid, FunctionPath.valid_absolute valid, rfl⟩

namespace Dispatcher
open Eval

-- Every frame is sound, and what was looked up since `start` is valid.
structure Guarded (start d : Dispatcher) : Prop where
  frames : ∀ frame ∈ d.stack, frame.Sound
  asked : ∃ new, d.cache.asked = new ++ start.cache.asked ∧ ∀ path ∈ new, path.isValid = true

section
variable {start d : Dispatcher} {path target : FunctionPath}

theorem Guarded.popped (guarded : Guarded start d) : Guarded start { d with stack := d.stack.tail } :=
  ⟨fun frame present => guarded.frames frame (List.mem_of_mem_tail present), guarded.asked⟩

theorem Guarded.pushed (guarded : Guarded start d) (valid : target.isValid = true) :
    Guarded start { d with stack := CallFrame.of target :: d.stack } := by
  refine ⟨?_, guarded.asked⟩
  intro frame present
  rcases List.mem_cons.mp present with rfl | outer
  · exact CallFrame.sound_of valid
  · exact guarded.frames frame outer

theorem Guarded.looked (guarded : Guarded start d) (valid : target.isValid = true) :
    Guarded start { d with cache := (d.cache.resolve target).2 } := by
  obtain ⟨new, asked, valid'⟩ := guarded.asked
  refine ⟨guarded.frames, target :: new, ?_, ?_⟩
  · dsimp only
    rw [ProgramCache.resolve_asked, asked, List.cons_append]
  · simpa using ⟨valid, valid'⟩

theorem Guarded.reply (guarded : Guarded start d) (value : Json) : Guarded start (d.reply value).2 :=
  ⟨guarded.frames, guarded.asked⟩

theorem Guarded.afterCall (guarded : Guarded start d) (outcome : Outcome) : Guarded start (afterCall outcome d).2 := by
  obtain ⟨result, output, after⟩ := afterCall_output outcome d
  rw [after]
  exact ⟨guarded.frames, guarded.asked⟩

theorem Guarded.entered (guarded : Guarded start d) (mode : CallMode) (fields : Fields) :
    Guarded start (entered mode fields d) := by
  cases mode <;> exact ⟨guarded.frames, guarded.asked⟩

theorem Guarded.resumed (guarded : Guarded start d) (mode : CallMode) (caller : Dispatcher) :
    Guarded start (resumed mode caller d) := by
  cases mode <;> exact ⟨guarded.frames, guarded.asked⟩

theorem Guarded.settled {result : Except Fault Json × Dispatcher} (guarded : Guarded start result.2) :
    Guarded start (settle result).2 := by
  obtain ⟨r, d⟩ := result
  unfold settle
  split <;> rename_i same <;> cases same <;> exact ⟨guarded.frames, guarded.asked⟩

theorem Guarded.opened (guarded : Guarded start d) {program : Source.Program} {inside : Dispatcher}
    (opened : opening path d = some (program, inside)) : Guarded start inside := by
  obtain ⟨target, _, valid, rfl⟩ := opening_frame opened
  exact ⟨(guarded.pushed valid).frames, (guarded.looked valid).asked⟩

end

def Careful (run : Callee) : Prop :=
  ∀ path start d, Guarded start d → Guarded start (run path d).2

section
variable {callee : Option Callee} {start d : Dispatcher}

theorem callOperator_guarded (careful : ∀ run, callee = some run → Careful run) (mode : CallMode)
    (args : List Json) (guarded : Guarded start d) : Guarded start (callOperator callee mode args d).2 := by
  cases callee with
  | none =>
    obtain ⟨e, refused, _⟩ := callOperator_none mode args d
    rw [refused]
    exact guarded
  | some run =>
    rw [callOperator_some]
    cases started mode args d with
    | error e => exact guarded
    | ok call =>
      obtain ⟨path, fields⟩ := call
      dsimp only
      rw [callBy_parts]
      exact ((careful run rfl path start _ (guarded.entered mode fields)).resumed mode d).afterCall _

theorem primitive_guarded (careful : ∀ run, callee = some run → Careful run) (p : Primitive) (args : List Json)
    (guarded : Guarded start d) : Guarded start (p.run callee args d).2 := by
  by_cases isCall : p = .call
  · subst isCall
    exact callOperator_guarded careful .shared args guarded
  · by_cases isIcall : p = .icall
    · subst isIcall
      exact callOperator_guarded careful .isolated args guarded
    · obtain ⟨result, output, changed⟩ := primitive_output isCall isIcall callee args d
      rw [changed]
      exact ⟨guarded.frames, guarded.asked⟩

theorem host_guarded (careful : ∀ run, callee = some run → Careful run) :
    (host callee).Keeps (Guarded start) fun _ => Guarded start := by
  refine ⟨fun _ _ guarded => ⟨guarded.frames, guarded.asked⟩, ?_, fun _ guarded => guarded⟩
  intro operator args d guarded
  rw [host_invoke]
  cases Primitive.ofName? operator with
  | none => exact .fault guarded
  | some p => exact .of_state (primitive_guarded careful p args guarded)

theorem executeProgram_guarded (careful : ∀ run, callee = some run → Careful run) {target : FunctionPath}
    (valid : target.isValid = true) (program : Source.Program) (guarded : Guarded start d) :
    Guarded start (executeProgram (host callee) target program d).2 := by
  have evaluated := (evalProgram_keeps (host_guarded careful) program _ (guarded.pushed valid)).state
  unfold executeProgram
  dsimp only
  generalize evalProgram (host callee) program _ = result at evaluated
  obtain ⟨r, after⟩ := result
  cases r with
  | error e => exact evaluated.popped
  | ok value =>
    dsimp only
    split
    · exact evaluated.popped
    · exact evaluated.popped.reply value

theorem execute_guarded (careful : ∀ run, callee = some run → Careful run) (path : FunctionPath)
    (guarded : Guarded start d) : Guarded start (execute (host callee) path d).2 := by
  unfold execute
  split
  · exact guarded
  · next target _ =>
    split
    · next valid =>
      have looked := guarded.looked valid
      dsimp only
      split
      · exact executeProgram_guarded careful valid _ looked
      · exact looked.reply _
      · exact looked
    · exact guarded.reply _

end

theorem run_careful : Careful run := fun path start d =>
  processWithin_induction (fun _ careful path _ _ guarded => (execute_guarded careful path guarded).settled)
    d.levels path start d

section
variable {start d m : Dispatcher} {path caller : FunctionPath} {calls : Nat} {running : Bool}

theorem asked_guarded : (host (some run)).Keeps (Guarded start) fun _ => Guarded start :=
  host_guarded (only_callee run_careful)

theorem Activation.guarded {s : Dispatcher} (activation : Activation path d calls caller s)
    (guarded : Guarded start d) : Guarded start s :=
  activation.keeps asked_guarded (fun guarded opened => guarded.opened opened)
    (fun mode fields guarded => guarded.entered mode fields) guarded

theorem Acts.guarded (acts : Acts path d m) (guarded : Guarded start d) : Guarded start m :=
  acts.keeps asked_guarded (fun guarded opened => guarded.opened opened) guarded

theorem Stands.guarded (stands : Stands path d running m) (guarded : Guarded start d) : Guarded start m := by
  cases stands with
  | begun => exact guarded
  | opened found => exact guarded.opened found
  | before happens => exact (Acts.happens happens).guarded guarded
  | @returned i mode callee fields makes =>
    have before := (Acts.happens makes.happens).guarded guarded
    rw [call, callBy_parts]
    exact (run_careful _ _ _ (before.entered mode fields)).resumed mode i.before
  | @after i happens =>
    have leaves := asked_guarded.invoke i.operator i.args i.before ((Acts.happens happens).guarded guarded)
    rw [event_invoked happens] at leaves
    exact leaves.state
  | evaluated found => exact (evalProgram_keeps asked_guarded _ _ (guarded.opened found)).state
  | ended => exact run_careful _ _ _ guarded

end

-- A batch comes to the rest of its entries in the state `m`.
inductive Comes (requested : Params) : List BatchEntry → Dispatcher → List BatchEntry → Dispatcher → Prop where
  | here {entries d} : Comes requested entries d entries d
  | later {entry rest d entries m} : Comes requested rest (d.runEntry requested entry).2 entries m →
    Comes requested (entry :: rest) d entries m

-- the runs that a request itself starts, and the states in which they begin
inductive Starts (d : Dispatcher) (params : Params) : FunctionPath → Dispatcher → Prop where
  | single {path} : params.envelope = none → params.functionPath = some path →
    Starts d params path (d.requested params)
  | entry {envelope entry rest m own path} : params.envelope = some envelope →
    Comes params (Envelope.entries envelope) { d.requested params with batch := true } (entry :: rest) m →
    entryParams params entry = some own → own.functionPath = some path →
    Starts d params path { m with params := own, context := {} }

-- the states through which a request passes, those of its programs and of all that they call included
inductive Passes (d : Dispatcher) (params : Params) : Dispatcher → Prop where
  | begun : Passes d params (d.requested params)
  | between {envelope entries m} : params.envelope = some envelope →
    Comes params (Envelope.entries envelope) { d.requested params with batch := true } entries m →
    Passes d params m
  | stands {path s calls caller t running m} : Starts d params path s → Activation path s calls caller t →
    Stands caller t running m → Passes d params m
  | acts {path s calls caller t m} : Starts d params path s → Activation path s calls caller t →
    Acts caller t m → Passes d params m
  | ended : Passes d params (d.respond params).2

section
variable {start d m s : Dispatcher} {params : Params} {path : FunctionPath}

theorem runEntry_guarded (requested : Params) (entry : BatchEntry) (guarded : Guarded start d) :
    Guarded start (d.runEntry requested entry).2 := by
  unfold runEntry
  split
  · exact guarded
  · unfold runNamed
    split
    · exact ⟨guarded.frames, guarded.asked⟩
    · exact run_careful _ _ _ ⟨guarded.frames, guarded.asked⟩

theorem runEntries_guarded (requested : Params) (entries : List BatchEntry) : ∀ (done : Fields) {d : Dispatcher},
    Guarded start d → Guarded start (runEntries requested done entries d).2 := by
  induction entries with
  | nil => exact fun _ _ guarded => guarded
  | cons entry rest ih => exact fun _ _ guarded => ih _ (runEntry_guarded requested entry guarded)

theorem Comes.guarded {requested : Params} {entries rest : List BatchEntry} (comes : Comes requested entries d rest m)
    (guarded : Guarded start d) : Guarded start m := by
  induction comes with
  | here => exact guarded
  | later _ ih => exact ih (runEntry_guarded _ _ guarded)

theorem Starts.guarded (starts : Starts d params path s) (guarded : Guarded start d) : Guarded start s := by
  cases starts with
  | single => exact ⟨guarded.frames, guarded.asked⟩
  | entry _ comes _ _ =>
    have before : Guarded start _ := comes.guarded ⟨guarded.frames, guarded.asked⟩
    exact ⟨before.frames, before.asked⟩

theorem start_guarded (params : Params) (guarded : Guarded start d) : Guarded start (d.start params).2.2 := by
  have begun : Guarded start (d.requested params) := ⟨guarded.frames, guarded.asked⟩
  unfold Dispatcher.start
  split
  · next envelope _ =>
    have entries := runEntries_guarded params (Envelope.entries envelope) []
      (d := { d.requested params with batch := true }) ⟨begun.frames, begun.asked⟩
    exact ⟨entries.frames, entries.asked⟩
  · split
    · exact run_careful _ _ _ begun
    · exact begun

theorem respond_guarded (params : Params) (guarded : Guarded start d) : Guarded start (d.respond params).2 := by
  have ended := start_guarded params guarded
  unfold respond
  generalize d.start params = result at ended
  obtain ⟨label, outcome, after⟩ := result
  cases outcome with
  | failed failure =>
    dsimp only
    split
    · exact ⟨ended.frames, ended.asked⟩
    · exact ended
  | _ => exact ended

theorem Passes.guarded (passes : Passes d params m) (guarded : Guarded start d) : Guarded start m := by
  cases passes with
  | begun => exact ⟨guarded.frames, guarded.asked⟩
  | between _ comes => exact comes.guarded ⟨guarded.frames, guarded.asked⟩
  | stands starts activation stands => exact stands.guarded (activation.guarded (starts.guarded guarded))
  | acts starts activation acts => exact acts.guarded (activation.guarded (starts.guarded guarded))
  | ended => exact respond_guarded params guarded

end

section
variable {d s t : Dispatcher} {params : Params} {path caller : FunctionPath} {calls : Nat}

theorem event_running (fits : t.maxDepth ≤ Context.maxDepth) {event : Event Dispatcher}
    (happens : event ∈ events caller t) : ∃ running, CallStack.resolve t.stack caller = .ok running ∧
      event.before.stack = CallFrame.of running :: t.stack := by
  obtain ⟨program, inside, opened, kept⟩ := event_kept fits happens
  obtain ⟨running, resolved, _, rfl⟩ := opening_frame opened
  exact ⟨running, resolved, kept.stack⟩

theorem Comes.limit {requested : Params} {entries rest : List BatchEntry} (comes : Comes requested entries d rest t)
    (fits : d.maxDepth ≤ Context.maxDepth) : t.maxDepth = d.maxDepth := by
  induction comes with
  | here => rfl
  | later _ ih =>
    obtain ⟨_, _, limit⟩ := runEntry_kept requested _ _ fits
    exact (ih (limit.symm ▸ fits)).trans limit

theorem Starts.limit (starts : Starts d params path s) (fits : d.maxDepth ≤ Context.maxDepth) :
    s.maxDepth ≤ Context.maxDepth := by
  cases starts with
  | single => exact fits
  | entry _ comes _ _ => exact (comes.limit fits).symm ▸ fits

theorem Starts.absolute (starts : Starts d params path s) : path.isRelative = false := by
  cases starts with
  | single _ named => exact Params.functionPath_absolute named
  | entry _ _ _ named => exact Params.functionPath_absolute named

theorem Starts.fits (starts : Starts d params path s) (fits : d.maxDepth ≤ Context.maxDepth)
    (activation : Activation path s calls caller t) : t.maxDepth ≤ Context.maxDepth := by
  have limit := starts.limit fits
  have top : s.context.depth ≤ s.maxDepth := by
    cases starts <;> exact Nat.zero_le _
  exact (activation.counted limit top).limit.symm ▸ limit

end

structure Confined (d : Dispatcher) (params : Params) : Prop where
  frames : ∀ m, Passes d params m → ∀ frame ∈ m.stack, frame.Sound
  asked : ∀ m, Passes d params m → ∃ new, m.cache.asked = new ++ d.cache.asked ∧
    ∀ path ∈ new, path.isValid = true ∧ path.isRelative = false
  resolves : ∀ path s calls caller t, Starts d params path s → Activation path s calls caller t →
    ∃ target, CallStack.resolve t.stack caller = .ok target
  relative : ∀ path s calls caller t i mode name fields, Starts d params path s →
    Activation path s calls caller t → Makes caller t i mode ⟨"@" ++ name⟩ fields →
    ∃ running target, CallStack.resolve t.stack caller = .ok running ∧
      i.before.stack.head? = some (.of running) ∧
      CallStack.resolve (entered mode fields i.before).stack ⟨"@" ++ name⟩ = .ok target ∧
      target.segments = running.segments.dropLast ++ (⟨name⟩ : FunctionPath).segments

-- A new dispatcher has no frames. The bound is that of the counter.
theorem paths_confined (d : Dispatcher) (fits : d.maxDepth ≤ Context.maxDepth)
    (sound : ∀ frame ∈ d.stack, frame.Sound) (params : Params) : Confined d params := by
  have guarded : Guarded d d := ⟨sound, [], rfl, by simp⟩
  refine ⟨fun m passes => (passes.guarded guarded).frames, ?_, ?_, ?_⟩
  · intro m passes
    obtain ⟨new, asked, valid⟩ := (passes.guarded guarded).asked
    exact ⟨new, asked, fun path present => ⟨valid path present, FunctionPath.valid_absolute (valid path present)⟩⟩
  · intro path s calls caller t starts activation
    cases activation with
    | start => exact ⟨path, CallStack.resolve_absolute starts.absolute _⟩
    | @call _ _ _ i _ _ _ before makes =>
      obtain ⟨running, _, stack⟩ := event_running (starts.fits fits before) makes.happens
      have above : i.before.stack = CallFrame.of running :: _ := stack
      rw [entered_stack, above]
      exact CallStack.resolve_running _ _ _
  · intro path s calls caller t i mode name fields starts activation makes
    obtain ⟨running, resolved, stack⟩ := event_running (starts.fits fits activation) makes.happens
    have above : i.before.stack = CallFrame.of running :: t.stack := stack
    refine ⟨running, ⟨running.scope ++ name⟩, resolved, by rw [above, List.head?_cons], ?_, running.scope_segments name⟩
    rw [entered_stack, above]
    exact CallStack.resolve_marked running t.stack name

-- A request for `a`, the program of which calls a name beside its own.
theorem paths_confined_beside :
    let d : Dispatcher := { cache := .sourceOnly "(call '@b.c')" ⟨5, 0⟩ }
    let params : Params := { values := [("f", "a")] }
    d.maxDepth ≤ Context.maxDepth ∧ (∀ frame ∈ d.stack, frame.Sound) ∧ Confined d params ∧
      ∃ i target, Makes ⟨"a"⟩ (d.requested params) i .shared ⟨"@b.c"⟩ [] ∧
        CallStack.resolve (entered .shared [] i.before).stack ⟨"@b.c"⟩ = .ok target ∧ target.segments = ["b", "c"] := by
  intro d params
  have fits : d.maxDepth ≤ Context.maxDepth := by decide
  have sound : ∀ frame ∈ d.stack, frame.Sound := by simp [d]
  have confined := paths_confined d fits sound params
  have single : params.envelope = none := by decide
  have named : params.functionPath = some ⟨"a"⟩ := by cbv
  have absolute : CallStack.resolve [] ⟨"a"⟩ = .ok ⟨"a"⟩ := by cbv
  have compiles : ProgramCache.compileText ⟨"a"⟩ "(call '@b.c')" =
      .ok [.template (.call "call" [.literal (.string "@b.c")])] := by cbv
  obtain ⟨inside, opened⟩ := sourceOnly_opening compiles (d := d.requested params) rfl rfl
  obtain ⟨_, _, context, limit, _, _⟩ := opening_kept opened
  let result := (host (some run)).invoke "call" [.string "@b.c"] inside
  let i : Invocation Dispatcher := ⟨"call", [.string "@b.c"], inside, result.1, result.2⟩
  have happens : .invoked i ∈ events ⟨"a"⟩ (d.requested params) := by
    rw [events_eq opened]
    have recorded := call_events (host (some run)) .shared "@b.c" inside
    exact recorded ▸ List.mem_singleton_self _
  have starts : started .shared [.string "@b.c"] inside = .ok (⟨"@b.c"⟩, []) := by
    have room : ¬ inside.maxDepth ≤ inside.context.depth := by
      rw [limit, context]
      decide
    simp only [started, namedArgs, if_neg room]
    rfl
  have makes : Makes ⟨"a"⟩ (d.requested params) i .shared ⟨"@" ++ "b.c"⟩ [] := ⟨happens, rfl, starts⟩
  obtain ⟨running, target, resolved, _, resolves, segments⟩ :=
    confined.relative ⟨"a"⟩ _ 0 ⟨"a"⟩ _ i .shared "b.c" [] (.single single named) .start makes
  have same : running = ⟨"a"⟩ := Except.ok.inj (resolved.symm.trans absolute)
  have pieces : (FunctionPath.mk "a").segments.dropLast ++ (FunctionPath.mk "b.c").segments = ["b", "c"] := by cbv
  exact ⟨fits, sound, confined, i, target, makes, resolves, by rw [segments, same, pieces]⟩

end Dispatcher
end Switchboard
