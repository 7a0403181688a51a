import Mathlib
import Switchboard.Proofs.BatchSilence
import Switchboard.Proofs.PathNames
import Switchboard.Proofs.SteadySources

namespace Switchboard.Dispatcher
open Eval Source

-- two dispatchers in a batch, over caches that give the same, as far as programs can see
structure Alike (answers : FunctionPath → Except CacheError Program) (one other : Dispatcher) : Prop where
  batch : one.batch = true ∧ other.batch = true
  fits : one.maxDepth ≤ Context.maxDepth
  params : other.params = one.params
  context : other.context = one.context
  limit : other.maxDepth = one.maxDepth
  known : one.cache.Answers answers ∧ other.cache.Answers answers

-- Relative names depend on the innermost frame alone.
structure Framed (answers : FunctionPath → Except CacheError Program) (one other : Dispatcher) : Prop
    extends Alike answers one other where
  frame : other.stack.head? = one.stack.head?

-- Where a program returns, the reply that it carries out is the same.
structure Parted (answers : FunctionPath → Except CacheError Program) (e : Fault)
    (one other : Dispatcher) : Prop extends Alike answers one other where
  carried : e = .unwinding .earlyReturn ∨ e = .unwinding .suppressed →
    other.output.pending = one.output.pending

section
variable {answers : FunctionPath → Except CacheError Program} {one other : Dispatcher}

theorem Alike.withOutput (alike : Alike answers one other) (output output' : Output) :
    Alike answers { one with output } { other with output := output' } :=
  ⟨alike.batch, alike.fits, alike.params, alike.context, alike.limit, alike.known⟩

theorem Alike.withStack (alike : Alike answers one other) (stack stack' : CallStack) :
    Alike answers { one with stack } { other with stack := stack' } :=
  ⟨alike.batch, alike.fits, alike.params, alike.context, alike.limit, alike.known⟩

theorem Alike.withContext (alike : Alike answers one other) (context : Context) :
    Alike answers { one with context } { other with context } :=
  ⟨alike.batch, alike.fits, alike.params, rfl, alike.limit, alike.known⟩

theorem Alike.parted (alike : Alike answers one other) {e : Fault} (plain : e.isUnwinding = false) :
    Parted answers e one other := by
  refine ⟨alike, ?_⟩
  intro unwinds
  rcases unwinds with same | same
  · subst same
    cases plain
  · subst same
    cases plain

theorem resolve_frame {stack stack' : CallStack} (frame : stack'.head? = stack.head?)
    (path : FunctionPath) : CallStack.resolve stack' path = CallStack.resolve stack path := by
  unfold CallStack.resolve
  cases stack <;> cases stack' <;> simp_all

theorem reply_alike (alike : Alike answers one other) (ok : Dispatcher → Dispatcher → Prop) (value : Json) :
    Ends ok (Parted answers) (one.reply value) (other.reply value) := by
  have nested : other.context.isNested = one.context.isNested := by rw [alike.context]
  cases inside : one.context.isNested with
  | true =>
    rw [reply_nested inside, reply_nested (nested.trans inside)]
    exact .fault ⟨alike.withOutput _ _, fun _ => rfl⟩
  | false =>
    rw [reply_entry inside alike.batch.1, reply_entry (nested.trans inside) alike.batch.2]
    exact .fault ⟨alike.withOutput _ _, fun _ => rfl⟩

theorem afterCall_alike (framed : Framed answers one other) (outcome : Outcome) :
    Ends (Framed answers) (Parted answers) (afterCall outcome one) (afterCall outcome other) := by
  cases outcome with
  | completed value => exact .value framed
  | earlyReturn reply =>
    unfold afterCall
    dsimp only
    split
    · exact reply_alike framed.toAlike _ _
    · exact .value framed
  | suppressed reply => exact .fault ⟨framed.withOutput _ _, fun _ => rfl⟩
  | terminated =>
    refine .fault ⟨framed.toAlike, ?_⟩
    intro unwinds
    rcases unwinds with same | same
    · cases same
    · cases same
  | failed failure => cases failure <;> exact .fault (framed.toAlike.parted rfl)

theorem started_alike (alike : Alike answers one other) (mode : CallMode) (args : List Json) :
    started mode args other = started mode args one := by
  unfold started depthExceeded
  rw [alike.limit, alike.context]

theorem entered_alike (alike : Alike answers one other) (mode : CallMode) (fields : Fields) :
    Alike answers (entered mode fields one) (entered mode fields other) := by
  cases mode with
  | shared =>
    unfold entered
    rw [alike.context]
    exact alike.withContext _
  | isolated =>
    unfold entered
    rw [alike.context]
    exact alike.withContext _

end

def Even (answers : FunctionPath → Except CacheError Program) (run : Callee) : Prop :=
  ∀ path one other, Alike answers one other →
    CallStack.resolve other.stack path = CallStack.resolve one.stack path →
      (run path other).1 = (run path one).1 ∧ Alike answers (run path one).2 (run path other).2

section
variable {answers : FunctionPath → Except CacheError Program} {one other : Dispatcher}
  {callee : Option Callee}

theorem callBy_alike {run : Callee} (orderly : Orderly run) (even : Even answers run) (mode : CallMode)
    (path : FunctionPath) (fields : Fields) (framed : Framed answers one other) :
    (callBy mode run path fields other).1 = (callBy mode run path fields one).1 ∧
      Framed answers (callBy mode run path fields one).2 (callBy mode run path fields other).2 := by
  have entering := entered_alike framed.toAlike mode fields
  have back (caller d : Dispatcher) : (resumed mode caller d).stack = d.stack := by cases mode <;> rfl
  obtain ⟨same, after⟩ := even path _ _ entering (by
    rw [entered_stack, entered_stack]
    exact resolve_frame framed.frame path)
  have kept := orderly path _ entering.fits
  have kept' := orderly path _ (entering.limit.symm ▸ entering.fits)
  rw [callBy_parts, callBy_parts]
  refine ⟨same, ?_, ?_⟩
  · cases mode with
    | shared =>
      unfold resumed
      rw [framed.context, after.context]
      exact after.withContext _
    | isolated =>
      unfold resumed
      rw [framed.context]
      exact after.withContext _
  · rw [back, back, kept.stack, kept'.stack, entered_stack, entered_stack, framed.frame]

theorem callOperator_alike (orderly : ∀ run, callee = some run → Orderly run)
    (even : ∀ run, callee = some run → Even answers run) (mode : CallMode) (args : List Json)
    (framed : Framed answers one other) :
    Ends (Framed answers) (Parted answers) (callOperator callee mode args one)
      (callOperator callee mode args other) := by
  cases callee with
  | none =>
    unfold callOperator
    cases args with
    | nil => exact .fault (framed.toAlike.parted rfl)
    | cons name rest =>
      dsimp only
      cases wrong : namedArgs mode rest with
      | error e => exact .fault (framed.toAlike.parted (namedArgs_fault wrong))
      | ok fields =>
        have same : other.depthExceeded name.text = one.depthExceeded name.text := by
          unfold depthExceeded
          rw [framed.limit]
        show Ends (Framed answers) (Parted answers) (.error (one.depthExceeded name.text), one)
          (.error (other.depthExceeded name.text), other)
        rw [same]
        exact .fault (framed.toAlike.parted rfl)
  | some run =>
    rw [callOperator_some, callOperator_some, started_alike framed.toAlike]
    cases starts : started mode args one with
    | error e => exact .fault (framed.toAlike.parted (started_fault starts))
    | ok call =>
      obtain ⟨path, fields⟩ := call
      obtain ⟨same, after⟩ := callBy_alike (orderly run rfl) (even run rfl) mode path fields framed
      dsimp only
      rw [same]
      exact afterCall_alike after _

theorem Writes.alike {operator : Run Dispatcher Json} (writes : Writes operator)
    (framed : Framed answers one other) :
    Ends (Framed answers) (Parted answers) (operator one) (operator other) := by
  cases writes with
  | refused plain same =>
    rw [same one, same other]
    exact .fault (framed.toAlike.parted plain)
  | change change same =>
    rw [same one, same other, unlessBatch_batch framed.batch.1, unlessBatch_batch framed.batch.2]
    exact .value framed

theorem Reads.alike {operator : Run Dispatcher Json} (reads : Reads operator)
    (framed : Framed answers one other) :
    Ends (Framed answers) (Parted answers) (operator one) (operator other) := by
  cases reads with
  | refused plain same =>
    rw [same one, same other]
    exact .fault (framed.toAlike.parted plain)
  | value value same =>
    rw [same one, same other, framed.params]
    exact .value framed

theorem stop_alike (framed : Framed answers one other) :
    Ends (Framed answers) (Parted answers) (stop one) (stop other) := by
  rw [stop_batch framed.batch.1, stop_batch framed.batch.2]
  exact .fault ⟨framed.withOutput _ _, fun _ => rfl⟩

theorem primitive_alike (orderly : ∀ run, callee = some run → Orderly run)
    (even : ∀ run, callee = some run → Even answers run) (p : Primitive) (args : List Json)
    (framed : Framed answers one other) :
    Ends (Framed answers) (Parted answers) (p.run callee args one) (p.run callee args other) := by
  cases p with
  | call => exact callOperator_alike orderly even .shared args framed
  | icall => exact callOperator_alike orderly even .isolated args framed
  | reply => exact reply_alike framed.toAlike _ _
  | header => exact (header_writes args).alike framed
  | contentType => exact (contentType_writes args).alike framed
  | echo => exact (echo_writes args).alike framed
  | request => exact (request_reads args).alike framed
  | stop => exact stop_alike framed
  | trace => exact .value framed
  | throw => exact .fault (framed.toAlike.parted rfl)

theorem host_alike (orderly : ∀ run, callee = some run → Orderly run)
    (even : ∀ run, callee = some run → Even answers run) :
    (host callee).Agrees (host callee) (Framed answers) (Parted answers) := by
  refine ⟨fun framed => framed.context.symm, ?_, ?_, fun plain framed => framed.toAlike.parted plain⟩
  · intro one other path value framed
    refine ⟨?_, framed.frame⟩
    show Alike answers { one with context := one.context.set path value }
      { other with context := other.context.set path value }
    rw [framed.context]
    exact framed.withContext _
  · intro operator args one other framed
    rw [host_invoke, host_invoke]
    cases Primitive.ofName? operator with
    | none => exact .fault (framed.toAlike.parted rfl)
    | some p => exact primitive_alike orderly even p args framed

theorem executeProgram_alike (orderly : ∀ run, callee = some run → Orderly run)
    (even : ∀ run, callee = some run → Even answers run) (path : FunctionPath) (program : Program)
    (alike : Alike answers one other) :
    Ends (Alike answers) (Parted answers) (executeProgram (host callee) path program one)
      (executeProgram (host callee) path program other) := by
  have framed : Framed answers { one with stack := CallFrame.of path :: one.stack }
      { other with stack := CallFrame.of path :: other.stack } := ⟨alike.withStack _ _, rfl⟩
  have ends := evalProgram_agrees (host_alike orderly even) program _ _ framed
  unfold executeProgram
  dsimp only
  generalize evalProgram (host callee) program { one with stack := CallFrame.of path :: one.stack } = left
    at ends ⊢
  generalize evalProgram (host callee) program { other with stack := CallFrame.of path :: other.stack } =
    right at ends ⊢
  cases ends with
  | fault parted => exact .fault ⟨parted.withStack _ _, parted.carried⟩
  | value framed =>
    have popped := framed.withStack
    dsimp only
    split
    · exact .value (popped _ _)
    · exact reply_alike (popped _ _) _ _

-- Where the path leads does not depend on the frames, or the frames agree about it.
theorem execute_alike (orderly : ∀ run, callee = some run → Orderly run)
    (even : ∀ run, callee = some run → Even answers run) (path : FunctionPath)
    (alike : Alike answers one other)
    (leads : CallStack.resolve other.stack path = CallStack.resolve one.stack path) :
    Ends (Alike answers) (Parted answers) (execute (host callee) path one)
      (execute (host callee) path other) := by
  unfold execute
  rw [leads]
  cases CallStack.resolve one.stack path with
  | error e => exact .fault (alike.parted rfl)
  | ok target =>
    dsimp only
    split
    · next valid =>
      have found := alike.known.1.now valid
      have found' := alike.known.2.now valid
      have known := alike.known.1.later valid
      have known' := alike.known.2.later valid
      generalize one.cache.resolve target = left at found known
      generalize other.cache.resolve target = right at found' known'
      obtain ⟨result, cache⟩ := left
      obtain ⟨result', cache'⟩ := right
      cases found
      cases found'
      have cached : Alike answers { one with cache } { other with cache := cache' } :=
        ⟨alike.batch, alike.fits, alike.params, alike.context, alike.limit, known, known'⟩
      dsimp only
      cases answers target with
      | ok program => exact executeProgram_alike orderly even target program cached
      | error e =>
        cases e with
        | notFound path => exact reply_alike cached _ _
        | parse path e => exact .fault (cached.parted rfl)
        | access place obstacle => exact .fault (cached.parted rfl)
    · exact reply_alike alike _ _

theorem settle_alike {left right : Except Fault Json × Dispatcher}
    (ends : Ends (Alike answers) (Parted answers) left right) :
    (settle right).1 = (settle left).1 ∧ Alike answers (settle left).2 (settle right).2 := by
  cases ends with
  | value alike => exact ⟨rfl, alike⟩
  | fault parted =>
    rename_i e one other
    cases e with
    | unwinding signal =>
      cases signal with
      | earlyReturn =>
        have carried := parted.carried (.inl rfl)
        exact ⟨by simp [settle, takeReply, Output.takePending, carried], parted.withOutput _ _⟩
      | suppressed =>
        have carried := parted.carried (.inr rfl)
        exact ⟨by simp [settle, takeReply, Output.takePending, carried], parted.withOutput _ _⟩
      | terminated => exact ⟨rfl, parted.toAlike⟩
    | _ => exact ⟨rfl, parted.toAlike⟩

end

-- Along with being even goes being orderly, which a call relies on.
theorem processWithin_even (answers : FunctionPath → Except CacheError Program) (levels : Nat) :
    Orderly (processWithin levels) ∧ Even answers (processWithin levels) := by
  apply processWithin_induction (motive := fun run => Orderly run ∧ Even answers run)
  intro callee good
  constructor
  · exact fun path d fits => settle_kept (execute_kept (fun run same => (good run same).1) path d fits)
  · intro path one other alike leads
    exact settle_alike (execute_alike (fun run same => (good run same).1) (fun run same => (good run same).2)
      path alike leads)

theorem run_even (answers : FunctionPath → Except CacheError Program) : Even answers run := by
  intro path one other alike leads
  have same : other.levels = one.levels := by
    unfold levels
    rw [alike.limit, alike.context]
  unfold run
  rw [same]
  exact (processWithin_even answers one.levels).2 path one other alike leads

-- what the entries of a batch find: the limit, and a cache with these answers
structure Ready (answers : FunctionPath → Except CacheError Program) (limit : Nat) (d : Dispatcher) :
    Prop where
  batch : d.batch = true
  limit : d.maxDepth = limit
  known : d.cache.Answers answers

section
variable {answers : FunctionPath → Except CacheError Program} {limit : Nat} {one other : Dispatcher}

theorem runEntry_alike (fits : limit ≤ Context.maxDepth) (ready : Ready answers limit one)
    (ready' : Ready answers limit other) (requested : Params) (entry : BatchEntry) :
    (other.runEntry requested entry).1 = (one.runEntry requested entry).1 ∧
      Ready answers limit (one.runEntry requested entry).2 := by
  unfold runEntry
  cases decoded : entryParams requested entry with
  | none => exact ⟨rfl, ready⟩
  | some params =>
    unfold runNamed
    dsimp only
    cases named : params.functionPath with
    | none => exact ⟨rfl, ready.batch, ready.limit, ready.known⟩
    | some path =>
      have alike : Alike answers { one with params, context := {} } { other with params, context := {} } :=
        ⟨⟨ready.batch, ready'.batch⟩, ready.limit ▸ fits, rfl, rfl, ready'.limit.trans ready.limit.symm,
          ready.known, ready'.known⟩
      -- no frame is asked about the name of an entry's program
      have absolute := CallStack.resolve_absolute (Params.functionPath_absolute named)
      obtain ⟨same, after⟩ := run_even answers path _ _ alike ((absolute _).trans (absolute _).symm)
      have kept := run_orderly path _ alike.fits
      exact ⟨congrArg entryValue same, after.batch.1, kept.limit.trans ready.limit, after.known.1⟩

theorem runEntries_other (requested : Params) {label : String} (entries : List BatchEntry) :
    ∀ (done : Fields) (d : Dispatcher), label ∉ entries.map BatchEntry.label →
      Entries.find label (runEntries requested done entries d).1 = Entries.find label done := by
  induction entries with
  | nil => exact fun _ _ _ => rfl
  | cons head rest ih =>
    intro done d absent
    rw [List.map_cons, List.mem_cons, not_or] at absent
    exact (ih _ _ absent.2).trans (Entries.find_put_other absent.1 _ _)

theorem runEntries_find (fits : limit ≤ Context.maxDepth) (ready : Ready answers limit one)
    {requested : Params} {entry : BatchEntry} (entries : List BatchEntry) :
    ∀ (done : Fields) (d : Dispatcher), Ready answers limit d → entry ∈ entries →
      (entries.map BatchEntry.label).Nodup →
        Entries.find entry.label (runEntries requested done entries d).1 =
          some (one.runEntry requested entry).1 := by
  induction entries with
  | nil => exact fun _ _ _ present => by cases present
  | cons head rest ih =>
    intro done d ready' present distinct
    rw [List.map_cons, List.nodup_cons] at distinct
    obtain ⟨_, after⟩ := runEntry_alike fits ready' ready' requested head
    unfold runEntries
    rcases List.mem_cons.mp present with rfl | later
    · obtain ⟨same, _⟩ := runEntry_alike fits ready ready' requested entry
      rw [runEntries_other requested rest _ _ distinct.1, Entries.find_put_same, same]
    · exact ih _ _ after later distinct.2

end

def results (d : Dispatcher) (envelope : String) : Fields :=
  (runEntries d.params [] (Envelope.entries envelope) { d with batch := true }).1

theorem runBatch_results (d : Dispatcher) (envelope : String) : ∃ left : Dispatcher,
    d.runBatch envelope = (.terminated, left.emit (.object (d.results envelope))) := ⟨_, rfl⟩

def labels (envelope : String) : List String := (Envelope.entries envelope).map BatchEntry.label

-- An entry of two batches gives the same in both, and while entries run nothing is written.
theorem batch_isolated (one other : Dispatcher) (fits : one.maxDepth ≤ Context.maxDepth)
    (params : other.params = one.params) (limit : other.maxDepth = one.maxDepth)
    (sources : ProgramCache.SameSources one.cache other.cache) (steady : one.cache.Steady)
    (steady' : other.cache.Steady) (envelope envelope' : String) (distinct : (labels envelope).Nodup)
    (distinct' : (labels envelope').Nodup) :
    (∀ entry, entry ∈ Envelope.entries envelope → entry ∈ Envelope.entries envelope' →
      ∃ value, Entries.find entry.label (one.results envelope) = some value ∧
        Entries.find entry.label (other.results envelope') = some value) ∧
    ∀ m, Moment one.params (Envelope.entries envelope) { one with batch := true } m →
      m.output.phase = one.output.phase ∧ m.output.contentType = one.output.contentType ∧
        m.output.response = one.output.response := by
  constructor
  · intro entry accepted accepted'
    have ready : Ready one.cache.fresh one.maxDepth { one with batch := true } :=
      ⟨rfl, rfl, fun _ before _ valid => steady.answers before valid⟩
    -- both caches answer with what the same sources compile to
    have ready' : Ready one.cache.fresh one.maxDepth { other with batch := true } :=
      ⟨rfl, limit, steady'.answered sources⟩
    refine ⟨_, runEntries_find fits ready _ [] _ ready accepted distinct, ?_⟩
    have same : other.results envelope' =
        (runEntries one.params [] (Envelope.entries envelope') { other with batch := true }).1 :=
      congrArg (fun requested =>
        (runEntries requested [] (Envelope.entries envelope') { other with batch := true }).1) params
    rw [same]
    exact runEntries_find fits ready _ [] _ ready' accepted' distinct'
  · intro m moment
    have quiet : Quiet { one with batch := true } m := moment.quiet ⟨rfl, fits, rfl⟩
    have same : m.output.setPending none = one.output.setPending none := quiet.written
    have phase := congrArg Output.phase same
    have contentType := congrArg Output.contentType same
    have response := congrArg Output.response same
    exact ⟨phase, contentType, response⟩

-- one source under a root, and an empty cache root beside it
def stocked : ProgramCache where
  files := ⟨[(["src"], .folder), (["cache"], .folder), (["src", "m.fn"], .file "(return 'x')".toUTF8 ⟨5, 0⟩)]⟩
  sourceRoot := "src"
  cacheRoot := "cache"

theorem stocked_standing : stocked.Standing := by
  have source : Files.locationOf "src" = ["src"] := by cbv
  have cache : Files.locationOf "cache" = ["cache"] := by cbv
  refine ⟨⟨?_, ?_⟩, ?_, ?_⟩
  · show ¬ Files.locationOf "src" <+: Files.locationOf "cache"
    rw [source, cache]
    decide
  · show ¬ Files.locationOf "cache" <+: Files.locationOf "src"
    rw [source, cache]
    decide
  · show stocked.files.IsFolder "src"
    exact Files.isFolder_name (by decide) (by decide) (by cbv) (by simp [stocked, Files.find])
  · show stocked.files.IsFolder "cache"
    exact Files.isFolder_name (by decide) (by decide) (by cbv) (by simp [stocked, Files.find])

theorem stocked_steady : stocked.Steady := by
  have cache : Files.locationOf "cache" = ["cache"] := by cbv
  refine ⟨stocked_standing.unchanging, ?_, ?_⟩
  · intro path _ bytes changed present
    simp [ProgramCache.artifactPlace, stocked, Files.find, cache] at present
  · intro path content changed program valid sourced compiles
    have member := Files.find_mem (ProgramCache.look_source valid sourced)
    have only : content = "(return 'x')".toUTF8 := by
      simp only [stocked, List.mem_cons, Prod.mk.injEq, reduceCtorEq, and_false, FileEntry.file.injEq,
        List.not_mem_nil, or_false, false_or] at member
      exact member.2.1
    have parses : parse (String.ofList (stripComments "(return 'x')".toList)) =
        .ok [.template (.call "return" [.literal (.string "x")])] := by cbv
    rw [only, ProgramCache.compiledFrom_text, ProgramCache.compileText, parses] at compiles
    cases compiles
    intro x literal
    simp [Node.isTemplate, literals, Node.literals, Expr.literals, Expr.listLiterals] at literal

-- An entry alone, and the same entry behind another in a request that has gone further.
theorem batch_isolated_further :
    let one : Dispatcher := { cache := stocked }
    let other : Dispatcher :=
      { cache := stocked, stack := [.of ⟨"lib.m"⟩], output := { phase := .flushed },
        context := { vars := [("x", .null)], depth := 2 } }
    let entry : BatchEntry := ⟨"b", "Zj1t"⟩
    stocked.Steady ∧ ProgramCache.SameSources stocked stocked ∧ (labels "b,Zj1t").Nodup ∧
      (labels "a,Zj1t;b,Zj1t").Nodup ∧
      (∃ value, Entries.find entry.label (one.results "b,Zj1t") = some value ∧
        Entries.find entry.label (other.results "a,Zj1t;b,Zj1t") = some value) ∧
      ∀ m, Moment {} (Envelope.entries "b,Zj1t") { one with batch := true } m →
        m.output.phase = .opened ∧ m.output.contentType = none ∧ m.output.response = {} := by
  intro one other entry
  have alone : Envelope.entries "b,Zj1t" = [entry] := by cbv
  have behind : Envelope.entries "a,Zj1t;b,Zj1t" = [⟨"a", "Zj1t"⟩, entry] := by cbv
  have same : ProgramCache.SameSources stocked stocked := ⟨rfl, fun _ _ => rfl⟩
  have distinct : (labels "b,Zj1t").Nodup := by
    rw [labels, alone]
    decide
  have distinct' : (labels "a,Zj1t;b,Zj1t").Nodup := by
    rw [labels, behind]
    decide
  obtain ⟨records, silent⟩ := batch_isolated one other (by decide) rfl rfl same stocked_steady
    stocked_steady "b,Zj1t" "a,Zj1t;b,Zj1t" distinct distinct'
  refine ⟨stocked_steady, same, distinct, distinct', records entry ?_ ?_, silent⟩
  · rw [alone]
    exact List.mem_singleton_self entry
  · rw [behind]
    exact List.mem_cons_of_mem _ (List.mem_singleton_self entry)

end Switchboard.Dispatcher
