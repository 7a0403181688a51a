import Switchboard.CommandLine.Invocation

namespace Switchboard.CommandLine

def clearWord : String := "--clear-cache"

namespace Arguments

def clearing (a : Arguments) (clears : Bool) : Arguments := { a with clearCache := clears }

theorem clearing_same {a : Arguments} {clears : Bool} (same : a.clearCache = clears) : a.clearing clears = a := by
  rw [← same]
  rfl

variable {a : Arguments} {switch : Switch}

theorem map_return (value : Except UsageError α) (f : α → β) (g : β → γ) :
    (value >>= fun v => pure (f v)).map g = value >>= fun v => pure (g (f v)) := by
  cases value <;> rfl

theorem applyFlag_clearing (other : switch ≠ .clearCache) (clears : Bool) :
    (a.clearing clears).applyFlag switch = (a.applyFlag switch).map (·.clearing clears) := by
  cases switch with
  | includeHeaders =>
    simp only [applyFlag, map_return]
    rfl
  | clearCache => exact absurd rfl other
  | _ => rfl

theorem applyFlag_clearCache (a : Arguments) :
    a.applyFlag .clearCache = if a.clearCache then .error .argumentConflict else .ok (a.clearing true) := by
  change (setFlag a.clearCache >>= fun clears => pure (a.clearing clears)) = _
  cases a.clearCache <;> rfl

theorem applyValue_clearing (value : String) (clears : Bool) :
    (a.clearing clears).applyValue value switch = (a.applyValue value switch).map (·.clearing clears) := by
  cases switch with
  | sourceRoot | cacheRoot | param | batch | route | accept | maxDepth =>
    simp only [applyValue, map_return]
    rfl
  | _ => rfl

end Arguments

theorem return_ok {value : Except UsageError α} {f : α → β} {result : β}
    (returns : (value >>= fun v => pure (f v)) = .ok result) : ∃ v, result = f v := by
  cases value with
  | error e => cases returns
  | ok v => exact ⟨v, (Except.ok.inj returns).symm⟩

theorem Arguments.applyValue_function {a next : Arguments} {switch : Switch} {value : String}
    (applies : a.applyValue value switch = .ok next) : next.function = a.function := by
  cases switch with
  | sourceRoot | cacheRoot | param | batch | route | accept | maxDepth =>
    obtain ⟨_, rfl⟩ := return_ok applies
    rfl
  | _ => cases applies

theorem Switch.ofLong_clearCache {name : String} (found : ofLong? name = some .clearCache) : name = "clear-cache" := by
  unfold ofLong? at found
  split at found <;> cases found
  rfl

theorem Switch.ofShort_clearCache (c : Char) : ofShort? c ≠ some .clearCache := by
  unfold ofShort?
  split <;> exact nofun

namespace Reading

def clearing (r : Reading) (clears : Bool) : Reading := { r with arguments := r.arguments.clearing clears }

theorem clearing_same {r : Reading} {clears : Bool} (same : r.arguments.clearCache = clears) :
    r.clearing clears = r := by
  rw [clearing, Arguments.clearing_same same]

-- It makes no difference to what is done whether the cache is to be cleared.
def Indifferent (act : Reading → Except UsageError Reading) : Prop :=
  ∀ r clears, act (r.clearing clears) = (act r).map (·.clearing clears)

variable {switch : Switch}

theorem settle_indifferent : Indifferent settle := by
  intro r clears
  unfold settle
  cases waits : r.waiting with
  | none => simp only [clearing, waits, Except.map]
  | some waiting =>
    obtain ⟨switch, _ | value⟩ := waiting
    · simp only [clearing, waits]; rfl
    · simp only [clearing, waits, Arguments.applyValue_clearing]
      cases r.arguments.applyValue value switch <;> rfl

theorem settled_indifferent {act : Reading → Except UsageError Reading} (indifferent : Indifferent act) :
    Indifferent fun r => r.settle >>= act := by
  intro r clears
  dsimp only
  rw [settle_indifferent]
  cases r.settle with
  | error e => rfl
  | ok r' => exact indifferent r' clears

theorem flag_indifferent (other : switch ≠ .clearCache) : Indifferent (·.flag switch) := by
  refine settled_indifferent fun r clears => ?_
  simp only [clearing, Arguments.applyFlag_clearing other]
  cases r.arguments.applyFlag switch <;> rfl

theorem attached_indifferent (value : String) : Indifferent (·.attached switch value) := by
  refine settled_indifferent fun r clears => ?_
  simp only [clearing, Arguments.applyValue_clearing]
  cases r.arguments.applyValue value switch <;> rfl

theorem await_indifferent : Indifferent (·.await switch) :=
  settled_indifferent fun _ _ => rfl

theorem long_indifferent {name : String} {value : Option String} (other : name = "clear-cache" → value ≠ none) :
    Indifferent (·.long name value) := by
  intro r clears
  unfold long
  cases found : Switch.ofLong? name with
  | none => rfl
  | some switch =>
    cases value with
    | none =>
      dsimp only
      split
      · exact await_indifferent r clears
      · refine flag_indifferent ?_ r clears
        rintro rfl
        exact other (Switch.ofLong_clearCache found) rfl
    | some value =>
      dsimp only
      split
      · exact attached_indifferent value r clears
      · rfl

theorem cluster_indifferent (letters : List Char) : Indifferent (·.cluster letters) := by
  induction letters with
  | nil => exact fun _ _ => rfl
  | cons c rest ih =>
    intro r clears
    dsimp only
    unfold cluster
    cases found : Switch.ofShort? c with
    | none => rfl
    | some switch =>
      dsimp only
      split
      · split
        · exact await_indifferent r clears
        · exact attached_indifferent _ r clears
        · exact attached_indifferent _ r clears
      · have flagged : (r.clearing clears).flag switch = (r.flag switch).map (·.clearing clears) :=
          flag_indifferent (fun same => Switch.ofShort_clearCache c (same ▸ found)) r clears
        rw [flagged]
        cases r.flag switch with
        | error e => rfl
        | ok next => exact ih next clears

theorem operand_indifferent (value : String) : Indifferent (·.operand value) := by
  intro r clears
  unfold operand
  dsimp only
  have same : (r.clearing clears).arguments.function = r.arguments.function := rfl
  rw [same]
  split
  · rfl
  · rw [settle_indifferent]
    cases r.settle <;> rfl

theorem word_indifferent (value : String) : Indifferent (·.word value) := by
  intro r clears
  unfold word
  dsimp only
  have same : (r.clearing clears).waiting = r.waiting := rfl
  rw [same]
  split
  · rfl
  · exact operand_indifferent value r clears

theorem splitLong_none {body : List Char} {name : String} (split : splitLong body = (name, none)) :
    body = name.toList := by
  unfold splitLong at split
  split at split <;> cases split
  exact String.toList_ofList.symm

-- Only the word itself, where options are read, is about clearing.
def Asks (r : Reading) (argument : String) : Prop :=
  r.operandsOnly = false ∧ argument = clearWord

theorem step_indifferent {r : Reading} {argument : String} (other : ¬ r.Asks argument)
    (clears : Bool) : (r.clearing clears).step argument = (r.step argument).map (·.clearing clears) := by
  unfold step
  have same : (r.clearing clears).operandsOnly = r.operandsOnly := rfl
  rw [same]
  split
  · exact operand_indifferent argument r clears
  · next options =>
    have different : argument ≠ clearWord := fun word => other ⟨Bool.eq_false_iff.mpr options, word⟩
    split
    · rfl
    · next body _ letters =>
      refine long_indifferent (fun name value => different ?_) r clears
      have named : body = "clear-cache".toList := splitLong_none (Prod.ext name value)
      rw [← String.toList_inj, letters, named]
      rfl
    · exact cluster_indifferent _ r clears
    · exact word_indifferent argument r clears

theorem kept (act : Reading → Except UsageError Reading) {r next : Reading}
    (indifferent : act (r.clearing r.arguments.clearCache) = (act r).map (·.clearing r.arguments.clearCache))
    (acts : act r = .ok next) : next.arguments.clearCache = r.arguments.clearCache := by
  rw [clearing_same rfl, acts] at indifferent
  rw [Except.ok.inj indifferent]
  rfl

theorem step_asks {r : Reading} {argument : String} (asks : r.Asks argument) :
    r.step argument = r.flag .clearCache := by
  obtain ⟨options, rfl⟩ := asks
  unfold step
  rw [options]
  rfl

theorem flag_clearCache {r next : Reading} (flags : r.flag .clearCache = .ok next) :
    r.arguments.clearCache = false ∧ ∃ early, r.settle = .ok early ∧ next = early.clearing true := by
  unfold flag at flags
  cases settles : r.settle with
  | error e =>
    rw [settles] at flags
    cases flags
  | ok early =>
    rw [settles] at flags
    have same := kept settle (settle_indifferent r _) settles
    change (early.arguments.applyFlag .clearCache >>= fun a => pure { early with arguments := a }) = _ at flags
    rw [Arguments.applyFlag_clearCache] at flags
    split at flags
    · cases flags
    · next keeps =>
      cases flags
      exact ⟨same.symm.trans (Bool.eq_false_iff.mpr keeps), early, rfl, rfl⟩

-- What waits for its value to be looked at can be looked at before the next word.
structure Settled (r settled : Reading) : Prop where
  settles : r.settle = .ok settled
  waiting : settled.waiting = none
  operandsOnly : settled.operandsOnly = r.operandsOnly
  function : settled.arguments.function = r.arguments.function

theorem settled_of {r settled : Reading} (settles : r.settle = .ok settled) : r.Settled settled := by
  have whole := settles
  unfold settle at settles
  split at settles
  · next waits =>
    cases settles
    exact ⟨whole, waits, rfl, rfl⟩
  · cases settles
  · next switch value _ =>
    cases applies : r.arguments.applyValue value switch with
    | error e =>
      rw [applies] at settles
      cases settles
    | ok next =>
      rw [applies] at settles
      cases settles
      exact ⟨whole, rfl, rfl, Arguments.applyValue_function applies⟩

theorem settle_operandsOnly (r : Reading) :
    { r with operandsOnly := true }.settle = r.settle.map ({ · with operandsOnly := true }) := by
  unfold settle
  cases waits : r.waiting with
  | none => simp only [Except.map, waits]
  | some waiting =>
    obtain ⟨switch, _ | value⟩ := waiting
    · rfl
    · dsimp only
      cases r.arguments.applyValue value switch <;> rfl

theorem Settled.again {r settled : Reading} (early : r.Settled settled) : settled.settle = .ok settled := by
  rw [settle, early.waiting]

theorem Settled.operand {r settled : Reading} (early : r.Settled settled) (value : String) :
    r.operand value = settled.operand value := by
  unfold Reading.operand
  rw [early.function, early.settles, early.again]

theorem Settled.long {r settled : Reading} (early : r.Settled settled) (name : String) (value : Option String) :
    r.long name value = settled.long name value := by
  simp only [Reading.long, await, flag, attached, early.settles, early.again]

theorem Settled.cluster {r settled : Reading} (early : r.Settled settled) (c : Char) (letters : List Char) :
    r.cluster (c :: letters) = settled.cluster (c :: letters) := by
  simp only [Reading.cluster, await, flag, attached, early.settles, early.again]

theorem Settled.word {r settled : Reading} (early : r.Settled settled) (value : String) :
    r.word value = settled.word value := by
  unfold Reading.word
  rw [early.waiting]
  split
  · next waits =>
    have settles := early.settles
    rw [settle, waits] at settles
    cases settles
  · exact early.operand value

theorem Settled.step {r settled : Reading} (early : r.Settled settled) (argument : String) :
    r.step argument = settled.step argument ∨
      ∃ next next', r.step argument = .ok next ∧ settled.step argument = .ok next' ∧ next.Settled next' := by
  unfold Reading.step
  rw [early.operandsOnly]
  split
  · exact .inl (early.operand argument)
  · split
    · refine .inr ⟨_, _, rfl, rfl, settled_of ?_⟩
      rw [settle_operandsOnly, early.settles]
      rfl
    · exact .inl (early.long _ _)
    · exact .inl (early.cluster _ _)
    · exact .inl (early.word argument)

-- the words that are left, with the look at what waits in the end
def finish (r : Reading) (words : List String) : Except UsageError Reading :=
  words.foldlM step r >>= settle

theorem Settled.finish {r settled : Reading} (early : r.Settled settled) (words : List String) :
    r.finish words = settled.finish words := by
  induction words generalizing r settled with
  | nil => exact early.settles.trans early.again.symm
  | cons word words ih =>
    unfold Reading.finish
    rw [List.foldlM_cons, List.foldlM_cons]
    rcases early.step word with same | ⟨next, next', steps, steps', later⟩
    · rw [same]
    · rw [steps, steps']
      exact ih later

theorem finish_cons (r : Reading) (word : String) (words : List String) :
    r.finish (word :: words) = r.step word >>= (·.finish words) := by
  unfold finish
  rw [List.foldlM_cons]
  cases r.step word <;> rfl

-- Behind the word it does not come again, and all is read as without it.
theorem finish_cleared (words : List String) : ∀ {r last : Reading}, r.arguments.clearCache = true →
    r.finish words = .ok last → (r.clearing false).finish words = .ok (last.clearing false) := by
  induction words with
  | nil =>
    intro r last clears reads
    exact (settle_indifferent r false).trans (congrArg (Except.map _) reads)
  | cons word words ih =>
    intro r last clears reads
    rw [finish_cons] at reads ⊢
    cases steps : r.step word with
    | error e =>
      rw [steps] at reads
      cases reads
    | ok next =>
      rw [steps] at reads
      have other : ¬ r.Asks word := by
        intro asks
        rw [step_asks asks] at steps
        rw [(flag_clearCache steps).1] at clears
        cases clears
      rw [step_indifferent other, steps]
      exact ih ((kept (step · word) (step_indifferent other _) steps).trans clears) reads

theorem finish_uncleared (words : List String) : ∀ {r last : Reading}, r.arguments.clearCache = false →
    last.arguments.clearCache = true → r.finish words = .ok last →
    ∃ before after, words = before ++ clearWord :: after ∧ r.finish (before ++ after) = .ok (last.clearing false) := by
  induction words with
  | nil =>
    intro r last keeps clears reads
    have same := kept settle (settle_indifferent r _) reads
    rw [keeps, clears] at same
    cases same
  | cons word words ih =>
    intro r last keeps clears reads
    rw [finish_cons] at reads
    cases steps : r.step word with
    | error e =>
      rw [steps] at reads
      cases reads
    | ok next =>
      rw [steps] at reads
      by_cases asks : r.Asks word
      · rw [step_asks asks] at steps
        obtain ⟨_, rfl⟩ := asks
        obtain ⟨_, early, settles, rfl⟩ := flag_clearCache steps
        have keeps' := (kept settle (settle_indifferent r _) settles).trans keeps
        -- the first word of its kind: the rest is read as it would be had it not been there
        refine ⟨[], words, rfl, ?_⟩
        have behind := finish_cleared words rfl reads
        rw [show (early.clearing true).clearing false = early from clearing_same keeps'] at behind
        exact ((settled_of settles).finish words).trans behind
      · have keeps' := (kept (step · word) (step_indifferent asks _) steps).trans keeps
        obtain ⟨before, after, rfl, reads'⟩ := ih keeps' clears reads
        refine ⟨word :: before, after, rfl, ?_⟩
        rw [List.cons_append, finish_cons, steps]
        exact reads'

end Reading

theorem parse_finish (words : List String) : Arguments.parse words = (Reading.finish {} words).map (·.arguments) := by
  unfold Arguments.parse Reading.finish
  cases words.foldlM Reading.step {} with
  | error e => rfl
  | ok r =>
    change (r.settle >>= fun r => pure r.arguments) = r.settle.map (·.arguments)
    cases r.settle <;> rfl

-- A command line that asks for clearing has a word for it, and without the word it asks for all else.
theorem parse_uncleared {words : List String} {a : Arguments} (parses : Arguments.parse words = .ok a)
    (clears : a.clearCache = true) :
    ∃ before after, words = before ++ clearWord :: after ∧
      Arguments.parse (before ++ after) = .ok (a.clearing false) := by
  rw [parse_finish] at parses
  cases reads : Reading.finish {} words with
  | error e =>
    rw [reads] at parses
    cases parses
  | ok last =>
    rw [reads] at parses
    cases parses
    obtain ⟨before, after, whole, reads'⟩ := Reading.finish_uncleared words rfl clears reads
    refine ⟨before, after, whole, ?_⟩
    rw [parse_finish, reads']
    rfl

end Switchboard.CommandLine
