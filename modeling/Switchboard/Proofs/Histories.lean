import Switchboard.Proofs.Evaluation

namespace Switchboard.Eval
open Source

structure Invocation (σ : Type) where
  operator : String
  args : List Json
  before : σ
  result : Except Fault Json
  after : σ

inductive Event (σ : Type) where
  | assigned (before : σ) (context : Context)
  | invoked (invocation : Invocation σ)

def Event.before : Event σ → σ
  | .assigned before _ => before
  | .invoked i => i.before

-- The latest event stands first.
def Host.recorded (host : Host σ) : Host (σ × List (Event σ)) where
  context s := host.context s.1
  withContext s context := (host.withContext s.1 context, .assigned s.1 context :: s.2)
  call operator args s :=
    let (result, after) := host.invoke operator args s.1
    (some result, (after, .invoked ⟨operator, args, s.1, result, after⟩ :: s.2))

def history (host : Host σ) (program : Program) (s : σ) : List (Event σ) :=
  (evalProgram host.recorded program (s, [])).2.2.reverse

theorem recorded_invoke (host : Host σ) (operator : String) (args : List Json) (s : σ)
    (journal : List (Event σ)) :
    host.recorded.invoke operator args (s, journal) =
      ((host.invoke operator args s).1, (host.invoke operator args s).2,
        .invoked ⟨operator, args, s, (host.invoke operator args s).1, (host.invoke operator args s).2⟩ ::
          journal) := rfl

theorem recorded_agrees (host : Host σ) :
    host.recorded.Agrees host (fun s t => s.1 = t) (fun _ s t => s.1 = t) := by
  refine ⟨?_, ?_, ?_, ?_⟩
  · intro s _ same
    subst same
    rfl
  · intro s _ path value same
    subst same
    rfl
  · rintro operator args ⟨s, journal⟩ _ rfl
    rw [recorded_invoke]
    cases invoked : host.invoke operator args s with
    | mk result after =>
      cases result with
      | ok value => exact .value rfl
      | error e => exact .fault rfl
  · intro _ s _ _ same
    subst same
    rfl

theorem evalProgram_recorded (host : Host σ) (program : Program) (s : σ)
    (journal : List (Event σ)) :
    evalProgram host program s =
      ((evalProgram host.recorded program (s, journal)).1,
        (evalProgram host.recorded program (s, journal)).2.1) := by
  have ends := evalProgram_agrees (recorded_agrees host) program (s, journal) s rfl
  generalize evalProgram host.recorded program (s, journal) = recorded at ends ⊢
  generalize evalProgram host program s = plain at ends
  cases ends with
  | value same => rw [same]
  | fault same => rw [same]

def Invocation.Faithful (host : Host σ) (i : Invocation σ) : Prop :=
  host.invoke i.operator i.args i.before = (i.result, i.after)

-- an event after which the program goes on
def Event.Passed (host : Host σ) (ok : σ → Prop) : Event σ → Prop
  | .assigned before _ => ok before
  | .invoked i => ok i.before ∧ i.Faithful host ∧ ∃ value, i.result = .ok value

-- the invocation by which a program ended
structure Invocation.Ended (host : Host σ) (ok : σ → Prop) (i : Invocation σ) (e : Fault) (s : σ) : Prop where
  before : ok i.before
  faithful : i.Faithful host
  result : i.result = .error e
  after : i.after = s

section
variable {host : Host σ} {ok : σ → Prop} {ended : Fault → σ → Prop} {program : Program} {s : σ}

def Going (host : Host σ) (ok : σ → Prop) (t : σ × List (Event σ)) : Prop :=
  ok t.1 ∧ ∀ event ∈ t.2, event.Passed host ok

-- A fault is the evaluator's own, or that of the latest invocation.
def Stopped (host : Host σ) (ok : σ → Prop) (e : Fault) (t : σ × List (Event σ)) : Prop :=
  (∀ event ∈ t.2, event.Passed host ok) ∨
    ∃ i earlier, t.2 = .invoked i :: earlier ∧ i.Ended host ok e t.1 ∧
      ∀ event ∈ earlier, event.Passed host ok

theorem recorded_keeps (keep : host.Keeps ok ended) :
    host.recorded.Keeps (Going host ok) (Stopped host ok) := by
  refine ⟨?_, ?_, ?_⟩
  · rintro ⟨s, journal⟩ path value ⟨good, passed⟩
    refine ⟨keep.assign path value good, ?_⟩
    intro event present
    rcases List.mem_cons.mp present with rfl | earlier
    · exact good
    · exact passed event earlier
  · rintro operator args ⟨s, journal⟩ ⟨good, passed⟩
    rw [recorded_invoke]
    have leaves := keep.invoke operator args s good
    cases invoked : host.invoke operator args s with
    | mk result after =>
      rw [invoked] at leaves
      cases leaves with
      | value good' =>
        refine .value ⟨good', ?_⟩
        intro event present
        rcases List.mem_cons.mp present with rfl | earlier
        · exact ⟨good, invoked, _, rfl⟩
        · exact passed event earlier
      | fault _ => exact .fault (.inr ⟨_, journal, rfl, ⟨good, invoked, rfl, rfl⟩, passed⟩)
  · rintro e ⟨s, journal⟩ _ ⟨_, passed⟩
    exact .inl passed

theorem history_leaves (keep : host.Keeps ok ended) (good : ok s) :
    Leaves (Going host ok) (Stopped host ok) (evalProgram host.recorded program (s, [])) :=
  evalProgram_keeps (recorded_keeps keep) program (s, []) ⟨good, by simp⟩

theorem mem_history {event : Event σ} :
    event ∈ history host program s ↔ event ∈ (evalProgram host.recorded program (s, [])).2.2 :=
  List.mem_reverse

theorem history_before (keep : host.Keeps ok ended) (good : ok s) {event : Event σ}
    (present : event ∈ history host program s) : ok event.before := by
  have leaves : Leaves (Going host ok) (Stopped host ok) (evalProgram host.recorded program (s, [])) :=
    history_leaves keep good
  rw [mem_history] at present
  generalize evalProgram host.recorded program (s, []) = recorded at leaves present
  have of_passed {event : Event σ} (passed : event.Passed host ok) : ok event.before := by
    cases event with
    | assigned before context => exact passed
    | invoked i => exact passed.1
  cases leaves with
  | value going => exact of_passed (going.2 event present)
  | fault stopped =>
    rcases stopped with passed | ⟨i, earlier, latest, last, passed⟩
    · exact of_passed (passed event present)
    · rw [latest] at present
      rcases List.mem_cons.mp present with rfl | before
      · exact last.before
      · exact of_passed (passed event before)

theorem history_faithful (keep : host.Keeps ok ended) (good : ok s) {i : Invocation σ}
    (present : .invoked i ∈ history host program s) : i.Faithful host := by
  have leaves : Leaves (Going host ok) (Stopped host ok) (evalProgram host.recorded program (s, [])) :=
    history_leaves keep good
  rw [mem_history] at present
  generalize evalProgram host.recorded program (s, []) = recorded at leaves present
  cases leaves with
  | value going => exact (going.2 _ present).2.1
  | fault stopped =>
    rcases stopped with passed | ⟨i, earlier, latest, last, passed⟩
    · exact (passed _ present).2.1
    · rw [latest] at present
      rcases List.mem_cons.mp present with same | before
      · cases same
        exact last.faithful
      · exact (passed _ before).2.1

end

-- The hosts' answers are free here: nothing is asked of the states.
theorem anything_keeps (host : Host σ) : host.Keeps (fun _ => True) (fun _ _ => True) :=
  ⟨fun _ _ _ => trivial, fun _ _ _ _ => .of_state trivial, fun _ _ => trivial⟩

-- An invocation that fails ends the program: with its fault, in its state, and as its last event.
theorem history_failed {host : Host σ} {program : Program} {s : σ} {i : Invocation σ} {e : Fault}
    (present : .invoked i ∈ history host program s) (failed : i.result = .error e) :
    evalProgram host program s = (.error e, i.after) ∧
      (history host program s).getLast? = some (.invoked i) := by
  have leaves : Leaves (Going host fun _ => True) (Stopped host fun _ => True)
      (evalProgram host.recorded program (s, [])) := history_leaves (anything_keeps host) trivial
  have same := evalProgram_recorded host program s []
  have reading : history host program s =
      (evalProgram host.recorded program (s, [])).2.2.reverse := rfl
  rw [reading] at present ⊢
  rw [List.mem_reverse] at present
  rw [List.getLast?_reverse]
  generalize evalProgram host.recorded program (s, []) = recorded at leaves same present ⊢
  -- an invocation that was passed did not fail
  have not_passed : ¬ (Event.invoked i).Passed host (fun _ => True) := by
    rintro ⟨_, _, value, succeeded⟩
    rw [failed] at succeeded
    cases succeeded
  cases leaves with
  | value going => exact absurd (going.2 _ present) not_passed
  | fault stopped =>
    rcases stopped with passed | ⟨last, earlier, latest, end_, passed⟩
    · exact absurd (passed _ present) not_passed
    · rw [latest] at present
      rcases List.mem_cons.mp present with this | before
      · cases this
        have faults := failed.symm.trans end_.result
        cases faults
        exact ⟨by rw [same, end_.after], by rw [latest]; rfl⟩
      · exact absurd (passed _ before) not_passed

-- A program unwinds only where an invocation did.
theorem history_unwound {host : Host σ} {program : Program} {s after : σ} {e : Fault}
    (fails : evalProgram host program s = (.error e, after)) (unwinds : e.isUnwinding = true) :
    ∃ i, .invoked i ∈ history host program s ∧ i.result = .error e := by
  have keeps : host.recorded.Keeps (fun _ => True) fun e t =>
      e.isUnwinding = true → ∃ i ∈ t.2, ∃ invocation, i = .invoked invocation ∧ invocation.result = .error e := by
    refine ⟨fun _ _ _ => trivial, ?_, fun plain _ unwinds => ?_⟩
    · rintro operator args ⟨s, journal⟩ _
      rw [recorded_invoke]
      cases invoked : host.invoke operator args s with
      | mk result after =>
        cases result with
        | ok value => exact .value trivial
        | error e => exact .fault fun _ => ⟨_, List.mem_cons_self, _, rfl, rfl⟩
    · rw [plain] at unwinds
      cases unwinds
  have leaves := evalProgram_keeps keeps program (s, []) trivial
  have same := evalProgram_recorded host program s []
  rw [fails] at same
  simp only [mem_history]
  generalize evalProgram host.recorded program (s, []) = recorded at leaves same ⊢
  cases leaves with
  | value _ => cases same
  | fault ended =>
    cases same
    obtain ⟨_, present, i, rfl, result⟩ := ended unwinds
    exact ⟨i, present, result⟩

end Switchboard.Eval
