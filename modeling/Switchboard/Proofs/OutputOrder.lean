import Mathlib.Data.List.Induction
import Switchboard.Output

namespace Switchboard

inductive OutputOperation where
  | reply (value : Json) (nested batch : Bool)
  | emit (reply : Reply)
  | echo (content : String)
  | terminate
  | setContentType (contentType : String)
  | addHeader (name value : String)
  | setPending (reply : Option Reply)
  | takePending

namespace OutputOperation

-- what is sent out; a reply inside a call or a batch only waits
def emitted : OutputOperation → Option Reply
  | .emit sent => some sent
  | .reply value false false => some (.normalize value)
  | _ => none

def ends : OutputOperation → Bool
  | .terminate => true
  | op => op.emitted.isSome

def closes : OutputOperation → Bool
  | .echo _ => true
  | op => op.ends

def header? : OutputOperation → Option (String × String)
  | .addHeader name value => some (name, value)
  | _ => none

def contentType? : OutputOperation → Option String
  | .setContentType contentType => some contentType
  | _ => none

def echo? : OutputOperation → Option String
  | .echo content => some content
  | _ => none

def headers (ops : List OutputOperation) : List (String × String) := ops.filterMap header?

def chosenType (ops : List OutputOperation) : Option String := (ops.filterMap contentType?).getLast?

def echoes (ops : List OutputOperation) : String :=
  String.join ((ops.takeWhile fun op => !op.ends).filterMap echo?)

def Leading (ops : List OutputOperation) : Prop := ∀ op ∈ ops, op.closes = false

theorem closing_cases (op : OutputOperation) :
    op.ends = true ∨ (∃ content, op = .echo content) ∨ op.closes = false := by
  cases ended : op.ends with
  | true => exact .inl rfl
  | false =>
    cases op with
    | echo content => exact .inr (.inl ⟨content, rfl⟩)
    | _ => exact .inr (.inr ended)

theorem ends_cases {op : OutputOperation} (ended : op.ends = true) :
    op = .terminate ∨ ∃ sent, op.emitted = some sent := by
  cases op with
  | terminate => exact .inl rfl
  | _ => exact .inr (Option.isSome_iff_exists.mp ended)

theorem closes_ends {op : OutputOperation} (beside : op.closes = false) : op.ends = false := by
  cases op with
  | echo content => cases beside
  | _ => exact beside

theorem closes_echo {op : OutputOperation} (beside : op.closes = false) : op.echo? = none := by
  cases op with
  | echo content => cases beside
  | _ => rfl

theorem echoes_cons (op : OutputOperation) (ops : List OutputOperation) :
    echoes (op :: ops) = if op.ends then "" else op.echo?.getD "" ++ echoes ops := by
  unfold echoes
  rw [List.takeWhile_cons]
  cases op.ends with
  | true => rfl
  | false =>
    cases echoed : op.echo? with
    | none => simp [echoed]
    | some content => simp [echoed, String.join_cons]

end OutputOperation

open OutputOperation

-- what comes of a sequence of operations, told by the one that closes the output
inductive Comes : List OutputOperation → Response → Prop where
  | unclosed {before} : Leading before → Comes before { headers := headers before }
  | echoed {before content after} : Leading before →
    Comes (before ++ .echo content :: after)
      { headers := headers before, contentType := some ((chosenType before).getD Output.textType),
        body := content ++ echoes after }
  | text {before op after content} : Leading before → op.emitted = some (.text content) →
    Comes (before ++ op :: after)
      { headers := headers before, contentType := some ((chosenType before).getD Output.textType),
        body := content }
  | structured {before op after fields} : Leading before → op.emitted = some (.structured fields) →
    Comes (before ++ op :: after)
      { headers := headers before, contentType := some ((chosenType before).getD Output.jsonType),
        body := (Json.object fields).render }
  | nothing {before op after} : Leading before → op = .terminate ∨ op.emitted = some .empty →
    Comes (before ++ op :: after) { headers := headers before }

namespace Output

def perform (o : Output) : OutputOperation → Output
  | .reply value nested batch => (o.reply value nested batch).1
  | .emit reply => (o.emit reply).1
  | .echo content => o.echo content
  | .terminate => o.terminate
  | .setContentType contentType => o.setContentType contentType
  | .addHeader name value => o.addHeader name value
  | .setPending reply => o.setPending reply
  | .takePending => o.takePending.2

def after (o : Output) (ops : List OutputOperation) : Output := ops.foldl perform o

theorem after_cons (o : Output) (op : OutputOperation) (ops : List OutputOperation) :
    o.after (op :: ops) = (o.perform op).after ops := rfl

theorem after_append (o : Output) (before rest : List OutputOperation) :
    o.after (before ++ rest) = (o.after before).after rest := by
  simp [after]

-- nothing was written yet, and this is what waits to be
structure Unclosed (before : List OutputOperation) (o : Output) : Prop where
  unwritten : o.isUnwritten = true
  chosen : o.contentType = chosenType before
  response : o.response = { headers := headers before }

section
variable {o : Output} {op : OutputOperation} {before : List OutputOperation}

theorem perform_emitted {sent : Reply} (sends : op.emitted = some sent) :
    o.perform op = (o.emit sent).1 := by
  cases op with
  | emit sent =>
    cases sends
    rfl
  | reply value nested batch =>
    cases nested with
    | true => cases sends
    | false =>
      cases batch with
      | true => cases sends
      | false =>
        cases sends
        rfl
  | _ => cases sends

theorem perform_unclosed (unclosed : Unclosed before o) (beside : op.closes = false) :
    Unclosed (before ++ [op]) (o.perform op) := by
  obtain ⟨unwritten, chosen, response⟩ := unclosed
  -- a reply that waits says nothing about the headers and the content type
  have waiting (pending : Option Reply) (noHeader : op.header? = none) (noType : op.contentType? = none) :
      Unclosed (before ++ [op]) { o with pending } := by
    refine ⟨unwritten, ?_, ?_⟩
    · simpa [chosenType, noType] using chosen
    · simpa [headers, noHeader] using response
  cases op with
  | reply value nested batch =>
    cases nested with
    | true => exact waiting _ rfl rfl
    | false =>
      cases batch with
      | true => exact waiting _ rfl rfl
      | false => exact absurd beside Bool.noConfusion
  | emit sent => exact absurd beside Bool.noConfusion
  | echo content => exact absurd beside Bool.noConfusion
  | terminate => exact absurd beside Bool.noConfusion
  | setContentType contentType =>
    have noHeader : (OutputOperation.setContentType contentType).header? = none := rfl
    rw [perform, setContentType, if_pos unwritten]
    refine ⟨rfl, ?_, ?_⟩
    · simp [chosenType, contentType?]
    · simpa [headers, noHeader] using response
  | addHeader name value =>
    rw [perform, addHeader, if_pos unwritten]
    refine ⟨unwritten, ?_, ?_⟩
    · simpa [chosenType, contentType?] using chosen
    · simp [response, headers, header?]
  | setPending reply => exact waiting reply rfl rfl
  | takePending => exact waiting none rfl rfl

theorem after_unclosed (leading : Leading before) : Unclosed before (({} : Output).after before) := by
  induction before using List.reverseRecOn with
  | nil => exact ⟨rfl, rfl, rfl⟩
  | append_singleton before op ih =>
    rw [after_append]
    exact perform_unclosed (ih fun op inside => leading op (by simp [inside])) (leading op (by simp))

-- Once something was written, whatever ends the output only ends it.
theorem perform_over (written : o.isUnwritten = false) (ended : op.ends = true) :
    o.perform op = o.terminate := by
  rcases ends_cases ended with rfl | ⟨sent, sends⟩
  · rfl
  · rw [perform_emitted sends, Output.emit, written, if_neg Bool.false_ne_true]

theorem perform_beside (written : o.isUnwritten = false) (beside : op.closes = false) :
    (o.perform op).phase = o.phase ∧ (o.perform op).response = o.response := by
  cases op with
  | reply value nested batch =>
    cases nested with
    | true => exact ⟨rfl, rfl⟩
    | false =>
      cases batch with
      | true => exact ⟨rfl, rfl⟩
      | false => exact absurd beside Bool.noConfusion
  | emit sent => exact absurd beside Bool.noConfusion
  | echo content => exact absurd beside Bool.noConfusion
  | terminate => exact absurd beside Bool.noConfusion
  | setContentType contentType => simp [perform, setContentType, written]
  | addHeader name value => simp [perform, addHeader, written]
  | setPending reply => exact ⟨rfl, rfl⟩
  | takePending => exact ⟨rfl, rfl⟩

theorem after_terminated (terminated : o.phase = .terminated) (ops : List OutputOperation) :
    (o.after ops).response = o.response := by
  induction ops generalizing o with
  | nil => rfl
  | cons op ops ih =>
    have written : o.isUnwritten = false := by simp [isUnwritten, terminated]
    rw [after_cons]
    rcases op.closing_cases with ended | ⟨content, rfl⟩ | beside
    · rw [perform_over written ended, ih rfl]
      rfl
    · have ignored : o.perform (.echo content) = o := by simp [perform, Output.echo, terminated]
      rw [ignored, ih terminated]
    · obtain ⟨phase, same⟩ := perform_beside written beside
      rw [ih (phase.trans terminated), same]

theorem after_flushed (flushed : o.phase = .flushed) (ops : List OutputOperation) :
    (o.after ops).response = { o.response with body := o.response.body ++ echoes ops } := by
  induction ops generalizing o with
  | nil => simp [after, echoes]
  | cons op ops ih =>
    have written : o.isUnwritten = false := by simp [isUnwritten, flushed]
    rw [after_cons, echoes_cons]
    rcases op.closing_cases with ended | ⟨content, rfl⟩ | beside
    · rw [perform_over written ended, after_terminated rfl, if_pos ended]
      simp [Output.terminate]
    · have longer : o.perform (.echo content) = o.writeBody (o.response.body ++ content) := by
        simp [perform, Output.echo, flushed]
      have still : (o.writeBody (o.response.body ++ content)).phase = .flushed := flushed
      rw [longer, ih still]
      simp [writeBody, ends, emitted, echo?, String.append_assoc]
    · obtain ⟨phase, same⟩ := perform_beside written beside
      rw [ih (phase.trans flushed), same, closes_ends beside, closes_echo beside]
      simp

theorem emit_unclosed (unclosed : Unclosed before o) (reply : Reply) :
    (o.emit reply).1 = (o.write reply).terminate := by
  simp [Output.emit, unclosed.unwritten]

theorem echo_unclosed (unclosed : Unclosed before o) (content : String) :
    o.echo content =
      { (o.writeHeader textType).writeBody (o.response.body ++ content) with phase := .flushed } := by
  have unwritten := unclosed.unwritten
  unfold Output.echo
  cases phase : o.phase with
  | opened => rfl
  | typeDecided => rfl
  | flushed => simp [isUnwritten, phase] at unwritten
  | terminated => simp [isUnwritten, phase] at unwritten

end

theorem finish_comes {ops : List OutputOperation} {response : Response} (comes : Comes ops response) :
    (({} : Output).after ops).finish = response := by
  show (({} : Output).after ops).response = response
  cases comes with
  | unclosed leading => exact (after_unclosed leading).response
  | @echoed before content rest leading =>
    have unclosed := after_unclosed leading
    rw [after_append, after_cons, perform, echo_unclosed unclosed, after_flushed rfl]
    simp [writeHeader, writeBody, unclosed.response, unclosed.chosen]
  | text leading sends =>
    have unclosed := after_unclosed leading
    rw [after_append, after_cons, perform_emitted sends, emit_unclosed unclosed, after_terminated rfl]
    simp [write, writeHeader, writeBody, Output.terminate, unclosed.response, unclosed.chosen]
  | structured leading sends =>
    have unclosed := after_unclosed leading
    rw [after_append, after_cons, perform_emitted sends, emit_unclosed unclosed, after_terminated rfl]
    simp [write, writeHeader, writeBody, Output.terminate, unclosed.response, unclosed.chosen]
  | @nothing before op rest leading closing =>
    have unclosed := after_unclosed leading
    rw [after_append, after_cons]
    rcases closing with rfl | sends
    · rw [perform, after_terminated rfl]
      exact unclosed.response
    · rw [perform_emitted sends, emit_unclosed unclosed, after_terminated rfl]
      exact unclosed.response

theorem comes_exists (ops : List OutputOperation) : ∃ response, Comes ops response := by
  cases found : ops.find? OutputOperation.closes with
  | none =>
    refine ⟨_, .unclosed fun op inside => ?_⟩
    simpa using List.find?_eq_none.mp found op inside
  | some op =>
    obtain ⟨closes, before, rest, rfl, first⟩ := List.find?_eq_some_iff_append.mp found
    have leading : Leading before := fun op inside => by simpa using first op inside
    have ending (ended : op.ends = true) : ∃ response, Comes (before ++ op :: rest) response := by
      rcases ends_cases ended with rfl | ⟨sent, sends⟩
      · exact ⟨_, .nothing leading (.inl rfl)⟩
      · cases sent with
        | empty => exact ⟨_, .nothing leading (.inr sends)⟩
        | text content => exact ⟨_, .text leading sends⟩
        | structured fields => exact ⟨_, .structured leading sends⟩
    cases op with
    | echo content => exact ⟨_, .echoed leading⟩
    | _ => exact ending closes

-- Whatever is done to a new output, in whatever order, one operation decides what it comes to.
theorem written_once (ops : List OutputOperation) (response : Response) :
    (({} : Output).after ops).finish = response ↔ Comes ops response := by
  constructor
  · intro finished
    obtain ⟨decided, comes⟩ := comes_exists ops
    rw [← finished, finish_comes comes]
    exact comes
  · exact finish_comes

-- A header after the first echo comes too late, and so does an echo after the end.
example : (({} : Output).after [.addHeader "a" "b", .echo "x", .addHeader "c" "d", .echo "y", .terminate,
    .echo "z"]).finish = { headers := [("a", "b")], contentType := some textType, body := "xy" } := by
  rfl

end Output
end Switchboard
