import Switchboard.Http.Answer
import Switchboard.Proofs.Answers

namespace Switchboard

namespace Http

-- A name that is sent as that of the content type is one by any spelling.
theorem headerName_contentType {name : String} (sent : headerName? name = some "content-type") :
    Dispatcher.isContentType name = true := by
  unfold headerName? at sent
  split at sent
  · have same := congrArg String.toList (Option.some.inj sent)
    rw [String.toList_ofList] at same
    unfold Dispatcher.isContentType
    rw [beq_iff_eq, ← String.toList_inj, String.toList_map, same]
  · cases sent

namespace Headers

theorem ofFields_cons (field : String × String) (fields : List (String × String)) :
    ofFields (field :: fields) = (field? field.1 field.2).toList ++ ofFields fields := by
  obtain ⟨name, value⟩ := field
  unfold ofFields
  rw [List.filterMap_cons]
  dsimp only
  cases field? name value <;> rfl

theorem values_ofFields (name : String) (fields : List (String × String)) :
    values name (ofFields fields) =
      (fields.filter fun field => headerName? field.1 = some name ∧ isLegalValue field.2 = true).map Prod.snd := by
  induction fields with
  | nil => rfl
  | cons field fields ih =>
    rw [ofFields_cons, values_together, ih, List.filter_cons]
    unfold field?
    cases headerName? field.1 with
    | none => simp [values]
    | some sent =>
      by_cases legal : isLegalValue field.2 = true
      · by_cases same : sent = name <;> simp [values, legal, same]
      · simp [values, legal]

end Headers

namespace Answer

def bodyHeaders : Headers := [("content-type", "text/plain; charset=utf-8")]

-- the response's content type in the place of the body's, or none at all
def setType (contentType : Option String) (h : Headers) : Headers :=
  match contentType with
  | some value => if isLegalValue value then h.insert "content-type" value else h.remove "content-type"
  | none => h.remove "content-type"

def addField (h : Headers) (field : String × String) : Headers :=
  match headerName? field.1 with
  | some name => if isLegalValue field.2 then h.append name field.2 else h
  | none => h

theorem addField_eq (h : Headers) (field : String × String) :
    addField h field = h ++ (Headers.field? field.1 field.2).toList := by
  unfold addField Headers.field?
  cases headerName? field.1 with
  | none => simp
  | some name =>
    dsimp only [Option.bind_some]
    split <;> simp [Headers.append]

theorem addFields_eq (fields : List (String × String)) : ∀ h : Headers,
    fields.foldl addField h = h ++ Headers.ofFields fields := by
  induction fields with
  | nil => simp [Headers.ofFields]
  | cons field fields ih =>
    intro h
    rw [List.foldl_cons, ih, addField_eq, List.append_assoc, Headers.ofFields_cons]

theorem ofResponse_steps (r : Response) :
    (ofResponse r).headers = r.headers.foldl addField (setType r.contentType bodyHeaders) := by
  rw [addFields_eq]
  unfold ofResponse setType contentTypeHeaders
  dsimp only
  cases r.contentType with
  | none => rfl
  | some value =>
    dsimp only
    split <;> rfl

theorem values_contentType (name : String) (contentType : Option String) :
    Headers.values name (contentTypeHeaders contentType) =
      if name = "content-type" then (contentType.filter isLegalValue).toList else [] := by
  unfold contentTypeHeaders
  cases contentType with
  | none => simp [Headers.values]
  | some value =>
    by_cases legal : isLegalValue value = true
    · by_cases same : name = "content-type"
      · simp [Headers.values, legal, same, Option.filter]
      · simp [Headers.values, legal, same, Ne.symm same]
    · simp [Headers.values, legal]

end Answer

-- what is sent of a response to which these fields were added
structure Sent (fields : List (String × String)) (r : Response) : Prop where
  added : r.headers = fields
  names : ∀ field ∈ r.headers, field.1 ≠ "" ∧ Dispatcher.isContentType field.1 = false
  steps : (Answer.ofResponse r).headers =
    r.headers.foldl Answer.addField (Answer.setType r.contentType Answer.bodyHeaders)
  one : ∀ value, r.contentType = some value → isLegalValue value = true →
    Headers.values "content-type" (Answer.ofResponse r).headers = [value]
  none : (∀ value, r.contentType = some value → isLegalValue value = false) →
    Headers.values "content-type" (Answer.ofResponse r).headers = []
  others : ∀ name, name ≠ "content-type" → Headers.values name (Answer.ofResponse r).headers =
    (fields.filter fun field => headerName? field.1 = some name ∧ isLegalValue field.2 = true).map Prod.snd

end Http

namespace Dispatcher
open Eval Http

theorem emit_headers (d : Dispatcher) (value : Json) : (d.emit value).output.response.headers =
    d.output.response.headers := congrArg Prod.fst ((head_outlives (head d.output)).sent (.normalize value) rfl)

theorem respond_headers {cache : ProgramCache} {limit : Nat} (fits : limit ≤ Context.maxDepth) {params : Params}
    {response : Response} (answers : (({ cache, maxDepth := limit } : Dispatcher).respond params).1 = .ok response) :
    response.headers = ({ cache, maxDepth := limit } : Dispatcher).requestFields params := by
  cases single : params.envelope with
  | some envelope =>
    rw [respond_batch fits single] at answers
    cases answers
    unfold requestFields requestLines
    rw [single]
    rfl
  | none =>
    cases named : params.functionPath with
    | none =>
      rw [respond_nameless single named] at answers
      cases answers
      unfold requestFields requestLines
      rw [single, named]
      exact emit_headers _ _
    | some path =>
      cases ends : ({ cache, maxDepth := limit, params } : Dispatcher).process path true with
      | mk outcome after =>
        have fields := congrArg Prod.fst (requested_head (d := { cache, maxDepth := limit }) fits rfl single named ends)
        by_cases fine : ∀ failure, outcome ≠ .failed failure
        · rw [respond_ended single named ends fine] at answers
          cases answers
          exact fields
        · obtain ⟨failure, same⟩ := not_forall_not.mp fine
          subst same
          rw [respond_failed fits single named ends] at answers
          split at answers <;> cases answers
          exact (emit_headers after _).trans fields

theorem requestFields_names (d : Dispatcher) (params : Params) :
    ∀ field ∈ d.requestFields params, field.1 ≠ "" ∧ isContentType field.1 = false := by
  intro field present
  have kept := (List.mem_filter.mp present).2
  simpa [isField] using kept

-- Whatever programs do with the two operators, alone, in calls or in a batch.
theorem content_type_single (cache : ProgramCache) (limit : Nat) (fits : limit ≤ Context.maxDepth) (params : Params)
    (response : Response) (answers : (({ cache, maxDepth := limit } : Dispatcher).respond params).1 = .ok response) :
    Sent (({ cache, maxDepth := limit } : Dispatcher).requestFields params) response := by
  have added := respond_headers fits answers
  have names : ∀ field ∈ response.headers, field.1 ≠ "" ∧ isContentType field.1 = false :=
    added ▸ requestFields_names _ params
  have typed : Headers.values "content-type" (Answer.ofResponse response).headers =
      (response.contentType.filter isLegalValue).toList := by
    have untyped : Headers.values "content-type" (Headers.ofFields response.headers) = [] := by
      rw [Headers.values_ofFields, List.map_eq_nil_iff, List.filter_eq_nil_iff]
      intro field present sent
      have own := headerName_contentType (decide_eq_true_iff.mp sent).1
      rw [(names field present).2] at own
      cases own
    rw [Answer.ofResponse, Headers.values_together, untyped, List.append_nil, Answer.values_contentType, if_pos rfl]
  refine ⟨added, names, Answer.ofResponse_steps response, ?_, ?_, ?_⟩
  · intro value present legal
    rw [typed, present]
    simp [legal]
  · intro illegal
    rw [typed]
    cases present : response.contentType with
    | none => rfl
    | some value => simp [illegal value present]
  · intro name other
    rw [Answer.ofResponse, Headers.values_together, Answer.values_contentType, if_neg other, List.nil_append,
      Headers.values_ofFields, added]

def sendingProgram : Source.Program := [.template (.call "header" [.literal (.string "X-A : 1")])]

def sending : ProgramCache := ProgramCache.sourceOnly "(header 'X-A : 1')" ⟨5, 0⟩

theorem sending_lines {d : Dispatcher} (cache : d.cache = sending) (top : d.stack = []) (single : d.batch = false)
    (unwritten : d.output.isUnwritten = true) (levels : Nat) : lines levels ⟨"a"⟩ d = [("X-A", "1")] := by
  have compiles : ProgramCache.compileText ⟨"a"⟩ "(header 'X-A : 1')" = .ok sendingProgram := by cbv
  obtain ⟨inside, opened⟩ := sourceOnly_opening compiles cache top
  obtain ⟨_, batch, _, _, output, _⟩ := opening_kept opened
  have line : lineOf? .header [.string "X-A : 1"] = some ("X-A", "1") := by cbv
  have shared (inner : FunctionPath → Dispatcher → List (String × String)) :
      (events ⟨"a"⟩ d).flatMap (eventLines inner) = [("X-A", "1")] := by
    rw [events_eq opened, sendingProgram, operator_events _ rfl rfl]
    simp only [List.flatMap_cons, List.flatMap_nil, List.append_nil, eventLines]
    show (if inside.batch = false ∧ inside.output.isUnwritten = true then _ else _) = _
    rw [batch, output, if_pos ⟨single, unwritten⟩, line]
    rfl
  cases levels with
  | zero => exact shared _
  | succ levels => exact shared _

theorem content_type_single_sending : ∃ response,
    (({ cache := sending, maxDepth := 3 } : Dispatcher).respond { values := [("f", "a")] }).1 = .ok response ∧
      Sent [("X-A", "1")] response ∧ Headers.values "x-a" (Answer.ofResponse response).headers = ["1"] := by
  let params : Params := { values := [("f", "a")] }
  let d : Dispatcher := { cache := sending, maxDepth := 3 }
  have single : params.envelope = none := by decide
  have named : params.functionPath = some ⟨"a"⟩ := by cbv
  cases answers : (d.respond params).1 with
  | error e =>
    obtain ⟨_, _, unreported, _⟩ := (respond_error (by decide) single e).mp answers
    obtain ⟨_, asked, _⟩ := unreported.accept
    cases asked
  | ok response =>
    have sent := content_type_single sending 3 (by decide) params response answers
    have fields : d.requestFields params = [("X-A", "1")] := by
      have line := sending_lines (d := d.requested params) rfl rfl rfl rfl 3
      unfold requestFields requestLines
      rw [single, named]
      show (lines 3 _ _).filter isField = _
      rw [line]
      cbv
    rw [fields] at sent
    refine ⟨response, rfl, sent, ?_⟩
    rw [sent.others "x-a" (by decide)]
    decide

end Dispatcher
end Switchboard
