import Switchboard.Dispatch.Request
import Switchboard.Proofs.BatchIsolation
import Switchboard.Proofs.Endings
import Switchboard.Proofs.Envelopes

namespace Switchboard

theorem Entries.has_iff {name : String} {entries : Entries α} : has name entries = true ↔ name ∈ names entries := by
  induction entries with
  | nil => simp [has, find, names]
  | cons head rest ih =>
    obtain ⟨key, value⟩ := head
    by_cases same : key = name
    · simp [has, find, names, same]
    · simpa [has, find, names, same, Ne.symm same] using ih

theorem Reply.value_not_number (r : Reply) (n : Number) : r.value ≠ .number n := by
  cases r <;> simp [value]

namespace Dispatcher
open Eval

-- what a batch keeps of the run of an entry
def Ending.recorded : Ending → Json
  | .empty _ | .stopped => .null
  | .replied value => (Reply.normalize value).value
  | .failed failure => .object [("response", .number (.int 409)), ("error", .string failure.message)]

theorem entryValue_outcome (ending : Ending) : entryValue (ending.outcome false true) = ending.recorded := by
  cases ending <;> rfl

-- what is recorded for an entry that is run in this state, with the request's parameters under its own
inductive Records (requested : Params) (entry : BatchEntry) (d : Dispatcher) : Json → Prop where
  | undecoded : Params.ofEncoded entry.encoded = none →
    Records requested entry d
      (.object [("response", .number (.int 410)), ("error", .string "Invalid batch entry encoding")])
  | unnamed {own} : Params.ofEncoded entry.encoded = some own →
    ((requested.overlay own).withRoute none).functionPath = none →
    Records requested entry d (.object [("response", .number (.int 400)),
      ("error", .string ("Function not found: " ++ ((requested.overlay own).get "f").getD ""))])
  | ran {own path ending} : Params.ofEncoded entry.encoded = some own →
    ((requested.overlay own).withRoute none).functionPath = some path →
    Concludes path { d with params := (requested.overlay own).withRoute none, context := {} } ending →
    Records requested entry d ending.recorded

section
variable {requested : Params} {entry : BatchEntry} {d : Dispatcher}

theorem runEntry_decoded {own : Params} (decoded : Params.ofEncoded entry.encoded = some own) :
    d.runEntry requested entry = runNamed { d with params := (requested.overlay own).withRoute none } := by
  unfold runEntry entryParams
  rw [decoded]
  rfl

theorem runNamed_concludes {path : FunctionPath} {ending : Ending} (named : d.params.functionPath = some path)
    (concludes : Concludes path { d with context := {} } ending) (batch : d.batch = true)
    (fits : d.maxDepth ≤ Context.maxDepth) : d.runNamed.1 = ending.recorded := by
  have outcome := concludes.outcome fits
  unfold runNamed
  rw [named]
  show entryValue (run path { d with context := {} }).1 = _
  rw [outcome, batch]
  exact entryValue_outcome ending

theorem records_iff (batch : d.batch = true) (fits : d.maxDepth ≤ Context.maxDepth) {value : Json} :
    Records requested entry d value ↔ (d.runEntry requested entry).1 = value := by
  constructor
  · intro records
    cases records with
    | undecoded failed =>
      unfold runEntry entryParams
      rw [failed]
      rfl
    | unnamed decoded nameless =>
      rw [runEntry_decoded decoded]
      unfold runNamed
      rw [nameless]
      rfl
    | ran decoded named concludes =>
      rw [runEntry_decoded decoded]
      exact runNamed_concludes named concludes batch fits
  · rintro rfl
    cases decoded : Params.ofEncoded entry.encoded with
    | none =>
      unfold runEntry entryParams
      rw [decoded]
      exact .undecoded decoded
    | some own =>
      rw [runEntry_decoded decoded]
      cases named : ((requested.overlay own).withRoute none).functionPath with
      | none =>
        unfold runNamed
        rw [named]
        exact .unnamed decoded named
      | some path =>
        -- the run has an ending whatever the program does, and that decides what is recorded
        obtain ⟨ending, concludes⟩ := run_concludes path
          { d with params := (requested.overlay own).withRoute none, context := {} } fits
        have recorded := runNamed_concludes
          (d := { d with params := (requested.overlay own).withRoute none }) named concludes batch fits
        rw [recorded]
        exact .ran decoded named concludes

end

theorem runEntries_append (requested : Params) (front back : List BatchEntry) : ∀ (done : Fields) (d : Dispatcher),
    runEntries requested done (front ++ back) d =
      runEntries requested (runEntries requested done front d).1 back (runEntries requested done front d).2 := by
  induction front with
  | nil => exact fun _ _ => rfl
  | cons entry rest ih => exact fun _ _ => ih _ _

theorem runEntries_last (requested : Params) {entry : BatchEntry} (before after : List BatchEntry)
    (last : entry.label ∉ after.map BatchEntry.label) (d : Dispatcher) :
    Entries.find entry.label (runEntries requested [] (before ++ entry :: after) d).1 =
      some ((runEntries requested [] before d).2.runEntry requested entry).1 := by
  rw [runEntries_append]
  exact (runEntries_other requested after _ _ last).trans (Entries.find_put_same _ _ _)

theorem eraseDups_snoc (front : List String) (last : String) :
    (front ++ [last]).eraseDups = if last ∈ front then front.eraseDups else front.eraseDups ++ [last] := by
  rw [List.eraseDups_append, List.removeAll]
  split
  · next seen => simp [seen]
  · next unseen =>
    have single : [last].eraseDups = [last] := by rw [List.eraseDups_cons]; rfl
    simp [unseen, single]

theorem names_runEntries (requested : Params) (entries : List BatchEntry) (d : Dispatcher) :
    Entries.names (runEntries requested [] entries d).1 = (entries.map BatchEntry.label).eraseDups := by
  induction entries using List.reverseRecOn with
  | nil => rfl
  | append_singleton front entry ih =>
    rw [runEntries_append, List.map_append, List.map_singleton, eraseDups_snoc]
    show Entries.names (Entries.put entry.label _ (runEntries requested [] front d).1) = _
    rw [Entries.names_put, ih]
    simp only [List.mem_eraseDups]

theorem runEntries_quiet (requested : Params) (entries : List BatchEntry) {start : Dispatcher} :
    ∀ (done : Fields) (d : Dispatcher), Quiet start d → Quiet start (runEntries requested done entries d).2 := by
  induction entries with
  | nil => exact fun _ _ quiet => quiet
  | cons entry rest ih => exact fun _ _ quiet => ih _ _ (runEntry_quiet requested entry quiet)

-- the dispatcher of a new request with a batch, before the first entry
def batching (cache : ProgramCache) (limit : Nat) (params : Params) : Dispatcher :=
  { cache, maxDepth := limit, params, batch := true }

def gathered (cache : ProgramCache) (limit : Nat) (params : Params) (envelope : String) : Fields :=
  (runEntries params [] (Envelope.entries envelope) (batching cache limit params)).1

-- with a status before them, if none of them has its name
def withStatus (fields : Fields) : Fields :=
  if Entries.has "response" fields then fields else ("response", .number (.int 200)) :: fields

theorem normalize_object (fields : Fields) : Reply.normalize (.object fields) = .structured (withStatus fields) := by
  unfold withStatus
  cases present : Entries.has "response" fields with
  | true => simp only [Reply.normalize, Reply.statusField, present, if_true]
  | false =>
    simp only [Reply.normalize, Reply.statusField, present, Bool.false_eq_true, if_false]
    rfl

theorem emit_unwritten {d : Dispatcher} (unwritten : d.output.isUnwritten = true) (fields : Fields) :
    (d.emit (.object fields)).output.response =
      { d.output.response with
        contentType := some (d.output.contentType.getD Output.jsonType)
        body := (Json.object (withStatus fields)).render } := by
  simp only [emit, Output.reply, Bool.false_eq_true, if_false, normalize_object, Output.emit, unwritten, if_true]
  rfl

theorem respond_batch {cache : ProgramCache} {limit : Nat} (fits : limit ≤ Context.maxDepth) {params : Params}
    {envelope : String} (carried : params.envelope = some envelope) :
    (({ cache, maxDepth := limit } : Dispatcher).respond params).1 =
      .ok { contentType := some Output.jsonType
            body := (Json.object (withStatus (gathered cache limit params envelope))).render } := by
  have quiet : Quiet (batching cache limit params)
      (runEntries params [] (Envelope.entries envelope) (batching cache limit params)).2 :=
    runEntries_quiet params (Envelope.entries envelope) [] _ ⟨rfl, fits, rfl⟩
  let left : Dispatcher :=
    { (runEntries params [] (Envelope.entries envelope) (batching cache limit params)).2 with
      batch := false, params }
  have written : left.output.setPending none = ({} : Output) := quiet.written
  have unwritten : left.output.isUnwritten = true := congrArg Output.isUnwritten written
  have contentType : left.output.contentType = none := congrArg Output.contentType written
  have response : left.output.response = {} := congrArg Output.response written
  have ends : (({ cache, maxDepth := limit } : Dispatcher).respond params).1 =
      .ok (left.emit (.object (gathered cache limit params envelope))).output.response := by
    unfold respond start
    rw [carried]
    rfl
  rw [ends, emit_unwritten unwritten, contentType, response]
  rfl

theorem entryValue_not_number (outcome : Outcome) (n : Number) : entryValue outcome ≠ .number n := by
  cases outcome with
  | completed value => simp [entryValue]
  | terminated => simp [entryValue]
  | earlyReturn reply => exact reply.value_not_number n
  | suppressed reply => exact reply.value_not_number n
  | failed failure => exact (Reply.error .customError failure.message).value_not_number n

theorem runEntry_not_number (requested : Params) (entry : BatchEntry) (d : Dispatcher) (n : Number) :
    (d.runEntry requested entry).1 ≠ .number n := by
  unfold runEntry
  split
  · exact (Reply.error .invalidData _).value_not_number n
  · unfold runNamed
    split
    · exact (unnamed _).reply.value_not_number n
    · exact entryValue_not_number _ n

-- No result is a number, whatever its label says.
theorem runEntries_not_number (requested : Params) (entries : List BatchEntry) {label : String} {n : Number} :
    ∀ (done : Fields) (d : Dispatcher), Entries.find label done ≠ some (.number n) →
      Entries.find label (runEntries requested done entries d).1 ≠ some (.number n) := by
  induction entries with
  | nil => exact fun _ _ other => other
  | cons entry rest ih =>
    intro done d other
    apply ih
    by_cases same : label = entry.label
    · rw [same, Entries.find_put_same]
      intro found
      exact runEntry_not_number requested entry d n (Option.some.inj found)
    · rw [Entries.find_put_other same]
      exact other

theorem names_gathered (cache : ProgramCache) (limit : Nat) (params : Params) (envelope : String) :
    Entries.names (gathered cache limit params envelope) = (labels envelope).eraseDups :=
  names_runEntries params (Envelope.entries envelope) _

theorem has_gathered (cache : ProgramCache) (limit : Nat) (params : Params) (envelope label : String) :
    Entries.has label (gathered cache limit params envelope) = true ↔ label ∈ labels envelope := by
  rw [Entries.has_iff, names_gathered, List.mem_eraseDups]

section
variable {cache : ProgramCache} {limit : Nat} {params : Params} {envelope : String}

theorem withStatus_free (free : "response" ∉ labels envelope) :
    withStatus (gathered cache limit params envelope) =
      ("response", .number (.int 200)) :: gathered cache limit params envelope := by
  rw [withStatus, if_neg]
  rwa [has_gathered]

theorem withStatus_taken (taken : "response" ∈ labels envelope) :
    withStatus (gathered cache limit params envelope) = gathered cache limit params envelope := by
  rw [withStatus, if_pos]
  rwa [has_gathered]

end

-- The answer to a batch is an object, and its status is that of success exactly if no label takes the
-- name of the status; with such a label the member is a result, which is never a number.
theorem batch_status (cache : ProgramCache) (limit : Nat) (fits : limit ≤ Context.maxDepth) (params : Params)
    (envelope : String) (carried : params.envelope = some envelope) :
    ∃ response fields, (({ cache, maxDepth := limit } : Dispatcher).respond params).1 = .ok response ∧
      response.body = (Json.object fields).render ∧
      (Entries.find "response" fields = some (.number (.int 200)) ↔ "response" ∉ labels envelope) ∧
      ((Reply.structured fields).isFailure = false ↔ "response" ∉ labels envelope) := by
  refine ⟨_, _, respond_batch fits carried, rfl, ?_⟩
  by_cases taken : "response" ∈ labels envelope
  · have other (n : Number) : Entries.find "response" (gathered cache limit params envelope) ≠ some (.number n) :=
      runEntries_not_number params (Envelope.entries envelope) [] _ (by simp [Entries.find])
    have failing : (Reply.structured (gathered cache limit params envelope)).isFailure = true := by
      simp only [Reply.isFailure, Reply.status?, Reply.statusField]
      split
      · next n found => exact absurd found (other _)
      · rfl
    rw [withStatus_taken taken, failing]
    exact ⟨⟨fun found => absurd found (other _), fun free => absurd taken free⟩, by simp [taken]⟩
  · have status : Entries.find "response" (("response", .number (.int 200)) :: gathered cache limit params envelope) =
        some (Json.number (.int 200)) := by simp [Entries.find]
    have succeeds : (Reply.structured (("response", .number (.int 200)) ::
        gathered cache limit params envelope)).isFailure = false := by
      simp [Reply.isFailure, Reply.status?, Reply.statusField, status, Status.code]
    rw [withStatus_free taken]
    exact ⟨⟨fun _ => taken, fun _ => status⟩, ⟨fun _ => taken, fun _ => succeeds⟩⟩

-- An entry that takes the name of the status: what it gives stands there, and the request has failed.
theorem batch_status_taken :
    let params : Params := { values := [("rpkg", "response,***")] }
    128 ≤ Context.maxDepth ∧ params.envelope = some "response,***" ∧
      ∃ response fields, (({ cache := {} } : Dispatcher).respond params).1 = .ok response ∧
        response.body = (Json.object fields).render ∧
        Entries.find "response" fields ≠ some (.number (.int 200)) ∧
        (Reply.structured fields).isFailure = true := by
  intro params
  have carried : params.envelope = some "response,***" := by decide
  have taken : "response" ∈ labels "response,***" := by
    have only : Envelope.entries "response,***" = [⟨"response", "***"⟩] := by cbv
    rw [labels, only]
    decide
  obtain ⟨response, fields, answers, body, status, success⟩ :=
    batch_status {} 128 (by decide) params "response,***" carried
  refine ⟨by decide, carried, response, fields, answers, body, fun found => absurd taken (status.mp found), ?_⟩
  rw [← Bool.not_eq_false]
  exact fun succeeds => absurd taken (success.mp succeeds)

open Envelope in
structure BatchReply (cache : ProgramCache) (limit : Nat) (params : Params) (envelope : String)
    (members : Fields) : Prop where
  answer : (({ cache, maxDepth := limit } : Dispatcher).respond params).1 = .ok {
    status := 200
    headers := []
    contentType := some "application/json; charset=utf-8"
    body := (Json.object (("response", .number (.int 200)) :: members)).render }
  names : Entries.names members = ((entries envelope).map BatchEntry.label).eraseDups
  values : ∀ before entry after, entries envelope = before ++ entry :: after →
    entry.label ∉ after.map BatchEntry.label → ∀ value, Entries.find entry.label members = some value ↔
      Records params entry (runEntries params [] before (batching cache limit params)).2 value
  counted : entries envelope = ((Text.split ';' envelope.toList).filterMap entry?).take 256
  accepted : ∀ piece entry, entry? piece = some entry ↔ Labelled piece entry
  passedOver : ∀ front piece back, Text.split ';' envelope.toList = front ++ piece :: back → Void piece →
    entries envelope = ((front ++ back).filterMap entry?).take 256

theorem batch_reply (cache : ProgramCache) (limit : Nat) (fits : limit ≤ Context.maxDepth) (params : Params)
    (envelope : String) (carried : params.envelope = some envelope) (free : "response" ∉ labels envelope) :
    ∃ members, BatchReply cache limit params envelope members := by
  refine ⟨gathered cache limit params envelope, ?_, names_gathered cache limit params envelope, ?_, rfl,
    fun piece entry => Envelope.piece_labelled,
    fun front piece back pieces void => Envelope.entries_without void pieces⟩
  · rw [respond_batch fits carried, withStatus_free free]
    rfl
  · intro before entry after whole last value
    have quiet : Quiet (batching cache limit params)
        (runEntries params [] before (batching cache limit params)).2 :=
      runEntries_quiet params before [] _ ⟨rfl, fits, rfl⟩
    have found := runEntries_last params before after last (batching cache limit params)
    rw [← whole] at found
    rw [records_iff quiet.batch quiet.fits]
    show Entries.find entry.label (gathered cache limit params envelope) = some value ↔ _
    rw [show Entries.find entry.label (gathered cache limit params envelope) = _ from found, Option.some.injEq]

-- a label that comes twice, with another between and a piece that says nothing
theorem batch_reply_repeated :
    let params : Params := { values := [("mreq", "b,Zj1t;x;a,***;b,Zj1t")] }
    128 ≤ Context.maxDepth ∧ params.envelope = some "b,Zj1t;x;a,***;b,Zj1t" ∧
      "response" ∉ labels "b,Zj1t;x;a,***;b,Zj1t" ∧
      ∃ members, BatchReply stocked 128 params "b,Zj1t;x;a,***;b,Zj1t" members ∧
        Entries.names members = ["b", "a"] := by
  intro params
  have carried : params.envelope = some "b,Zj1t;x;a,***;b,Zj1t" := by decide
  have accepted : labels "b,Zj1t;x;a,***;b,Zj1t" = ["b", "a", "b"] := by
    have entries : Envelope.entries "b,Zj1t;x;a,***;b,Zj1t" = [⟨"b", "Zj1t"⟩, ⟨"a", "***"⟩, ⟨"b", "Zj1t"⟩] := by
      cbv
    rw [labels, entries]
    rfl
  have free : "response" ∉ labels "b,Zj1t;x;a,***;b,Zj1t" := by
    rw [accepted]
    decide
  obtain ⟨members, reply⟩ := batch_reply stocked 128 (by decide) params _ carried free
  refine ⟨by decide, carried, free, members, reply, ?_⟩
  have names : Entries.names members = (labels "b,Zj1t;x;a,***;b,Zj1t").eraseDups := reply.names
  rw [names, accepted]
  decide

end Dispatcher
end Switchboard
