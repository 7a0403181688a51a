import Switchboard.Http.Request
import Switchboard.Proofs.ArtifactRoundTrip
import Switchboard.Proofs.BatchReplies

namespace Switchboard

namespace Entries

section
variable {name other : String} {entries more : Entries α}

theorem put_again (name : String) (value old : α) (entries : Entries α) :
    put name value (put name old entries) = put name value entries := by
  induction entries with
  | nil => simp [put]
  | cons head rest ih =>
    obtain ⟨key, first⟩ := head
    by_cases same : key = name <;> simp [put, same, ih]

-- What is there already may as well be changed first.
theorem put_first (present : name ∈ names entries) (different : other ≠ name) (value old : α) :
    put name value (put other old entries) = put other old (put name value entries) := by
  induction entries with
  | nil => simp [names] at present
  | cons head rest ih =>
    obtain ⟨key, first⟩ := head
    by_cases same : key = name
    · subst same
      simp [put, Ne.symm different]
    · have later : name ∈ names rest := by simpa [names, Ne.symm same] using present
      by_cases there : key = other <;> simp [put, same, there, different, ih later]

theorem putAll_append (entries : Entries α) (front back : List (String × α)) :
    putAll entries (front ++ back) = putAll (putAll entries front) back := List.foldl_append

theorem putAll_cons (entries : Entries α) (name : String) (value : α) (pairs : List (String × α)) :
    putAll entries ((name, value) :: pairs) = putAll (put name value entries) pairs := rfl

theorem mem_names_put (present : name ∈ names entries) (other : String) (value : α) :
    name ∈ names (put other value entries) := by
  rw [names_put]
  split
  · exact present
  · simp [present]

theorem putAll_first (present : name ∈ names entries) (absent : name ∉ names more) (value : α) :
    put name value (putAll entries more) = putAll (put name value entries) more := by
  induction more generalizing entries with
  | nil => rfl
  | cons head more ih =>
    obtain ⟨other, old⟩ := head
    simp only [names, List.map_cons, List.mem_cons, not_or] at absent
    rw [putAll_cons, putAll_cons, ih (mem_names_put present other old) absent.2,
      put_first present (Ne.symm absent.1)]

theorem putAll_put (distinct : (names more).Nodup) (name : String) (value : α) (entries : Entries α) :
    putAll entries (put name value more) = put name value (putAll entries more) := by
  induction more generalizing entries with
  | nil => rfl
  | cons head more ih =>
    obtain ⟨key, old⟩ := head
    simp only [names, List.map_cons, List.nodup_cons] at distinct
    by_cases same : key = name
    · subst same
      have present : key ∈ names (put key old entries) := by
        rw [← has_iff, has, find_put_same]
        rfl
      rw [put, if_pos rfl, putAll_cons, putAll_cons, putAll_first present distinct.1, put_again]
    · rw [put, if_neg same, putAll_cons, putAll_cons, ih distinct.2]

theorem nodup_putAll (distinct : (names entries).Nodup) (pairs : List (String × α)) :
    (names (putAll entries pairs)).Nodup := by
  induction pairs generalizing entries with
  | nil => exact distinct
  | cons pair pairs ih => exact ih (nodup_put distinct pair.1 pair.2)

theorem putAll_putAll (distinct : (names more).Nodup) (pairs : List (String × α)) (entries : Entries α) :
    putAll entries (putAll more pairs) = putAll (putAll entries more) pairs := by
  induction pairs generalizing more with
  | nil => rfl
  | cons pair pairs ih =>
    obtain ⟨name, value⟩ := pair
    rw [putAll_cons, ih (nodup_put distinct name value), putAll_put distinct, putAll_cons]

theorem find_absent (absent : name ∉ names entries) : find name entries = none := by
  rw [← has_iff, has, Option.isSome_iff_ne_none, not_not] at absent
  exact absent

theorem find_putAll_other {pairs : List (String × α)} (absent : name ∉ pairs.map Prod.fst) (entries : Entries α) :
    find name (putAll entries pairs) = find name entries := by
  induction pairs generalizing entries with
  | nil => rfl
  | cons pair pairs ih =>
    simp only [List.map_cons, List.mem_cons, not_or] at absent
    exact (ih absent.2 _).trans (find_put_other absent.1 pair.2 entries)

theorem find_putAll (distinct : (names more).Nodup) (name : String) (entries : Entries α) :
    find name (putAll entries more) = (find name more).or (find name entries) := by
  induction more generalizing entries with
  | nil => rfl
  | cons head more ih =>
    obtain ⟨key, value⟩ := head
    simp only [names, List.map_cons, List.nodup_cons] at distinct
    rw [putAll_cons, ih distinct.2]
    by_cases same : key = name
    · subst same
      simp [find, find_absent distinct.1]
    · simp [find, same, find_put_other (Ne.symm same)]

end

-- What pairs come to that are put in one by one: each name once, at the place where it first came, with the value
-- that came last.
structure Gathered (pairs : List (String × α)) (entries : Entries α) : Prop where
  names : names entries = (pairs.map Prod.fst).eraseDups
  last : ∀ front name value back, pairs = front ++ (name, value) :: back → name ∉ back.map Prod.fst →
    find name entries = some value

theorem gathered_ofPairs (pairs : List (String × α)) : Gathered pairs (ofPairs pairs) := by
  constructor
  · induction pairs using List.reverseRecOn with
    | nil => rfl
    | append_singleton front pair ih =>
      have step : ofPairs (front ++ [pair]) = put pair.1 pair.2 (ofPairs front) := putAll_append [] front [pair]
      rw [step, names_put, ih, List.map_append, List.map_singleton, Dispatcher.eraseDups_snoc]
      simp only [List.mem_eraseDups]
  · rintro front name value back rfl absent
    rw [ofPairs, putAll_append, putAll_cons, find_putAll_other absent, find_put_same]

theorem gathered_putAll {entries : Entries α} (distinct : (names entries).Nodup) (pairs : List (String × α)) :
    Gathered (entries ++ pairs) (putAll entries pairs) := by
  have gathered := gathered_ofPairs (entries ++ pairs)
  rwa [ofPairs, putAll_append, ← ofPairs, ofPairs_distinct distinct] at gathered

end Entries

namespace Text

theorem toList_loop (bytes : ByteArray) (i : Nat) (front : List UInt8) :
    ByteArray.toList.loop bytes i front = front.reverse ++ bytes.data.toList.drop i := by
  fun_induction ByteArray.toList.loop bytes i front with
  | case1 i front inside ih =>
    have here : i < bytes.data.toList.length := by simpa using inside
    rw [ih, List.drop_eq_getElem_cons here]
    simp [ByteArray.get!, inside]
  | case2 i front ended =>
    rw [List.drop_eq_nil_of_le (by simpa using Nat.le_of_not_lt ended), List.append_nil]

theorem toList_data (bytes : ByteArray) : bytes.toList = bytes.data.toList :=
  toList_loop bytes 0 []

theorem encode_append (s t : String) : encode (s ++ t) = encode s ++ encode t := by
  rw [encode, encode, encode, String.toUTF8, String.toByteArray_append, toList_data, toList_data, toList_data,
    ByteArray.data_append, Array.toList_append]
  rfl

theorem decode_encode (s : String) : String.fromUTF8? ⟨(encode s).toArray⟩ = some s := by
  rw [encode, toList_data, Array.toArray_toList]
  exact Artifact.fromUTF8?_toUTF8 s

theorem Form.pairs_append (front back : List UInt8) :
    Form.pairs (front ++ 0x26 :: back) = Form.pairs front ++ Form.pairs back := by
  rw [Form.pairs, split_append, List.filter_append, List.map_append]
  rfl

end Text

namespace Params
open Text

def Distinct (p : Params) : Prop := (Entries.names p.values).Nodup

theorem ofForm_distinct (bytes : List UInt8) : (ofForm bytes).Distinct :=
  Entries.nodup_putAll (by simp [Entries.names]) _

theorem overlay_distinct {p : Params} (distinct : p.Distinct) (other : Params) : (p.overlay other).Distinct :=
  Entries.nodup_putAll distinct _

theorem overlay_assoc (p : Params) {q : Params} (distinct : q.Distinct) (r : Params) :
    (p.overlay q).overlay r = p.overlay (q.overlay r) :=
  congrArg (fun values => { p with values }) (Entries.putAll_putAll distinct r.values p.values).symm

-- What is gathered from pairs may be laid over parameters, or the pairs put in one by one.
theorem overlay_ofPairs (p : Params) (pairs : List (String × String)) : p.overlay (ofPairs pairs) = p.extend pairs :=
  congrArg (fun values => { p with values }) (Entries.putAll_putAll (by simp [Entries.names]) pairs p.values)

theorem ofForm_joined (x y : String) :
    ofForm (encode (x ++ "&" ++ y)) = (ofForm (encode x)).overlay (ofForm (encode y)) := by
  have ampersand : encode "&" = [0x26] := by cbv
  have joined : encode (x ++ "&" ++ y) = encode x ++ 0x26 :: encode y := by
    rw [encode_append, encode_append, ampersand, List.append_assoc, List.singleton_append]
  unfold ofForm
  rw [overlay_ofPairs, joined, Form.pairs_append]
  exact congrArg (fun values => ({ values } : Params)) (Entries.putAll_append [] _ _)

theorem ofForm_empty : ofForm (encode "") = {} := by cbv

def Decodes (entry : BatchEntry) (form : String) : Prop :=
  Base64.decode (trimWhere isBlank entry.encoded.toList) = some (encode form)

theorem ofEncoded_form {entry : BatchEntry} {form : String} (decodes : Decodes entry form) :
    ofEncoded entry.encoded = some (ofForm (encode form)) := by
  unfold ofEncoded
  rw [show Base64.decode _ = _ from decodes, Option.bind_eq_bind, Option.bind_some, decode_encode]
  rfl

end Params

namespace Http.Request
open Text

def SendsForm (r : Request) : Prop :=
  Headers.first? "content-type" r.headers = none ∨
    ∃ contentType, Headers.first? "content-type" r.headers = some contentType ∧
      contentType.startsWith "application/x-www-form-urlencoded" = true

theorem hasForm_sent {r : Request} (sends : r.SendsForm) : r.hasForm = true := by
  unfold hasForm plainHeader?
  rcases sends with absent | ⟨contentType, found, form⟩
  · rw [absent]
    rfl
  · rw [found, Option.bind_some, plainValue?]
    split
    · rfl
    · next value plain =>
      split at plain <;> cases plain
      exact form

theorem params_form {r : Request} (sends : r.SendsForm) :
    r.params = (((Params.ofForm (encode (r.uri.query.getD ""))).overlay (Params.ofForm (encode r.body))).withRoute
      r.route).withAccept (r.plainHeader? "accept") := by
  have query : r.query = Params.ofForm (encode (r.uri.query.getD "")) := by
    unfold query
    cases r.uri.query with
    | none => exact Params.ofForm_empty.symm
    | some query => rfl
  have form : r.form = Form.pairs (encode r.body) := by
    rw [form, hasForm_sent sends]
    rfl
  rw [params, form, query, Params.ofForm, Params.ofForm, Params.overlay_ofPairs]

end Http.Request

namespace Dispatcher
open Text

-- where the run of an entry begins whose payload is a form: the parameters of the request lie under its own, and
-- no route does for a name
def entering (requested : Params) (form : String) (d : Dispatcher) : Dispatcher :=
  { d with params := (requested.overlay (.ofForm (encode form))).withRoute none }

theorem results_entry (d : Dispatcher) {envelope : String} {before after : List BatchEntry} {entry : BatchEntry}
    {form : String} (whole : Envelope.entries envelope = before ++ entry :: after)
    (decodes : Params.Decodes entry form) :
    let reached := runEntries d.params [] before { d with batch := true }
    let ran := (entering d.params form reached.2).runNamed
    d.results envelope = (runEntries d.params (Entries.put entry.label ran.1 reached.1) after ran.2).1 := by
  intro reached ran
  have runs : reached.2.runEntry d.params entry = ran := runEntry_decoded (Params.ofEncoded_form decodes)
  rw [results, whole, runEntries_append, runEntries]
  show (runEntries d.params (Entries.put entry.label (reached.2.runEntry d.params entry).1 reached.1) after
    (reached.2.runEntry d.params entry).2).1 = _
  rw [runs]

end Dispatcher

namespace Params
open Text

structure Laws (p q r : Params) : Prop where
  gathered : Entries.Gathered (p.values ++ q.values) (p.overlay q).values
  assoc : (p.overlay q).overlay r = p.overlay (q.overlay r)
  below : (({} : Params).overlay p).values = p.values
  above : p.overlay {} = p
  route : (p.overlay q).route = p.route
  accept : (p.overlay q).accept = p.accept
  get : ∀ name, (p.overlay q).get name = (q.get name).or (p.get name)

theorem overlay_laws {p q : Params} (distinct : p.Distinct) (distinct' : q.Distinct) (r : Params) : Laws p q r where
  gathered := Entries.gathered_putAll distinct q.values
  assoc := overlay_assoc p distinct' r
  below := Entries.ofPairs_distinct distinct
  above := rfl
  route := rfl
  accept := rfl
  get := fun name => Entries.find_putAll distinct' name p.values

-- A form joined to another one gives the parameters of both, the second over the first; so do the query and the
-- form of a request, and the request and the payload of an entry of its batch.
theorem parameters_compose :
    (∀ x y : String, ofForm (encode (x ++ "&" ++ y)) = (ofForm (encode x)).overlay (ofForm (encode y))) ∧
    (∀ x : String, (ofForm (encode x)).Distinct ∧
      Entries.Gathered (Form.pairs (encode x)) (ofForm (encode x)).values) ∧
    (∀ p q r : Params, p.Distinct → q.Distinct → (p.overlay q).Distinct ∧ Laws p q r) ∧
    (∀ r : Http.Request, r.SendsForm → r.params =
      (((ofForm (encode (r.uri.query.getD ""))).overlay (ofForm (encode r.body))).withRoute r.route).withAccept
        (r.plainHeader? "accept")) ∧
    ∀ (d : Dispatcher) (envelope : String) (before : List BatchEntry) (entry : BatchEntry) (after : List BatchEntry)
      (form : String), Envelope.entries envelope = before ++ entry :: after → Decodes entry form →
      let reached := Dispatcher.runEntries d.params [] before { d with batch := true }
      let ran := (Dispatcher.entering d.params form reached.2).runNamed
      d.results envelope =
        (Dispatcher.runEntries d.params (Entries.put entry.label ran.1 reached.1) after ran.2).1 := by
  refine ⟨ofForm_joined, ?_, ?_, fun r sends => Http.Request.params_form sends, ?_⟩
  · intro x
    exact ⟨ofForm_distinct _, Entries.gathered_ofPairs _⟩
  · intro p q r distinct distinct'
    exact ⟨overlay_distinct distinct q, overlay_laws distinct distinct' r⟩
  · intro d envelope before entry after form whole decodes
    exact Dispatcher.results_entry d whole decodes

-- names that come again in a form, in a request with a query, and in an entry of a batch
theorem parameters_compose_repeated :
    let p := ofForm (encode "a=1&b=2")
    let q := ofForm (encode "c=3&a=4")
    let request : Http.Request := { uri := ⟨"/", some "a=1&b=2"⟩, body := "c=3&a=4" }
    let d : Dispatcher := { cache := {}, params := { values := [("f", "n")], route := some "/k" } }
    p.Distinct ∧ q.Distinct ∧ Laws p q p ∧ ofForm (encode "a=1&b=2&c=3&a=4") = p.overlay q ∧
      p.overlay q = { values := [("a", "4"), ("b", "2"), ("c", "3")] } ∧
      request.SendsForm ∧ request.params = p.overlay q ∧
      Envelope.entries "x,Zj1t" = [] ++ ⟨"x", "Zj1t"⟩ :: [] ∧ Decodes ⟨"x", "Zj1t"⟩ "f=m" ∧
      d.results "x,Zj1t" = [("x", ({ d with params := { values := [("f", "m")] }, batch := true } :
        Dispatcher).runNamed.1)] := by
  intro p q request d
  have distinct : p.Distinct := (parameters_compose.2.1 _).1
  have distinct' : q.Distinct := (parameters_compose.2.1 _).1
  have laws := (parameters_compose.2.2.1 p q p distinct distinct').2
  have joined : ofForm (encode "a=1&b=2&c=3&a=4") = p.overlay q := parameters_compose.1 "a=1&b=2" "c=3&a=4"
  have values : p.overlay q = { values := [("a", "4"), ("b", "2"), ("c", "3")] } := by cbv
  have sends : request.SendsForm := .inl rfl
  have received : request.params = p.overlay q := parameters_compose.2.2.2.1 request sends
  have entries : Envelope.entries "x,Zj1t" = [] ++ ⟨"x", "Zj1t"⟩ :: [] := by cbv
  have decodes : Decodes ⟨"x", "Zj1t"⟩ "f=m" := by
    unfold Decodes
    cbv
  have own : ofForm (encode "f=m") = { values := [("f", "m")] } := by cbv
  have runs := parameters_compose.2.2.2.2 d "x,Zj1t" [] ⟨"x", "Zj1t"⟩ [] "f=m" entries decodes
  refine ⟨distinct, distinct', laws, joined, values, sends, received, entries, decodes, runs.trans ?_⟩
  unfold Dispatcher.entering
  rw [own]
  rfl

end Params
end Switchboard
