import Mathlib
import Switchboard.Proofs.CacheCoherence

namespace Switchboard.ProgramCache
open Files FilePath FunctionPath Source

inductive CacheEvent where
  | write (path : FunctionPath) (text : String) (changed : Time)
  | touch (path : FunctionPath) (changed : Time)
  | remove (path : FunctionPath)
  | resolve (path : FunctionPath) (writable : Bool)
  | clear
  | removeArtifact (path : FunctionPath)
  | touchArtifact (path : FunctionPath) (changed : Time)
  | spoil (path : FunctionPath) (bytes : ByteArray) (changed : Time)

-- bytes that no lookup takes for an artifact
def Useless (bytes : ByteArray) : Prop :=
  ∀ a, Artifact.ofBytes bytes = some a → a.version ≠ Artifact.currentVersion

-- Every path is valid, and an artifact is overwritten only by what is none, be it as a source that is
-- kept in the same place.
def CacheEvent.Allowed (c : ProgramCache) : CacheEvent → Prop
  | .touch path _ | .remove path | .resolve path _ | .removeArtifact path | .touchArtifact path _ =>
    path.isValid = true
  | .clear => True
  | .write path text _ => path.isValid = true ∧
    ((∃ other, c.sourcePlace path = c.artifactPlace other) → Useless text.toUTF8)
  | .spoil path bytes _ => path.isValid = true ∧ Useless bytes

def withFiles (c : ProgramCache) : Except Obstacle Files → ProgramCache
  | .ok files => { c with files }
  | .error _ => c

def happen (c : ProgramCache) : CacheEvent → ProgramCache
  | .write path text changed => { c with files := (c.files.place (c.sourcePath path) text.toUTF8 changed).1 }
  | .touch path changed => c.withFiles (c.files.touch (c.sourcePath path) changed)
  | .remove path => c.withFiles (c.files.remove (c.sourcePath path))
  | .resolve path true => (c.resolve path).2
  | .resolve path false => { ({ c with writable := false }.resolve path).2 with writable := c.writable }
  | .clear => c.clear.2
  | .removeArtifact path => c.withFiles (c.files.remove (c.artifactPath path))
  | .touchArtifact path changed => c.withFiles (c.files.touch (c.artifactPath path) changed)
  | .spoil path bytes changed => { c with files := (c.files.place (c.artifactPath path) bytes changed).1 }

theorem happen_resolve (c : ProgramCache) (path : FunctionPath) :
    c.happen (.resolve path true) = (c.resolve path).2 := rfl

def after (c : ProgramCache) (events : List CacheEvent) : ProgramCache := events.foldl happen c

theorem after_snoc (c : ProgramCache) (events : List CacheEvent) (event : CacheEvent) :
    c.after (events ++ [event]) = (c.after events).happen event := by
  simp [after]

-- a content that the source of the path had with this fingerprint, at some moment of the run
def Past (c : ProgramCache) (events : List CacheEvent) (path : FunctionPath) (f : Fingerprint)
    (content : ByteArray) : Prop :=
  ∃ done changed, done <+: events ∧ (c.after done).Sourced path content changed ∧ .ofTime changed = f

theorem withFiles_roots (c : ProgramCache) (result : Except Obstacle Files) :
    (c.withFiles result).sourceRoot = c.sourceRoot ∧ (c.withFiles result).cacheRoot = c.cacheRoot := by
  cases result <;> exact ⟨rfl, rfl⟩

theorem happen_roots (c : ProgramCache) (event : CacheEvent) :
    (c.happen event).sourceRoot = c.sourceRoot ∧ (c.happen event).cacheRoot = c.cacheRoot := by
  unfold happen
  cases event with
  | write => exact ⟨rfl, rfl⟩
  | spoil => exact ⟨rfl, rfl⟩
  | touch | remove | removeArtifact | touchArtifact => exact withFiles_roots _ _
  | clear => exact (clear_files c).2
  | resolve path writable =>
    cases writable with
    | true => exact resolve_roots c path
    | false => exact resolve_roots { c with writable := false } path

theorem after_roots (c : ProgramCache) (events : List CacheEvent) :
    (c.after events).sourceRoot = c.sourceRoot ∧ (c.after events).cacheRoot = c.cacheRoot := by
  induction events using List.reverseRecOn with
  | nil => exact ⟨rfl, rfl⟩
  | append_singleton events event ih =>
    rw [after_snoc]
    obtain ⟨source, cache⟩ := happen_roots (c.after events) event
    exact ⟨source.trans ih.1, cache.trans ih.2⟩

-- Bytes that are no artifact, or one that holds what its source once compiled to: some content that the
-- source had at the fingerprint that the artifact names.
def Serves (past : FunctionPath → Fingerprint → ByteArray → Prop) (start : ProgramCache)
    (path : FunctionPath) (bytes : ByteArray) (_ : Time) : Prop :=
  ∀ a, Artifact.ofBytes bytes = some a → a.version = Artifact.currentVersion →
    ∃ source, past path a.fingerprint source ∧
      compiledFrom (start.sourcePath path) path source = .ok a.program

section
variable {past : FunctionPath → Fingerprint → ByteArray → Prop} {start c : ProgramCache}

theorem placed_coherent {good : FunctionPath → ByteArray → Time → Prop} (coherent : Coherent good c)
    {files : Files} {place : Location} (kept : FilesKept place c.files files)
    (fits : ∀ path, path.isValid = true → c.artifactPlace path = place → ∀ bytes changed,
      files.find place = some (.file bytes changed) → good path bytes changed) :
    Coherent good { c with files } := by
  refine coherent.kept rfl ?_
  intro path valid bytes changed present
  by_cases here : c.artifactPlace path = place
  · exact .inr (fits path valid here bytes changed (here ▸ present))
  · exact .inl (kept _ _ _ here present)

theorem place_coherent (coherent : Coherent (Serves past start) c) {file : String} {content : ByteArray}
    (changed : Time) (useless : ∀ path, c.artifactPlace path = locationOf file → Useless content) :
    Coherent (Serves past start) { c with files := (c.files.place file content changed).1 } := by
  apply placed_coherent coherent (place_filesKept c.files file content changed)
  intro path valid here bytes when present
  rcases place_at present with same | before
  · intro a decodes version
    exact absurd version (useless path here a (same ▸ decodes))
  · exact coherent path valid bytes when (here ▸ before)

theorem touch_coherent (coherent : Coherent (Serves past start) c) (file : String) (changed : Time) :
    Coherent (Serves past start) (c.withFiles (c.files.touch file changed)) := by
  cases touched : c.files.touch file changed with
  | error e => exact coherent
  | ok files =>
    obtain ⟨content, before, follows, same⟩ := touch_put touched
    have kept : FilesKept (locationOf file) c.files files := same ▸ put_filesKept _ _ _
    apply placed_coherent coherent kept
    intro path valid here bytes when present
    rw [same, find_put, if_pos rfl] at present
    cases present
    have fits := coherent path valid content before (here ▸ follow_file follows)
    exact fun a decodes version => fits a decodes version

theorem remove_coherent (coherent : Coherent (Serves past start) c) (file : String) :
    Coherent (Serves past start) (c.withFiles (c.files.remove file)) := by
  cases removed : c.files.remove file with
  | error e => exact coherent
  | ok files =>
    have kept : FilesKept (locationOf file) c.files files := remove_drop removed ▸ drop_filesKept _ _ _
    apply placed_coherent coherent kept
    intro path valid here bytes when present
    rw [remove_drop removed, find_drop, if_pos rfl] at present
    cases present

theorem happen_coherent (coherent : Coherent (Serves past start) c)
    (roots : c.sourceRoot = start.sourceRoot ∧ c.cacheRoot = start.cacheRoot) {event : CacheEvent}
    (allowed : event.Allowed start)
    (seen : ∀ path content changed, c.Sourced path content changed → past path (.ofTime changed) content)
    (legible : ∀ path content changed program, path.isValid = true → c.Sourced path content changed →
      compiledFrom (start.sourcePath path) path content = .ok program → Legible program) :
    Coherent (Serves past start) (c.happen event) := by
  unfold happen
  cases event with
  | write path text changed =>
    obtain ⟨valid, useless⟩ := allowed
    apply place_coherent coherent changed
    intro other here
    rw [c.sourcePath_location valid, sourcePlace, roots.1, artifactPlace, roots.2] at here
    exact useless ⟨other, here.symm⟩
  | touch path changed => exact touch_coherent coherent (c.sourcePath path) changed
  | remove path => exact remove_coherent coherent (c.sourcePath path)
  | resolve path writable =>
    cases writable with
    | true =>
      -- the one event that writes an artifact: what the source compiles to now, which from here on is its past
      apply resolve_coherent coherent allowed
      intro content changed program sourced compiles a decodes _
      rw [sourcePath, roots.1] at compiles
      obtain ⟨f, same⟩ := written_program compiles (legible path _ _ _ allowed sourced compiles) decodes
      exact ⟨content, f ▸ seen path content changed sourced, same ▸ compiles⟩
    | false =>
      refine coherent.kept (resolve_roots { c with writable := false } path).2 ?_
      intro _ _ _ _ present
      dsimp only at present
      rw [resolve_unwritable (c := { c with writable := false }) rfl] at present
      exact .inl present
  | clear =>
    obtain ⟨kept, cleared⟩ := clear_files c
    refine coherent.kept cleared.2 ?_
    intro other _ bytes changed present
    exact .inl (kept _ _ _ (by simp [artifactPlace]) present)
  | removeArtifact path => exact remove_coherent coherent (c.artifactPath path)
  | touchArtifact path changed => exact touch_coherent coherent (c.artifactPath path) changed
  | spoil path bytes changed => exact place_coherent coherent changed fun _ _ => allowed.2

end

-- nothing lies below the cache root, whether it is there or not
def Empty (c : ProgramCache) : Prop :=
  ∀ l, locationOf c.cacheRoot <+: l → l ≠ locationOf c.cacheRoot → c.files.find l = none

theorem Empty.coherent {c : ProgramCache} (empty : c.Empty)
    (good : FunctionPath → ByteArray → Time → Prop) : Coherent good c := by
  intro path _ bytes changed present
  rw [empty (c.artifactPlace path) ⟨_, rfl⟩ (by simp [artifactPlace])] at present
  cases present

section
variable {c : ProgramCache} {events : List CacheEvent}

theorem after_coherent (empty : c.Empty) (allowed : ∀ event ∈ events, event.Allowed c)
    (legible : ∀ path f content program, path.isValid = true → c.Past events path f content →
      compiledFrom (c.sourcePath path) path content = .ok program → Legible program)
    (done rest : List CacheEvent) (whole : events = done ++ rest) :
    Coherent (Serves (c.Past events) c) (c.after done) := by
  induction done using List.reverseRecOn generalizing rest with
  | nil => exact empty.coherent _
  | append_singleton done event ih =>
    have before := ih (event :: rest) (by simpa using whole)
    have seen : ∀ path content changed, (c.after done).Sourced path content changed →
        c.Past events path (.ofTime changed) content := fun path content changed sourced =>
      ⟨done, changed, ⟨event :: rest, by simp [whole]⟩, sourced, rfl⟩
    rw [after_snoc]
    refine happen_coherent before (after_roots c done) (allowed event (by simp [whole])) seen ?_
    intro path content changed program valid sourced compiles
    exact legible path _ content program valid (seen path content changed sourced) compiles

-- Every lookup of a run gives what its source compiles to at that moment.
theorem resolve_current (c : ProgramCache) (empty : c.Empty) (events : List CacheEvent)
    (allowed : ∀ event ∈ events, event.Allowed c)
    (stamped : ∀ path f one other, path.isValid = true → c.Past events path f one →
      c.Past events path f other → one = other)
    (legible : ∀ path f content program, path.isValid = true → c.Past events path f content →
      compiledFrom (c.sourcePath path) path content = .ok program → Legible program) :
    ∀ done path writable rest, events = done ++ .resolve path writable :: rest →
      ((c.after done).resolve path).1 = (c.after done).fresh path := by
  intro done path writable rest whole
  have valid : path.isValid = true := allowed (.resolve path writable) (by simp [whole])
  have coherent := after_coherent empty allowed legible done _ whole
  apply resolve_fresh coherent valid
  intro content changed bytes _ a sourced serves trusted
  obtain ⟨source, before, compiles⟩ := serves a trusted.decodes trusted.version
  rw [trusted.fingerprint] at before
  have now : c.Past events path (.ofTime changed) content := ⟨done, changed, ⟨_, whole.symm⟩, sourced, rfl⟩
  rw [sourcePath, (after_roots c done).1, stamped path _ content source valid now before]
  exact compiles

end

def single : ProgramCache where
  files := ⟨[(["src"], .folder), (["src", "a.fn"], .file "(f)".toUTF8 ⟨5, 0⟩)]⟩
  sourceRoot := "src"
  cacheRoot := "cache"

theorem single_roots : locationOf single.sourceRoot = ["src"] ∧ locationOf single.cacheRoot = ["cache"] := by
  constructor <;> cbv

theorem single_apart : single.Apart := by
  obtain ⟨source, cache⟩ := single_roots
  refine ⟨?_, ?_⟩ <;> (rw [source, cache]; decide)

theorem single_empty : single.Empty := by
  intro l below _
  rw [single_roots.2] at below
  have first : ["src"] ≠ l := by
    intro same
    subst same
    exact absurd below (by decide)
  have second : ["src", "a.fn"] ≠ l := by
    intro same
    subst same
    exact absurd below (by decide)
  simp [single, Files.find, first, second]

theorem single_find {l : Location} {content : ByteArray} {changed : Time}
    (present : single.files.find l = some (.file content changed)) : content = "(f)".toUTF8 := by
  have member := find_mem present
  simp only [single, List.mem_cons, Prod.mk.injEq, reduceCtorEq, and_false, FileEntry.file.injEq,
    List.not_mem_nil, or_false, false_or] at member
  exact member.2.1

-- Lookups add no source, so the one content is all that any path ever had.
theorem single_past {done : List CacheEvent} {path : FunctionPath} {content : ByteArray} {changed : Time}
    (valid : path.isValid = true)
    (lookups : ∀ event ∈ done, ∃ path, path.isValid = true ∧ event = .resolve path true)
    (sourced : (single.after done).Sourced path content changed) : content = "(f)".toUTF8 := by
  have present : (single.after done).files.find (single.sourcePlace path) = some (.file content changed) := by
    have found := look_source valid sourced
    rwa [sourcePlace, (after_roots single done).1] at found
  clear sourced
  induction done using List.reverseRecOn with
  | nil => exact single_find present
  | append_singleton done event ih =>
    obtain ⟨other, valid', rfl⟩ := lookups event (by simp)
    have same : (single.after done).artifactPlace other = single.artifactPlace other := by
      rw [artifactPlace, artifactPlace, (after_roots single done).2]
    have kept := resolve_filesKept (single.after done) valid'
    rw [same] at kept
    rw [after_snoc, happen_resolve] at present
    exact ih (fun event inside => lookups event (by simp [inside]))
      (kept _ content changed (single_apart.places path other) present)

theorem single_legible {place : String} {path : FunctionPath} {program : Program}
    (compiles : compiledFrom place path "(f)".toUTF8 = .ok program) : Legible program := by
  have parses : parse (String.ofList (stripComments "(f)".toList)) = .ok [.template (.call "f" [])] := by cbv
  rw [compiledFrom_text, compileText, parses] at compiles
  cases compiles
  intro x present
  cases present

-- two lookups of one path, the second of which finds the artifact of the first
theorem resolve_current_twice : single.Empty ∧
    ((single.after [.resolve ⟨"a"⟩ true]).resolve ⟨"a"⟩).1 =
      (single.after [.resolve ⟨"a"⟩ true]).fresh ⟨"a"⟩ := by
  have valid : (FunctionPath.mk "a").isValid = true := by cbv
  have lookups : ∀ event ∈ [CacheEvent.resolve ⟨"a"⟩ true, .resolve ⟨"a"⟩ true],
      ∃ path, path.isValid = true ∧ event = .resolve path true := by
    intro event present
    simp only [List.mem_cons, List.not_mem_nil, or_false, or_self] at present
    exact ⟨⟨"a"⟩, valid, present⟩
  have only {path : FunctionPath} {f : Fingerprint} {content : ByteArray} (valid : path.isValid = true)
      (past : single.Past [.resolve ⟨"a"⟩ true, .resolve ⟨"a"⟩ true] path f content) :
      content = "(f)".toUTF8 := by
    obtain ⟨done, changed, early, sourced, _⟩ := past
    exact single_past valid (fun event inside => lookups event (early.subset inside)) sourced
  refine ⟨single_empty, ?_⟩
  refine resolve_current single single_empty [.resolve ⟨"a"⟩ true, .resolve ⟨"a"⟩ true]
    ?_ ?_ ?_ [.resolve ⟨"a"⟩ true] ⟨"a"⟩ true [] rfl
  · intro event present
    obtain ⟨path, valid, rfl⟩ := lookups event present
    exact valid
  · intro path f one other valid first second
    rw [only valid first, only valid second]
  · intro path f content program valid past compiles
    rw [only valid past] at compiles
    exact single_legible compiles

def letters (n : Nat) : String := String.ofList (List.replicate n 'a')

theorem letters_size (n : Nat) : (letters n).utf8ByteSize = n := by
  induction n with
  | zero => rfl
  | succ n ih =>
    have more : letters (n + 1) = String.ofList ['a'] ++ letters n := by
      rw [letters, List.replicate_succ, ← List.singleton_append, String.ofList_append]
      rfl
    have one : (String.ofList ['a']).utf8ByteSize = 1 := by decide
    rw [more, String.utf8ByteSize_append, ih, one, Nat.add_comm]

theorem letters_segments (n : Nat) : (FunctionPath.mk (letters n)).segments = [letters n] :=
  Text.fields_none (by simp [letters, List.mem_replicate])

theorem letters_valid {n : Nat} (positive : 0 < n) : (FunctionPath.mk (letters n)).isValid = true := by
  have nonempty : letters n ≠ "" := by
    intro empty
    have size := letters_size n
    rw [empty] at size
    have zero : "".utf8ByteSize = 0 := by decide
    omega
  have letter : isSegmentChar 'a' = true := by decide
  have all : ∀ c ∈ (letters n).toList, isSegmentChar c = true := by
    simp [letters, List.mem_replicate, letter]
  simpa [FunctionPath.isValid, letters_segments, isSegment, nonempty] using all

theorem look_letters {n : Nat} (long : maxName < n + 3) (short : n < 1000) :
    Files.look ⟨[(["src"], .folder)]⟩ (push "src" (letters n ++ suffix)) = .error .nameTooLong := by
  have whole : '/' ∉ (letters n).toList := by simp [letters, List.mem_replicate]
  have nonnul : Char.ofNat 0 ∉ (letters n).toList := by
    simp only [letters, String.toList_ofList, List.mem_replicate, not_and]
    intro _
    decide
  have base : steps "src" = [.into "src"] := by cbv
  have path : push "src" (letters n ++ suffix) = "src" ++ "/" ++ (letters n ++ suffix) := by
    rw [push_name (suffixed_name whole), if_neg]
    rw [endsWith_iff]
    decide
  obtain ⟨front, leads, idle⟩ := steps_push "src" (suffixed_name whole)
  have front_eq : front = [.into "src"] := by
    rw [base] at idle
    rcases idle with same | same
    · exact same.symm
    · have ends := congrArg List.getLast? same
      simp at ends
  have size : (letters n ++ suffix).utf8ByteSize = n + 3 := by
    rw [String.utf8ByteSize_append, letters_size]
    rfl
  have total : ("src" ++ "/" ++ (letters n ++ suffix)).utf8ByteSize = 4 + (n + 3) := by
    rw [String.utf8ByteSize_append, size]
    rfl
  have refused : refusal (push "src" (letters n ++ suffix)) = none := by
    rw [path]
    unfold refusal
    rw [if_neg, if_neg]
    · rw [total]
      unfold maxPath
      omega
    · rw [List.contains_iff_mem]
      simp only [String.toList_append, List.mem_append, not_or]
      exact ⟨by decide, nonnul, by decide⟩
  unfold Files.look follow
  rw [refused, leads, front_eq]
  have folder : ¬ maxName < "src".utf8ByteSize := by decide
  simp [walk, Files.find, folder, size, long]

def bare : ProgramCache := { single with files := ⟨[(["src"], .folder)]⟩ }

theorem bare_empty : bare.Empty := by
  intro l below _
  have root : locationOf bare.cacheRoot = ["cache"] := single_roots.2
  rw [root] at below
  have other : ["src"] ≠ l := by
    intro same
    subst same
    exact absurd below (by decide)
  simp [bare, Files.find, other]

-- The place of a source may be refused for its name: no file is there, and that is not the answer.
theorem resolve_refused : bare.Empty ∧ (FunctionPath.mk (letters 253)).isValid = true ∧
    (∀ content changed, ¬ bare.Sourced ⟨letters 253⟩ content changed) ∧
    (bare.resolve ⟨letters 253⟩).1 =
      .error (.access (bare.sourcePath ⟨letters 253⟩) .nameTooLong) := by
  have valid : (FunctionPath.mk (letters 253)).isValid = true := letters_valid (by decide)
  have source : bare.sourcePath ⟨letters 253⟩ = push "src" (letters 253 ++ suffix) := by
    rw [sourcePath, letters_segments]
    rfl
  have looks : bare.files.look (bare.sourcePath ⟨letters 253⟩) = .error .nameTooLong := by
    rw [source]
    exact look_letters (by decide) (by decide)
  have afresh : (bare.resolve ⟨letters 253⟩).1 = bare.fresh ⟨letters 253⟩ :=
    resolve_fresh (bare_empty.coherent fun _ _ _ => False) valid fun _ _ _ _ _ _ none => none.elim
  refine ⟨bare_empty, valid, ?_, ?_⟩
  · intro content changed sourced
    cases looks.symm.trans sourced
  · exact afresh.trans (fresh_refused looks (by decide))

end Switchboard.ProgramCache
