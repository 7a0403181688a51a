import Switchboard.Proofs.CachePlaces
import Switchboard.Proofs.Literals

namespace Switchboard.ProgramCache
open Files FunctionPath Source

def compiledFrom (place : String) (path : FunctionPath) (content : ByteArray) :
    Except CacheError Program :=
  match String.fromUTF8? content with
  | none => .error (.access place .notText)
  | some code =>
    match parse (String.ofList (stripComments code.toList)) with
    | .error e => .error (.parse path e)
    | .ok program => .ok (program.filter Node.isTemplate)

theorem compiledFrom_text (place : String) (path : FunctionPath) (code : String) :
    compiledFrom place path code.toUTF8 = compileText path code := by
  unfold compiledFrom
  rw [Artifact.fromUTF8?_toUTF8]
  rfl

-- what a path gives when its current source is compiled, with no artifacts in the world
def fresh (c : ProgramCache) (path : FunctionPath) : Except CacheError Program :=
  match c.files.look (c.sourcePath path) with
  | .ok (.file content _) => compiledFrom (c.sourcePath path) path content
  | .ok .folder => .error (.notFound path)
  | .error .missing => .error (.notFound path)
  | .error obstacle => .error (.access (c.sourcePath path) obstacle)

def Sourced (c : ProgramCache) (path : FunctionPath) (content : ByteArray) (changed : Time) : Prop :=
  c.files.look (c.sourcePath path) = .ok (.file content changed)

theorem compile_sourced {c : ProgramCache} {path : FunctionPath} {content : ByteArray} {changed : Time}
    (sourced : c.Sourced path content changed) :
    c.compile path = compiledFrom (c.sourcePath path) path content := by
  have read : c.files.read (c.sourcePath path) = .ok content := by
    unfold Sourced at sourced
    rw [Files.read, sourced]
  unfold compile
  dsimp only
  rw [read]
  rfl

theorem fingerprint_ok {c : ProgramCache} {path : FunctionPath} {f : Fingerprint}
    (found : c.fingerprint path = .ok f) :
    ∃ content changed, c.Sourced path content changed ∧ f = .ofTime changed := by
  unfold fingerprint at found
  dsimp only at found
  split at found
  · next content changed looks =>
    cases found
    exact ⟨content, changed, looks, rfl⟩
  all_goals cases found

theorem fingerprint_error {c : ProgramCache} {path : FunctionPath} {e : CacheError}
    (failed : c.fingerprint path = .error e) : c.fresh path = .error e := by
  unfold fingerprint at failed
  unfold fresh
  dsimp only at failed
  cases looks : c.files.look (c.sourcePath path) with
  | ok entry =>
    rw [looks] at failed
    cases entry with
    | file => cases failed
    | folder =>
      cases failed
      rfl
  | error obstacle =>
    rw [looks] at failed
    cases obstacle <;> (cases failed; rfl)

theorem fresh_sourced {c : ProgramCache} {path : FunctionPath} {content : ByteArray} {changed : Time}
    (sourced : c.Sourced path content changed) :
    c.fresh path = compiledFrom (c.sourcePath path) path content := by
  unfold Sourced at sourced
  unfold fresh
  rw [sourced]

theorem fresh_refused {c : ProgramCache} {path : FunctionPath} {obstacle : Obstacle}
    (looks : c.files.look (c.sourcePath path) = .error obstacle) (other : obstacle ≠ .missing) :
    c.fresh path = .error (.access (c.sourcePath path) obstacle) := by
  unfold fresh
  rw [looks]
  cases obstacle <;> first
    | rfl
    | exact absurd rfl other

theorem compiledFrom_literals {place : String} {path : FunctionPath} {content : ByteArray}
    {program : Program} (compiles : compiledFrom place path content = .ok program) :
    ∀ v ∈ literals program, Literal v := by
  unfold compiledFrom at compiles
  split at compiles
  · cases compiles
  · split at compiles
    · cases compiles
    · next whole parses =>
      cases compiles
      intro v present
      obtain ⟨node, member, inside⟩ := List.mem_flatMap.mp present
      exact parse_literals parses v (List.mem_flatMap.mpr ⟨node, (List.mem_filter.mp member).1, inside⟩)

-- the floating-point literals of a program come back from the text of its artifact
def Legible (program : Program) : Prop :=
  ∀ x, .number (.float x) ∈ literals program → Json.ReadsBack (.number (.float x))

theorem literals_kept {place : String} {path : FunctionPath} {content : ByteArray} {program : Program}
    (compiles : compiledFrom place path content = .ok program) (legible : Legible program) :
    ∀ v ∈ literals program, Json.Kept v := by
  intro v present
  refine (compiledFrom_literals compiles v present).kept fun x same => ?_
  subst same
  exact legible x present

theorem written_program {place : String} {path : FunctionPath} {content : ByteArray} {program : Program}
    (compiles : compiledFrom place path content = .ok program) (legible : Legible program)
    {f : Fingerprint} {a : Artifact}
    (decodes : Artifact.ofBytes (⟨Artifact.currentVersion, f, program⟩ : Artifact).toBytes = some a) :
    a.fingerprint = f ∧ a.program = program := by
  have kept := literals_kept compiles legible
  obtain ⟨back, nothing⟩ := Artifact.ofBytes_toBytes ⟨Artifact.currentVersion, f, program⟩ kept
  by_cases readable : (⟨Artifact.currentVersion, f, program⟩ : Artifact).Readable
  · cases (back readable).symm.trans decodes
    exact ⟨rfl, rfl⟩
  · cases (nothing readable).symm.trans decodes

-- an artifact that a lookup takes for a source with this fingerprint
structure Trusted (f : Fingerprint) (bytes : ByteArray) (changed : Time) (a : Artifact) : Prop where
  stamp : .ofTime changed = f
  decodes : Artifact.ofBytes bytes = some a
  version : a.version = Artifact.currentVersion
  fingerprint : a.fingerprint = f

-- Whatever file lies where the artifact of a path lies is good for that path.
def Coherent (good : FunctionPath → ByteArray → Time → Prop) (c : ProgramCache) : Prop :=
  ∀ path, path.isValid = true → ∀ bytes changed,
    c.files.find (c.artifactPlace path) = some (.file bytes changed) → good path bytes changed

theorem load_artifact {c : ProgramCache} {path : FunctionPath} (valid : path.isValid = true)
    {f : Fingerprint} {program : Program} (loads : c.load path f = some program) :
    ∃ bytes changed a, c.files.find (c.artifactPlace path) = some (.file bytes changed) ∧
      Trusted f bytes changed a ∧ a.program = program := by
  unfold load at loads
  split at loads
  · next bytes changed looks =>
    split at loads
    · next stamp =>
      split at loads
      · next a decodes =>
        split at loads
        · next trusted =>
          cases loads
          exact ⟨bytes, changed, a, look_artifact valid looks, ⟨stamp, decodes, trusted.1, trusted.2⟩, rfl⟩
        · cases loads
      · cases loads
    · cases loads
  · cases loads

section
variable {good : FunctionPath → ByteArray → Time → Prop} {c : ProgramCache} {path : FunctionPath}

-- What a lookup comes to.
inductive Fetching (c : ProgramCache) (path : FunctionPath) : Except CacheError Program × ProgramCache → Prop where
  | lost {e : CacheError} : c.fingerprint path = .error e → Fetching c path (.error e, c)
  | loaded {content : ByteArray} {changed : Time} {program : Program} : c.Sourced path content changed →
      c.load path (.ofTime changed) = some program → Fetching c path (.ok program, c)
  | refused {content : ByteArray} {changed : Time} {e : CacheError} : c.Sourced path content changed →
      c.load path (.ofTime changed) = none →
        compiledFrom (c.sourcePath path) path content = .error e → Fetching c path (.error e, c)
  | compiled {content : ByteArray} {changed : Time} {program : Program} : c.Sourced path content changed →
      c.load path (.ofTime changed) = none → compiledFrom (c.sourcePath path) path content = .ok program →
        Fetching c path (.ok program, { c with parseCount := c.parseCount + 1 }.store path (.ofTime changed) program)

theorem fetch_fetching (c : ProgramCache) (path : FunctionPath) : Fetching c path (c.fetch path) := by
  unfold fetch
  cases found : c.fingerprint path with
  | error e => exact .lost found
  | ok f =>
    obtain ⟨content, changed, sourced, rfl⟩ := fingerprint_ok found
    dsimp only
    cases loads : c.load path (.ofTime changed) with
    | some program => exact .loaded sourced loads
    | none =>
      dsimp only
      rw [compile_sourced sourced]
      cases compiles : compiledFrom (c.sourcePath path) path content with
      | error e => exact .refused sourced loads compiles
      | ok program => exact .compiled sourced loads compiles

theorem fetch_fresh (coherent : Coherent good c) (valid : path.isValid = true)
    (trust : ∀ content changed bytes when a, c.Sourced path content changed → good path bytes when →
      Trusted (.ofTime changed) bytes when a →
        compiledFrom (c.sourcePath path) path content = .ok a.program) :
    (c.fetch path).1 = c.fresh path := by
  have fetches := c.fetch_fetching path
  generalize c.fetch path = fetched at fetches ⊢
  cases fetches with
  | lost failed => exact (fingerprint_error failed).symm
  | loaded sourced loads =>
    obtain ⟨bytes, when, a, present, trusted, rfl⟩ := load_artifact valid loads
    rw [fresh_sourced sourced]
    exact (trust _ _ bytes when a sourced (coherent path valid bytes when present) trusted).symm
  | refused sourced _ compiles => exact ((fresh_sourced sourced).trans compiles).symm
  | compiled sourced _ compiles => exact ((fresh_sourced sourced).trans compiles).symm

-- What storing an artifact comes to.
inductive Storing (c : ProgramCache) (path : FunctionPath) (f : Fingerprint) (program : Program) :
    ProgramCache → Prop where
  | unwritable : c.writable = false → Storing c path f program c
  | blocked {files : Files} {obstacle : Obstacle} : c.files.makeFolder c.cacheRoot = (files, some obstacle) →
      Storing c path f program { c with files }
  | refused {files : Files} {obstacle : Obstacle} : c.files.makeFolder c.cacheRoot = (files, none) →
      files.write (c.artifactPath path) (⟨Artifact.currentVersion, f, program⟩ : Artifact).toBytes f.toTime =
        .error obstacle → Storing c path f program { c with files }
  | written {files later : Files} : c.files.makeFolder c.cacheRoot = (files, none) →
      files.write (c.artifactPath path) (⟨Artifact.currentVersion, f, program⟩ : Artifact).toBytes f.toTime =
        .ok later → Storing c path f program { c with files := later }

theorem store_storing (c : ProgramCache) (path : FunctionPath) (f : Fingerprint) (program : Program) :
    Storing c path f program (c.store path f program) := by
  unfold store
  split
  · cases made : c.files.makeFolder c.cacheRoot with
    | mk files blocked =>
      cases blocked with
      | some obstacle => exact .blocked made
      | none =>
        dsimp only
        split
        · next refused => exact .refused made refused
        · next written => exact .written made written
  · next readOnly => exact .unwritable (Bool.not_eq_true _ ▸ readOnly)

theorem store_unwritable {c : ProgramCache} (readOnly : c.writable = false) (path : FunctionPath) (f : Fingerprint)
    (program : Program) : c.store path f program = c := by
  unfold store
  simp [readOnly]

theorem store_files (valid : path.isValid = true) (f : Fingerprint) (program : Program) :
    (c.store path f program).files = c.files ∨
      (c.store path f program).files = (c.files.makeFolder c.cacheRoot).1 ∨
      (c.store path f program).files = (c.files.makeFolder c.cacheRoot).1.put (c.artifactPlace path)
        (.file (⟨Artifact.currentVersion, f, program⟩ : Artifact).toBytes f.toTime) := by
  have stores := c.store_storing path f program
  generalize c.store path f program = after at stores ⊢
  cases stores with
  | unwritable => exact .inl rfl
  | blocked made =>
    rw [made]
    exact .inr (.inl rfl)
  | refused made =>
    rw [made]
    exact .inr (.inl rfl)
  | written made written =>
    rw [made, write_put written, c.artifactPath_location valid]
    exact .inr (.inr rfl)

theorem store_only (c : ProgramCache) (path : FunctionPath) (f : Fingerprint) (program : Program) :
    ∃ files, c.store path f program = { c with files } := by
  have stores := c.store_storing path f program
  generalize c.store path f program = after at stores ⊢
  cases stores <;> exact ⟨_, rfl⟩

theorem store_roots (c : ProgramCache) (path : FunctionPath) (f : Fingerprint) (program : Program) :
    (c.store path f program).sourceRoot = c.sourceRoot ∧
      (c.store path f program).cacheRoot = c.cacheRoot := by
  obtain ⟨files, same⟩ := store_only c path f program
  rw [same]
  exact ⟨rfl, rfl⟩

theorem store_counted (c : ProgramCache) (n : Nat) (path : FunctionPath) (f : Fingerprint)
    (program : Program) :
    ({ c with parseCount := c.parseCount + n }.store path f program).files = (c.store path f program).files := by
  unfold store
  dsimp only [artifactPath]
  split
  · cases c.files.makeFolder c.cacheRoot with
    | mk files blocked =>
      cases blocked with
      | some obstacle => rfl
      | none =>
        dsimp only
        split <;> rfl
  · rfl

-- what a lookup leaves in the files: at most a new artifact of what the current source compiles to
theorem fetch_files (c : ProgramCache) (path : FunctionPath) : (c.fetch path).2.files = c.files ∨
    ∃ content changed program, c.Sourced path content changed ∧
      compiledFrom (c.sourcePath path) path content = .ok program ∧
      (c.fetch path).2.files = (c.store path (.ofTime changed) program).files := by
  have fetches := c.fetch_fetching path
  generalize c.fetch path = fetched at fetches ⊢
  cases fetches with
  | lost => exact .inl rfl
  | loaded => exact .inl rfl
  | refused => exact .inl rfl
  | compiled sourced _ compiles => exact .inr ⟨_, _, _, sourced, compiles, store_counted c 1 path _ _⟩

theorem fetch_only (c : ProgramCache) (path : FunctionPath) :
    ∃ files parseCount, (c.fetch path).2 = { c with files, parseCount } := by
  have fetches := c.fetch_fetching path
  generalize c.fetch path = fetched at fetches ⊢
  cases fetches with
  | lost => exact ⟨_, _, rfl⟩
  | loaded => exact ⟨_, _, rfl⟩
  | refused => exact ⟨_, _, rfl⟩
  | compiled =>
    obtain ⟨files, same⟩ := store_only { c with parseCount := c.parseCount + 1 } path _ _
    exact ⟨files, _, same⟩

theorem fetch_roots (c : ProgramCache) (path : FunctionPath) :
    (c.fetch path).2.sourceRoot = c.sourceRoot ∧ (c.fetch path).2.cacheRoot = c.cacheRoot := by
  obtain ⟨files, parseCount, same⟩ := fetch_only c path
  rw [same]
  exact ⟨rfl, rfl⟩

-- Files that were there before, or that are good, keep a cache coherent.
theorem Coherent.kept {after : ProgramCache} (coherent : Coherent good c)
    (root : after.cacheRoot = c.cacheRoot)
    (kept : ∀ path, path.isValid = true → ∀ bytes changed,
      after.files.find (c.artifactPlace path) = some (.file bytes changed) →
        c.files.find (c.artifactPlace path) = some (.file bytes changed) ∨ good path bytes changed) :
    Coherent good after := by
  intro path valid bytes changed present
  rw [artifactPlace, root] at present
  rcases kept path valid bytes changed present with before | fits
  · exact coherent path valid bytes changed before
  · exact fits

theorem store_coherent (coherent : Coherent good c) (valid : path.isValid = true) {f : Fingerprint}
    {program : Program}
    (fits : good path (⟨Artifact.currentVersion, f, program⟩ : Artifact).toBytes f.toTime) :
    Coherent good (c.store path f program) := by
  refine coherent.kept (store_roots c path f program).2 ?_
  intro other valid' bytes when present
  -- the folders that are made are no files, wherever they are
  have folders := makeFolder_filesKept c.files c.cacheRoot []
  have below (p : FunctionPath) : c.artifactPlace p ≠ [] := by simp [artifactPlace]
  rcases store_files valid f program with same | same | same
  · rw [same] at present
    exact .inl present
  · rw [same] at present
    exact .inl (folders _ _ _ (below other) present)
  · rw [same, find_put] at present
    split at present
    · next here =>
      cases present
      cases c.artifactPlace_injective here
      exact .inr fits
    · exact .inl (folders _ _ _ (below other) present)

theorem fetch_coherent (coherent : Coherent good c) (valid : path.isValid = true)
    (fits : ∀ content changed program, c.Sourced path content changed →
      compiledFrom (c.sourcePath path) path content = .ok program →
        good path (⟨Artifact.currentVersion, .ofTime changed, program⟩ : Artifact).toBytes
          (Fingerprint.ofTime changed).toTime) : Coherent good (c.fetch path).2 := by
  refine coherent.kept (fetch_roots c path).2 ?_
  intro other valid' bytes when present
  rcases fetch_files c path with same | ⟨content, changed, program, sourced, compiles, same⟩
  · rw [same] at present
    exact .inl present
  · have stored := store_coherent coherent valid (fits content changed program sourced compiles)
    rw [same] at present
    exact .inr (stored other valid' bytes when (by
      rw [artifactPlace, (store_roots c path _ program).2]
      exact present))

theorem store_filesKept (valid : path.isValid = true) (f : Fingerprint) (program : Program) :
    FilesKept (c.artifactPlace path) c.files (c.store path f program).files := by
  have folders := makeFolder_filesKept c.files c.cacheRoot (c.artifactPlace path)
  rcases store_files valid f program with same | same | same
  · rw [same]
    exact .refl _ _
  · rw [same]
    exact folders
  · rw [same]
    exact folders.trans (put_filesKept _ _ _)

theorem asked_coherent {asked : List FunctionPath} :
    Coherent good { c with asked } ↔ Coherent good c := by
  unfold Coherent
  rfl

theorem resolve_roots (c : ProgramCache) (path : FunctionPath) :
    (c.resolve path).2.sourceRoot = c.sourceRoot ∧ (c.resolve path).2.cacheRoot = c.cacheRoot := by
  unfold resolve
  exact fetch_roots { c with asked := path :: c.asked } path

theorem resolve_writable (c : ProgramCache) (path : FunctionPath) : (c.resolve path).2.writable = c.writable := by
  obtain ⟨files, parseCount, same⟩ := fetch_only { c with asked := path :: c.asked } path
  unfold resolve
  rw [same]

theorem resolve_asked (c : ProgramCache) (path : FunctionPath) :
    (c.resolve path).2.asked = path :: c.asked := by
  obtain ⟨files, parseCount, same⟩ := fetch_only { c with asked := path :: c.asked } path
  unfold resolve
  rw [same]

theorem resolve_filesKept (c : ProgramCache) {path : FunctionPath} (valid : path.isValid = true) :
    FilesKept (c.artifactPlace path) c.files (c.resolve path).2.files := by
  unfold resolve
  rcases fetch_files { c with asked := path :: c.asked } path with same | ⟨_, _, _, _, _, same⟩
  · rw [same]
    exact .refl _ _
  · rw [same]
    exact store_filesKept (c := { c with asked := path :: c.asked }) valid _ _

theorem fetch_unwritable (readOnly : c.writable = false) : (c.fetch path).2.files = c.files := by
  rcases fetch_files c path with same | ⟨_, _, _, _, _, same⟩
  · exact same
  · rw [same, store_unwritable readOnly]

theorem resolve_unwritable (readOnly : c.writable = false) : (c.resolve path).2.files = c.files := by
  unfold resolve
  exact fetch_unwritable (c := { c with asked := path :: c.asked }) readOnly

theorem resolve_fresh (coherent : Coherent good c) (valid : path.isValid = true)
    (trust : ∀ content changed bytes when a, c.Sourced path content changed → good path bytes when →
      Trusted (.ofTime changed) bytes when a →
        compiledFrom (c.sourcePath path) path content = .ok a.program) :
    (c.resolve path).1 = c.fresh path := by
  have same : ({ c with asked := path :: c.asked } : ProgramCache).fresh path = c.fresh path := by
    unfold fresh sourcePath
    dsimp only
  rw [resolve, ← same]
  apply fetch_fresh (asked_coherent.mpr coherent) valid
  intro content changed bytes when a sourced
  unfold Sourced at sourced
  exact trust content changed bytes when a sourced

theorem resolve_coherent (coherent : Coherent good c) (valid : path.isValid = true)
    (fits : ∀ content changed program, c.Sourced path content changed →
      compiledFrom (c.sourcePath path) path content = .ok program →
        good path (⟨Artifact.currentVersion, .ofTime changed, program⟩ : Artifact).toBytes
          (Fingerprint.ofTime changed).toTime) : Coherent good (c.resolve path).2 := by
  unfold resolve
  exact fetch_coherent (asked_coherent.mpr coherent) valid fits

end

theorem clear_files (c : ProgramCache) :
    FilesKept (locationOf c.cacheRoot) c.files c.clear.2.files ∧
      c.clear.2.sourceRoot = c.sourceRoot ∧ c.clear.2.cacheRoot = c.cacheRoot := by
  have dropped (root : Location) (names : List String) : ∀ files : Files,
      FilesKept (locationOf c.cacheRoot) files
        (names.foldl (fun files name => files.drop (root ++ [name])) files) := by
    induction names with
    | nil => exact fun files => .refl _ files
    | cons name names ih =>
      intro files
      exact (drop_filesKept files (root ++ [name]) _).trans (ih _)
  unfold clear
  split
  · exact ⟨.refl _ _, rfl, rfl⟩
  · exact ⟨.refl _ _, rfl, rfl⟩
  · exact ⟨.refl _ _, rfl, rfl⟩
  · exact ⟨.refl _ _, rfl, rfl⟩
  · dsimp only
    split
    · exact ⟨.refl _ _, rfl, rfl⟩
    · exact ⟨dropped _ _ c.files, rfl, rfl⟩

end Switchboard.ProgramCache
