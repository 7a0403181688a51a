import Mathlib
import Switchboard.Proofs.ArtifactRoundTrip
import Switchboard.Proofs.SteadySources

namespace Switchboard
open Files FilePath

namespace Files

variable {files later : Files} {path : String} {place : Location} {content content' : ByteArray}
  {changed changed' : Time}

-- Where the folders are still there, a walk to a file ends at the file that is there by now.
theorem walk_file_later (folders : ∀ l, files.find l = some .folder → later.find l = some .folder)
    (present : later.find place = some (.file content' changed')) {above : Location} {steps : List Step}
    (walks : files.walk above steps = .ok (place, some (.file content changed))) :
    later.walk above steps = .ok (place, some (.file content' changed')) := by
  fun_induction walk files above steps with
  | case1 => cases walks
  | case2 above rest ih => exact ih walks
  | case3 above rest ih => exact ih walks
  | case4 => cases walks
  | case5 => cases walks
  | case6 => cases walks
  | case7 above name short entry found =>
    cases walks
    simp [walk, short, present]
  | case8 => cases walks
  | case9 above name short rest _ found ih =>
    rw [walk_folder short (folders _ found)]
    exact ih walks

theorem look_file {entry : FileEntry} (looks : files.look path = .ok entry) :
    files.follow path = .ok (locationOf path, some entry) := by
  unfold look at looks
  split at looks
  · next place found follows =>
    cases looks
    rw [follows, follow_location follows]
  · cases looks
  · cases looks

theorem look_file_later (folders : ∀ l, files.find l = some .folder → later.find l = some .folder)
    (present : later.find (locationOf path) = some (.file content' changed'))
    (looks : files.look path = .ok (.file content changed)) : later.look path = .ok (.file content' changed') := by
  have follows := look_file looks
  unfold look
  unfold follow at follows ⊢
  split at follows
  · cases follows
  · rw [walk_file_later folders present follows]

theorem write_over (looks : files.look path = .ok (.file content changed)) (content' : ByteArray) (changed' : Time) :
    files.write path content' changed' = .ok (files.put (locationOf path) (.file content' changed')) := by
  have follows := look_file looks
  unfold write
  rw [follows]

theorem look_written {name : String} {front : List Step} (leads : steps path = front ++ [.into name])
    (written : files.write path content changed = .ok later) :
    later.look path = .ok (.file content changed) := by
  have free := write_free leads written
  obtain ⟨found, follows, _⟩ := write_follows written
  rw [write_put written]
  unfold follow at follows
  unfold look follow
  split at follows
  · cases follows
  · rw [leads] at follows ⊢
    obtain ⟨root, before⟩ := walk_front follows
    rw [walk_append before] at follows
    rw [walk_append (walk_folder_put free before)]
    have whole : locationOf path = root ++ [name] := walk_landing follows
    have short : ¬ maxName < name.utf8ByteSize := by
      intro long
      unfold walk at follows
      rw [if_pos long] at follows
      cases follows
    simp [walk, short, whole, find_put]

end Files

-- The fingerprint of a time that the clock can have fits into an artifact.
theorem Fingerprint.ofTime_bounds {t : Time} (secs : t.secs < twoTo 63) (nanos : t.nanos < tenTo 9) :
    (ofTime t).secs < twoTo 64 ∧ (ofTime t).nanos < twoTo 32 := by
  have wide : twoTo 63 < twoTo 64 ∧ 0 < twoTo 32 ∧ tenTo 9 < twoTo 32 := by decide
  unfold ofTime
  split
  · exact ⟨Nat.lt_of_le_of_lt (Nat.zero_le _) wide.1, wide.2.1⟩
  · dsimp only
    omega

abbrev Artifact.current (f : Fingerprint) (program : Source.Program) : Artifact :=
  ⟨currentVersion, f, program⟩

namespace ProgramCache
open FunctionPath Source

-- The artifact of a path is there, as it is written for a program at a fingerprint.
def Stored (c : ProgramCache) (path : FunctionPath) (f : Fingerprint) (program : Program) : Prop :=
  c.files.look (c.artifactPath path) = .ok (.file (Artifact.current f program).toBytes f.toTime)

section
variable {c : ProgramCache} {path : FunctionPath} {f : Fingerprint} {program : Program} {content : ByteArray}
  {changed : Time}

theorem Stored.load (stored : c.Stored path f program) (secs : f.secs < twoTo 64) (nanos : f.nanos < twoTo 32)
    (kept : ∀ v ∈ literals program, Json.Kept v) :
    c.load path f =
      if (Artifact.current f program).toJson.opens ≤ Json.maxOpen then some program else none := by
  obtain ⟨back, nothing⟩ := Artifact.ofBytes_toBytes (.current f program) kept
  have limit := (Artifact.current f program).programOpens_lt
  unfold Stored at stored
  unfold ProgramCache.load
  rw [stored]
  dsimp only
  rw [if_pos f.ofTime_toTime]
  by_cases few : (Artifact.current f program).toJson.opens ≤ Json.maxOpen
  · have readable : (Artifact.current f program).Readable :=
      ⟨show 1 < twoTo 32 by decide, ⟨secs, nanos⟩, limit.mpr few⟩
    rw [back readable, if_pos few]
    exact if_pos ⟨rfl, rfl⟩
  · have unreadable : ¬ (Artifact.current f program).Readable := fun readable => few (limit.mp readable.open_)
    rw [nothing unreadable, if_neg few]

theorem Stored.stale (stored : c.Stored path f program) {g : Fingerprint} (other : f ≠ g) :
    c.load path g = none := by
  unfold Stored at stored
  unfold ProgramCache.load
  rw [stored]
  dsimp only
  rw [f.ofTime_toTime, if_neg other]

theorem store_stored (valid : path.isValid = true) (writable : c.writable = true) {files later : Files}
    (made : c.files.makeFolder c.cacheRoot = (files, none))
    (written : files.write (c.artifactPath path)
      (Artifact.current f program).toBytes f.toTime = .ok later) :
    (c.store path f program).Stored path f program := by
  obtain ⟨front, leads, _⟩ := c.artifactPath_steps valid
  have looks := look_written leads written
  unfold store Stored
  rw [if_pos writable, made]
  dsimp only
  rw [written]
  exact looks

theorem store_over (valid : path.isValid = true) (writable : c.writable = true)
    (looks : c.files.look (c.artifactPath path) = .ok (.file content changed)) :
    (c.store path f program).Stored path f program :=
  store_stored valid writable (follow_root valid (look_file looks)) (write_over looks _ _)

-- What storing does to a place: nothing, a folder where nothing was, or the artifact.
theorem store_find (valid : path.isValid = true) (f : Fingerprint) (program : Program) (l : Location) :
    (c.store path f program).files.find l = c.files.find l ∨
      (c.files.find l = none ∧ (c.store path f program).files.find l = some .folder) ∨
      (l = c.artifactPlace path ∧ c.files.find l ≠ some .folder ∧ (c.store path f program).files.find l =
        some (.file (Artifact.current f program).toBytes f.toTime)) := by
  have folders : (c.files.makeFolder c.cacheRoot).1.find l = c.files.find l ∨
      (c.files.find l = none ∧ (c.files.makeFolder c.cacheRoot).1.find l = some .folder) :=
    (find_makeFolder c.files c.cacheRoot l).imp_right fun made => ⟨made.1, made.2.1⟩
  obtain ⟨front, leads, _⟩ := c.artifactPath_steps valid
  have stores := c.store_storing path f program
  generalize c.store path f program = after at stores ⊢
  cases stores with
  | unwritable => exact .inl rfl
  | blocked made =>
    rw [made] at folders
    exact folders.imp_right .inl
  | refused made =>
    rw [made] at folders
    exact folders.imp_right .inl
  | written made written =>
    rw [made] at folders
    have free := write_free leads written
    rw [c.artifactPath_location valid] at free
    rw [write_put written, c.artifactPath_location valid]
    by_cases here : l = c.artifactPlace path
    · subst here
      refine .inr (.inr ⟨rfl, ?_, by rw [find_put, if_pos rfl]⟩)
      rcases folders with same | ⟨free', _⟩
      · rwa [← same]
      · simp [free']
    · rw [find_put, if_neg here]
      exact folders.imp_right .inl

section
variable (c : ProgramCache) (path : FunctionPath) (asked : List FunctionPath) (f : Fingerprint)

theorem asked_sourcePath : ({ c with asked } : ProgramCache).sourcePath path = c.sourcePath path := rfl

theorem asked_artifactPath : ({ c with asked } : ProgramCache).artifactPath path = c.artifactPath path := rfl

theorem asked_fingerprint : ({ c with asked } : ProgramCache).fingerprint path = c.fingerprint path := by
  unfold ProgramCache.fingerprint
  rw [asked_sourcePath]

theorem asked_load : ({ c with asked } : ProgramCache).load path f = c.load path f := by
  unfold ProgramCache.load
  rw [asked_artifactPath]

theorem asked_compile : ({ c with asked } : ProgramCache).compile path = c.compile path := by
  unfold ProgramCache.compile
  rw [asked_sourcePath]

end

theorem resolve_hit (found : c.fingerprint path = .ok f) (loads : c.load path f = some program) :
    c.resolve path = (.ok program, { c with asked := path :: c.asked }) := by
  unfold resolve fetch
  rw [asked_fingerprint, found]
  dsimp only
  rw [asked_load, loads]

theorem resolve_miss (found : c.fingerprint path = .ok f) (missing : c.load path f = none)
    (compiles : c.compile path = .ok program) : c.resolve path = (.ok program,
      ({ c with asked := path :: c.asked, parseCount := c.parseCount + 1 } : ProgramCache).store path f program) := by
  unfold resolve fetch
  rw [asked_fingerprint, found]
  dsimp only
  rw [asked_load, missing]
  dsimp only
  rw [asked_compile, compiles]

theorem Sourced.fingerprint (sourced : c.Sourced path content changed) :
    c.fingerprint path = .ok (.ofTime changed) := by
  unfold Sourced at sourced
  unfold ProgramCache.fingerprint
  dsimp only
  rw [sourced]

theorem Sourced.compile {code : String} (sourced : c.Sourced path code.toUTF8 changed) :
    c.compile path = compileText path code := by
  rw [compile_sourced sourced, compiledFrom_text]

theorem resolve_find (c : ProgramCache) (valid : path.isValid = true) (l : Location) :
    (c.resolve path).2.files.find l = c.files.find l ∨
      (c.files.find l = none ∧ (c.resolve path).2.files.find l = some .folder) ∨
      (l = c.artifactPlace path ∧ c.files.find l ≠ some .folder ∧ ∃ content changed bytes,
        c.Sourced path content changed ∧ (c.resolve path).2.files.find l =
          some (.file bytes (Fingerprint.ofTime changed).toTime)) := by
  unfold resolve
  rcases fetch_files { c with asked := path :: c.asked } path with same | ⟨content, changed, program, sourced, _, same⟩
  · exact .inl (by rw [same])
  · rw [same]
    rcases store_find (c := { c with asked := path :: c.asked }) valid (.ofTime changed) program l with
      kept | made | ⟨here, free, stored⟩
    · exact .inl kept
    · exact .inr (.inl made)
    · exact .inr (.inr ⟨here, free, content, changed, _, sourced, stored⟩)

-- After a lookup the source is what it was. Only where its artifact is kept in the same place, it may be
-- another file, but of the same fingerprint.
theorem Sourced.resolved (sourced : c.Sourced path content changed) (valid : path.isValid = true) :
    ∃ left when, (c.resolve path).2.Sourced path left when ∧ Fingerprint.ofTime when = .ofTime changed ∧
      (c.sourcePlace path ≠ c.artifactPlace path → left = content ∧ when = changed) := by
  have folders : ∀ l, c.files.find l = some .folder → (c.resolve path).2.files.find l = some .folder := by
    intro l folder
    rcases c.resolve_find valid l with same | ⟨free, _⟩ | ⟨_, free, _⟩
    · rw [same, folder]
    · cases folder.symm.trans free
    · exact absurd folder free
  have place : (c.resolve path).2.sourcePath path = c.sourcePath path := by
    rw [sourcePath, (resolve_roots c path).1]
    rfl
  have there : c.files.find (locationOf (c.sourcePath path)) = some (.file content changed) :=
    c.sourcePath_location valid ▸ look_source valid sourced
  unfold Sourced
  rw [place]
  rcases c.resolve_find valid (locationOf (c.sourcePath path)) with
    same | ⟨free, _⟩ | ⟨here, _, _, when, bytes, sourced', stored⟩
  · exact ⟨content, changed, look_file_later folders (same.trans there) sourced, rfl, fun _ => ⟨rfl, rfl⟩⟩
  · cases there.symm.trans free
  · cases sourced.symm.trans sourced'
    refine ⟨bytes, _, look_file_later folders stored sourced, Fingerprint.ofTime_toTime _, fun apart => ?_⟩
    rw [c.sourcePath_location valid] at here
    exact absurd here apart

end

structure ParsedAgain (c : ProgramCache) (path : FunctionPath) (f : Fingerprint) (program : Program) : Prop where
  answers : (c.resolve path).1 = .ok program
  counts : (c.resolve path).2.parseCount = c.parseCount + 1
  stored : c.writable = true → (c.resolve path).2.Stored path f program
  unstored : c.writable = false → (c.resolve path).2.files = c.files

section
variable {c : ProgramCache} {path : FunctionPath} {f : Fingerprint} {program : Program} {code : String}
  {changed : Time}

theorem parsed_again (valid : path.isValid = true) (sourced : c.Sourced path code.toUTF8 changed)
    (compiles : compileText path code = .ok program) {old : ByteArray} {when : Time}
    (looks : c.files.look (c.artifactPath path) = .ok (.file old when))
    (missing : c.load path (.ofTime changed) = none) : ParsedAgain c path (.ofTime changed) program := by
  have miss := resolve_miss sourced.fingerprint missing (sourced.compile.trans compiles)
  obtain ⟨_, only⟩ := store_only
    { c with asked := path :: c.asked, parseCount := c.parseCount + 1 } path (.ofTime changed) program
  refine ⟨congrArg Prod.fst miss, ?_, fun writable => ?_, fun readOnly => ?_⟩
  · exact (congrArg (fun result => result.2.parseCount) miss).trans (congrArg parseCount only)
  · rw [miss]
    exact store_over valid writable looks
  · rw [miss]
    have same := store_unwritable (c := { c with asked := path :: c.asked, parseCount := c.parseCount + 1 })
      readOnly path (.ofTime changed) program
    rw [same]

-- An artifact of the same program and fingerprint is there before and after, whether it could be replaced or not.
theorem ParsedAgain.left (again : ParsedAgain c path f program) (stored : c.Stored path f program) :
    (c.resolve path).2.Stored path f program := by
  cases writable : c.writable with
  | true => exact again.stored writable
  | false =>
    unfold Stored
    rw [again.unstored writable, artifactPath, (resolve_roots c path).2]
    exact stored

end

structure Settled (c : ProgramCache) (path : FunctionPath) (f : Fingerprint) (program : Program) : Prop where
  fingerprint : c.fingerprint path = .ok f
  stored : c.Stored path f program

-- what comes back from an artifact, as long as not too much of it is open at once
structure Servable (f : Fingerprint) (program : Program) : Prop where
  secs : f.secs < twoTo 64
  nanos : f.nanos < twoTo 32
  kept : ∀ v ∈ literals program, Json.Kept v

section
variable {c : ProgramCache} {path : FunctionPath} {f : Fingerprint} {program : Program}

theorem Settled.asked (settled : c.Settled path f program) (asked : List FunctionPath) :
    ({ c with asked } : ProgramCache).Settled path f program := by
  obtain ⟨found, stored⟩ := settled
  unfold Stored at stored
  refine ⟨by rw [asked_fingerprint, found], ?_⟩
  unfold Stored
  rw [asked_artifactPath, stored]

theorem Settled.load (settled : c.Settled path f program) (servable : Servable f program) :
    c.load path f = if (Artifact.current f program).toJson.opens ≤ Json.maxOpen then some program else none :=
  settled.stored.load servable.secs servable.nanos servable.kept

theorem Settled.reread (settled : c.Settled path f program) (servable : Servable f program)
    (few : (Artifact.current f program).toJson.opens ≤ Json.maxOpen) (n : Nat) :
    ((c.looked (List.replicate n path)).resolve path).1 = .ok program ∧
      ((c.looked (List.replicate n path)).resolve path).2.parseCount = c.parseCount := by
  have hit := resolve_hit settled.fingerprint ((settled.load servable).trans (if_pos few))
  induction n generalizing c with
  | zero =>
    rw [List.replicate_zero, looked_nil, hit]
    exact ⟨rfl, rfl⟩
  | succ n ih =>
    have settled' := settled.asked (path :: c.asked)
    rw [List.replicate_succ, looked_cons, hit]
    exact ih settled' (resolve_hit settled'.fingerprint ((settled'.load servable).trans (if_pos few)))

theorem Settled.remade {code : String} {changed : Time} (settled : c.Settled path (.ofTime changed) program)
    (servable : Servable (.ofTime changed) program) (valid : path.isValid = true)
    (sourced : c.Sourced path code.toUTF8 changed) (compiles : compileText path code = .ok program)
    (apart : c.sourcePlace path ≠ c.artifactPlace path)
    (many : ¬ (Artifact.current (.ofTime changed) program).toJson.opens ≤ Json.maxOpen) (n : Nat) :
    ((c.looked (List.replicate n path)).resolve path).1 = .ok program ∧
      ((c.looked (List.replicate n path)).resolve path).2.parseCount = c.parseCount + (n + 1) := by
  induction n generalizing c with
  | zero =>
    have again := parsed_again valid sourced compiles settled.stored
      ((settled.load servable).trans (if_neg many))
    rw [List.replicate_zero, looked_nil]
    exact ⟨again.answers, again.counts⟩
  | succ n ih =>
    have again := parsed_again valid sourced compiles settled.stored
      ((settled.load servable).trans (if_neg many))
    obtain ⟨left, when, sourced', _, same⟩ := sourced.resolved valid
    obtain ⟨rfl, rfl⟩ := same apart
    have roots := resolve_roots c path
    have apart' : (c.resolve path).2.sourcePlace path ≠ (c.resolve path).2.artifactPlace path := by
      rw [sourcePlace, artifactPlace, roots.1, roots.2]
      exact apart
    obtain ⟨answers, counted⟩ := ih ⟨sourced'.fingerprint, again.left settled.stored⟩ sourced' apart'
    rw [List.replicate_succ, looked_cons]
    refine ⟨answers, ?_⟩
    rw [counted, again.counts]
    omega

end

-- A lookup and those after it, where the first left the artifact of the source. The document of the artifact
-- decides whether the others parse.
structure LookedUpAgain (c : ProgramCache) (path : FunctionPath) (f : Fingerprint) (program : Program) : Prop where
  first : (c.resolve path).1 = .ok program
  again : (Artifact.current f program).toJson.opens ≤ 127 → ∀ n,
    let between := (c.resolve path).2.looked (List.replicate n path)
    (between.resolve path).1 = .ok program ∧
      (between.resolve path).2.parseCount = (c.resolve path).2.parseCount
  deep : 127 < (Artifact.current f program).toJson.opens → c.sourcePlace path ≠ c.artifactPlace path → ∀ n,
    let between := (c.resolve path).2.looked (List.replicate n path)
    (between.resolve path).1 = .ok program ∧
      (between.resolve path).2.parseCount = (c.resolve path).2.parseCount + (n + 1)

-- The bounds on the time are those of the clock.
theorem stored_looked_up_again {c : ProgramCache} {path : FunctionPath} (valid : path.isValid = true)
    {code : String} {changed : Time} {program : Program} (sourced : c.Sourced path code.toUTF8 changed)
    (compiles : compileText path code = .ok program) (secs : changed.secs < twoTo 63)
    (nanos : changed.nanos < tenTo 9) (legible : Legible program)
    (stored : (c.resolve path).2.Stored path (.ofTime changed) program) :
    LookedUpAgain c path (.ofTime changed) program := by
  have kept : ∀ v ∈ literals program, Json.Kept v :=
    literals_kept ((compiledFrom_text (c.sourcePath path) path code).trans compiles) legible
  obtain ⟨low, low'⟩ := Fingerprint.ofTime_bounds secs nanos
  have servable : Servable (.ofTime changed) program := ⟨low, low', kept⟩
  obtain ⟨left, when, sourced', fingerprint, same⟩ := sourced.resolved valid
  have settled : (c.resolve path).2.Settled path (.ofTime changed) program :=
    ⟨sourced'.fingerprint.trans (congrArg Except.ok fingerprint), stored⟩
  have roots := resolve_roots c path
  refine ⟨?_, fun few n => settled.reread servable few n, fun many apart n => ?_⟩
  · cases loads : c.load path (.ofTime changed) with
    | none => rw [resolve_miss sourced.fingerprint loads (sourced.compile.trans compiles)]
    | some found =>
      -- the artifact was there before, as it is stored now
      have hit := resolve_hit sourced.fingerprint loads
      rw [hit] at settled
      have served := settled.load servable
      rw [asked_load, loads] at served
      rw [hit]
      split at served
      · cases served
        rfl
      · cases served
  · obtain ⟨rfl, rfl⟩ := same apart
    refine settled.remade servable valid sourced' compiles ?_ (Nat.not_le_of_lt many) n
    rw [sourcePlace, artifactPlace, roots.1, roots.2]
    exact apart

-- one source under a root, and an empty cache root beside it
def sourceOnly (code : String) (changed : Time) : ProgramCache where
  files := ⟨[(["src"], .folder), (["cache"], .folder), (["src", "a.fn"], .file code.toUTF8 changed)]⟩
  sourceRoot := "src"
  cacheRoot := "cache"

section
variable (code : String) (changed : Time)

theorem sourceOnly_sourced : (sourceOnly code changed).Sourced ⟨"a"⟩ code.toUTF8 changed := by
  have place : (sourceOnly code changed).sourcePath ⟨"a"⟩ = "src/a.fn" := by
    have segments : (FunctionPath.mk "a").segments = ["a"] := by cbv
    unfold sourcePath
    rw [segments]
    show FilePath.push "src" ("a" ++ suffix) = _
    cbv
  have names : FilePath.steps "src/a.fn" = [.into "src", .into "a.fn"] := by cbv
  have fine : refusal "src/a.fn" = none := by decide
  have short : ¬ maxName < "src".utf8ByteSize ∧ ¬ maxName < "a.fn".utf8ByteSize := by decide
  unfold Sourced look follow
  rw [place, fine, names]
  simp [walk, find, sourceOnly, short]

theorem sourceOnly_missing : (sourceOnly code changed).load ⟨"a"⟩ (.ofTime changed) = none := by
  have valid : (FunctionPath.mk "a").isValid = true := by cbv
  have root : locationOf "cache" = ["cache"] := by cbv
  cases loads : (sourceOnly code changed).load ⟨"a"⟩ (.ofTime changed) with
  | none => rfl
  | some found =>
    obtain ⟨_, _, _, present, _⟩ := load_artifact valid loads
    simp [artifactPlace, sourceOnly, find, root] at present

theorem sourceOnly_resolve (program : Program) (compiles : compileText ⟨"a"⟩ code = .ok program) :
    (sourceOnly code changed).resolve ⟨"a"⟩ = (.ok program,
      ({ sourceOnly code changed with asked := [⟨"a"⟩], parseCount := 1 } : ProgramCache).store ⟨"a"⟩
        (.ofTime changed) program) := by
  have sourced := sourceOnly_sourced code changed
  exact resolve_miss sourced.fingerprint (sourceOnly_missing code changed) (sourced.compile.trans compiles)

theorem sourceOnly_stored (program : Program) (compiles : compileText ⟨"a"⟩ code = .ok program) :
    ((sourceOnly code changed).resolve ⟨"a"⟩).2.Stored ⟨"a"⟩ (.ofTime changed) program := by
  have valid : (FunctionPath.mk "a").isValid = true := by cbv
  rw [sourceOnly_resolve code changed program compiles]
  have folder : (sourceOnly code changed).files.IsFolder "cache" :=
    isFolder_name (by decide) (by decide) (by cbv) (by simp [sourceOnly, find])
  have place : FilePath.push "cache" ("a" ++ suffix) = "cache/a.fn" := by cbv
  have names : FilePath.steps "cache/a.fn" = [.into "cache", .into "a.fn"] := by cbv
  have fine : refusal "cache/a.fn" = none := by decide
  have short : ¬ maxName < "cache".utf8ByteSize ∧ ¬ maxName < "a.fn".utf8ByteSize := by decide
  have follows : (sourceOnly code changed).files.follow "cache/a.fn" = .ok (["cache", "a.fn"], none) := by
    unfold follow
    rw [fine, names]
    simp [walk, find, sourceOnly, short]
  obtain ⟨later, written⟩ : ∃ later, (sourceOnly code changed).files.write (FilePath.push "cache" ("a" ++ suffix))
      (Artifact.current (.ofTime changed) program).toBytes (Fingerprint.ofTime changed).toTime = .ok later := by
    unfold write
    rw [place, follows]
    exact ⟨_, rfl⟩
  exact store_stored valid rfl (makeFolder_there folder) written

end

theorem stored_looked_up_again_once : (FunctionPath.mk "a").isValid = true ∧
    (sourceOnly "(f)" ⟨5, 0⟩).Sourced ⟨"a"⟩ "(f)".toUTF8 ⟨5, 0⟩ ∧
    compileText ⟨"a"⟩ "(f)" = .ok [.template (.call "f" [])] ∧ (5 : Int) < twoTo 63 ∧ 0 < tenTo 9 ∧
    Legible [.template (.call "f" [])] ∧
    ((sourceOnly "(f)" ⟨5, 0⟩).resolve ⟨"a"⟩).2.Stored ⟨"a"⟩ (.ofTime ⟨5, 0⟩) [.template (.call "f" [])] ∧
    LookedUpAgain (sourceOnly "(f)" ⟨5, 0⟩) ⟨"a"⟩ (.ofTime ⟨5, 0⟩) [.template (.call "f" [])] ∧
    (((sourceOnly "(f)" ⟨5, 0⟩).resolve ⟨"a"⟩).2.resolve ⟨"a"⟩).2.parseCount =
      ((sourceOnly "(f)" ⟨5, 0⟩).resolve ⟨"a"⟩).2.parseCount := by
  have valid : (FunctionPath.mk "a").isValid = true := by cbv
  have sourced := sourceOnly_sourced "(f)" ⟨5, 0⟩
  have compiles : compileText ⟨"a"⟩ "(f)" = .ok [.template (.call "f" [])] := by cbv
  have legible : Legible [.template (.call "f" [])] := by
    intro x literal
    simp [literals, Node.literals, Expr.literals, Expr.listLiterals] at literal
  have stored := sourceOnly_stored "(f)" ⟨5, 0⟩ _ compiles
  have again := stored_looked_up_again valid sourced compiles (by decide) (by decide) legible stored
  have few : (Artifact.current (.ofTime ⟨5, 0⟩) [.template (.call "f" [])]).toJson.opens ≤ 127 := by decide
  exact ⟨valid, sourced, compiles, by decide, by decide, legible, stored, again, (again.again few 0).2⟩

end ProgramCache
end Switchboard
