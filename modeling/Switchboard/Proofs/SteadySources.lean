import Mathlib.Data.List.Induction
import Switchboard.Proofs.CacheCoherence

namespace Switchboard
open Files FilePath

namespace Files

theorem walk_folder {files : Files} {above : Location} {name : String}
    (short : ¬ maxName < name.utf8ByteSize) (folder : files.find (above ++ [name]) = some .folder)
    (rest : List Step) : files.walk above (.into name :: rest) = files.walk (above ++ [name]) rest := by
  cases rest <;> simp [walk, short, folder]

theorem walk_folders {files : Files} {motive : Location → List Step → Prop} {root : Location}
    (arrived : motive root []) (stay : ∀ above rest, motive above rest → motive above (.stay :: rest))
    (up : ∀ above rest, motive above.dropLast rest → motive above (.up :: rest))
    (into : ∀ above name rest, ¬ maxName < name.utf8ByteSize → files.find (above ++ [name]) = some .folder →
      motive (above ++ [name]) rest → motive above (.into name :: rest))
    {above : Location} {steps : List Step} (walks : files.walk above steps = .ok (root, some .folder)) :
    motive above steps := by
  fun_induction walk files above steps with
  | case1 =>
    cases walks
    exact arrived
  | case2 above rest ih => exact stay above rest (ih walks)
  | case3 above rest ih => exact up above rest (ih walks)
  | case4 => cases walks
  | case5 => cases walks
  | case6 => cases walks
  | case7 above name short entry present =>
    cases walks
    exact into above name [] short present arrived
  | case8 => cases walks
  | case9 above name short rest _ present ih => exact into above name rest short present (ih walks)

theorem walk_append {files : Files} {above root : Location} {front : List Step}
    (walks : files.walk above front = .ok (root, some .folder)) (rest : List Step) :
    files.walk above (front ++ rest) = files.walk root rest := by
  refine walk_folders (motive := fun above front => files.walk above (front ++ rest) = files.walk root rest)
    rfl (fun _ _ same => same) (fun _ _ same => same) ?_ walks
  intro above name front short folder same
  rw [List.cons_append, walk_folder short folder, same]

theorem walk_front {files : Files} {name : String} {front : List Step} {above : Location}
    {found : Location × Option FileEntry} (walks : files.walk above (front ++ [.into name]) = .ok found) :
    ∃ root, files.walk above front = .ok (root, some .folder) := by
  induction front generalizing above with
  | nil => exact ⟨above, rfl⟩
  | cons step front ih =>
    cases step with
    | stay => exact ih walks
    | up => exact ih walks
    | into part =>
      obtain ⟨next, more, behind⟩ : ∃ next more, front ++ [.into name] = next :: more :=
        List.exists_cons_of_ne_nil (by simp)
      rw [List.cons_append] at walks
      -- something is behind this part, so that it has to be a folder
      have folder : ¬ maxName < part.utf8ByteSize ∧ files.find (above ++ [part]) = some .folder := by
        rw [behind] at walks
        unfold walk at walks
        split at walks
        · cases walks
        · next short =>
          split at walks
          · next same => cases same
          · cases walks
          · next same => cases same
          · cases walks
          · next present _ => exact ⟨short, present⟩
      rw [walk_folder folder.1 folder.2] at walks
      obtain ⟨root, before⟩ := ih walks
      exact ⟨root, by rw [walk_folder folder.1 folder.2, before]⟩

theorem put_folders {files : Files} {place : Location} {entry : FileEntry} (free : files.find place ≠ some .folder)
    {l : Location} (folder : files.find l = some .folder) : (files.put place entry).find l = some .folder := by
  rw [find_put, if_neg]
  · exact folder
  · intro same
    subst same
    exact free folder

theorem walk_folder_put {files : Files} {above place root : Location} {steps : List Step}
    {entry : FileEntry} (free : files.find place ≠ some .folder)
    (walks : files.walk above steps = .ok (root, some .folder)) :
    (files.put place entry).walk above steps = .ok (root, some .folder) := by
  refine walk_folders
    (motive := fun above steps => (files.put place entry).walk above steps = .ok (root, some .folder))
    rfl (fun _ _ same => same) (fun _ _ same => same) ?_ walks
  intro above name rest short folder same
  rw [walk_folder short (put_folders free folder), same]

theorem walk_into_same {files other : Files} {above : Location} {name : String} {rest : List Step}
    (same : other.find (above ++ [name]) = files.find (above ++ [name]))
    (further : other.walk (above ++ [name]) rest = files.walk (above ++ [name]) rest) :
    other.walk above (.into name :: rest) = files.walk above (.into name :: rest) := by
  unfold walk
  rw [same]
  cases files.find (above ++ [name]) with
  | none => cases rest <;> rfl
  | some entry =>
    cases entry with
    | file => cases rest <;> rfl
    | folder =>
      cases rest with
      | nil => rfl
      | cons step rest =>
        dsimp only
        rw [further]

theorem walk_names_put {files : Files} {place : Location} {entry : FileEntry} (names : List String) :
    ∀ above : Location, ¬ above <+: place →
      (files.put place entry).walk above (names.map .into) = files.walk above (names.map .into) := by
  induction names with
  | nil => exact fun _ _ => rfl
  | cons name names ih =>
    intro above outside
    have other : above ++ [name] ≠ place := fun same => outside ⟨[name], same⟩
    have below : ¬ above ++ [name] <+: place := fun inside =>
      outside ((List.prefix_append above [name]).trans inside)
    have same : (files.put place entry).find (above ++ [name]) = files.find (above ++ [name]) := by
      rw [find_put, if_neg other]
    exact walk_into_same same (ih _ below)

theorem makeFolders_there {files : Files} {above root : Location} {steps : List Step}
    (walks : files.walk above steps = .ok (root, some .folder)) :
    files.makeFolders above steps = (files, none) := by
  refine walk_folders (motive := fun above steps => files.makeFolders above steps = (files, none))
    rfl (fun _ _ same => same) (fun _ _ same => same) ?_ walks
  intro above name rest short folder same
  rw [makeFolders, if_neg short, folder]
  exact same

def IsFolder (files : Files) (path : String) : Prop :=
  refusal path = none ∧ files.walk [] (steps path) = .ok (locationOf path, some .folder)

theorem isFolder_name {files : Files} {path : String} (short : ¬ maxName < path.utf8ByteSize)
    (fine : refusal path = none) (leads : steps path = [.into path]) (present : files.find [path] = some .folder) :
    files.IsFolder path := by
  refine ⟨fine, ?_⟩
  simp [leads, walk, short, present, locationOf, landing]

theorem makeFolder_there {files : Files} {path : String} (folder : files.IsFolder path) :
    files.makeFolder path = (files, none) := by
  unfold makeFolder
  rw [folder.1]
  exact makeFolders_there folder.2

theorem IsFolder.put {files : Files} {path : String} {place : Location} {entry : FileEntry}
    (folder : files.IsFolder path) (free : files.find place ≠ some .folder) :
    (files.put place entry).IsFolder path :=
  ⟨folder.1, walk_folder_put free folder.2⟩

-- A part that stays where it is may be left out at the end.
theorem walk_unstayed {files : Files} {above root : Location} {front : List Step}
    (walks : files.walk above (front ++ [.stay]) = .ok (root, some .folder)) :
    files.walk above front = .ok (landing above front, some .folder) := by
  have shorter : ∀ front', front ++ [Step.stay] = front' ++ [.stay] →
      files.walk above front' = .ok (landing above front', some .folder) := by
    refine walk_folders (motive := fun above steps => ∀ front, steps = front ++ [.stay] →
      files.walk above front = .ok (landing above front, some .folder)) ?_ ?_ ?_ ?_ walks
    · intro front whole
      simp at whole
    · intro above rest same front whole
      cases front with
      | nil => rfl
      | cons step front =>
        cases whole
        exact same front rfl
    · intro above rest same front whole
      cases front with
      | nil => cases whole
      | cons step front =>
        cases whole
        exact same front rfl
    · intro above name rest short folder same front whole
      cases front with
      | nil => cases whole
      | cons step front =>
        cases whole
        rw [walk_folder short folder]
        exact same front rfl
  exact shorter front rfl

theorem walk_idle {files : Files} {above root : Location} {front all : List Step}
    (idle : all = front ∨ all = front ++ [.stay]) (walks : files.walk above all = .ok (root, some .folder)) :
    files.walk above front = .ok (root, some .folder) := by
  rcases idle with same | same
  · subst same
    exact walks
  · subst same
    have place : root = landing above front := by
      rw [walk_landing walks, landing_append]
      rfl
    rw [place]
    exact walk_unstayed walks

theorem write_free {files files' : Files} {path name : String} {front : List Step} {content : ByteArray}
    {changed : Time} (leads : steps path = front ++ [.into name])
    (written : files.write path content changed = .ok files') :
    files.find (locationOf path) ≠ some .folder := by
  obtain ⟨found, follows, other⟩ := write_follows written
  unfold follow at follows
  split at follows
  · cases follows
  · rw [leads] at follows
    rwa [walk_into follows] at other

end Files

namespace ProgramCache
open FunctionPath

-- Both roots are folders that are there, and neither lies in the other.
structure Standing (c : ProgramCache) : Prop where
  apart : c.Apart
  source : c.files.IsFolder c.sourceRoot
  cache : c.files.IsFolder c.cacheRoot

theorem look_put {c : ProgramCache} (apart : c.Apart) (root : c.files.IsFolder c.sourceRoot)
    {path other : FunctionPath} (valid : path.isValid = true)
    (free : c.files.find (c.artifactPlace other) ≠ some .folder) (entry : FileEntry) :
    (c.files.put (c.artifactPlace other) entry).look (c.sourcePath path) =
      c.files.look (c.sourcePath path) := by
  obtain ⟨front, whole, idle⟩ := c.sourcePath_steps valid
  have before := walk_idle idle root.2
  have after : (c.files.put (c.artifactPlace other) entry).walk [] front =
      .ok (locationOf c.sourceRoot, some .folder) := walk_folder_put free before
  unfold Files.look follow
  rw [whole, walk_append before, walk_append after, walk_names_put _ _ (apart.outside other)]

theorem root_folder {c : ProgramCache} {path : FunctionPath} (valid : path.isValid = true)
    {found : Location × Option FileEntry}
    (follows : c.files.follow (c.artifactPath path) = .ok found) : c.files.IsFolder c.cacheRoot := by
  obtain ⟨front, leads, idle⟩ := c.artifactPath_steps valid
  unfold follow at follows
  split at follows
  · cases follows
  · next fine =>
    rw [leads] at follows
    obtain ⟨root, before⟩ := walk_front follows
    have there : c.files.walk [] (steps c.cacheRoot) = .ok (root, some .folder) := by
      rcases idle with same | same
      · rw [same, before]
      · rw [same, walk_append before]
        rfl
    refine ⟨refusal_push (suffixed_name (valid_text valid)) fine, ?_⟩
    rw [there, walk_landing there]
    rfl

theorem follow_root {c : ProgramCache} {path : FunctionPath} (valid : path.isValid = true)
    {found : Location × Option FileEntry}
    (follows : c.files.follow (c.artifactPath path) = .ok found) :
    c.files.makeFolder c.cacheRoot = (c.files, none) :=
  makeFolder_there (root_folder valid follows)

theorem store_there {c : ProgramCache} (root : c.files.IsFolder c.cacheRoot) {path : FunctionPath}
    (valid : path.isValid = true) (f : Fingerprint) (program : Source.Program) :
    (c.store path f program).files = c.files ∨ ∃ entry,
      c.files.find (c.artifactPlace path) ≠ some .folder ∧
        (c.store path f program).files = c.files.put (c.artifactPlace path) entry := by
  obtain ⟨front, leads, _⟩ := c.artifactPath_steps valid
  have there := makeFolder_there root
  have stores := c.store_storing path f program
  generalize c.store path f program = after at stores ⊢
  cases stores with
  | unwritable => exact .inl rfl
  | blocked made => cases there.symm.trans made
  | refused made =>
    cases there.symm.trans made
    exact .inl rfl
  | written made written =>
    cases there.symm.trans made
    have free := write_free leads written
    rw [c.artifactPath_location valid] at free
    rw [write_put written, c.artifactPath_location valid]
    exact .inr ⟨_, free, rfl⟩

-- A lookup leaves every source as it is, and the roots where they are.
theorem Standing.resolved {c : ProgramCache} (standing : c.Standing) {path : FunctionPath}
    (valid : path.isValid = true) : Standing (c.resolve path).2 ∧
      ∀ other, other.isValid = true →
        (c.resolve path).2.files.look ((c.resolve path).2.sourcePath other) =
          c.files.look (c.sourcePath other) := by
  obtain ⟨sourceRoot, cacheRoot⟩ := resolve_roots c path
  have place (other : FunctionPath) : (c.resolve path).2.sourcePath other = c.sourcePath other := by
    rw [sourcePath, sourceRoot]
    rfl
  have files : (c.resolve path).2.files = c.files ∨ ∃ entry,
      c.files.find (c.artifactPlace path) ≠ some .folder ∧
        (c.resolve path).2.files = c.files.put (c.artifactPlace path) entry := by
    unfold resolve
    rcases fetch_files { c with asked := path :: c.asked } path with same | ⟨_, _, _, _, _, same⟩
    · exact .inl same
    · rw [same]
      exact store_there (c := { c with asked := path :: c.asked }) standing.cache valid _ _
  have apart := standing.apart.moved (resolve_roots c path)
  rcases files with same | ⟨entry, free, same⟩
  · refine ⟨⟨apart, ?_, ?_⟩, ?_⟩
    · rw [sourceRoot, same]
      exact standing.source
    · rw [cacheRoot, same]
      exact standing.cache
    · intro other _
      rw [place, same]
  · refine ⟨⟨apart, ?_, ?_⟩, ?_⟩
    · rw [sourceRoot, same]
      exact standing.source.put free
    · rw [cacheRoot, same]
      exact standing.cache.put free
    · intro other valid'
      rw [place, same, look_put standing.apart standing.source valid' free]

def looked (c : ProgramCache) (paths : List FunctionPath) : ProgramCache :=
  paths.foldl (fun c path => (c.resolve path).2) c

theorem looked_nil (c : ProgramCache) : c.looked [] = c := rfl

theorem looked_snoc (c : ProgramCache) (paths : List FunctionPath) (path : FunctionPath) :
    c.looked (paths ++ [path]) = ((c.looked paths).resolve path).2 := by
  simp [looked]

theorem looked_cons (c : ProgramCache) (path : FunctionPath) (paths : List FunctionPath) :
    c.looked (path :: paths) = (c.resolve path).2.looked paths := by
  unfold looked
  rw [List.foldl_cons]

-- No lookup changes what lies where the sources are kept.
def Unchanging (c : ProgramCache) : Prop :=
  ∀ paths, (∀ path ∈ paths, path.isValid = true) → ∀ path, path.isValid = true →
    (c.looked paths).files.look ((c.looked paths).sourcePath path) = c.files.look (c.sourcePath path)

theorem Standing.unchanging {c : ProgramCache} (standing : c.Standing) : c.Unchanging := by
  intro paths valid
  have still : Standing (c.looked paths) ∧ ∀ path, path.isValid = true →
      (c.looked paths).files.look ((c.looked paths).sourcePath path) = c.files.look (c.sourcePath path) := by
    induction paths using List.reverseRecOn with
    | nil => exact ⟨standing, fun _ _ => rfl⟩
    | append_singleton paths last ih =>
      obtain ⟨before, same⟩ := ih fun path inside => valid path (by simp [inside])
      obtain ⟨after, same'⟩ := before.resolved (valid last (by simp))
      rw [looked_snoc]
      exact ⟨after, fun path valid' => (same' path valid').trans (same path valid')⟩
  exact still.2

-- If a lookup takes these bytes, they hold what the source compiles to.
def Right (c : ProgramCache) (path : FunctionPath) (bytes : ByteArray) (changed : Time) : Prop :=
  ∀ content when a, c.Sourced path content when → Trusted (.ofTime when) bytes changed a →
    compiledFrom (c.sourcePath path) path content = .ok a.program

structure Steady (c : ProgramCache) : Prop where
  unchanging : c.Unchanging
  coherent : Coherent c.Right c
  legible : ∀ path content changed program, path.isValid = true → c.Sourced path content changed →
    compiledFrom (c.sourcePath path) path content = .ok program → Legible program

theorem looked_roots (c : ProgramCache) (paths : List FunctionPath) :
    (c.looked paths).sourceRoot = c.sourceRoot ∧ (c.looked paths).cacheRoot = c.cacheRoot := by
  induction paths using List.reverseRecOn with
  | nil => exact ⟨rfl, rfl⟩
  | append_singleton paths last ih =>
    rw [looked_snoc]
    obtain ⟨source, cache⟩ := resolve_roots (c.looked paths) last
    exact ⟨source.trans ih.1, cache.trans ih.2⟩

section
variable {c : ProgramCache} {paths : List FunctionPath} {path : FunctionPath}

theorem Unchanging.sourced (unchanging : c.Unchanging) (before : ∀ path ∈ paths, path.isValid = true)
    (valid : path.isValid = true) {content : ByteArray} {changed : Time}
    (sourced : (c.looked paths).Sourced path content changed) : c.Sourced path content changed := by
  unfold Sourced at sourced ⊢
  rwa [unchanging paths before path valid] at sourced

theorem looked_sourcePath : (c.looked paths).sourcePath path = c.sourcePath path := by
  rw [sourcePath, (looked_roots c paths).1]
  rfl

theorem Steady.looked_coherent (steady : c.Steady) (before : ∀ path ∈ paths, path.isValid = true) :
    Coherent c.Right (c.looked paths) := by
  induction paths using List.reverseRecOn with
  | nil => exact steady.coherent
  | append_singleton paths last ih =>
    have earlier : ∀ path ∈ paths, path.isValid = true := fun path inside => before path (by simp [inside])
    have valid := before last (by simp)
    rw [looked_snoc]
    apply resolve_coherent (ih earlier) valid
    intro content changed program sourced compiles content' when a sourced' trusted
    rw [looked_sourcePath] at compiles
    have source := steady.unchanging.sourced earlier valid sourced
    -- the source has one content, and its artifact is read back as it was written
    cases source.symm.trans sourced'
    rw [(written_program compiles (steady.legible last _ _ _ valid source compiles) trusted.decodes).2]
    exact compiles

theorem Steady.answers (steady : c.Steady) (before : ∀ path ∈ paths, path.isValid = true)
    (valid : path.isValid = true) : ((c.looked paths).resolve path).1 = c.fresh path := by
  have same := resolve_fresh (steady.looked_coherent before) valid ?_
  · rw [same]
    unfold fresh
    rw [steady.unchanging paths before path valid, looked_sourcePath]
  · intro content changed bytes when a sourced right trusted
    rw [looked_sourcePath]
    exact right content changed a (steady.unchanging.sourced before valid sourced) trusted

end

-- Whatever is looked up before, a path gives this.
def Answers (answers : FunctionPath → Except CacheError Source.Program) (c : ProgramCache) : Prop :=
  ∀ paths, (∀ path ∈ paths, path.isValid = true) → ∀ path, path.isValid = true →
    ((c.looked paths).resolve path).1 = answers path

section
variable {answers : FunctionPath → Except CacheError Source.Program} {c : ProgramCache} {path : FunctionPath}

theorem Answers.now (known : Answers answers c) (valid : path.isValid = true) :
    (c.resolve path).1 = answers path :=
  known [] (by simp) path valid

theorem Answers.later (known : Answers answers c) (valid : path.isValid = true) :
    Answers answers (c.resolve path).2 := by
  intro paths before other valid'
  rw [← looked_cons]
  exact known (path :: paths) (by simpa using ⟨valid, before⟩) other valid'

end

-- two caches over the same sources
def SameSources (one other : ProgramCache) : Prop :=
  other.sourceRoot = one.sourceRoot ∧ ∀ path, path.isValid = true →
    other.files.look (other.sourcePath path) = one.files.look (one.sourcePath path)

section
variable {c other third : ProgramCache} {path : FunctionPath}

theorem SameSources.symm (same : SameSources c other) : SameSources other c :=
  ⟨same.1.symm, fun path valid => (same.2 path valid).symm⟩

theorem SameSources.trans (same : SameSources c other) (same' : SameSources other third) :
    SameSources c third :=
  ⟨same'.1.trans same.1, fun path valid => (same'.2 path valid).trans (same.2 path valid)⟩

theorem SameSources.sourcePath (same : SameSources c other) : other.sourcePath path = c.sourcePath path := by
  rw [ProgramCache.sourcePath, same.1]
  rfl

theorem SameSources.fresh (same : SameSources c other) (valid : path.isValid = true) :
    other.fresh path = c.fresh path := by
  unfold ProgramCache.fresh
  rw [same.2 path valid, same.sourcePath]

theorem SameSources.sourced (same : SameSources c other) (valid : path.isValid = true) {content : ByteArray}
    {changed : Time} (sourced : other.Sourced path content changed) : c.Sourced path content changed := by
  unfold Sourced at sourced ⊢
  rwa [← same.2 path valid]

theorem SameSources.legible (same : SameSources c other) (steady : c.Steady) :
    ∀ path content changed program, path.isValid = true → other.Sourced path content changed →
      compiledFrom (other.sourcePath path) path content = .ok program → Legible program := by
  intro path content changed program valid sourced compiles
  rw [same.sourcePath] at compiles
  exact steady.legible path content changed program valid (same.sourced valid sourced) compiles

-- What is put outside the source root changes no source, if the root stays a folder.
theorem sameSources_put {place : Location} {entry : FileEntry} (root : c.files.IsFolder c.sourceRoot)
    (root' : (c.files.put place entry).IsFolder c.sourceRoot) (outside : ¬ locationOf c.sourceRoot <+: place) :
    SameSources c { c with files := c.files.put place entry } := by
  refine ⟨rfl, ?_⟩
  intro path valid
  obtain ⟨front, whole, idle⟩ := c.sourcePath_steps valid
  have before := walk_idle idle root.2
  have after := walk_idle idle root'.2
  show (c.files.put place entry).look (c.sourcePath path) = c.files.look (c.sourcePath path)
  unfold Files.look follow
  rw [whole, walk_append before, walk_append after, walk_names_put _ _ outside]

theorem looked_one (c : ProgramCache) (path : FunctionPath) : c.looked [path] = (c.resolve path).2 := rfl

theorem Unchanging.sameSources (unchanging : c.Unchanging) (valid : path.isValid = true) :
    SameSources c (c.resolve path).2 := by
  refine ⟨(resolve_roots c path).1, ?_⟩
  intro other valid'
  have same := unchanging [path] (by simpa using valid) other valid'
  rwa [looked_one] at same

theorem Steady.later (steady : c.Steady) (valid : path.isValid = true) : (c.resolve path).2.Steady := by
  have same := steady.unchanging.sameSources valid
  refine ⟨?_, ?_, same.legible steady⟩
  · intro paths before other valid'
    have whole := steady.unchanging (path :: paths) (by simpa using ⟨valid, before⟩) other valid'
    rw [looked_cons] at whole
    exact whole.trans (same.2 other valid').symm
  · have coherent : Coherent c.Right (c.looked [path]) := steady.looked_coherent (by simpa using valid)
    rw [looked_one] at coherent
    intro other valid' bytes changed present content when a sourced trusted
    rw [same.sourcePath]
    exact coherent other valid' bytes changed present content when a (same.sourced valid' sourced) trusted

end

theorem Steady.answered {one other : ProgramCache} (steady : other.Steady) (same : SameSources one other) :
    Answers one.fresh other := by
  intro paths before path valid
  rw [steady.answers before valid, same.fresh valid]

end ProgramCache

end Switchboard
