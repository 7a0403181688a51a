import Switchboard.Proofs.StoredArtifacts

namespace Switchboard
open FilePath Files

theorem Text.fields_inj {sep : Char} {s t : String} (same : fields sep s = fields sep t) : s = t := by
  have pieces : split sep s.toList = split sep t.toList :=
    List.map_injective_iff.mpr (fun _ _ => String.ofList_inj.mp) same
  rw [← String.toList_inj, ← join_split sep s.toList, pieces, join_split]

namespace FilePath

-- the parts of a path but for those that stay where they are
def parts (path : String) : List Step :=
  (steps path).filter (· ≠ .stay)

theorem into_leading {names others : List String} (first : names.map Step.into <+: others.map .into) :
    names <+: others := by
  obtain ⟨rest, whole⟩ := first
  obtain ⟨front, back, rfl, same, _⟩ := List.map_eq_append_iff.mp whole.symm
  have front : front = names := List.map_injective_iff.mpr (fun _ _ => Step.into.inj) same
  exact ⟨back, by rw [front]⟩

theorem parts_behind {path root : String} {front : List Step} {names : List String}
    (whole : steps path = front ++ names.map .into) (idle : steps root = front ∨ steps root = front ++ [.stay]) :
    parts path = parts root ++ names.map .into := by
  have moving : (names.map Step.into).filter (· ≠ .stay) = names.map .into := by
    simp [List.filter_eq_self]
  have same : parts root = front.filter (· ≠ .stay) := by
    rcases idle with exact | stays
    · rw [parts, exact]
    · simp [parts, stays]
  rw [same, parts, whole, List.filter_append, moving]

end FilePath

namespace Files

variable {files later : Files}

-- Where there is less than there was, a walk that came to what is gone finds nothing at its end or on its way.
theorem walk_gone (fewer : ∀ l, later.find l = files.find l ∨ later.find l = none) {place : Location}
    (gone : later.find place = none) {above : Location} {steps : List Step} {content : ByteArray} {changed : Time}
    (walks : files.walk above steps = .ok (place, some (.file content changed))) :
    later.walk above steps = .ok (place, none) ∨ later.walk above steps = .error .missing := by
  fun_induction walk files above steps with
  | case1 => cases walks
  | case2 above rest ih => exact ih walks
  | case3 above rest ih => exact ih walks
  | case4 => cases walks
  | case5 => cases walks
  | case6 => cases walks
  | case7 above name short entry found =>
    cases walks
    left
    simp [walk, short, gone]
  | case8 => cases walks
  | case9 above name short rest more found ih =>
    rcases fewer (above ++ [name]) with same | lost
    · rw [walk_folder short (same.trans found)]
      exact ih walks
    · right
      obtain ⟨next, behind, rfl⟩ := List.exists_cons_of_ne_nil more
      simp [walk, short, lost]

theorem look_gone (fewer : ∀ l, later.find l = files.find l ∨ later.find l = none) {path : String}
    (gone : later.find (locationOf path) = none) {content : ByteArray} {changed : Time}
    (looks : files.look path = .ok (.file content changed)) : later.look path = .error .missing := by
  have follows := look_file looks
  unfold look
  unfold follow at follows ⊢
  split at follows
  · cases follows
  · rcases walk_gone fewer gone follows with same | same <;> rw [same]

theorem mem_children {root : Location} {name : String} {entry : FileEntry}
    (found : files.find (root ++ [name]) = some entry) : (name, entry) ∈ files.children root := by
  refine List.mem_filterMap.mpr ⟨_, find_mem found, ?_⟩
  simp

theorem find_dropAll (root : Location) (names : List String) (files : Files) (l : Location) :
    (names.foldl (fun files name => files.drop (root ++ [name])) files).find l =
      if l ∈ names.map (root ++ [·]) then none else files.find l := by
  induction names generalizing files with
  | nil => simp
  | cons name names ih =>
    rw [List.foldl_cons, ih, find_drop]
    by_cases here : l = root ++ [name] <;> simp [here]

end Files

namespace FunctionPath

variable {path other : FunctionPath}

theorem segments_inj (same : path.segments = other.segments) : path = other := by
  obtain ⟨text⟩ := path
  obtain ⟨text'⟩ := other
  exact congrArg mk (Text.fields_inj same)

theorem sourceNames_inj (same : path.sourceNames = other.sourceNames) : path = other := by
  have whole (path : FunctionPath) : path.segments = path.segments.dropLast ++ [path.segments.getLastD ""] := by
    rw [List.getLastD_eq_getLast?, List.getLast?_eq_some_getLast path.segments_nonempty]
    exact (List.dropLast_concat_getLast _).symm
  obtain ⟨front, last⟩ := List.append_inj' same rfl
  have last : path.segments.getLastD "" = other.segments.getLastD "" := by simpa [String.append_left_inj] using last
  apply segments_inj
  rw [whole path, whole other, front, last]

theorem suffixed_no_segment (s : String) : isSegment (s ++ ProgramCache.suffix) = false := by
  have dot : '.' ∈ (s ++ ProgramCache.suffix).toList := by simp [ProgramCache.suffix]
  cases segment : isSegment (s ++ ProgramCache.suffix) with
  | false => rfl
  | true =>
    simp only [isSegment, Bool.and_eq_true, List.all_eq_true] at segment
    exact absurd (segment.2 '.' dot) (by decide)

-- The names that lead to a source are not the first of those that lead to another one.
theorem sourceNames_leading (valid : other.isValid = true) (first : path.sourceNames <+: other.sourceNames) :
    path = other := by
  obtain ⟨rest, whole⟩ := first
  by_cases none : rest = []
  · subst none
    exact sourceNames_inj (by simpa using whole)
  · have front := congrArg List.dropLast whole
    rw [List.dropLast_append_of_ne_nil none, sourceNames, sourceNames, List.dropLast_concat] at front
    have inside : path.segments.getLastD "" ++ ProgramCache.suffix ∈ other.segments := by
      apply List.dropLast_subset
      rw [← front]
      simp
    have segment := valid_segment valid inside
    rw [suffixed_no_segment] at segment
    cases segment

-- A valid path has a name, so that its artifact has one in front of the suffix.
theorem valid_artifactName (valid : path.isValid = true) :
    ProgramCache.isArtifactName (path.text ++ ProgramCache.suffix) = true := by
  have named : path.text ≠ "" := by
    intro empty
    have segments : path.segments = [""] := by rw [FunctionPath.segments, empty]; rfl
    have segment := valid_segment valid (s := "") (by simp [segments])
    exact absurd segment (by decide)
  have ends : (path.text ++ ProgramCache.suffix).endsWith ProgramCache.suffix = true := by
    rw [endsWith_iff, String.toList_append]
    exact List.suffix_append _ _
  have longer : path.text ++ ProgramCache.suffix ≠ ProgramCache.suffix := by
    intro same
    have empty : path.text ++ ProgramCache.suffix = "" ++ ProgramCache.suffix := by rw [same, String.empty_append]
    exact named (String.append_left_inj _ |>.mp empty)
  simp [ProgramCache.isArtifactName, ends, longer]

end FunctionPath

namespace ProgramCache
open FunctionPath

variable {c : ProgramCache} {path other : FunctionPath}

def artifactsIn (files : Files) (root : Location) : List String :=
  (files.children root).filterMap fun (name, entry) =>
    match entry with
    | .file .. => if isArtifactName name then some name else none
    | .folder => none

-- Where artifacts cannot be removed, clearing fails at the first and leaves everything as it is.
theorem clear_folder (folder : c.files.IsFolder c.cacheRoot) :
    let names := artifactsIn c.files (locationOf c.cacheRoot)
    c.clear = match c.writable, names with
      | false, name :: _ => (.error (.access (FilePath.push c.cacheRoot name) .denied), c)
      | _, _ => (.ok names.length, { c with
        files := names.foldl (fun files name => files.drop (locationOf c.cacheRoot ++ [name])) c.files }) := by
  have root : c.files.follow c.cacheRoot = .ok (locationOf c.cacheRoot, some .folder) := by
    unfold follow
    rw [folder.1]
    exact folder.2
  unfold clear
  rw [root]
  rfl

theorem artifact_listed (valid : path.isValid = true) {content : ByteArray} {changed : Time}
    (looks : c.files.look (c.artifactPath path) = .ok (.file content changed)) :
    path.text ++ suffix ∈ artifactsIn c.files (locationOf c.cacheRoot) := by
  refine List.mem_filterMap.mpr ⟨_, mem_children (look_artifact valid looks), ?_⟩
  simp [valid_artifactName valid]

theorem clear_removes (valid : path.isValid = true) (writable : c.writable = true) {content : ByteArray}
    {changed : Time} (looks : c.files.look (c.artifactPath path) = .ok (.file content changed)) :
    ∃ removed, c.clear.1 = .ok removed ∧ 0 < removed ∧
      c.clear.2.files.look (c.artifactPath path) = .error .missing := by
  have named := artifact_listed valid looks
  rw [clear_folder (root_folder valid (look_file looks)), writable]
  refine ⟨_, rfl, List.length_pos_of_mem named, look_gone ?_ ?_ looks⟩
  · intro l
    rw [find_dropAll]
    split
    · exact .inr rfl
    · exact .inl rfl
  · rw [find_dropAll, c.artifactPath_location valid, if_pos]
    exact List.mem_map.mpr ⟨_, named, rfl⟩

theorem clear_denied (valid : path.isValid = true) (readOnly : c.writable = false) {content : ByteArray}
    {changed : Time} (looks : c.files.look (c.artifactPath path) = .ok (.file content changed)) :
    ∃ place, c.clear = (.error (.access place .denied), c) := by
  obtain ⟨name, _, names⟩ := List.exists_cons_of_ne_nil (List.ne_nil_of_mem (artifact_listed valid looks))
  rw [clear_folder (root_folder valid (look_file looks)), readOnly, names]
  exact ⟨_, rfl⟩

structure Placed (c : ProgramCache) (path : FunctionPath) : Prop where
  segments : ∀ s ∈ path.segments, s ≠ "" ∧ s ≠ "." ∧ s ≠ ".." ∧ '/' ∉ s.toList
  source : parts (c.sourcePath path) = parts c.sourceRoot ++
    (path.segments.dropLast ++ [path.segments.getLastD "" ++ ".fn"]).map .into
  inside : locationOf (c.sourcePath path) = locationOf c.sourceRoot ++
    (path.segments.dropLast ++ [path.segments.getLastD "" ++ ".fn"])
  artifact : parts (c.artifactPath path) = parts c.cacheRoot ++ [.into (path.text ++ ".fn")]
  direct : locationOf (c.artifactPath path) = locationOf c.cacheRoot ++ [path.text ++ ".fn"]
  suffixed : isArtifactName (path.text ++ ".fn") = true
  cleared : ∀ content changed, c.files.look (c.artifactPath path) = .ok (.file content changed) →
    c.writable = true → ∃ removed, c.clear.1 = .ok removed ∧ 0 < removed ∧
      c.clear.2.files.look (c.artifactPath path) = .error .missing
  denied : ∀ content changed, c.files.look (c.artifactPath path) = .ok (.file content changed) →
    c.writable = false → ∃ place, c.clear = (.error (.access place .denied), c)

-- Two paths share no file, and the source of one is no folder above that of the other.
structure Separate (c : ProgramCache) (path other : FunctionPath) : Prop where
  sources : c.sourcePath path ≠ c.sourcePath other
  artifacts : c.artifactPath path ≠ c.artifactPath other
  above : ¬ parts (c.sourcePath path) <+: parts (c.sourcePath other)
  higher : ¬ locationOf (c.sourcePath path) <+: locationOf (c.sourcePath other)
  elsewhere : locationOf (c.artifactPath path) ≠ locationOf (c.artifactPath other)

theorem placed (c : ProgramCache) (valid : path.isValid = true) : c.Placed path := by
  obtain ⟨front, whole, idle⟩ := c.sourcePath_steps valid
  obtain ⟨front', whole', idle'⟩ := c.artifactPath_steps valid
  have flat : FilePath.steps (c.artifactPath path) = front' ++ [path.text ++ suffix].map .into := whole'
  refine ⟨?_, parts_behind whole idle, c.sourcePath_location valid, parts_behind flat idle',
    c.artifactPath_location valid, valid_artifactName valid,
    fun _ _ looks writable => clear_removes valid writable looks,
    fun _ _ looks readOnly => clear_denied valid readOnly looks⟩
  intro s present
  have name := segment_name (valid_segment valid present)
  refine ⟨?_, ?_, ?_, name.whole⟩ <;> rintro rfl
  · cases name.leads
  · cases name.leads
  · cases name.leads

theorem separate (c : ProgramCache) (valid : path.isValid = true) (valid' : other.isValid = true)
    (different : path ≠ other) : c.Separate path other := by
  have first : c.Placed path := c.placed valid
  have second : c.Placed other := c.placed valid'
  have above : ¬ parts (c.sourcePath path) <+: parts (c.sourcePath other) := by
    rw [first.source, second.source, List.prefix_append_right_inj]
    exact fun before => different (sourceNames_leading valid' (into_leading before))
  have higher : ¬ locationOf (c.sourcePath path) <+: locationOf (c.sourcePath other) := by
    rw [first.inside, second.inside, List.prefix_append_right_inj]
    exact fun before => different (sourceNames_leading valid' before)
  have elsewhere : locationOf (c.artifactPath path) ≠ locationOf (c.artifactPath other) := by
    rw [c.artifactPath_location valid, c.artifactPath_location valid']
    exact fun same => different (c.artifactPlace_injective same)
  refine ⟨?_, ?_, above, higher, elsewhere⟩
  · intro same
    exact above (same ▸ List.prefix_rfl)
  · intro same
    exact elsewhere (congrArg locationOf same)

theorem places_separate (c : ProgramCache) (valid : path.isValid = true) :
    c.Placed path ∧ ∀ other : FunctionPath, other.isValid = true → path ≠ other → c.Separate path other :=
  ⟨c.placed valid, fun _ valid' different => c.separate valid valid' different⟩

-- The path `a` after a lookup stored its artifact, beside a path that ends like a file.
theorem places_separate_suffixed :
    let c : ProgramCache := ((sourceOnly "(f)" ⟨5, 0⟩).resolve ⟨"a"⟩).2
    (FunctionPath.mk "a").isValid = true ∧ c.Placed ⟨"a"⟩ ∧ (FunctionPath.mk "a.fn").isValid = true ∧
      c.Separate ⟨"a"⟩ ⟨"a.fn"⟩ ∧ c.Stored ⟨"a"⟩ (.ofTime ⟨5, 0⟩) [.template (.call "f" [])] ∧
      c.clear.2.files.look (c.artifactPath ⟨"a"⟩) = .error .missing := by
  intro c
  have valid : (FunctionPath.mk "a").isValid = true := by cbv
  have valid' : (FunctionPath.mk "a.fn").isValid = true := by cbv
  have compiles : compileText ⟨"a"⟩ "(f)" = .ok [.template (.call "f" [])] := by cbv
  have stored : c.Stored ⟨"a"⟩ (.ofTime ⟨5, 0⟩) [.template (.call "f" [])] := sourceOnly_stored "(f)" ⟨5, 0⟩ _ compiles
  obtain ⟨placed, separate⟩ := c.places_separate valid
  obtain ⟨_, _, _, gone⟩ := placed.cleared _ _ stored (resolve_writable _ _)
  exact ⟨valid, placed, valid', separate ⟨"a.fn"⟩ valid' (by decide), stored, gone⟩

end ProgramCache
end Switchboard
