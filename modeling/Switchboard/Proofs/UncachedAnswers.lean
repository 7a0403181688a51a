import Switchboard.Dispatch.Request
import Switchboard.Proofs.BatchIsolation
import Switchboard.Proofs.CacheExchange
import Switchboard.Proofs.CacheRuns

namespace Switchboard
open FilePath

namespace ProgramCache
open Files FunctionPath

-- a cache root that cannot be made, or in which no artifact can be put
def Barred (c : ProgramCache) : Prop :=
  (c.files.makeFolder c.cacheRoot).2 = none → ∀ path, path.isValid = true → ∀ content changed,
    ∃ obstacle, (c.files.makeFolder c.cacheRoot).1.write (c.artifactPath path) content changed = .error obstacle

section
variable {c : ProgramCache} {path : FunctionPath}

-- Where an artifact is found, one could be written.
theorem look_unbarred (valid : path.isValid = true) {content : ByteArray} {changed : Time}
    (looks : c.files.look (c.artifactPath path) = .ok (.file content changed)) : ¬ c.Barred := by
  intro barred
  unfold Files.look at looks
  split at looks
  · next place entry follows =>
    cases looks
    unfold Barred at barred
    rw [follow_root valid follows] at barred
    obtain ⟨obstacle, refused⟩ := barred rfl path valid content changed
    unfold write at refused
    rw [follows] at refused
    cases refused
  · cases looks
  · cases looks

theorem Barred.load (barred : c.Barred) (valid : path.isValid = true) (f : Fingerprint) :
    c.load path f = none := by
  unfold ProgramCache.load
  split
  · next content changed looks => exact absurd barred (look_unbarred valid looks)
  · rfl

theorem Barred.store (barred : c.Barred) (valid : path.isValid = true) (f : Fingerprint)
    (program : Source.Program) : (c.store path f program).files = c.files ∨
      (c.store path f program).files = (c.files.makeFolder c.cacheRoot).1 := by
  unfold Barred at barred
  have stores := c.store_storing path f program
  generalize c.store path f program = after at stores ⊢
  cases stores with
  | unwritable => exact .inl rfl
  | blocked made =>
    rw [made]
    exact .inr rfl
  | refused made =>
    rw [made]
    exact .inr rfl
  | written made written =>
    rw [made] at barred
    obtain ⟨obstacle, refused⟩ := barred rfl path valid _ _
    cases refused.symm.trans written

theorem fetch_unloaded (unloaded : ∀ f, c.load path f = none) : (c.fetch path).1 = c.fresh path := by
  have fetches := c.fetch_fetching path
  generalize c.fetch path = fetched at fetches ⊢
  cases fetches with
  | lost failed => exact (fingerprint_error failed).symm
  | loaded _ loads => cases (unloaded _).symm.trans loads
  | refused sourced _ compiles => exact ((fresh_sourced sourced).trans compiles).symm
  | compiled sourced _ compiles => exact ((fresh_sourced sourced).trans compiles).symm

theorem Barred.fetch (barred : c.Barred) (valid : path.isValid = true) :
    (c.fetch path).1 = c.fresh path ∧ ((c.fetch path).2.files = c.files ∨
      (c.fetch path).2.files = (c.files.makeFolder c.cacheRoot).1) := by
  refine ⟨fetch_unloaded (barred.load valid), ?_⟩
  rcases fetch_files c path with same | ⟨_, _, _, _, _, same⟩
  · exact .inl same
  · rw [same]
    exact barred.store valid _ _

-- A lookup compiles the source, and leaves at most folders behind, after which as little can be written as before.
theorem Barred.resolved (barred : c.Barred) (valid : path.isValid = true) :
    (c.resolve path).1 = c.fresh path ∧ (c.resolve path).2.Barred ∧
      ((c.resolve path).2.files = c.files ∨ (c.resolve path).2.files = (c.files.makeFolder c.cacheRoot).1) := by
  have asked : ({ c with asked := path :: c.asked } : ProgramCache).Barred := barred
  obtain ⟨answer, left⟩ := asked.fetch valid
  have files : (c.resolve path).2.files = c.files ∨
      (c.resolve path).2.files = (c.files.makeFolder c.cacheRoot).1 := by
    unfold resolve
    exact left
  have compiled : (c.resolve path).1 = c.fresh path := by
    have same : ({ c with asked := path :: c.asked } : ProgramCache).fresh path = c.fresh path := by
      unfold fresh ProgramCache.sourcePath
      dsimp only
    rw [resolve, answer, same]
  refine ⟨compiled, ?_, files⟩
  have root := (resolve_roots c path).2
  have place (other : FunctionPath) : (c.resolve path).2.artifactPath other = c.artifactPath other := by
    rw [artifactPath, root]
    rfl
  have again : (c.resolve path).2.files.makeFolder c.cacheRoot = c.files.makeFolder c.cacheRoot := by
    rcases files with same | same
    · rw [same]
    · rw [same]
      exact makeFolder_again c.files c.cacheRoot
  unfold Barred
  rw [root, again]
  intro made other valid' content changed
  rw [place]
  exact barred made other valid' content changed

theorem Barred.looked (barred : c.Barred) {paths : List FunctionPath}
    (before : ∀ path ∈ paths, path.isValid = true) : (c.looked paths).Barred := by
  induction paths using List.reverseRecOn with
  | nil => exact barred
  | append_singleton paths last ih =>
    rw [looked_snoc]
    exact ((ih fun path inside => before path (by simp [inside])).resolved (before last (by simp))).2.1

theorem Barred.answers (barred : c.Barred) (unchanging : c.Unchanging) : Answers c.fresh c := by
  intro paths before path valid
  rw [((barred.looked before).resolved valid).1]
  unfold fresh
  rw [unchanging paths before path valid, looked_sourcePath]

theorem unchanging_files (same : ∀ paths, (∀ path ∈ paths, path.isValid = true) → (c.looked paths).files = c.files) :
    c.Unchanging := by
  intro paths before path valid
  rw [same paths before, looked_sourcePath]

theorem Barred.unchanging (barred : c.Barred) (nothing : (c.files.makeFolder c.cacheRoot).1 = c.files) :
    c.Unchanging := by
  refine unchanging_files fun paths before => ?_
  induction paths using List.reverseRecOn with
  | nil => rfl
  | append_singleton paths last ih =>
    have earlier : ∀ path ∈ paths, path.isValid = true := fun path inside => before path (by simp [inside])
    obtain ⟨_, _, left⟩ := (barred.looked earlier).resolved (before last (by simp))
    rw [ih earlier, (looked_roots c paths).2, nothing, or_self] at left
    rw [looked_snoc, left]

theorem readOnly_unchanging (readOnly : c.writable = false) : c.Unchanging := by
  have still (paths : List FunctionPath) : (c.looked paths).writable = false ∧ (c.looked paths).files = c.files := by
    induction paths using List.reverseRecOn with
    | nil => exact ⟨readOnly, rfl⟩
    | append_singleton paths last ih =>
      rw [looked_snoc, resolve_writable, resolve_unwritable ih.1]
      exact ih
  exact unchanging_files fun paths _ => (still paths).2

-- No artifact is ever stored: there is no place for one, or the cache root can only be read, where the artifacts
-- that are trusted are right.
def Unwritable (c : ProgramCache) : Prop := c.Barred ∨ (c.writable = false ∧ Coherent c.Right c)

theorem Empty.steady {other : ProgramCache} (empty : other.Empty) (unchanging : other.Unchanging)
    (same : SameSources c other) (steady : c.Steady) : other.Steady :=
  ⟨unchanging, empty.coherent _, same.legible steady⟩

end

end ProgramCache

namespace Dispatcher
open ProgramCache

-- A request is answered as it would be without any artifact, and as it would be if none could be written.
theorem respond_uncached (d : Dispatcher) (params : Params) (emptied blocked : ProgramCache)
    (steady : d.cache.Steady) (same : SameSources d.cache emptied) (same' : SameSources d.cache blocked)
    (still : emptied.Unchanging) (still' : blocked.Unchanging) (empty : emptied.Empty)
    (unwritable : blocked.Unwritable) :
    ({ d with cache := emptied }.respond params).1 = (d.respond params).1 ∧
      ({ d with cache := blocked }.respond params).1 = (d.respond params).1 := by
  have known : Answers d.cache.fresh d.cache := steady.answered ⟨rfl, fun _ _ => rfl⟩
  have known' : Answers d.cache.fresh emptied := (empty.steady still same steady).answered same
  have known'' : Answers d.cache.fresh blocked := by
    rcases unwritable with barred | ⟨_, right⟩
    · intro paths before path valid
      rw [barred.answers still' paths before path valid, same'.fresh valid]
    · have steady' : blocked.Steady := ⟨still', right, same'.legible steady⟩
      exact steady'.answered same'
  exact ⟨respond_exchanged ⟨emptied, known.interchangeable known', rfl⟩ params,
    respond_exchanged ⟨blocked, known.interchangeable known'', rfl⟩ params⟩

theorem stocked_empty : stocked.Empty := by
  have root : Files.locationOf "cache" = ["cache"] := by cbv
  intro l below other
  change Files.locationOf "cache" <+: l at below
  change l ≠ Files.locationOf "cache" at other
  rw [root] at below other
  have first : ["src"] ≠ l := by
    rintro rfl
    exact absurd below (by decide)
  have second : ["src", "m.fn"] ≠ l := by
    rintro rfl
    exact absurd below (by decide)
  simp [stocked, Files.find, first, second, Ne.symm other]

-- the cache root is a file
def obstructed : ProgramCache := { stocked with files := stocked.files.put ["cache"] (.file ⟨#[]⟩ ⟨0, 0⟩) }

theorem obstructed_made : obstructed.files.makeFolder obstructed.cacheRoot = (obstructed.files, some .notFolder) := by
  have steps : FilePath.steps "cache" = [.into "cache"] := by cbv
  have fine : Files.refusal "cache" = none := by decide
  have file : obstructed.files.find ["cache"] = some (.file ⟨#[]⟩ ⟨0, 0⟩) := by
    rw [obstructed, Files.find_put, if_pos rfl]
  have short : ¬ Files.maxName < "cache".utf8ByteSize := by decide
  show Files.makeFolder obstructed.files "cache" = _
  unfold Files.makeFolder
  rw [fine, steps]
  dsimp only
  rw [Files.makeFolders, if_neg short, List.nil_append, file]

theorem obstructed_barred : obstructed.Barred := by
  unfold Barred
  rw [obstructed_made]
  intro made
  cases made

-- One source four times: with its artifact, with none, where there can be none, and with an artifact that can only
-- be read.
theorem respond_uncached_stored :
    let stored := (stocked.resolve ⟨"m"⟩).2
    let locked : ProgramCache := { stored with writable := false }
    let d : Dispatcher := { cache := stored }
    let params : Params := { values := [("f", "m")] }
    stored.Steady ∧ SameSources stored stocked ∧ SameSources stored obstructed ∧ SameSources stored locked ∧
      stocked.Unchanging ∧ obstructed.Unchanging ∧ locked.Unchanging ∧ stocked.Empty ∧ obstructed.Unwritable ∧
      locked.Unwritable ∧ ({ d with cache := stocked }.respond params).1 = (d.respond params).1 ∧
      ({ d with cache := obstructed }.respond params).1 = (d.respond params).1 ∧
      ({ d with cache := locked }.respond params).1 = (d.respond params).1 := by
  intro stored locked d params
  have valid : (FunctionPath.mk "m").isValid = true := by cbv
  have source : Files.locationOf "src" = ["src"] := by cbv
  have root : obstructed.files.IsFolder "src" := by
    refine Files.isFolder_name (by decide) (by decide) (by cbv) ?_
    rw [obstructed, Files.find_put, if_neg (by decide)]
    simp [stocked, Files.find]
  have outside : ¬ Files.locationOf "src" <+: ["cache"] := by
    rw [source]
    decide
  have beside : SameSources stocked obstructed := sameSources_put stocked_standing.source root outside
  have later : SameSources stored stocked := (stocked_steady.unchanging.sameSources valid).symm
  have still : obstructed.Unchanging := obstructed_barred.unchanging (by rw [obstructed_made])
  have still' : locked.Unchanging := readOnly_unchanging rfl
  have steady : stored.Steady := stocked_steady.later valid
  have same : SameSources stored locked := ⟨rfl, fun _ _ => rfl⟩
  have unwritable : locked.Unwritable := .inr ⟨rfl, steady.coherent⟩
  obtain ⟨uncached, unstored⟩ := respond_uncached d params stocked obstructed steady later (later.trans beside)
    stocked_steady.unchanging still stocked_empty (.inl obstructed_barred)
  obtain ⟨_, unreplaced⟩ := respond_uncached d params stocked locked steady later same stocked_steady.unchanging still'
    stocked_empty unwritable
  exact ⟨steady, later, later.trans beside, same, stocked_steady.unchanging, still, still', stocked_empty,
    .inl obstructed_barred, unwritable, uncached, unstored, unreplaced⟩

end Dispatcher
end Switchboard
