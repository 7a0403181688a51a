import Switchboard.Proofs.ClearingWord
import Switchboard.Proofs.DistinctPlaces

namespace Switchboard
open Files

theorem Files.dropAll_entries (root : Location) (names : List String) (files : Files) :
    (names.foldl (fun files name => files.drop (root ++ [name])) files).entries =
      files.entries.filter fun entry => entry.1 ∉ names.map (root ++ [·]) := by
  induction names generalizing files with
  | nil => simp
  | cons name names ih =>
    rw [List.foldl_cons, ih, drop, List.filter_filter]
    refine List.filter_congr fun entry _ => ?_
    by_cases here : entry.1 = root ++ [name] <;> simp [here]

namespace Entries

theorem put_isEmpty (name : String) (value : α) (entries : Entries α) : (put name value entries).isEmpty = false := by
  cases entries with
  | nil => rfl
  | cons head rest =>
    unfold put
    split <;> rfl

theorem putAll_isEmpty (pairs : List (String × α)) : ∀ entries : Entries α,
    (putAll entries pairs).isEmpty = (entries.isEmpty && pairs.isEmpty) := by
  induction pairs with
  | nil => simp [putAll]
  | cons pair pairs ih =>
    intro entries
    have step : putAll entries (pair :: pairs) = putAll (put pair.1 pair.2 entries) pairs := rfl
    rw [step, ih, put_isEmpty]
    simp

end Entries

namespace ProgramCache

def IsArtifact (c : ProgramCache) (place : Location) : Prop :=
  ∃ root name content changed, c.files.follow c.cacheRoot = .ok (root, some .folder) ∧ place = root ++ [name] ∧
    isArtifactName name = true ∧ (place, FileEntry.file content changed) ∈ c.files.entries

-- the same cache with all files and folders but the artifacts
structure Cleared (c cleared : ProgramCache) : Prop where
  same : cleared = { c with files := cleared.files }
  order : cleared.files.entries.Sublist c.files.entries
  left : ∀ entry, entry ∈ cleared.files.entries ↔ entry ∈ c.files.entries ∧ ¬ c.IsArtifact entry.1

variable {c cleared : ProgramCache} {removed : Nat}

theorem mem_artifactsIn {files : Files} {root : Location} {name : String} :
    name ∈ artifactsIn files root ↔ isArtifactName name = true ∧
      ∃ content changed, (root ++ [name], FileEntry.file content changed) ∈ files.entries := by
  unfold artifactsIn children
  simp only [List.mem_filterMap]
  constructor
  · rintro ⟨⟨key, entry⟩, ⟨⟨place, entry'⟩, present, child⟩, named⟩
    cases last : place.getLast? with
    | none => simp [last] at child
    | some key' =>
      simp only [last, Option.ite_none_right_eq_some, Option.some.injEq, Prod.mk.injEq] at child
      obtain ⟨folder, rfl, rfl⟩ := child
      have whole : place = root ++ [key'] := by
        rw [← folder]
        exact (List.dropLast_append_getLast? key' last).symm
      cases entry' with
      | folder => cases named
      | file content changed =>
        simp only [Option.ite_none_right_eq_some, Option.some.injEq] at named
        obtain ⟨artifact, rfl⟩ := named
        exact ⟨artifact, content, changed, whole ▸ present⟩
  · rintro ⟨artifact, content, changed, present⟩
    refine ⟨(name, .file content changed), ⟨_, present, by simp⟩, by simp [artifact]⟩

theorem cleared_nowhere (nowhere : ∀ root, c.files.follow c.cacheRoot ≠ .ok (root, some .folder)) : c.Cleared c := by
  refine ⟨rfl, .refl _, fun entry => ⟨fun present => ⟨present, ?_⟩, And.left⟩⟩
  rintro ⟨root, _, _, _, follows, _⟩
  exact nowhere root follows

theorem clear_cleared (clears : c.clear = (.ok removed, cleared)) : c.Cleared cleared := by
  unfold clear at clears
  split at clears
  · next follows =>
    cases clears
    exact cleared_nowhere fun root folder => by cases follows.symm.trans folder
  · next follows =>
    cases clears
    exact cleared_nowhere fun root folder => by cases follows.symm.trans folder
  · cases clears
  · cases clears
  · next root follows =>
    dsimp only at clears
    split at clears
    · cases clears
    cases clears
    refine ⟨rfl, ?_, fun entry => ?_⟩
    · rw [dropAll_entries]
      exact List.filter_sublist
    · rw [dropAll_entries, List.mem_filter, decide_eq_true_iff]
      refine and_congr_right fun _ => not_congr ?_
      change entry.1 ∈ (artifactsIn c.files root).map (root ++ [·]) ↔ _
      simp only [List.mem_map, mem_artifactsIn]
      constructor
      · rintro ⟨name, ⟨artifact, content, changed, present⟩, same⟩
        exact ⟨root, name, content, changed, follows, same.symm, artifact, same ▸ present⟩
      · rintro ⟨root', name, content, changed, follows', same, artifact, present⟩
        cases follows.symm.trans follows'
        exact ⟨name, ⟨artifact, content, changed, same ▸ present⟩, same.symm⟩

end ProgramCache

namespace CommandLine.Arguments

variable {a : Arguments} {files : Files} {cleared : ProgramCache} {removed : Nat}

theorem asksNothing_iff : a.asksNothing = true ↔ a.function = none ∧ a.params = [] ∧ a.batch = none := by
  simp [asksNothing, and_assoc]

-- The two judgements differ in the route only.
theorem request_empty (a : Arguments) : a.request.values.isEmpty = a.asksNothing := by
  have given : (Params.ofPairs a.params).values.isEmpty = a.params.isEmpty := by
    unfold Params.ofPairs Params.extend
    rw [Entries.putAll_isEmpty]
    rfl
  unfold request asksNothing Params.withRoute Params.withAccept Params.insert
  cases a.function <;> cases a.batch <;> simp [Entries.put_isEmpty, given]

theorem dispatch_named (named : a.asksNothing = false ∨ a.route.isSome = true) (cache : ProgramCache) :
    (a.dispatch cache).1 ≠ .error .noFunction := by
  have asked : (a.request.values.isEmpty && a.request.route.isNone) = false := by
    rw [request_empty]
    rcases named with asks | routed
    · simp [asks]
    · simp [show a.request.route = a.route from rfl, Option.isNone_eq_false_iff.mpr routed]
  unfold dispatch
  dsimp only
  rw [asked]
  simp only [Bool.false_eq_true, if_false]
  split <;> simp

theorem dispatch_nameless (asks : a.asksNothing = true) (bare : a.route = none) (cache : ProgramCache) :
    a.dispatch cache = (.error .noFunction, cache) := by
  have nothing : (a.request.values.isEmpty && a.request.route.isNone) = true := by
    rw [request_empty, asks, show a.request.route = a.route from rfl, bare]
    rfl
  unfold dispatch
  dsimp only
  rw [nothing]
  rfl

structure ClearsFirst (words : List String) (a : Arguments) (files : Files) (cleared : ProgramCache) : Prop where
  alike : ∃ before after, words = before ++ clearWord :: after ∧
    Arguments.parse (before ++ after) = .ok { a with clearCache := false }
  artifacts : (a.cache files).Cleared cleared
  asked : a.function.isSome = true ∨ a.params ≠ [] ∨ a.batch.isSome = true →
    a.run files = { a with clearCache := false }.run cleared.files
  silent : a.function = none → a.params = [] → a.batch = none → a.run files = (.ok "", cleared)
  routed : a.route.isSome = true → ({ a with clearCache := false }.run cleared.files).1 ≠ .error .noFunction
  bare : a.function = none → a.params = [] → a.batch = none → a.route = none →
    { a with clearCache := false }.run cleared.files = (.error .noFunction, cleared)

theorem run_keeping (artifacts : (a.cache files).Cleared cleared) :
    { a with clearCache := false }.run cleared.files = a.dispatch cleared := by
  have same : { a with clearCache := false }.cache cleared.files = cleared := artifacts.same.symm
  unfold run
  dsimp only
  rw [same]
  rfl

theorem run_clearing (clears : a.clearCache = true) (possible : (a.cache files).clear = (.ok removed, cleared)) :
    a.run files = if a.asksNothing then (.ok "", cleared) else a.dispatch cleared := by
  unfold run
  dsimp only
  rw [clears, possible]
  rfl

-- For every command line, all files and every cache that can be cleared: a request that is given by name, by
-- parameters or as a batch is answered as without the wish, when the artifacts are gone; any other is let go.
theorem clears_first {words : List String} (parses : Arguments.parse words = .ok a) (clears : a.clearCache = true)
    (possible : (a.cache files).clear = (.ok removed, cleared)) : a.ClearsFirst words files cleared := by
  have artifacts := ProgramCache.clear_cleared possible
  have runs := run_clearing clears possible
  refine ⟨parse_uncleared parses clears, artifacts, ?_, ?_, ?_, ?_⟩
  · intro asks
    have asked : a.asksNothing = false := by
      refine Bool.eq_false_iff.mpr fun nothing => ?_
      obtain ⟨function, params, batch⟩ := asksNothing_iff.mp nothing
      simp [function, params, batch] at asks
    rw [runs, run_keeping artifacts, asked]
    rfl
  · intro function params batch
    rw [runs, asksNothing_iff.mpr ⟨function, params, batch⟩]
    rfl
  · intro routed
    rw [run_keeping artifacts]
    exact dispatch_named (.inr routed) cleared
  · intro function params batch bare
    rw [run_keeping artifacts]
    exact dispatch_nameless (asksNothing_iff.mpr ⟨function, params, batch⟩) bare cleared

def oneArtifact : Files where
  entries := [(["resources"], .folder), (["resources", "windc"], .folder),
    (["resources", "windc", "a.fn"], .file .empty ⟨5, 0⟩)]

theorem oneArtifact_clear : ({ files := oneArtifact } : ProgramCache).clear =
    (.ok 1, { files := ⟨[(["resources"], .folder), (["resources", "windc"], .folder)]⟩ }) := by
  have fine : refusal "resources/windc" = none := by decide
  have names : FilePath.steps "resources/windc" = [.into "resources", .into "windc"] := by cbv
  have short : ¬ maxName < "resources".utf8ByteSize ∧ ¬ maxName < "windc".utf8ByteSize := by decide
  have artifact : ProgramCache.isArtifactName "a.fn" = true := by cbv
  have follows : oneArtifact.follow "resources/windc" = .ok (["resources", "windc"], some .folder) := by
    unfold follow
    rw [fine, names]
    simp [walk, find, oneArtifact, short]
  unfold ProgramCache.clear
  rw [follows]
  simp [children, oneArtifact, artifact, drop]

-- a function that is named, and one that is routed to
theorem clears_first_named :
    let cleared : ProgramCache := { files := ⟨[(["resources"], .folder), (["resources", "windc"], .folder)]⟩ }
    let named : Arguments := { function := some "a", clearCache := true }
    let routed : Arguments := { route := some "/a", clearCache := true }
    (named.ClearsFirst ["--clear-cache", "a"] oneArtifact cleared ∧
      named.run oneArtifact = { function := some "a" : Arguments }.run cleared.files) ∧
      routed.ClearsFirst ["--route", "/a", "--clear-cache"] oneArtifact cleared ∧
        routed.run oneArtifact = (.ok "", cleared) := by
  intro cleared named routed
  have first : named.ClearsFirst ["--clear-cache", "a"] oneArtifact cleared :=
    clears_first (by cbv) rfl oneArtifact_clear
  have second : routed.ClearsFirst ["--route", "/a", "--clear-cache"] oneArtifact cleared :=
    clears_first (by cbv) rfl oneArtifact_clear
  exact ⟨⟨first, first.asked (.inl rfl)⟩, second, second.silent rfl rfl rfl⟩

end CommandLine.Arguments
end Switchboard
