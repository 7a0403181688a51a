import Switchboard.Cache.Programs
import Switchboard.Proofs.Locations

namespace Switchboard
open FilePath Files

namespace Text

theorem mem_join {c sep : α} (pieces : List (List α)) (present : c ∈ join sep pieces) :
    c = sep ∨ ∃ piece ∈ pieces, c ∈ piece := by
  induction pieces with
  | nil => cases present
  | cons piece more ih =>
    cases more with
    | nil => exact .inr ⟨piece, by simp, present⟩
    | cons next more =>
      rw [join] at present
      rcases List.mem_append.mp present with inside | behind
      · exact .inr ⟨piece, by simp, inside⟩
      · rcases List.mem_cons.mp behind with same | rest
        · exact .inl same
        · rcases ih rest with same | ⟨other, member, inside⟩
          · exact .inl same
          · exact .inr ⟨other, by simp [member], inside⟩
      · simp

end Text

namespace FunctionPath

theorem segment_char {c : Char} (inside : isSegmentChar c = true) : c ≠ '/' ∧ c ≠ '.' ∧ c ≠ '@' := by
  refine ⟨?_, ?_, ?_⟩ <;> (rintro rfl; exact absurd inside (by decide))

theorem segment_name {s : String} (segment : isSegment s = true) : IsName s := by
  simp only [isSegment, Bool.and_eq_true, bne_iff_ne, ne_eq, List.all_eq_true] at segment
  obtain ⟨nonempty, inside⟩ := segment
  have dotless : '.' ∉ s.toList := fun dot => (segment_char (inside '.' dot)).2.1 rfl
  refine ⟨fun slash => (segment_char (inside '/' slash)).1 rfl, ?_⟩
  unfold Step.ofPart
  rw [if_neg, if_neg]
  · intro same
    subst same
    exact dotless (by decide)
  · rintro (rfl | rfl)
    · exact nonempty rfl
    · exact dotless (by decide)

-- What has the suffix is neither of the two names that do not lead into a folder.
theorem suffixed_name {s : String} (whole : '/' ∉ s.toList) : IsName (s ++ ProgramCache.suffix) := by
  have text : (s ++ ProgramCache.suffix).toList = s.toList ++ ['.', 'f', 'n'] := by
    simp [ProgramCache.suffix]
  refine ⟨by simp [text, whole], ?_⟩
  have other (t : String) (short : t.toList.length < 3) : s ++ ProgramCache.suffix ≠ t := by
    intro same
    subst same
    rw [text, List.length_append] at short
    have three : ['.', 'f', 'n'].length = 3 := rfl
    omega
  unfold Step.ofPart
  rw [if_neg (by simp [other "" (by decide), other "." (by decide)]), if_neg (other ".." (by decide))]

theorem valid_segment {path : FunctionPath} (valid : path.isValid = true) {s : String}
    (present : s ∈ path.segments) : isSegment s = true :=
  List.all_eq_true.mp valid s present

theorem valid_char {path : FunctionPath} (valid : path.isValid = true) {c : Char} (inside : c ∈ path.text.toList) :
    c = '.' ∨ isSegmentChar c = true := by
  rw [← Text.join_split '.' path.text.toList] at inside
  rcases Text.mem_join _ inside with same | ⟨piece, member, inside⟩
  · exact .inl same
  · have segment := valid_segment valid (s := String.ofList piece) (List.mem_map.mpr ⟨piece, member, rfl⟩)
    simp only [isSegment, Bool.and_eq_true, List.all_eq_true, String.toList_ofList] at segment
    exact .inr (segment.2 c inside)

theorem valid_text {path : FunctionPath} (valid : path.isValid = true) : '/' ∉ path.text.toList := by
  intro slash
  rcases valid_char valid slash with dot | inside
  · exact absurd dot (by decide)
  · exact (segment_char inside).1 rfl

theorem segments_nonempty (path : FunctionPath) : path.segments ≠ [] := by
  simp [segments, Text.fields, Text.split_nonempty]

def sourceNames (path : FunctionPath) : List String :=
  path.segments.dropLast ++ [path.segments.getLastD "" ++ ProgramCache.suffix]

end FunctionPath

namespace ProgramCache
open FunctionPath

theorem sourcePath_steps (c : ProgramCache) {path : FunctionPath} (valid : path.isValid = true) :
    ∃ front, steps (c.sourcePath path) = front ++ path.sourceNames.map .into ∧
      (steps c.sourceRoot = front ∨ steps c.sourceRoot = front ++ [.stay]) := by
  have last : path.segments.getLastD "" ∈ path.segments := by
    rw [List.getLastD_eq_getLast?, List.getLast?_eq_some_getLast path.segments_nonempty]
    exact List.getLast_mem _
  refine steps_pushAll c.sourceRoot path.segments.dropLast _ ?_ ?_
  · intro piece present
    exact segment_name (valid_segment valid (List.dropLast_subset _ present))
  · exact suffixed_name (segment_name (valid_segment valid last)).whole

theorem landing_idle {front : List Step} {all : List Step} (idle : all = front ∨ all = front ++ [.stay])
    (above : Location) : landing above front = landing above all := by
  rcases idle with rfl | rfl
  · rfl
  · simp [landing_append, landing]

def sourcePlace (c : ProgramCache) (path : FunctionPath) : Location :=
  locationOf c.sourceRoot ++ path.sourceNames

def artifactPlace (c : ProgramCache) (path : FunctionPath) : Location :=
  locationOf c.cacheRoot ++ [path.text ++ suffix]

theorem sourcePath_location (c : ProgramCache) {path : FunctionPath} (valid : path.isValid = true) :
    locationOf (c.sourcePath path) = c.sourcePlace path := by
  obtain ⟨front, whole, idle⟩ := c.sourcePath_steps valid
  rw [locationOf, whole, landing_append, landing_names, landing_idle idle]
  rfl

theorem artifactPath_steps (c : ProgramCache) {path : FunctionPath} (valid : path.isValid = true) :
    ∃ front, steps (c.artifactPath path) = front ++ [.into (path.text ++ suffix)] ∧
      (steps c.cacheRoot = front ∨ steps c.cacheRoot = front ++ [.stay]) :=
  steps_push c.cacheRoot (suffixed_name (valid_text valid))

theorem artifactPath_location (c : ProgramCache) {path : FunctionPath} (valid : path.isValid = true) :
    locationOf (c.artifactPath path) = c.artifactPlace path := by
  obtain ⟨front, whole, idle⟩ := c.artifactPath_steps valid
  rw [locationOf, whole, landing_append, landing_idle idle]
  rfl

theorem artifactPlace_injective (c : ProgramCache) {path other : FunctionPath}
    (same : c.artifactPlace path = c.artifactPlace other) : path = other := by
  have names := List.append_cancel_left same
  have texts : path.text ++ suffix = other.text ++ suffix := by simpa using names
  obtain ⟨text⟩ := path
  obtain ⟨text'⟩ := other
  rw [String.append_left_inj] at texts
  exact congrArg FunctionPath.mk texts

-- Neither root lies in the other, nor are they one.
structure Apart (c : ProgramCache) : Prop where
  source : ¬ locationOf c.sourceRoot <+: locationOf c.cacheRoot
  cache : ¬ locationOf c.cacheRoot <+: locationOf c.sourceRoot

theorem Apart.moved {c d : ProgramCache} (apart : c.Apart)
    (roots : d.sourceRoot = c.sourceRoot ∧ d.cacheRoot = c.cacheRoot) : d.Apart :=
  ⟨by rw [roots.1, roots.2]; exact apart.source, by rw [roots.1, roots.2]; exact apart.cache⟩

theorem Apart.outside {c : ProgramCache} (apart : c.Apart) (path : FunctionPath) :
    ¬ locationOf c.sourceRoot <+: c.artifactPlace path := by
  intro below
  have inside : locationOf c.cacheRoot <+: c.artifactPlace path := ⟨_, rfl⟩
  rcases List.prefix_or_prefix_of_prefix below inside with first | second
  · exact apart.source first
  · exact apart.cache second

theorem Apart.places {c : ProgramCache} (apart : c.Apart) (path other : FunctionPath) :
    c.sourcePlace path ≠ c.artifactPlace other :=
  fun same => apart.outside other ⟨_, same⟩

theorem look_find {files : Files} {path name : String} {front : List Step}
    (leads : steps path = front ++ [.into name]) {entry : FileEntry}
    (looks : files.look path = .ok entry) : files.find (locationOf path) = some entry := by
  unfold look at looks
  split at looks
  · next place found follows =>
    cases looks
    have place_eq := follow_location follows
    unfold follow at follows
    split at follows
    · cases follows
    · rw [leads] at follows
      rw [← place_eq]
      exact (walk_into follows).symm
  · cases looks
  · cases looks

theorem look_source {c : ProgramCache} {path : FunctionPath} (valid : path.isValid = true)
    {entry : FileEntry} (looks : c.files.look (c.sourcePath path) = .ok entry) :
    c.files.find (c.sourcePlace path) = some entry := by
  obtain ⟨front, whole, _⟩ := c.sourcePath_steps valid
  rw [sourceNames, List.map_append, ← List.append_assoc] at whole
  rw [← c.sourcePath_location valid]
  exact look_find whole looks

theorem look_artifact {c : ProgramCache} {path : FunctionPath} (valid : path.isValid = true)
    {entry : FileEntry} (looks : c.files.look (c.artifactPath path) = .ok entry) :
    c.files.find (c.artifactPlace path) = some entry := by
  obtain ⟨front, whole, _⟩ := c.artifactPath_steps valid
  rw [← c.artifactPath_location valid]
  exact look_find whole looks

end ProgramCache
end Switchboard
