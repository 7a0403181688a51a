import Switchboard.Files

namespace Switchboard

namespace Text

theorem split_append [DecidableEq α] (sep : α) (front back : List α) :
    split sep (front ++ sep :: back) = split sep front ++ split sep back := by
  induction front with
  | nil => simp [split]
  | cons c front ih =>
    rw [List.cons_append, split, split]
    by_cases same : c = sep
    · rw [if_pos same, if_pos same, ih, List.cons_append]
    · rw [if_neg same, if_neg same, ih]
      cases pieces : split sep front with
      | nil => exact absurd pieces (split_nonempty sep front)
      | cons piece more => rfl

theorem split_none [DecidableEq α] {sep : α} {s : List α} (absent : sep ∉ s) : split sep s = [s] := by
  induction s with
  | nil => rfl
  | cons c s ih =>
    simp only [List.mem_cons, not_or] at absent
    rw [split, if_neg (Ne.symm absent.1), ih absent.2]

theorem fields_none {sep : Char} {s : String} (absent : sep ∉ s.toList) : fields sep s = [s] := by
  simp [fields, split_none absent]

end Text

namespace FilePath

theorem endsWith_iff {s pat : String} : s.endsWith pat = true ↔ pat.toList <:+ s.toList := by
  show s.toSlice.endsWith pat = true ↔ _
  rw [String.Slice.endsWith_string_iff, String.copy_toSlice]

-- a name that is one part of a path and leads into the folder it stands in
structure IsName (piece : String) : Prop where
  whole : '/' ∉ piece.toList
  leads : Step.ofPart piece = .into piece

theorem push_name {base piece : String} (name : IsName piece) :
    push base piece = if base = "" ∨ base.endsWith "/" then base ++ piece else base ++ "/" ++ piece := by
  unfold push
  rw [if_neg]
  intro rooted
  rw [String.startsWith_string_iff] at rooted
  exact name.whole (rooted.subset (by simp))

-- A name that is pushed comes last. A base that is empty or ends with a slash has an idle step there.
theorem steps_push (base : String) {piece : String} (name : IsName piece) :
    ∃ front, steps (push base piece) = front ++ [.into piece] ∧
      (steps base = front ∨ steps base = front ++ [.stay]) := by
  have last : steps piece = [.into piece] := by simp [steps, Text.fields_none name.whole, name.leads]
  rw [push_name name]
  by_cases empty : base = ""
  · subst empty
    rw [if_pos (.inl rfl), String.empty_append]
    exact ⟨[], last, .inr rfl⟩
  · by_cases slash : base.endsWith "/" = true
    · rw [if_pos (.inr slash)]
      obtain ⟨front, ends⟩ := endsWith_iff.mp slash
      have whole : base.toList = front ++ '/' :: [] := by simpa using ends.symm
      refine ⟨(Text.split '/' front).map fun s => .ofPart (String.ofList s), ?_, .inr ?_⟩
      · have cut : (base ++ piece).toList = front ++ '/' :: piece.toList := by simp [whole]
        simp [steps, Text.fields, cut, Text.split_append, Text.split_none name.whole, name.leads]
      · simp [steps, Text.fields, whole, Text.split_append, Text.split, Step.ofPart]
    · rw [if_neg (by simp [empty, slash])]
      refine ⟨steps base, ?_, .inl rfl⟩
      have cut : (base ++ "/" ++ piece).toList = base.toList ++ '/' :: piece.toList := by simp
      simp [steps, Text.fields, cut, Text.split_append, Text.split_none name.whole, name.leads]

theorem steps_pushAll (base : String) (pieces : List String) (last : String)
    (names : ∀ piece ∈ pieces, IsName piece) (name : IsName last) :
    ∃ front, steps (push (pieces.foldl push base) last) = front ++ (pieces ++ [last]).map .into ∧
      (steps base = front ∨ steps base = front ++ [.stay]) := by
  induction pieces generalizing base with
  | nil => simpa using steps_push base name
  | cons piece pieces ih =>
    obtain ⟨inner, all, pushed⟩ := ih (push base piece) fun p present => names p (by simp [present])
    obtain ⟨front, first, idle⟩ := steps_push base (names piece (by simp))
    have same : inner = front ++ [.into piece] := by
      rcases pushed with pushed | pushed
      · exact pushed.symm.trans first
      · have ends := congrArg List.getLast? (pushed.symm.trans first)
        simp at ends
    refine ⟨front, ?_, idle⟩
    rw [List.foldl_cons, all, same]
    simp

end FilePath

namespace Files

-- the place that the steps spell out from a folder
def landing (above : Location) : List Step → Location
  | [] => above
  | .stay :: rest => landing above rest
  | .up :: rest => landing above.dropLast rest
  | .into name :: rest => landing (above ++ [name]) rest

def locationOf (path : String) : Location := landing [] (FilePath.steps path)

theorem landing_append (above : Location) (first second : List Step) :
    landing above (first ++ second) = landing (landing above first) second := by
  fun_induction landing above first <;> simp_all [landing]

theorem landing_names (above : Location) (names : List String) :
    landing above (names.map .into) = above ++ names := by
  induction names generalizing above with
  | nil => simp [landing]
  | cons name names ih => simp [landing, ih]

theorem walk_landing {files : Files} {above : Location} {steps : List Step} {place : Location}
    {found : Option FileEntry} (walks : files.walk above steps = .ok (place, found)) :
    place = landing above steps := by
  fun_induction walk files above steps <;> simp_all [landing]

theorem follow_location {files : Files} {path : String} {place : Location} {found : Option FileEntry}
    (follows : files.follow path = .ok (place, found)) : place = locationOf path := by
  unfold follow at follows
  split at follows
  · cases follows
  · exact walk_landing follows

-- A file at the end of a walk is kept there; a folder may be the one that the walk began in.
theorem walk_file {files : Files} {above place : Location} {steps : List Step} {content : ByteArray}
    {changed : Time} (walks : files.walk above steps = .ok (place, some (.file content changed))) :
    files.find place = some (.file content changed) := by
  fun_induction walk files above steps <;> simp_all

theorem follow_file {files : Files} {path : String} {place : Location} {content : ByteArray}
    {changed : Time} (follows : files.follow path = .ok (place, some (.file content changed))) :
    files.find place = some (.file content changed) := by
  unfold follow at follows
  split at follows
  · cases follows
  · exact walk_file follows

theorem walk_into {files : Files} {above : Location} {front : List Step} {name : String}
    {place : Location} {found : Option FileEntry}
    (walks : files.walk above (front ++ [.into name]) = .ok (place, found)) :
    found = files.find place := by
  generalize same : front ++ [.into name] = steps at walks
  fun_induction walk files above steps generalizing front with
  | case1 => simp at same
  | case2 above rest ih =>
    cases front with
    | nil => simp at same
    | cons step front => exact ih (List.cons.inj same).2 walks
  | case3 above rest ih =>
    cases front with
    | nil => simp at same
    | cons step front => exact ih (List.cons.inj same).2 walks
  | case4 => cases walks
  | case5 above name' _ missing =>
    cases walks
    exact missing.symm
  | case6 => cases walks
  | case7 above name' _ entry present =>
    cases walks
    exact present.symm
  | case8 => cases walks
  | case9 above name' rest _ more present ih =>
    cases front with
    | nil =>
      cases same
      exact absurd rfl more
    | cons step front => exact ih (List.cons.inj same).2 walks

-- What may be the name of something in a folder may be the name of the folder.
theorem refusal_push {base piece : String} (name : FilePath.IsName piece)
    (fine : refusal (FilePath.push base piece) = none) : refusal base = none := by
  have whole : ∃ rest, FilePath.push base piece = base ++ rest := by
    rw [FilePath.push_name name]
    split
    · exact ⟨piece, rfl⟩
    · exact ⟨"/" ++ piece, by rw [String.append_assoc]⟩
  obtain ⟨rest, same⟩ := whole
  rw [same] at fine
  unfold refusal at fine ⊢
  simp only [String.toList_append, List.contains_iff_mem, List.mem_append, String.utf8ByteSize_append] at fine ⊢
  split at fine
  · cases fine
  · next clean =>
    split at fine
    · cases fine
    · next short =>
      rw [if_neg fun nul => clean (.inl nul), if_neg (by omega)]

theorem find_mem {files : Files} {l : Location} {entry : FileEntry} (found : files.find l = some entry) :
    (l, entry) ∈ files.entries := by
  unfold find at found
  obtain ⟨old, present, rfl⟩ := Option.map_eq_some_iff.mp found
  have here : old.1 = l := by simpa using List.find?_some present
  exact here ▸ List.mem_of_find?_eq_some present

theorem find_put (files : Files) (place : Location) (entry : FileEntry) (l : Location) :
    (files.put place entry).find l = if l = place then some entry else files.find l := by
  unfold put find
  by_cases same : l = place
  · simp [same]
  · have other : (place == l) = false := by simpa using Ne.symm same
    rw [List.find?_cons_of_neg (by simpa using other), List.find?_filter, if_neg same]
    congr 2
    funext old
    by_cases here : old.1 = l <;> simp [here, same]

theorem find_drop (files : Files) (place l : Location) :
    (files.drop place).find l = if l = place then none else files.find l := by
  unfold drop find
  rw [List.find?_filter]
  by_cases same : l = place
  · rw [if_pos same, Option.map_eq_none_iff, List.find?_eq_none]
    intro old _
    by_cases here : old.1 = l <;> simp [here, same]
  · rw [if_neg same]
    congr 2
    funext old
    by_cases here : old.1 = l <;> simp [here, same]

-- No operation but a put makes a file. Folders come only where nothing was, along the way.
theorem find_makeFolders (files : Files) (above : Location) (steps : List Step) (l : Location) :
    (files.makeFolders above steps).1.find l = files.find l ∨
      (files.find l = none ∧ (files.makeFolders above steps).1.find l = some .folder ∧
        ∃ front back, steps = front ++ back ∧ l = landing above front) := by
  fun_induction makeFolders files above steps with
  | case1 => exact .inl rfl
  | case2 files above rest ih =>
    rcases ih with same | ⟨free, made, front, back, whole, there⟩
    · exact .inl same
    · exact .inr ⟨free, made, .stay :: front, back, by rw [whole]; rfl, there⟩
  | case3 files above rest ih =>
    rcases ih with same | ⟨free, made, front, back, whole, there⟩
    · exact .inl same
    · exact .inr ⟨free, made, .up :: front, back, by rw [whole]; rfl, there⟩
  | case4 => exact .inl rfl
  | case5 => exact .inl rfl
  | case6 files above name rest _ present ih =>
    rcases ih with same | ⟨free, made, front, back, whole, there⟩
    · exact .inl same
    · exact .inr ⟨free, made, .into name :: front, back, by rw [whole]; rfl, there⟩
  | case7 files above name rest _ missing ih =>
    rw [find_put] at ih
    by_cases here : l = above ++ [name]
    · rw [if_pos here] at ih
      -- making the rest leaves the folder that was just made
      have made : ((files.put (above ++ [name]) .folder).makeFolders (above ++ [name]) rest).1.find l =
          some .folder := by
        rcases ih with same | ⟨free, _⟩
        · exact same
        · cases free
      exact .inr ⟨here ▸ missing, made, [.into name], rest, rfl, here⟩
    · rw [if_neg here] at ih
      rcases ih with same | ⟨free, made, front, back, whole, there⟩
      · exact .inl same
      · exact .inr ⟨free, made, .into name :: front, back, by rw [whole]; rfl, there⟩

theorem find_makeFolder (files : Files) (path : String) (l : Location) :
    (files.makeFolder path).1.find l = files.find l ∨
      (files.find l = none ∧ (files.makeFolder path).1.find l = some .folder ∧
        ∃ front back, FilePath.steps path = front ++ back ∧ l = landing [] front) := by
  unfold makeFolder
  split
  · exact .inl rfl
  · exact find_makeFolders files [] _ l

theorem makeFolders_again (files : Files) (above : Location) (steps : List Step) :
    (files.makeFolders above steps).1.makeFolders above steps = files.makeFolders above steps := by
  fun_induction makeFolders files above steps with
  | case1 => rfl
  | case2 files above rest ih => exact ih
  | case3 files above rest ih => exact ih
  | case4 files above name rest long => simp [makeFolders, long]
  | case5 files above name rest short content changed present => simp [makeFolders, short, present]
  | case6 files above name rest short present ih =>
    have kept : (files.makeFolders (above ++ [name]) rest).1.find (above ++ [name]) = some .folder := by
      rcases find_makeFolders files (above ++ [name]) rest (above ++ [name]) with same | ⟨free, _⟩
      · rw [same, present]
      · rw [present] at free
        cases free
    rw [makeFolders, if_neg short, kept]
    exact ih
  | case7 files above name rest short missing ih =>
    have put : (files.put (above ++ [name]) .folder).find (above ++ [name]) = some .folder := by
      rw [find_put, if_pos rfl]
    have kept : ((files.put (above ++ [name]) .folder).makeFolders (above ++ [name]) rest).1.find
        (above ++ [name]) = some .folder := by
      rcases find_makeFolders (files.put (above ++ [name]) .folder) (above ++ [name]) rest (above ++ [name])
        with same | ⟨free, _⟩
      · rw [same, put]
      · rw [put] at free
        cases free
    rw [makeFolders, if_neg short, kept]
    exact ih

theorem makeFolder_again (files : Files) (path : String) :
    (files.makeFolder path).1.makeFolder path = files.makeFolder path := by
  unfold makeFolder
  cases fine : refusal path with
  | some obstacle => rfl
  | none => exact makeFolders_again files [] (FilePath.steps path)

theorem write_put {files files' : Files} {path : String} {content : ByteArray} {changed : Time}
    (written : files.write path content changed = .ok files') :
    files' = files.put (locationOf path) (.file content changed) := by
  unfold write at written
  split at written
  · cases written
  · next place _ _ follows =>
    cases written
    rw [follow_location follows]
  · cases written

theorem write_follows {files files' : Files} {path : String} {content : ByteArray} {changed : Time}
    (written : files.write path content changed = .ok files') :
    ∃ found, files.follow path = .ok (locationOf path, found) ∧ found ≠ some .folder := by
  unfold write at written
  split at written
  · cases written
  · next place found other follows =>
    have here := follow_location follows
    subst here
    exact ⟨found, follows, other⟩
  · cases written

theorem remove_drop {files files' : Files} {path : String} (removed : files.remove path = .ok files') :
    files' = files.drop (locationOf path) := by
  unfold remove at removed
  split at removed
  · next place _ _ follows =>
    cases removed
    rw [follow_location follows]
  all_goals cases removed

theorem touch_put {files files' : Files} {path : String} {changed : Time}
    (touched : files.touch path changed = .ok files') : ∃ content before,
      files.follow path = .ok (locationOf path, some (.file content before)) ∧
        files' = files.put (locationOf path) (.file content changed) := by
  unfold touch at touched
  split at touched
  · next place content before follows =>
    cases touched
    exact ⟨content, before, follow_location follows ▸ follows, by rw [follow_location follows]⟩
  all_goals cases touched

-- what a file at a place is after an operation that may only put something at `place`
def FilesKept (place : Location) (before after : Files) : Prop :=
  ∀ l content changed, l ≠ place → after.find l = some (.file content changed) →
    before.find l = some (.file content changed)

theorem FilesKept.refl (place : Location) (files : Files) : FilesKept place files files :=
  fun _ _ _ _ present => present

theorem FilesKept.trans {place : Location} {a b c : Files} (first : FilesKept place a b)
    (second : FilesKept place b c) : FilesKept place a c :=
  fun l content changed away present => first l content changed away (second l content changed away present)

theorem put_filesKept (files : Files) (place : Location) (entry : FileEntry) :
    FilesKept place files (files.put place entry) := by
  intro l content changed away present
  rwa [find_put, if_neg away] at present

theorem drop_filesKept (files : Files) (dropped place : Location) :
    FilesKept place files (files.drop dropped) := by
  intro l content changed _ present
  rw [find_drop] at present
  split at present
  · cases present
  · exact present

theorem makeFolder_filesKept (files : Files) (path : String) (place : Location) :
    FilesKept place files (files.makeFolder path).1 := by
  intro l content changed _ present
  rcases find_makeFolder files path l with same | ⟨_, made, _⟩
  · exact same ▸ present
  · rw [made] at present
    cases present

theorem place_filesKept (files : Files) (path : String) (content : ByteArray) (changed : Time) :
    FilesKept (locationOf path) files (files.place path content changed).1 := by
  have folders := makeFolder_filesKept files (FilePath.parent path) (locationOf path)
  unfold Files.place
  split
  · next made => rwa [made] at folders
  · next made =>
    rw [made] at folders
    split
    · next written =>
      rw [write_put written]
      exact folders.trans (put_filesKept _ _ _)
    · exact folders

-- What lies where a file is placed is that file, or what was there if it could not be placed.
theorem place_at {files : Files} {path : String} {content bytes : ByteArray} {changed when : Time}
    (present : (files.place path content changed).1.find (locationOf path) = some (.file bytes when)) :
    bytes = content ∨ files.find (locationOf path) = some (.file bytes when) := by
  have folders := find_makeFolder files (FilePath.parent path) (locationOf path)
  have before (same : (files.makeFolder (FilePath.parent path)).1.find (locationOf path) =
      some (.file bytes when)) : files.find (locationOf path) = some (.file bytes when) := by
    rcases folders with kept | ⟨_, made, _⟩
    · exact kept ▸ same
    · rw [made] at same
      cases same
  unfold Files.place at present
  split at present
  · next made =>
    rw [made] at before
    exact .inr (before present)
  · next made =>
    rw [made] at before
    split at present
    · next written =>
      rw [write_put written, find_put, if_pos rfl] at present
      cases present
      exact .inl rfl
    · exact .inr (before present)

end Files
end Switchboard
