import Switchboard.Proofs.CacheRuns
import Switchboard.Proofs.StoredArtifacts

namespace Switchboard

-- no later than the beginning of 1970
def Time.Early (t : Time) : Prop := t.secs < 0 ∨ t = ⟨0, 0⟩

namespace Fingerprint

theorem ofTime_early {t : Time} (early : t.Early) : ofTime t = ⟨0, 0⟩ := by
  rcases early with before | start
  · exact if_pos before
  · rw [start]
    rfl

theorem early_ofTime {t : Time} (zero : ofTime t = ⟨0, 0⟩) : t.Early := by
  by_cases before : t.secs < 0
  · exact .inl before
  · have same := toTime_ofTime (Int.not_lt.mp before)
    rw [zero] at same
    exact .inr same.symm

theorem ofTime_eq_iff {t u : Time} : ofTime t = ofTime u ↔ t = u ∨ (t.Early ∧ u.Early) := by
  constructor
  · intro same
    by_cases before : t.secs < 0
    · have zero : ofTime t = ⟨0, 0⟩ := if_pos before
      exact .inr ⟨.inl before, early_ofTime (same.symm.trans zero)⟩
    · by_cases before' : u.secs < 0
      · have zero : ofTime u = ⟨0, 0⟩ := if_pos before'
        exact .inr ⟨early_ofTime (same.trans zero), .inl before'⟩
      · left
        rw [← toTime_ofTime (Int.not_lt.mp before), same, toTime_ofTime (Int.not_lt.mp before')]
  · rintro (rfl | ⟨early, early'⟩)
    · rfl
    · rw [ofTime_early early, ofTime_early early']

end Fingerprint

namespace ProgramCache
open Files FunctionPath Source

-- The source of a path has this text and this time by now. Its artifact is what it was; or the source is
-- kept in its place, and is none itself.
structure Rewritten (before later : ProgramCache) (path : FunctionPath) (code : String) (changed : Time) :
    Prop where
  source : later.Sourced path code.toUTF8 changed
  artifact : later.files.look (later.artifactPath path) = before.files.look (before.artifactPath path) ∨
    later.files.look (later.artifactPath path) = .ok (.file code.toUTF8 changed) ∧ Useless code.toUTF8

section
variable {c before later : ProgramCache} {path : FunctionPath} {f : Fingerprint} {program : Program}
  {content : ByteArray} {changed : Time}

theorem useless_load (looks : c.files.look (c.artifactPath path) = .ok (.file content changed))
    (useless : Useless content) : c.load path f = none := by
  unfold ProgramCache.load
  rw [looks]
  dsimp only
  split
  · split
    · next a decodes => exact if_neg fun trusted => useless a decodes trusted.1
    · rfl
  · rfl

structure Noticed (c : ProgramCache) (path : FunctionPath) (changed : Time) (program : Program) : Prop where
  parsed : ParsedAgain c path (.ofTime changed) program
  since : 0 ≤ changed.secs → (Fingerprint.ofTime changed).toTime = changed
  early : changed.secs < 0 → (Fingerprint.ofTime changed).toTime = ⟨0, 0⟩

-- A change of the time is noticed, unless both times are early. It does not matter how the artifact of the
-- first time came there.
theorem change_noticed {t : Time} {one : Program} (valid : path.isValid = true)
    (stored : before.Stored path (.ofTime t) one) {code : String}
    (rewritten : Rewritten before later path code changed) (compiles : compileText path code = .ok program)
    (other : t ≠ changed) (late : ¬ (t.Early ∧ changed.Early)) : Noticed later path changed program := by
  have differs : Fingerprint.ofTime t ≠ .ofTime changed := by
    rw [ne_eq, Fingerprint.ofTime_eq_iff, not_or]
    exact ⟨other, late⟩
  refine ⟨?_, Fingerprint.toTime_ofTime, fun early => ?_⟩
  · rcases rewritten.artifact with same | ⟨looks, useless⟩
    · have stored' : later.Stored path (.ofTime t) one := same.trans stored
      exact parsed_again valid rewritten.source compiles stored' (stored'.stale differs)
    · exact parsed_again valid rewritten.source compiles looks (useless_load looks useless)
  · rw [Fingerprint.ofTime_early (.inl early)]
    rfl

theorem written_kept {files : Files} {old : ByteArray} {when : Time} {code : String}
    (valid : path.isValid = true) (apart : c.sourcePlace path ≠ c.artifactPlace path)
    (looks : c.files.look (c.artifactPath path) = .ok (.file old when))
    (written : c.files.write (c.sourcePath path) code.toUTF8 changed = .ok files) :
    files.look (c.sourcePath path) = .ok (.file code.toUTF8 changed) ∧
      files.look (c.artifactPath path) = .ok (.file old when) := by
  obtain ⟨front, leads, _⟩ := c.sourcePath_steps valid
  rw [sourceNames, List.map_append, ← List.append_assoc] at leads
  have folders : ∀ l, c.files.find l = some .folder → files.find l = some .folder := by
    rw [write_put written]
    exact fun _ folder => put_folders (write_free leads written) folder
  have present : files.find (locationOf (c.artifactPath path)) = some (.file old when) := by
    rw [write_put written, find_put, c.sourcePath_location valid, c.artifactPath_location valid,
      if_neg (Ne.symm apart)]
    exact look_artifact valid looks
  exact ⟨look_written leads written, look_file_later folders present looks⟩

end

section
variable (code code' : String) (t u : Time)

-- the cache of one source after it was looked up, and after another text was written for it then
def lookedUp : ProgramCache := ((sourceOnly code t).resolve ⟨"a"⟩).2

def writtenOver : ProgramCache :=
  { lookedUp code t with
    files := (lookedUp code t).files.put (locationOf ((lookedUp code t).sourcePath ⟨"a"⟩)) (.file code'.toUTF8 u) }

theorem writtenOver_kept {one : Program} (compiles : compileText ⟨"a"⟩ code = .ok one) :
    (lookedUp code t).Stored ⟨"a"⟩ (.ofTime t) one ∧
      (writtenOver code code' t u).Sourced ⟨"a"⟩ code'.toUTF8 u ∧
      (writtenOver code code' t u).Stored ⟨"a"⟩ (.ofTime t) one := by
  have valid : (FunctionPath.mk "a").isValid = true := by cbv
  have source : locationOf "src" = ["src"] := by cbv
  have cache : locationOf "cache" = ["cache"] := by cbv
  have roots := resolve_roots (sourceOnly code t) ⟨"a"⟩
  have apart : (lookedUp code t).sourcePlace ⟨"a"⟩ ≠ (lookedUp code t).artifactPlace ⟨"a"⟩ := by
    unfold lookedUp
    rw [sourcePlace, artifactPlace, roots.1, roots.2]
    show locationOf "src" ++ _ ≠ locationOf "cache" ++ _
    rw [source, cache]
    exact fun same => absurd (List.cons.inj same).1 (by decide)
  have stored := sourceOnly_stored code t one compiles
  obtain ⟨left, when, sourced, _⟩ := (sourceOnly_sourced code t).resolved valid
  obtain ⟨there, kept⟩ := written_kept valid apart stored (write_over sourced code'.toUTF8 u)
  exact ⟨stored, there, kept⟩

end

theorem change_noticed_once : (FunctionPath.mk "a").isValid = true ∧
    (lookedUp "(f)" ⟨5, 0⟩).Stored ⟨"a"⟩ (.ofTime ⟨5, 0⟩) [.template (.call "f" [])] ∧
    Rewritten (lookedUp "(f)" ⟨5, 0⟩) (writtenOver "(f)" "(g)" ⟨5, 0⟩ ⟨5, 1⟩) ⟨"a"⟩ "(g)" ⟨5, 1⟩ ∧
    compileText ⟨"a"⟩ "(g)" = .ok [.template (.call "g" [])] ∧ (⟨5, 0⟩ : Time) ≠ ⟨5, 1⟩ ∧
    ¬ (Time.Early ⟨5, 0⟩ ∧ Time.Early ⟨5, 1⟩) ∧
    Noticed (writtenOver "(f)" "(g)" ⟨5, 0⟩ ⟨5, 1⟩) ⟨"a"⟩ ⟨5, 1⟩ [.template (.call "g" [])] := by
  have valid : (FunctionPath.mk "a").isValid = true := by cbv
  have one : compileText ⟨"a"⟩ "(f)" = .ok [.template (.call "f" [])] := by cbv
  have two : compileText ⟨"a"⟩ "(g)" = .ok [.template (.call "g" [])] := by cbv
  obtain ⟨stored, sourced, kept⟩ := writtenOver_kept "(f)" "(g)" ⟨5, 0⟩ ⟨5, 1⟩ one
  have rewritten : Rewritten (lookedUp "(f)" ⟨5, 0⟩) (writtenOver "(f)" "(g)" ⟨5, 0⟩ ⟨5, 1⟩) ⟨"a"⟩ "(g)" ⟨5, 1⟩ :=
    ⟨sourced, .inl (kept.trans stored.symm)⟩
  have other : (⟨5, 0⟩ : Time) ≠ ⟨5, 1⟩ := by decide
  have late : ¬ (Time.Early ⟨5, 0⟩ ∧ Time.Early ⟨5, 1⟩) := by
    simp [Time.Early]
  exact ⟨valid, stored, rewritten, two, other, late, change_noticed valid stored rewritten two other late⟩

-- Two times before 1970 are taken for one, so that the old program is given for the new text; and an artifact
-- cannot have such a time.
theorem early_change_unnoticed :
    let old := lookedUp "(f)" ⟨-5, 0⟩
    let new := writtenOver "(f)" "(g)" ⟨-5, 0⟩ ⟨-3, 0⟩
    (old.Stored ⟨"a"⟩ (.ofTime ⟨-5, 0⟩) [.template (.call "f" [])] ∧ Rewritten old new ⟨"a"⟩ "(g)" ⟨-3, 0⟩ ∧
      compileText ⟨"a"⟩ "(g)" = .ok [.template (.call "g" [])] ∧
      (new.resolve ⟨"a"⟩).1 = .ok [.template (.call "f" [])] ∧
      (new.resolve ⟨"a"⟩).2.parseCount = new.parseCount) ∧
    let old := lookedUp "(f)" ⟨5, 0⟩
    let new := writtenOver "(f)" "(g)" ⟨5, 0⟩ ⟨-3, 0⟩
    old.Stored ⟨"a"⟩ (.ofTime ⟨5, 0⟩) [.template (.call "f" [])] ∧ Rewritten old new ⟨"a"⟩ "(g)" ⟨-3, 0⟩ ∧
      ∃ bytes, (new.resolve ⟨"a"⟩).2.files.look ((new.resolve ⟨"a"⟩).2.artifactPath ⟨"a"⟩) =
        .ok (.file bytes ⟨0, 0⟩) := by
  have valid : (FunctionPath.mk "a").isValid = true := by cbv
  have one : compileText ⟨"a"⟩ "(f)" = .ok [.template (.call "f" [])] := by cbv
  have two : compileText ⟨"a"⟩ "(g)" = .ok [.template (.call "g" [])] := by cbv
  constructor
  · obtain ⟨stored, sourced, kept⟩ := writtenOver_kept "(f)" "(g)" ⟨-5, 0⟩ ⟨-3, 0⟩ one
    have settled : Settled _ ⟨"a"⟩ ⟨0, 0⟩ [.template (.call "f" [])] := ⟨sourced.fingerprint, kept⟩
    have servable : Servable ⟨0, 0⟩ [.template (.call "f" [])] := by
      refine ⟨by decide, by decide, ?_⟩
      simp [literals, Node.literals, Expr.literals, Expr.listLiterals]
    exact ⟨stored, ⟨sourced, .inl (kept.trans stored.symm)⟩, two, settled.reread servable (by decide) 0⟩
  · obtain ⟨stored, sourced, kept⟩ := writtenOver_kept "(f)" "(g)" ⟨5, 0⟩ ⟨-3, 0⟩ one
    have differs : Fingerprint.ofTime ⟨5, 0⟩ ≠ .ofTime ⟨-3, 0⟩ := by decide
    have again := parsed_again valid sourced two kept (kept.stale differs)
    have writable : (writtenOver "(f)" "(g)" ⟨5, 0⟩ ⟨-3, 0⟩).writable = true :=
      resolve_writable (sourceOnly "(f)" ⟨5, 0⟩) ⟨"a"⟩
    exact ⟨stored, ⟨sourced, .inl (kept.trans stored.symm)⟩, _, again.stored writable⟩

end ProgramCache
end Switchboard
