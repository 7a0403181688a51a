import Switchboard.CallStack
import Switchboard.Proofs.CachePlaces
import Switchboard.Request.Params

namespace Switchboard

theorem Text.fields_append (sep : Char) {s : String} {front back : List Char}
    (whole : s.toList = front ++ sep :: back) :
    Text.fields sep s = Text.fields sep (String.ofList front) ++ Text.fields sep (String.ofList back) := by
  unfold Text.fields
  rw [whole, Text.split_append, List.map_append, String.toList_ofList, String.toList_ofList]

namespace FunctionPath

section
variable {path : FunctionPath}

theorem extract_absolute {raw : String} (found : extract raw = some path) : path.isRelative = false := by
  unfold extract at found
  split at found
  · cases found
  · next cs taken =>
    cases found
    unfold isRelative
    rw [String.toList_ofList]
    cases first : ((raw.toList.dropWhile fun c => !isPathChar c).takeWhile isPathChar).head? with
    | none => rfl
    | some c =>
      have inside := List.all_eq_true.mp List.all_takeWhile c (List.mem_of_mem_head? first)
      have other : isPathChar marker = false := by decide
      rw [beq_eq_false_iff_ne]
      intro same
      cases same
      rw [other] at inside
      cases inside

theorem ofRoute_absolute {route : String} (found : ofRoute route = some path) : path.isRelative = false := by
  unfold ofRoute at found
  exact extract_absolute (Option.eq_some_of_filter_eq_some found)

theorem valid_absolute (valid : path.isValid = true) : path.isRelative = false := by
  unfold isRelative
  cases first : path.text.toList.head? with
  | none => rfl
  | some c =>
    rw [beq_eq_false_iff_ne]
    intro same
    cases same
    rcases valid_char valid (List.mem_of_mem_head? first) with dot | inside
    · exact absurd dot (by decide)
    · exact absurd inside (by decide)

theorem scope_parts (path : FunctionPath) : ∃ last : List Char, '.' ∉ last ∧
    path.text.toList = path.scope.toList ++ last ∧
      (path.scope.toList = [] ∨ ∃ front, path.scope.toList = front ++ ['.']) := by
  let back := path.text.toList.reverse
  have scope : path.scope.toList = (back.dropWhile (· ≠ '.')).reverse := String.toList_ofList
  refine ⟨(back.takeWhile (· ≠ '.')).reverse, ?_, ?_, ?_⟩
  · intro dot
    have other := List.all_eq_true.mp List.all_takeWhile '.' (List.mem_reverse.mp dot)
    simp at other
  · rw [scope, ← List.reverse_append, List.takeWhile_append_dropWhile, List.reverse_reverse]
  · rw [scope]
    cases rest : back.dropWhile (· ≠ '.') with
    | nil => exact .inl rfl
    | cons c rest' =>
      have dot : c = '.' := by
        have stops := List.head?_dropWhile_not (fun c => decide (c ≠ '.')) back
        rw [rest] at stops
        simpa using stops
      exact .inr ⟨rest'.reverse, by rw [dot, List.reverse_cons]⟩

theorem inScope_marked (name scope : String) :
    (⟨"@" ++ name⟩ : FunctionPath).inScope scope = ⟨scope ++ name⟩ := by
  have marked : ("@" ++ name).toList = marker :: name.toList := by simp [marker]
  unfold inScope
  rw [marked]
  simp

-- A name in the scope of a path takes the place of its last segment.
theorem scope_segments (path : FunctionPath) (name : String) :
    (⟨path.scope ++ name⟩ : FunctionPath).segments = path.segments.dropLast ++ (⟨name⟩ : FunctionPath).segments := by
  obtain ⟨last, dotless, whole, empty | ⟨front, scope⟩⟩ := path.scope_parts
  · have alone : path.segments = [path.text] := by
      rw [empty, List.nil_append] at whole
      exact Text.fields_none (whole ▸ dotless)
    have nothing : path.scope = "" := String.toList_inj.mp empty
    rw [alone, nothing, String.empty_append]
    rfl
  · have named : (path.scope ++ name).toList = front ++ '.' :: name.toList := by
      rw [String.toList_append, scope, List.append_assoc, List.singleton_append]
    have itself : path.text.toList = front ++ '.' :: last := by
      rw [whole, scope, List.append_assoc, List.singleton_append]
    have ending : Text.fields '.' (String.ofList last) = [String.ofList last] :=
      Text.fields_none (by rwa [String.toList_ofList])
    unfold segments
    rw [Text.fields_append '.' named, Text.fields_append '.' itself, ending, List.dropLast_concat,
      String.ofList_toList]

example : (⟨(⟨"lib.text.a"⟩ : FunctionPath).scope ++ "b.c"⟩ : FunctionPath).segments = ["lib", "text", "b", "c"] := by
  decide

end

end FunctionPath

theorem Params.functionPath_absolute {params : Params} {path : FunctionPath}
    (named : params.functionPath = some path) : path.isRelative = false := by
  unfold Params.functionPath at named
  split at named
  · exact FunctionPath.extract_absolute named
  · obtain ⟨route, _, found⟩ := Option.bind_eq_some_iff.mp named
    exact FunctionPath.ofRoute_absolute found

namespace CallStack

theorem resolve_absolute {path : FunctionPath} (absolute : path.isRelative = false) (stack : CallStack) :
    resolve stack path = .ok path := by
  unfold resolve
  rw [absolute, if_neg Bool.false_ne_true]

theorem resolve_marked (running : FunctionPath) (outer : CallStack) (name : String) :
    resolve (CallFrame.of running :: outer) ⟨"@" ++ name⟩ = .ok ⟨running.scope ++ name⟩ := by
  have marked : (⟨"@" ++ name⟩ : FunctionPath).isRelative = true := by
    simp [FunctionPath.isRelative, FunctionPath.marker]
  unfold resolve
  rw [if_pos marked]
  dsimp only
  rw [FunctionPath.inScope_marked]
  rfl

theorem resolve_running (frame : CallFrame) (outer : CallStack) (path : FunctionPath) :
    ∃ target, resolve (frame :: outer) path = .ok target := by
  unfold resolve
  split <;> exact ⟨_, rfl⟩

end CallStack
end Switchboard
