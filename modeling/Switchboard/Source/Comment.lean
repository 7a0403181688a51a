namespace Switchboard.Source

-- what follows the first closing mark
def afterClosing : List Char → Option (List Char)
  | [] => none
  | '*' :: '/' :: rest => some rest
  | _ :: rest => afterClosing rest

theorem afterClosing_shorter {s rest : List Char} (h : afterClosing s = some rest) :
    rest.length < s.length := by
  fun_induction afterClosing s with
  | case1 => cases h
  | case2 =>
    cases h
    simp only [List.length_cons]
    omega
  | case3 _ _ _ ih =>
    have := ih h
    simp only [List.length_cons]
    omega

def stripComments : List Char → List Char
  | [] => []
  | '/' :: '*' :: rest =>
    match _found : afterClosing rest with
    | some after => stripComments after
    | none => '/' :: '*' :: rest
  | c :: rest => c :: stripComments rest
termination_by s => s.length
decreasing_by
  · have := afterClosing_shorter _found
    simp only [List.length_cons]
    omega
  · simp

end Switchboard.Source
