import Switchboard.Decimal.Numeral
import Switchboard.Text.Split

namespace Switchboard.CommandLine

inductive UsageError where
  | displayHelp
  | displayVersion
  | unknownArgument
  | valueValidation
  | invalidValue
  | argumentConflict
  | tooManyValues
deriving DecidableEq, Repr

def UsageError.name : UsageError → String
  | .displayHelp => "DisplayHelp"
  | .displayVersion => "DisplayVersion"
  | .unknownArgument => "UnknownArgument"
  | .valueValidation => "ValueValidation"
  | .invalidValue => "InvalidValue"
  | .argumentConflict => "ArgumentConflict"
  | .tooManyValues => "TooManyValues"

-- Asking for help is no mistake.
def UsageError.exitCode : UsageError → Nat
  | .displayHelp | .displayVersion => 0
  | _ => 2

structure Arguments where
  function : Option String := none
  sourceRoot : Option String := none
  cacheRoot : Option String := none
  params : List (String × String) := []
  batch : Option String := none
  route : Option String := none
  accept : Option String := none
  includeHeaders : Bool := false
  maxDepth : Option Nat := none
  clearCache : Bool := false
  verbosity : Nat := 0
deriving DecidableEq, Repr

inductive Switch where
  | sourceRoot | cacheRoot | param | batch | route | accept | maxDepth
  | includeHeaders | clearCache | verbose | help | version
deriving DecidableEq, Repr

namespace Switch

def ofLong? (name : String) : Option Switch :=
  match name with
  | "source-root" => some .sourceRoot
  | "cache-root" => some .cacheRoot
  | "param" => some .param
  | "batch" => some .batch
  | "route" => some .route
  | "accept" => some .accept
  | "max-depth" => some .maxDepth
  | "include-headers" => some .includeHeaders
  | "clear-cache" => some .clearCache
  | "verbose" => some .verbose
  | "help" => some .help
  | "version" => some .version
  | _ => none

def ofShort? (c : Char) : Option Switch :=
  match c with
  | 'p' => some .param
  | 'i' => some .includeHeaders
  | 'v' => some .verbose
  | 'h' => some .help
  | 'V' => some .version
  | _ => none

def takesValue : Switch → Bool
  | .sourceRoot | .cacheRoot | .param | .batch | .route | .accept | .maxDepth => true
  | .includeHeaders | .clearCache | .verbose | .help | .version => false

end Switch

def readFolder (s : String) : Except UsageError String :=
  if s = "" then .error .invalidValue else .ok s

def readDepth (s : String) : Except UsageError Nat :=
  match Decimal.readInt s.toList with
  | some n => if 0 ≤ n ∧ n < twoTo 32 then .ok n.toNat else .error .valueValidation
  | none => .error .valueValidation

-- a name that is not empty, and the value behind the first equals sign
def readParam (s : String) : Except UsageError (String × String) :=
  match Text.cutString '=' s with
  | some (name, value) => if name = "" then .error .valueValidation else .ok (name, value)
  | none => .error .valueValidation

def once (old : Option α) (value : Except UsageError α) : Except UsageError (Option α) :=
  if old.isSome then .error .argumentConflict else value.map some

namespace Arguments

def setFlag (old : Bool) : Except UsageError Bool :=
  if old then .error .argumentConflict else .ok true

def applyFlag (a : Arguments) : Switch → Except UsageError Arguments
  | .includeHeaders => do return { a with includeHeaders := ← setFlag a.includeHeaders }
  | .clearCache => do return { a with clearCache := ← setFlag a.clearCache }
  | .verbose => .ok { a with verbosity := min (a.verbosity + 1) 255 }
  | .help => .error .displayHelp
  | .version => .error .displayVersion
  | _ => .error .invalidValue

def applyValue (a : Arguments) (value : String) : Switch → Except UsageError Arguments
  | .sourceRoot => do return { a with sourceRoot := ← once a.sourceRoot (readFolder value) }
  | .cacheRoot => do return { a with cacheRoot := ← once a.cacheRoot (readFolder value) }
  | .param => do return { a with params := a.params ++ [← readParam value] }
  | .batch => do return { a with batch := ← once a.batch (.ok value) }
  | .route => do return { a with route := ← once a.route (.ok value) }
  | .accept => do return { a with accept := ← once a.accept (.ok value) }
  | .maxDepth => do return { a with maxDepth := ← once a.maxDepth (readDepth value) }
  | _ => .error .tooManyValues

end Arguments

-- an option that waits for its value, or for the value to be looked at
structure Waiting where
  switch : Switch
  value : Option String

structure Reading where
  arguments : Arguments := {}
  waiting : Option Waiting := none
  operandsOnly : Bool := false

namespace Reading

def settle (r : Reading) : Except UsageError Reading :=
  match r.waiting with
  | none => .ok r
  | some ⟨_, none⟩ => .error .invalidValue
  | some ⟨switch, some value⟩ => do
    return { r with arguments := ← r.arguments.applyValue value switch, waiting := none }

def flag (r : Reading) (switch : Switch) : Except UsageError Reading := do
  let r ← r.settle
  return { r with arguments := ← r.arguments.applyFlag switch }

def attached (r : Reading) (switch : Switch) (value : String) : Except UsageError Reading := do
  let r ← r.settle
  return { r with arguments := ← r.arguments.applyValue value switch }

def await (r : Reading) (switch : Switch) : Except UsageError Reading := do
  let r ← r.settle
  return { r with waiting := some ⟨switch, none⟩ }

def long (r : Reading) (name : String) (value : Option String) : Except UsageError Reading :=
  match Switch.ofLong? name, value with
  | none, _ => .error .unknownArgument
  | some switch, none => if switch.takesValue then r.await switch else r.flag switch
  | some switch, some value =>
    if switch.takesValue then r.attached switch value else .error .tooManyValues

-- letters behind one dash; the first that takes a value takes the rest
def cluster (r : Reading) : List Char → Except UsageError Reading
  | [] => .ok r
  | c :: rest =>
    match Switch.ofShort? c with
    | none => .error .unknownArgument
    | some switch =>
      if switch.takesValue then
        match rest with
        | [] => r.await switch
        | '=' :: value => r.attached switch (String.ofList value)
        | value => r.attached switch (String.ofList value)
      else
        match r.flag switch with
        | .error e => .error e
        | .ok r => r.cluster rest

def operand (r : Reading) (value : String) : Except UsageError Reading :=
  if r.arguments.function.isSome then .error .unknownArgument
  else do
    let r ← r.settle
    return { r with arguments := { r.arguments with function := some value } }

-- what is no option: the value that is waited for, or an operand
def word (r : Reading) (value : String) : Except UsageError Reading :=
  match r.waiting with
  | some ⟨switch, none⟩ => .ok { r with waiting := some ⟨switch, some value⟩ }
  | _ => r.operand value

def splitLong (body : List Char) : String × Option String :=
  match Text.cut '=' body with
  | some (name, value) => (String.ofList name, some (String.ofList value))
  | none => (String.ofList body, none)

-- Two dashes alone end the options.
def step (r : Reading) (argument : String) : Except UsageError Reading :=
  if r.operandsOnly then r.operand argument
  else match argument.toList with
    | ['-', '-'] => .ok { r with operandsOnly := true }
    | '-' :: '-' :: body => let (name, value) := splitLong body; r.long name value
    | '-' :: c :: letters => r.cluster (c :: letters)
    | _ => r.word argument

end Reading

def Arguments.parse (arguments : List String) : Except UsageError Arguments := do
  let r ← arguments.foldlM Reading.step {}
  let r ← r.settle
  return r.arguments

end Switchboard.CommandLine
