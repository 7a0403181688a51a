namespace Switchboard

inductive Status where
  | ok | functionNotFound | databaseError | forbidden | privilegeRequired | notFound
  | validationError | notAuthenticated | customError | invalidData
deriving DecidableEq, Repr

namespace Status

def code : Status → Nat
  | .ok => 200
  | .functionNotFound => 400
  | .databaseError => 401
  | .forbidden => 402
  | .privilegeRequired => 403
  | .notFound => 404
  | .validationError => 407
  | .notAuthenticated => 408
  | .customError => 409
  | .invalidData => 410

def ofCode? (n : Nat) : Option Status :=
  [ok, functionNotFound, databaseError, forbidden, privilegeRequired, notFound, validationError,
    notAuthenticated, customError, invalidData].find? fun s => s.code == n

def name : Status → String
  | .ok => "OK"
  | .functionNotFound => "FUNCTION_NOT_FOUND"
  | .databaseError => "DATABASE_ERROR"
  | .forbidden => "FORBIDDEN"
  | .privilegeRequired => "PRIVILEGE_REQUIRED"
  | .notFound => "NOT_FOUND"
  | .validationError => "VALIDATION_ERROR"
  | .notAuthenticated => "NOT_AUTHENTICATED"
  | .customError => "CUSTOM_ERROR"
  | .invalidData => "INVALID_DATA"

def render (s : Status) : String :=
  s.name ++ " (" ++ toString s.code ++ ")"

theorem ofCode?_code (s : Status) : ofCode? s.code = some s := by
  cases s <;> rfl

theorem code_of_ofCode? {n : Nat} {s : Status} (h : ofCode? n = some s) : s.code = n := by
  have := List.find?_some h
  exact eq_of_beq this

end Status
end Switchboard
