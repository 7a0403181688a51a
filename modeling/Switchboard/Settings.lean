import Switchboard.Cache.Programs
import Switchboard.Decimal.Numeral
import Switchboard.Text.Blank
import Switchboard.Text.Split

namespace Switchboard

inductive LogFormat where
  | text
  | json
deriving DecidableEq, Repr

structure Settings where
  host : String := "0.0.0.0"
  portNumber : Nat := 8080
  logLevel : String := "wind_web_api=debug,wind_core=info,tower_http=debug"
  logFormat : LogFormat := .json
  origins : List String := ["*"]
  sourceRoot : String := "resources/wind"
  cacheRoot : String := "resources/windc"
  maxDepth : Nat := 128
deriving DecidableEq, Repr

namespace Settings

-- The names are ASCII, and no other character has one of their letters for its lower case.
def readFormat (s : String) : LogFormat :=
  let word := s.toList.map Char.toLower
  if word = "text".toList ∨ word = "plain".toList then .text else .json

def readPort? (s : String) : Option Nat :=
  (Decimal.readNat s.toList).filter (· < twoTo 16)

def readDepth? (s : String) : Option Nat :=
  (Decimal.readNat s.toList).filter fun n => decide (0 < n) && decide (n < twoTo 32)

def readOrigins (s : String) : List String :=
  ((Text.fields ',' s).map Text.trim).filter (· ≠ "")

def ofEnvironment (lookup : String → Option String) : Settings :=
  let default : Settings := {}
  { host := (lookup "WIND_HOST").getD default.host,
    portNumber := ((lookup "WIND_PORT").bind readPort?).getD default.portNumber,
    logLevel := ((lookup "RUST_LOG").or (lookup "WIND_LOG_LEVEL")).getD default.logLevel,
    logFormat := ((lookup "WIND_LOG_FORMAT").map readFormat).getD default.logFormat,
    origins := ((lookup "WIND_CORS_ORIGINS").map readOrigins).getD default.origins,
    sourceRoot := (lookup "WIND_SOURCE_ROOT").getD default.sourceRoot,
    cacheRoot := (lookup "WIND_CACHE_ROOT").getD default.cacheRoot,
    maxDepth := ((lookup "WIND_MAX_DEPTH").bind readDepth?).getD default.maxDepth }

def bindAddress (s : Settings) : String :=
  s.host ++ ":" ++ toString s.portNumber

-- The well-known numbers are left out.
def serverUrl (s : Settings) : String :=
  if s.portNumber = 80 then "http://" ++ s.host
  else if s.portNumber = 443 then "https://" ++ s.host
  else "http://" ++ s.bindAddress

end Settings
end Switchboard
