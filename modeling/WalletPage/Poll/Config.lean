import WalletPage.Problem
import WalletPage.Log.Level

/-! The settings of a page, read from a JSON object whose fields are all optional. -/

namespace WalletPage

open Document

/-- A length of time in milliseconds. -/
abbrev Millis := Nat

/-- A length of time as it is shown: whole milliseconds below a second, and
seconds with as many decimals as needed from there on. -/
def Millis.text (ms : Millis) : String :=
  if ms = 0 then "0ns"
  else if ms < 1000 then String.ofList (Decimal.natDigits ms) ++ "ms"
  else
    let decimals := ((Decimal.padded 3 (ms % 1000)).reverse.dropWhile (· = '0')).reverse
    String.ofList (Decimal.natDigits (ms / 1000) ++
      (if decimals.isEmpty then [] else '.' :: decimals) ++ ['s'])

/-- The settings of a page. -/
structure Config where
  baseUrl : String := ""
  mountRetry : Millis := 50
  successInterval : Millis := 60000
  failureRetry : Millis := 1000
  progressInterval : Millis := 1000
  heartbeatEnabled : Bool := false
  heartbeatInterval : Millis := 2000
  stopWhenAnchorRemoved : Bool := true
  logLevel : LogLevel := .info
deriving DecidableEq, Repr

namespace Config

/-- The longest delay that a timer keeps. -/
def longestInterval : Millis := 2147483647

/-- A field that holds a length of time. -/
def intervalField (name : String) (set : Millis → Config → Config) : RecordField Config where
  name := name
  required := false
  read d config := d.natural.map (set · config)

/-- A field that is on or off. -/
def switchField (name : String) (set : Bool → Config → Config) : RecordField Config where
  name := name
  required := false
  read d config := d.boolean.map (set · config)

/-- How the settings are read. -/
def shape : Shape Config where
  name := "PollConfig"
  blank := {}
  fields :=
    [{ name := "baseUrl", required := false
       read := fun d c => d.string.map fun x => { c with baseUrl := x } },
      intervalField "mountRetryMs" fun x c => { c with mountRetry := x },
      intervalField "successIntervalMs" fun x c => { c with successInterval := x },
      intervalField "failureRetryMs" fun x c => { c with failureRetry := x },
      intervalField "progressIntervalMs" fun x c => { c with progressInterval := x },
      switchField "heartbeatEnabled" fun x c => { c with heartbeatEnabled := x },
      intervalField "heartbeatIntervalMs" fun x c => { c with heartbeatInterval := x },
      switchField "stopWhenAnchorRemoved" fun x c => { c with stopWhenAnchorRemoved := x },
      { name := "logLevel", required := false
        read := fun d c => (LogLevel.ofDocument d).map fun x => { c with logLevel := x } }]

/-- The intervals with their names, in the order in which they are checked. -/
def intervals (c : Config) : List (String × Millis) :=
  [("mountRetryMs", c.mountRetry), ("successIntervalMs", c.successInterval),
    ("failureRetryMs", c.failureRetry), ("progressIntervalMs", c.progressInterval),
    ("heartbeatIntervalMs", c.heartbeatInterval)]

/-- An interval must be positive and within what a timer keeps. -/
def checkInterval (name : String) (ms : Millis) : Except ConfigurationProblem Unit :=
  if ms = 0 then .error (.invalidParameter (name ++ " must be positive"))
  else if longestInterval < ms then
    .error (.invalidParameter (name ++ " must not exceed " ++
      String.ofList (Decimal.natDigits longestInterval) ++ " ms"))
  else .ok ()

/-- Checks the intervals in order. -/
def checkIntervals : List (String × Millis) → Except ConfigurationProblem Unit
  | [] => .ok ()
  | (name, ms) :: rest => do
    checkInterval name ms
    checkIntervals rest

/-- The settings, if they can be used. -/
def check (c : Config) : Except ConfigurationProblem Config := do
  checkIntervals c.intervals
  if c.baseUrl.toList.getLast? = some '/' then
    throw (.invalidParameter "baseUrl must not end with '/'")
  return c

/-- Decoded settings, checked. -/
def ofDecoded : Decoded Config → Except ConfigurationProblem Config
  | .ok c => c.check
  | .error e => .error (.unreadable e.message)

/-- The settings in a value; `null` stands for the defaults. -/
def ofJson : Json → Except ConfigurationProblem Config
  | .null => .ok {}
  | json => ofDecoded (record shape (.value json))

/-- The settings in a text. -/
def ofText (text : String) : Except ConfigurationProblem Config :=
  ofDecoded (decodeText (record shape) text)

end Config

end WalletPage
