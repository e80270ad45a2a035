import WalletPage.Browser.Basic

/-! The clock of a browser, and the console that log lines go to. -/

namespace WalletPage.Browser

/-- The time in whole milliseconds. -/
def currentTime (b : Browser) : Nat :=
  b.now.toUInt64.toNat

/-- The time of day of a time, to the millisecond, as exact as a floating point
number can hold the time. -/
def timeOfDay (time : Nat) : String :=
  let ms := time.toFloat.toUInt64.toNat
  String.ofList (Decimal.padded 2 (ms / 3600000 % 24) ++
    ':' :: Decimal.padded 2 (ms / 60000 % 60) ++ ':' :: Decimal.padded 2 (ms / 1000 % 60) ++
    '.' :: Decimal.padded 3 (ms % 1000))

/-- A number of at least eight hexadecimal digits. -/
def eightHexDigits (n : Nat) : List Char :=
  let digits := Nat.toDigits 16 n
  List.replicate (8 - digits.length) '0' ++ digits

/-- A text of the time and of chance, which makes an address new to the browser. -/
def cacheBuster (b : Browser) : String :=
  let noise := (b.random * 4294967295).toUInt32.toNat
  String.ofList (Nat.toDigits 16 b.currentTime ++ eightHexDigits noise)

/-- The method of the console that a level goes to. -/
def consoleMethod : LogLevel → String
  | .trace => "debug"
  | .debug => "debug"
  | .info => "info"
  | .warn => "warn"
  | .error => "error"

/-- Writes a log line of at least a level to the console. -/
def writeConsole (b : Browser) (least : LogLevel) (entry : LogEntry) (time : Nat) : Browser :=
  if entry.level.rank < least.rank then b
  else b.emit (.console (consoleMethod entry.level) (entry.line (countedTime time)))

end WalletPage.Browser
