import WalletPage.Json.Basic
import WalletPage.Store.Keyed

/-! JSON as it is written. A draft follows a text in its own order: fields may
repeat, and reading may have broken off. What makes a text unreadable stands in
the draft at its place, so that a reader that stops earlier never meets it. Two
flaws only hurt a reader who wants the value and not one who skips it: a number
beyond every floating point number, and half of a surrogate pair. -/

namespace WalletPage

/-- What makes a text unreadable as JSON. -/
inductive Fault where
  | endInList
  | endInObject
  | endInString
  | endInValue
  | expectedColon
  | expectedListCommaOrEnd
  | expectedObjectCommaOrEnd
  | expectedIdent
  | expectedValue
  | invalidEscape
  | invalidNumber
  | numberOutOfRange
  | controlCharacter
  | keyMustBeString
  | loneSurrogate
  | trailingComma
  | trailingCharacters
  | unexpectedEndOfHexEscape
  | recursionLimit
deriving DecidableEq, Repr

/-- The wording of a fault. -/
def Fault.message : Fault → String
  | endInList => "EOF while parsing a list"
  | endInObject => "EOF while parsing an object"
  | endInString => "EOF while parsing a string"
  | endInValue => "EOF while parsing a value"
  | expectedColon => "expected `:`"
  | expectedListCommaOrEnd => "expected `,` or `]`"
  | expectedObjectCommaOrEnd => "expected `,` or `\x7d`"
  | expectedIdent => "expected ident"
  | expectedValue => "expected value"
  | invalidEscape => "invalid escape"
  | invalidNumber => "invalid number"
  | numberOutOfRange => "number out of range"
  | controlCharacter => "control character (\\u0000-\\u001F) found while parsing a string"
  | keyMustBeString => "key must be a string"
  | loneSurrogate => "lone leading surrogate in hex escape"
  | trailingComma => "trailing comma"
  | trailingCharacters => "trailing characters"
  | unexpectedEndOfHexEscape => "unexpected end of hex escape"
  | recursionLimit => "recursion limit exceeded"

/-- A place where a text breaks off. Who wants the value and who skips it may
call the same place by different faults. -/
structure Break where
  reading : Fault
  skipping : Fault
deriving DecidableEq, Repr

/-- A place that both call by the same fault. -/
def Break.same (fault : Fault) : Break :=
  ⟨fault, fault⟩

/-- JSON as far as a text could be read. An array or object that is cut holds
what was read before the break. Where there is nothing more, or a string without
an end, the draft is broken; other characters that make no value are scrap. -/
inductive Draft where
  | null
  | bool (b : Bool)
  | number (n : Except Fault Number)
  | string (s : Except Fault String)
  | array (items : List Draft) (cut : Option Break)
  | object (fields : List (Except Fault String × Draft)) (cut : Option Break)
  | broken (place : Break)
  | scrap (place : Break)

namespace Draft

/-- The place where reading broke off inside the draft. -/
def break? : Draft → Option Break
  | array _ cut => cut
  | object _ cut => cut
  | broken place => some place
  | scrap place => some place
  | _ => none

/-- How deep arrays and objects may lie inside one another. -/
def depthLimit : Nat := 127

/-- Succeeds unless reading broke off. -/
def closed : Option Fault → Except Fault Unit
  | none => .ok ()
  | some fault => .error fault

mutual

/-- The value, with room for that many arrays and objects inside one another. -/
def toJson : Draft → Nat → Except Fault Json
  | null, _ => .ok .null
  | bool b, _ => .ok (.bool b)
  | number n, _ => n.map .number
  | string s, _ => s.map .string
  | array _ _, 0 => .error .recursionLimit
  | array items cut, room + 1 => do
    let values ← itemsToJson items room
    closed (cut.map Break.reading)
    return .array values
  | object _ _, 0 => .error .recursionLimit
  | object fields cut, room + 1 => do
    let values ← fieldsToJson fields room
    closed (cut.map Break.reading)
    return .object (sortKeys values)
  | broken place, _ => .error place.reading
  | scrap place, _ => .error place.reading

/-- The values of the items, in order. -/
def itemsToJson : List Draft → Nat → Except Fault (List Json)
  | [], _ => .ok []
  | item :: rest, room => do
    let value ← toJson item room
    let values ← itemsToJson rest room
    return value :: values

/-- The fields with their values, in order. -/
def fieldsToJson : List (Except Fault String × Draft) → Nat → Except Fault (List (String × Json))
  | [], _ => .ok []
  | (key, field) :: rest, room => do
    let name ← key
    let value ← toJson field room
    let values ← fieldsToJson rest room
    return (name, value) :: values

end

/-- Skips a value: only where reading broke off is there a fault. -/
def skip (draft : Draft) : Except Fault Unit :=
  closed (draft.break?.map Break.skipping)

end Draft

end WalletPage
