import WalletPage.Json.Reader

/-! JSON as decoders meet it. A decoder looks at one level of a document at a
time. The document is a finished value, or a text that is read while it is
decoded, or a part of a text that was read before anyone knew what it was for. -/

namespace WalletPage

/-- What a decoder reads from. A text comes with the room that is left for
arrays and objects inside one another. -/
inductive Document where
  | value (json : Json)
  | text (draft : Draft) (room : Nat)
  | kept (draft : Draft) (room : Nat)

namespace Document

/-- One level of a document. A list that is cut breaks off with a fault, and so
does a field whose name cannot be read. What cannot be read at all is scrap if it
does not even start like a name. -/
inductive Level where
  | null
  | bool (b : Bool)
  | number (n : Number)
  | string (s : String)
  | array (items : List Document) (cut : Option Fault)
  | object (fields : List (Except Fault String × Document)) (cut : Option Fault)
  | broken (fault : Fault)
  | scrap (fault : Fault)

/-- The level at the top of a finished value. -/
def levelOfJson : Json → Level
  | .null => .null
  | .bool b => .bool b
  | .number n => .number n
  | .string s => .string s
  | .array items => .array (items.map .value) none
  | .object fields => .object (fields.map fun (name, field) => (.ok name, .value field)) none

/-- The level at the top of a text whose parts become documents by `part`. -/
def levelOfDraft (part : Draft → Nat → Document) : Draft → Nat → Level
  | .null, _ => .null
  | .bool b, _ => .bool b
  | .number (.ok n), _ => .number n
  | .number (.error fault), _ => .scrap fault
  | .string (.ok s), _ => .string s
  | .string (.error fault), _ => .broken fault
  | .array items cut, room + 1 => .array (items.map (part · room)) (cut.map Break.reading)
  | .object fields cut, room + 1 =>
    .object (fields.map fun (name, field) => (name, part field room)) (cut.map Break.reading)
  | .array _ _, 0 => .scrap .recursionLimit
  | .object _ _, 0 => .broken .recursionLimit
  | .broken place, _ => .broken place.reading
  | .scrap place, _ => .scrap place.reading

/-- The level at the top of a document. -/
def level : Document → Level
  | value json => levelOfJson json
  | text draft room => levelOfDraft text draft room
  | kept draft room => levelOfDraft kept draft room

/-- The whole document as a value. -/
def toJson : Document → Except Fault Json
  | value json => .ok json
  | text draft room => draft.toJson room
  | kept draft room => draft.toJson room

/-- Passes over a document that nobody asks for. -/
def skip : Document → Except Fault Unit
  | value _ => .ok ()
  | text draft _ => draft.skip
  | kept draft _ => draft.skip

/-- Reads a document to its end now, so that it can be decoded later. -/
def keep : Document → Except Fault Document
  | value json => .ok (.value json)
  | text draft room => (draft.toJson room).map fun _ => .kept draft room
  | kept draft room => .ok (.kept draft room)

/-- The document that a text holds, and what is left behind it. -/
def ofText (content : String) : Document × List Char :=
  let (draft, rest) := Draft.read content
  (.text draft Draft.depthLimit, rest)

end Document

end WalletPage
