import WalletPage.Json.DecodeError

/-! Decoding documents. Faults of a text come up in the order of the text, so a
decoder stops at the first thing that it does not want and never looks behind it. -/

namespace WalletPage

/-- The result of decoding. -/
abbrev Decoded (α : Type) := Except DecodeError α

namespace Document

/-- Lets a fault of the text stand as a decoding error. -/
def faulty {α : Type} (result : Except Fault α) : Decoded α :=
  result.mapError .fault

/-- The whole document, whatever it is. -/
def anything (d : Document) : Decoded Json :=
  faulty d.toJson

/-- A string. -/
def string (d : Document) : Decoded String :=
  match d.level with
  | .string s => .ok s
  | other => .error (other.unexpected .string)

/-- `true` or `false`. -/
def boolean (d : Document) : Decoded Bool :=
  match d.level with
  | .bool b => .ok b
  | other => .error (other.unexpected .boolean)

/-- A whole number of 64 bits without sign. -/
def natural (d : Document) : Decoded Nat :=
  match d.level with
  | .number (.int n) =>
    match (Number.int n).natural? with
    | some k => .ok k
    | none => .error (.wrongValue (.number (.int n)) .natural)
  | other => .error (other.unexpected .natural)

/-- `null`. -/
def unit (d : Document) : Decoded Unit :=
  match d.level with
  | .null => .ok ()
  | other => .error (other.unexpected .unit)

/-- Decodes the items of a list in order, up to its end. -/
def collect {α : Type} (read : Document → Decoded α) :
    List Document → Option Fault → Decoded (List α)
  | [], cut => do
    faulty (Draft.closed cut)
    return []
  | item :: rest, cut => do
    let first ← read item
    let others ← collect read rest cut
    return first :: others

/-- A list of things, or `null` for no list at all. -/
def listOrNull {α : Type} (read : Document → Decoded α) (d : Document) : Decoded (List α) :=
  match d.level with
  | .null => .ok []
  | .array items cut => collect read items cut
  | other => .error (other.unexpected .sequence)

/-! ### Records -/

/-- How one field of a record is read into it. -/
structure RecordField (σ : Type) where
  name : String
  required : Bool
  read : Document → σ → Decoded σ

/-- How a record is read: an object by the names of its fields, an array by
their order. What may be missing keeps its value of `blank`. -/
structure Shape (σ : Type) where
  name : String
  blank : σ
  fields : List (RecordField σ)

namespace Shape

variable {σ : Type}

/-- The field of that name. -/
def field? (shape : Shape σ) (name : String) : Option (RecordField σ) :=
  shape.fields.find? (·.name = name)

/-- The first required field that was not read. -/
def missing? (shape : Shape σ) (seen : List String) : Option String :=
  (shape.fields.find? fun f => f.required && !seen.contains f.name).map (·.name)

/-- Reads the fields of an object in its own order; unknown ones are passed over. -/
def fromFields (shape : Shape σ) :
    List (Except Fault String × Document) → Option Fault → List String → σ → Decoded σ
  | [], cut, seen, record => do
    faulty (Draft.closed cut)
    match shape.missing? seen with
    | some name => throw (.missingField name)
    | none => return record
  | (key, d) :: rest, cut, seen, record => do
    let name ← faulty key
    match shape.field? name with
    | none =>
      faulty d.skip
      fromFields shape rest cut seen record
    | some field =>
      if seen.contains name then throw (.duplicateField name)
      let record ← field.read d record
      fromFields shape rest cut (name :: seen) record

/-- Reads items as the fields in their declared order, and gives the items that are left. -/
def fromItems (shape : Shape σ) :
    List (RecordField σ) → List Document → Option Fault → σ → Decoded (σ × List Document)
  | [], items, _, record => return (record, items)
  | field :: fields, [], cut, record => do
    faulty (Draft.closed cut)
    if field.required then
      throw (.wrongLength (shape.fields.length - fields.length - 1)
        (.recordOf shape.name shape.fields.length))
    fromItems shape fields [] cut record
  | field :: fields, d :: rest, cut, record => do
    let record ← field.read d record
    fromItems shape fields rest cut record

end Shape

/-- The fault of an array that goes on where it should end. -/
def overrun (rest : List Document) (cut : Option Fault) : Except Fault Unit :=
  match rest, cut with
  | [], none => .ok ()
  | [], some .endInList => .error .endInList
  | [], some .trailingComma => .error .trailingComma
  | _, _ => .error .trailingCharacters

/-- Nothing may be left of an array of that length. -/
def closeArray (d : Document) (length : Nat) (rest : List Document) (cut : Option Fault) :
    Decoded Unit :=
  match d with
  | value _ => if rest.isEmpty then .ok () else .error (.wrongLength length .fewerItems)
  | text _ _ => faulty (overrun rest cut)
  | kept _ _ =>
    if rest.isEmpty then .ok ()
    else .error (.wrongLength length (.items (length - rest.length)))

/-- A record, from an object or from an array. -/
def record {σ : Type} (shape : Shape σ) (d : Document) : Decoded σ :=
  match d.level with
  | .object fields cut => shape.fromFields fields cut [] shape.blank
  | .array items cut => do
    let (result, rest) ← shape.fromItems shape.fields items cut shape.blank
    closeArray d items.length rest cut
    return result
  | other => .error (other.unexpected (.record shape.name))

/-! ### Names out of a fixed list -/

/-- The thing that a name stands for. -/
def named {α : Type} (names : List (String × α)) (name : String) : Decoded α :=
  match names.lookup name with
  | some a => .ok a
  | none => .error (.unknownVariant name (names.map (·.1)))

/-- A name alone. -/
def identifier {α : Type} (names : List (String × α)) (d : Document) : Decoded α :=
  match d.level with
  | .string s => named names s
  | other => .error (other.unexpected .variant)

/-- The fault of an object that goes on where it should end. -/
def overrunObject (rest : List (Except Fault String × Document)) (cut : Option Fault) :
    Except Fault Unit :=
  match rest, cut with
  | [], none => .ok ()
  | [], some .endInObject => .error .endInObject
  | _, _ => .error .expectedValue

/-- A name in a text, or an object with the name as its only key and `null` behind it. -/
def choiceOfLevel {α : Type} (names : List (String × α)) : Level → Decoded α
  | .string s => named names s
  | .object [] cut => .error (.fault (cut.getD .expectedValue))
  | .object ((key, payload) :: rest) cut => do
    let a ← named names (← faulty key)
    payload.unit
    faulty (overrunObject rest cut)
    return a
  | .broken fault => .error (.fault fault)
  | _ => .error (.fault .expectedValue)

/-- A name in a value, or an object with the name as its only key and `null` behind it. -/
def choiceOfJson {α : Type} (names : List (String × α)) : Json → Decoded α
  | .string s => named names s
  | .object [(name, payload)] => do
    let a ← named names name
    (value payload).unit
    return a
  | .object _ => .error (.wrongValue .map .singleKey)
  | other => .error ((levelOfJson other).unexpected .stringOrMap)

/-- One out of a list of names. -/
def choice {α : Type} (names : List (String × α)) : Document → Decoded α
  | value json => choiceOfJson names json
  | d => choiceOfLevel names d.level

/-- Decodes a whole text; nothing but blanks may follow. -/
def decodeText {α : Type} (read : Document → Decoded α) (content : String) : Decoded α := do
  let (d, rest) := ofText content
  let a ← read d
  faulty (Draft.finished rest)
  return a

end Document

end WalletPage
