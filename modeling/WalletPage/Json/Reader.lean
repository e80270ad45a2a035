import WalletPage.Json.Draft
import WalletPage.Decimal.Scaled

/-! Reading JSON texts. Every reader takes the characters that are left and
gives a draft with the characters behind it. A reader never fails: where the
text breaks, the draft says so and nothing is left. -/

namespace WalletPage

open Decimal

namespace Reader

/-- The four blanks that may stand between the parts of a JSON text. -/
def isSpace (c : Char) : Bool :=
  c = ' ' || c = '\n' || c = '\t' || c = '\r'

/-- The text from its first character that is not a blank. -/
def skipSpace (cs : List Char) : List Char :=
  cs.dropWhile isSpace

/-- Characters that make no value. -/
def stop (place : Break) : Draft × List Char :=
  (.scrap place, [])

/-- The rest of a word such as `true`, whose value is known. -/
def word (value : Draft) : List Char → List Char → Draft × List Char
  | [], cs => (value, cs)
  | _ :: _, [] => stop (.same .endInValue)
  | w :: ws, c :: cs => if w = c then word value ws cs else stop (.same .expectedIdent)

/-! ### Strings -/

/-- The value of a hexadecimal digit. -/
def hexDigit? (c : Char) : Option Nat :=
  if '0' ≤ c ∧ c ≤ '9' then some (c.toNat - '0'.toNat)
  else if 'a' ≤ c ∧ c ≤ 'f' then some (c.toNat - 'a'.toNat + 10)
  else if 'A' ≤ c ∧ c ≤ 'F' then some (c.toNat - 'A'.toNat + 10)
  else none

/-- What a backslash with one more character stands for. -/
def shortEscape? (c : Char) : Option Char :=
  match c with
  | '"' => some '"'
  | '\\' => some '\\'
  | '/' => some '/'
  | 'b' => some '\x08'
  | 'f' => some '\x0c'
  | 'n' => some '\n'
  | 'r' => some '\r'
  | 't' => some '\t'
  | _ => none

/-- A string as far as it was read: its characters, last first, the first half of
a surrogate pair that waits for the second, and the first flaw. -/
structure Unfinished where
  chars : List Char := []
  lead : Option Nat := none
  flaw : Option Fault := none

namespace Unfinished

/-- Appends a character. -/
def push (p : Unfinished) (c : Char) : Unfinished :=
  { p with chars := c :: p.chars }

/-- Notes a flaw; the first one stays. -/
def note (p : Unfinished) (fault : Fault) : Unfinished :=
  { p with lead := none, flaw := p.flaw <|> some fault }

/-- No second half of a pair can follow any more. -/
def closeLead (p : Unfinished) : Unfinished :=
  match p.lead with
  | none => p
  | some _ => p.note .unexpectedEndOfHexEscape

/-- Appends a 16-bit unit; the two halves of a surrogate pair make one character. -/
def pushUnit (p : Unfinished) (unit : Nat) : Unfinished :=
  match p.lead with
  | some lead =>
    if 0xDC00 ≤ unit ∧ unit ≤ 0xDFFF then
      { p with
        chars := Char.ofNat ((lead - 0xD800) * 0x400 + (unit - 0xDC00) + 0x10000) :: p.chars
        lead := none }
    else p.note .loneSurrogate
  | none =>
    if 0xDC00 ≤ unit ∧ unit ≤ 0xDFFF then p.note .loneSurrogate
    else if 0xD800 ≤ unit ∧ unit ≤ 0xDBFF then { p with lead := some unit }
    else p.push (Char.ofNat unit)

/-- The place where a string cannot be read on. Who skips it has seen no flaw. -/
def fail (p : Unfinished) (fault : Fault) : Break :=
  ⟨p.flaw.getD fault, fault⟩

/-- The string, unless it has a flaw. -/
def result (p : Unfinished) : Except Fault String :=
  match p.flaw with
  | none => .ok (String.ofList p.chars.reverse)
  | some fault => .error fault

end Unfinished

/-- Where in a string the next character stands: outside an escape, behind a
backslash, or behind some digits of a hexadecimal escape. -/
inductive Place where
  | plain
  | escape
  | hex (count value : Nat)

/-- Whether at least `n` bytes are left. -/
def hasBytes (n : Nat) (cs : List Char) : Bool :=
  n ≤ (cs.take n).foldl (fun size c => size + c.utf8Size) 0

/-- Reads a string behind its opening quote. -/
def string (p : Unfinished) (place : Place) :
    List Char → Except Break (Except Fault String × List Char)
  | [] => .error (p.fail .endInString)
  | c :: cs =>
    match place with
    | .plain =>
      if c = '\\' then string p .escape cs
      else if c = '"' then .ok (p.closeLead.result, cs)
      else if c.toNat < 0x20 then .error (p.closeLead.fail .controlCharacter)
      else string (p.closeLead.push c) .plain cs
    | .escape =>
      if c = 'u' then string p (.hex 0 0) cs
      else match shortEscape? c with
        | some d => string (p.closeLead.push d) .plain cs
        | none => .error (p.closeLead.fail .invalidEscape)
    | .hex count value =>
      match hexDigit? c with
      | some d =>
        if count = 3 then string (p.pushUnit (value * 16 + d)) .plain cs
        else string p (.hex (count + 1) (value * 16 + d)) cs
      | none =>
        .error (p.fail (if hasBytes (4 - count) (c :: cs) then .invalidEscape else .endInString))

/-! ### Numbers -/

/-- The digits at the front. -/
def digitRun : List Char → List Nat × List Char
  | [] => ([], [])
  | c :: cs =>
    if c.isDigit then
      let (ds, rest) := digitRun cs
      ((c.toNat - '0'.toNat) :: ds, rest)
    else ([], c :: cs)

/-- The number that digits make. -/
def ofDigits (ds : List Nat) : Nat :=
  ds.foldl (fun n d => n * 10 + d) 0

/-- A floating point number. -/
def real (negative : Bool) (s : Scaled) : Except Fault Number :=
  match s.toBinary64 negative with
  | some x => .ok (.real x)
  | none => .error .numberOutOfRange

/-- A number of digits alone: an integer if it fits into 64 bits, without a sign
or with one, and a floating point number otherwise; `-0` is the latter. -/
def whole (negative : Bool) (ds : List Nat) : Except Fault Number :=
  let n := ofDigits ds
  if negative then
    if 0 < n ∧ n ≤ UInt64.size / 2 then .ok (.int (-n)) else real true (Scaled.pushWhole ⟨0, 0⟩ ds)
  else if n < UInt64.size then .ok (.int n) else real false (Scaled.pushWhole ⟨0, 0⟩ ds)

/-- The place where a number ends without a digit that it needs. -/
def cutNumber : List Char → Break
  | [] => ⟨.endInValue, .invalidNumber⟩
  | _ :: _ => .same .invalidNumber

/-- The exponent of a number, behind its `e`. -/
def exponent (negative : Bool) (s : Scaled) (cs : List Char) : Draft × List Char :=
  let (down, cs) := match cs with
    | '+' :: cs => (false, cs)
    | '-' :: cs => (true, cs)
    | cs => (false, cs)
  match digitRun cs with
  | ([], rest) => stop (cutNumber rest)
  | (ds, rest) =>
    let power : Int := if down then -(ofDigits ds) else ofDigits ds
    (.number (real negative { s with exponent := s.exponent + power }), rest)

/-- The digits behind a decimal point, and the exponent if there is one. -/
def fraction (negative : Bool) (s : Scaled) (cs : List Char) : Draft × List Char :=
  match digitRun cs with
  | ([], rest) => stop (cutNumber rest)
  | (ds, 'e' :: rest) => exponent negative (s.pushFraction ds) rest
  | (ds, 'E' :: rest) => exponent negative (s.pushFraction ds) rest
  | (ds, rest) => (.number (real negative (s.pushFraction ds)), rest)

/-- A number behind its sign. -/
def number (negative : Bool) (cs : List Char) : Draft × List Char :=
  match digitRun cs with
  | ([], rest) => stop (cutNumber rest)
  | (0 :: _ :: _, _) => stop (.same .invalidNumber)
  | (ds, '.' :: rest) => fraction negative (Scaled.pushWhole ⟨0, 0⟩ ds) rest
  | (ds, 'e' :: rest) => exponent negative (Scaled.pushWhole ⟨0, 0⟩ ds) rest
  | (ds, 'E' :: rest) => exponent negative (Scaled.pushWhole ⟨0, 0⟩ ds) rest
  | (ds, rest) => (.number (whole negative ds), rest)

/-! ### Values -/

/-- The brackets around the items of an array or the fields of an object. -/
inductive Brackets where
  | square
  | curly
deriving DecidableEq, Repr

namespace Brackets

/-- The closing bracket. -/
def close : Brackets → Char
  | square => ']'
  | curly => '\x7d'

/-- The fault of a text that ends before the closing bracket. -/
def unclosed : Brackets → Fault
  | square => .endInList
  | curly => .endInObject

/-- The fault of something else where a comma or the closing bracket belongs. -/
def unseparated : Brackets → Fault
  | square => .expectedListCommaOrEnd
  | curly => .expectedObjectCommaOrEnd

/-- The place of a closing bracket behind a comma. -/
def trailingComma : Brackets → Break
  | square => ⟨.trailingComma, .expectedValue⟩
  | curly => ⟨.trailingComma, .keyMustBeString⟩

/-- The place where a text ends behind a comma. -/
def endAtComma : Brackets → Break
  | square => .same .endInValue
  | curly => ⟨.endInValue, .endInObject⟩

end Brackets

/-- The text from the next item on, if there is one: before the first item no comma
is expected. -/
def nextItem? (b : Brackets) (first : Bool) (cs : List Char) :
    Except Break (Option (List Char)) :=
  match skipSpace cs with
  | [] => .error (.same b.unclosed)
  | c :: cs =>
    if c = b.close then .ok none
    else if first then .ok (some (c :: cs))
    else if c = ',' then
      match skipSpace cs with
      | [] => .error b.endAtComma
      | d :: ds => if d = b.close then .error b.trailingComma else .ok (some (d :: ds))
    else .error (.same b.unseparated)

/-- What is left behind the closing bracket that `nextItem?` met. -/
def behindClose (cs : List Char) : List Char :=
  (skipSpace cs).drop 1

/-- The name of a field with its colon; a missing colon is a fault of the value. -/
def key (cs : List Char) : Except Break (Except Fault String × Except Fault (List Char)) :=
  match cs with
  | '"' :: cs => do
    let (name, rest) ← string {} .plain cs
    match skipSpace rest with
    | [] => return (name, .error .endInObject)
    | ':' :: rest => return (name, .ok rest)
    | _ => return (name, .error .expectedColon)
  | _ => .error (.same .keyMustBeString)

mutual

/-- Reads a value, after blanks. -/
def value : Nat → List Char → Draft × List Char
  | 0, _ => stop (.same .recursionLimit)
  | fuel + 1, cs =>
    match skipSpace cs with
    | [] => (.broken (.same .endInValue), [])
    | 'n' :: cs => word .null ['u', 'l', 'l'] cs
    | 't' :: cs => word (.bool true) ['r', 'u', 'e'] cs
    | 'f' :: cs => word (.bool false) ['a', 'l', 's', 'e'] cs
    | '-' :: cs => number true cs
    | '"' :: cs =>
      match string {} .plain cs with
      | .ok (s, rest) => (.string s, rest)
      | .error place => (.broken place, [])
    | '[' :: cs =>
      let (found, cut, rest) := items fuel true cs
      (.array found cut, rest)
    | '\x7b' :: cs =>
      let (found, cut, rest) := fields fuel true cs
      (.object found cut, rest)
    | c :: cs => if c.isDigit then number false (c :: cs) else stop (.same .expectedValue)

/-- Reads the items of an array up to its bracket. -/
def items : Nat → Bool → List Char → List Draft × Option Break × List Char
  | 0, _, _ => ([], some (.same .recursionLimit), [])
  | fuel + 1, first, cs =>
    match nextItem? .square first cs with
    | .error place => ([], some place, [])
    | .ok none => ([], none, behindClose cs)
    | .ok (some cs) =>
      let (item, rest) := value fuel cs
      match item.break? with
      | some place => ([item], some place, [])
      | none =>
        let (more, cut, rest) := items fuel false rest
        (item :: more, cut, rest)

/-- Reads the fields of an object up to its brace. -/
def fields : Nat → Bool → List Char →
    List (Except Fault String × Draft) × Option Break × List Char
  | 0, _, _ => ([], some (.same .recursionLimit), [])
  | fuel + 1, first, cs =>
    match nextItem? .curly first cs with
    | .error place => ([], some place, [])
    | .ok none => ([], none, behindClose cs)
    | .ok (some cs) =>
      match key cs with
      | .error place => ([], some place, [])
      | .ok (name, .error fault) => ([(name, .broken (.same fault))], some (.same fault), [])
      | .ok (name, .ok rest) =>
        let (field, rest) := value fuel rest
        match field.break? with
        | some place => ([(name, field)], some place, [])
        | none =>
          let (more, cut, rest) := fields fuel false rest
          ((name, field) :: more, cut, rest)

end

/-- Enough steps for any text: two for each character and a few at the end. -/
def fuelFor (cs : List Char) : Nat :=
  2 * cs.length + 4

end Reader

/-- The draft at the front of a text, and what is left behind it. -/
def Draft.read (text : String) : Draft × List Char :=
  Reader.value (Reader.fuelFor text.toList) text.toList

/-- Nothing but blanks may follow a value. -/
def Draft.finished (rest : List Char) : Except Fault Unit :=
  match Reader.skipSpace rest with
  | [] => .ok ()
  | _ :: _ => .error .trailingCharacters

/-- The JSON value of a text. -/
def Json.parse (text : String) : Except Fault Json := do
  let (draft, rest) := Draft.read text
  let value ← draft.toJson Draft.depthLimit
  Draft.finished rest
  return value

end WalletPage
