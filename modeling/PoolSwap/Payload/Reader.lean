import PoolSwap.Number.Numeral
import PoolSwap.Payload

/-! Reading JSON text. Beside the standard grammar, the infinities and the undefined number have
names, and of two fields with one name the later value counts. Integers have a greatest length, and
lists and records a greatest depth; of several rules that a text breaks the first one counts. -/
namespace PoolSwap.Payload.Reader

def isSpace (c : Char) : Bool := c = ' ' || c = '\t' || c = '\n' || c = '\r'

def skipSpace (cs : List Char) : List Char := cs.dropWhile isSpace

def hexValue? (c : Char) : Option Nat :=
  if c.isDigit then some (c.toNat - 48)
  else if 'a' ≤ c ∧ c ≤ 'f' then some (c.toNat - 87)
  else if 'A' ≤ c ∧ c ≤ 'F' then some (c.toNat - 55)
  else none

def unit? : List Char → Option (Nat × List Char)
  | a :: b :: c :: d :: rest => do
    let digits ← [a, b, c, d].mapM hexValue?
    some (digits.foldl (fun n digit => 16 * n + digit) 0, rest)
  | _ => none

/-- The code unit of an escape at the front. -/
def escapedUnit? : List Char → Option (Nat × List Char)
  | '\\' :: 'u' :: rest => unit? rest
  | _ => none

/-- The character of a code unit and, for the first half of a pair, of the unit after it. A half
without its partner becomes the replacement character. -/
def unicodeEscape? (cs : List Char) : Option (Char × List Char) := do
  let (high, rest) ← unit? cs
  if 0xd800 ≤ high ∧ high < 0xdc00 then
    match escapedUnit? rest with
    | some (low, rest') =>
      if 0xdc00 ≤ low ∧ low < 0xe000 then
        some (Char.ofNat (0x10000 + (high - 0xd800) * 0x400 + (low - 0xdc00)), rest')
      else some ('\ufffd', rest)
    | none => some ('\ufffd', rest)
  else if 0xdc00 ≤ high ∧ high < 0xe000 then some ('\ufffd', rest)
  else some (Char.ofNat high, rest)

def simpleEscape? (c : Char) : Option Char :=
  if c = '"' ∨ c = '\\' ∨ c = '/' then some c
  else if c = 'b' then some '\x08'
  else if c = 'f' then some '\x0c'
  else if c = 'n' then some '\n'
  else if c = 'r' then some '\r'
  else if c = 't' then some '\t'
  else none

/-- The characters up to the closing quote, in reverse, and what follows it. -/
def chars? : Nat → List Char → List Char → Option (List Char × List Char)
  | 0, _, _ => none
  | fuel + 1, seen, cs =>
    match cs with
    | [] => none
    | '"' :: rest => some (seen.reverse, rest)
    | '\\' :: 'u' :: rest => do
      let (c, rest) ← unicodeEscape? rest
      chars? fuel (c :: seen) rest
    | '\\' :: c :: rest => do
      let c ← simpleEscape? c
      chars? fuel (c :: seen) rest
    | c :: rest => if c.toNat < 32 then none else chars? fuel (c :: seen) rest

/-- The digits of a whole part: a zero alone, or digits that do not start with one. -/
def whole? : List Char → Option (List Char × List Char)
  | '0' :: rest => some (['0'], rest)
  | cs =>
    let ds := cs.takeWhile Char.isDigit
    if ds.isEmpty then none else some (ds, cs.dropWhile Char.isDigit)

/-- A fraction with its point, empty when no digit follows the point. -/
def fraction (cs : List Char) : List Char × List Char :=
  match cs with
  | '.' :: rest =>
    let ds := rest.takeWhile Char.isDigit
    if ds.isEmpty then ([], cs) else ('.' :: ds, rest.dropWhile Char.isDigit)
  | _ => ([], cs)

/-- The sign of an exponent; a plus is not kept. -/
def exponentSign : List Char → List Char × List Char
  | '-' :: rest => (['-'], rest)
  | '+' :: rest => ([], rest)
  | rest => ([], rest)

/-- An exponent with its mark, empty when it has no digits. -/
def exponent (cs : List Char) : List Char × List Char :=
  match cs with
  | mark :: rest =>
    if mark = 'e' ∨ mark = 'E' then
      let (sign, rest') := exponentSign rest
      let ds := rest'.takeWhile Char.isDigit
      if ds.isEmpty then ([], cs) else ('e' :: sign ++ ds, rest'.dropWhile Char.isDigit)
    else ([], cs)
  | [] => ([], cs)

def ofOption : Option α → Except Breach α
  | some a => .ok a
  | none => .error .malformedJson

/-- The number of some parts; it is a double when it has a fraction or an exponent. -/
def ofParts (negative : Bool) (ds frac expo : List Char) : Except Breach Payload :=
  if frac.isEmpty && expo.isEmpty then
    if ds.length ≤ Numeral.maxIntegerDigits then
      let n : Int := Numeral.ofDigits ds
      .ok (int (if negative then -n else n))
    else .error .tooManyDigits
  else do
    let x := (← ofOption (Numeral.unsigned? (ds ++ frac ++ expo))).toFloat
    .ok (float (if negative then -x else x))

/-- A number after its sign. -/
def number (negative : Bool) (cs : List Char) : Except Breach (Payload × List Char) := do
  let (ds, rest) ← ofOption (whole? cs)
  let (frac, rest) := fraction rest
  let (expo, rest) := exponent rest
  let p ← ofParts negative ds frac expo
  .ok (p, rest)

def word (word : String) (p : Payload) (cs : List Char) : Except Breach (Payload × List Char) :=
  if word.toList.isPrefixOf cs then .ok (p, cs.drop word.length) else .error .malformedJson

def scalar (cs : List Char) : Except Breach (Payload × List Char) :=
  match cs with
  | 'n' :: _ => word "null" null cs
  | 't' :: _ => word "true" (bool true) cs
  | 'f' :: _ => word "false" (bool false) cs
  | 'N' :: _ => word "NaN" (float Binary64.notANumber) cs
  | 'I' :: _ => word "Infinity" (float Binary64.infinity) cs
  | '-' :: 'I' :: rest => word "Infinity" (float (-Binary64.infinity)) ('I' :: rest)
  | '-' :: rest => number true rest
  | _ => number false cs

mutual
/-- A value at the front of some characters, with so many levels for the lists and records in it. The
fuel bounds the characters it may span. -/
def value (levels : Nat) : Nat → List Char → Except Breach (Payload × List Char)
  | 0, _ => .error .malformedJson
  | fuel + 1, cs =>
    match cs with
    | '"' :: rest => do
      let (s, rest) ← ofOption (chars? (rest.length + 1) [] rest)
      .ok (text (String.ofList s), rest)
    | '[' :: rest =>
      match levels with
      | 0 => .error .tooDeep
      | levels + 1 =>
        match skipSpace rest with
        | ']' :: rest => .ok (list [], rest)
        | rest => items levels fuel [] rest
    | '\x7b' :: rest =>
      match levels with
      | 0 => .error .tooDeep
      | levels + 1 =>
        match skipSpace rest with
        | '\x7d' :: rest => .ok (record [], rest)
        | rest => fields levels fuel [] rest
    | _ => scalar cs

def items (levels : Nat) : Nat → List Payload → List Char → Except Breach (Payload × List Char)
  | 0, _, _ => .error .malformedJson
  | fuel + 1, seen, cs => do
    let (p, rest) ← value levels fuel (skipSpace cs)
    match skipSpace rest with
    | ',' :: rest => items levels fuel (p :: seen) rest
    | ']' :: rest => .ok (list (p :: seen).reverse, rest)
    | _ => .error .malformedJson

def fields (levels : Nat) :
    Nat → List (String × Payload) → List Char → Except Breach (Payload × List Char)
  | 0, _, _ => .error .malformedJson
  | fuel + 1, seen, cs =>
    match skipSpace cs with
    | '"' :: rest => do
      let (name, rest) ← ofOption (chars? (rest.length + 1) [] rest)
      match skipSpace rest with
      | ':' :: rest => do
        let (p, rest) ← value levels fuel (skipSpace rest)
        let seen := setField (String.ofList name) p seen
        match skipSpace rest with
        | ',' :: rest => fields levels fuel seen rest
        | '\x7d' :: rest => .ok (record seen, rest)
        | _ => .error .malformedJson
      | _ => .error .malformedJson
    | _ => .error .malformedJson
end

end PoolSwap.Payload.Reader

namespace PoolSwap.Payload

/-- The value a JSON text denotes, if it is one value with nothing but space around it. -/
def ofText (levels : Nat) (s : String) : Except Breach Payload := do
  let cs := s.toList
  let (p, rest) ← Reader.value levels (cs.length + 1) (Reader.skipSpace cs)
  if (Reader.skipSpace rest).isEmpty then .ok p else .error .malformedJson

end PoolSwap.Payload
