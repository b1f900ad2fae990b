import PoolSwap.Breach
import PoolSwap.Number.Numeral
import PoolSwap.Number.Shortest
import PoolSwap.Text.Printable

/-! Values as a service answers them: the data model of JSON, with integers and doubles apart, and
the text that messages show of a value. -/
namespace PoolSwap

inductive Payload where
  | null
  | bool (b : Bool)
  | int (n : Int)
  | float (x : Float)
  | text (s : String)
  | list (items : List Payload)
  /-- Names are distinct and keep the order in which they first occurred. -/
  | record (fields : List (String × Payload))
deriving Inhabited

namespace Payload

/-- Sets a field, at its old place if it has one. -/
def setField (name : String) (value : Payload) : List (String × Payload) → List (String × Payload)
  | [] => [(name, value)]
  | (n, v) :: rest => if n = name then (n, value) :: rest else (n, v) :: setField name value rest

def lookup (name : String) (fields : List (String × Payload)) : Option Payload :=
  (fields.find? (·.1 = name)).map Prod.snd

def field? (p : Payload) (name : String) : Option Payload :=
  match p with
  | record fields => lookup name fields
  | _ => none

/-- Whether a value counts as given: not null, false, zero or empty. -/
def isGiven : Payload → Bool
  | null => false
  | bool b => b
  | int n => n ≠ 0
  | float x => !(x == 0.0)
  | text s => s ≠ ""
  | list items => !items.isEmpty
  | record fields => !fields.isEmpty

end Payload

/-- The words for values that have no digits or characters of their own, and where they are used. -/
structure ValueWords where
  absent : String
  yes : String
  no : String

def valueWords : ValueWords := ⟨"None", "True", "False"⟩

namespace Quoted

def escape (quote c : Char) : List Char :=
  let n := c.toNat
  let hex := fun (mark : Char) (width : Nat) => '\\' :: mark :: (hexDigits width n)
  if c = quote ∨ c = '\\' then ['\\', c]
  else if c = '\n' then ['\\', 'n']
  else if c = '\r' then ['\\', 'r']
  else if c = '\t' then ['\\', 't']
  else if Printable.isPrintable c then [c]
  else if n < 0x100 then hex 'x' 2
  else if n < 0x10000 then hex 'u' 4
  else hex 'U' 8
where
  hexDigits (width n : Nat) : List Char :=
    (List.range width).reverse.map fun i => Nat.digitChar (n / Nat.pow 16 i % 16)

/-- Single quotes, unless the text holds one and no double quote. -/
def quoteOf (cs : List Char) : Char :=
  if '\'' ∈ cs ∧ '"' ∉ cs then '"' else '\''

def encode (s : String) : String :=
  let quote := quoteOf s.toList
  String.ofList (quote :: s.toList.flatMap (escape quote) ++ [quote])

end Quoted

namespace Payload

def bracketed (texts : List String) : String := "[" ++ ", ".intercalate texts ++ "]"

def shownBool (b : Bool) : String := if b then valueWords.yes else valueWords.no

def shownInteger (n : Int) : Except Breach String :=
  if digitCount n.natAbs ≤ Numeral.maxIntegerDigits then .ok (toString n)
  else .error .tooManyDigits

mutual
/-- The text of a value, if it is nested in no more levels than there are. -/
def shown : (levels : Nat) → (p : Payload) → Except Breach String
  | 0, _ => .error .tooDeep
  | _ + 1, null => .ok valueWords.absent
  | _ + 1, bool b => .ok (shownBool b)
  | _ + 1, int n => shownInteger n
  | _ + 1, float x => .ok (Shortest.text Shortest.plain x)
  | _ + 1, text s => .ok (Quoted.encode s)
  | levels + 1, list items => do
    let texts ← shownItems levels items
    .ok (bracketed texts)
  | levels + 1, record fields => do
    let texts ← shownFields levels fields
    .ok ("\x7b" ++ ", ".intercalate texts ++ "\x7d")

def shownItems (levels : Nat) : List Payload → Except Breach (List String)
  | [] => .ok []
  | p :: rest => do
    let text ← shown levels p
    let texts ← shownItems levels rest
    .ok (text :: texts)

def shownFields (levels : Nat) : List (String × Payload) → Except Breach (List String)
  | [] => .ok []
  | (name, p) :: rest => do
    let text ← shown levels p
    let texts ← shownFields levels rest
    .ok ((Quoted.encode name ++ ": " ++ text) :: texts)
end

/-- The text of a value where a text stands for itself. -/
def plainText (levels : Nat) : (p : Payload) → Except Breach String
  | text s => .ok s
  | p => shown levels p

/-- How deep a value may be nested where nothing else is said. -/
def usualLevels : Nat := 1000

end Payload
end PoolSwap
