import PoolSwap.Payload

/-! Values that callers hand in where the kind of the value is part of the answer. -/
namespace PoolSwap

inductive ValueKind where
  | absent
  | bool
  | integer
  | float
  | text
  | list
  | standardPool
  | concentratedPool
  | standardKeys
  | concentratedKeys
deriving DecidableEq, Repr

def ValueKind.name : ValueKind → String
  | absent => "NoneType"
  | bool => "bool"
  | integer => "int"
  | float => "float"
  | text => "str"
  | list => "list"
  | standardPool => "ReserveState"
  | concentratedPool => "TickState"
  | standardKeys => "StandardPoolKeys"
  | concentratedKeys => "ConcentratedPoolKeys"

inductive Scalar where
  | absent
  | bool (b : Bool)
  | int (n : Int)
  | float (x : Float)
  | text (s : String)

namespace Scalar

def kind : Scalar → ValueKind
  | absent => .absent
  | bool _ => .bool
  | int _ => .integer
  | float _ => .float
  | text _ => .text

def toPayload : Scalar → Payload
  | absent => .null
  | bool b => .bool b
  | int n => .int n
  | float x => .float x
  | text s => .text s

def plainText : Scalar → String
  | absent => valueWords.absent
  | bool b => Payload.shownBool b
  | int n => toString n
  | float x => Shortest.text Shortest.plain x
  | text s => s

end Scalar

/-- A value of the expected type, or one of some other kind. -/
inductive Supplied (α : Type) where
  | value (a : α)
  | other (kind : ValueKind)

end PoolSwap
