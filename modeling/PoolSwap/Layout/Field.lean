import PoolSwap.Fault

/-! Readers of the fields that account layouts share, and the checks in front of them. -/
namespace PoolSwap

namespace FieldReader

def address : FieldReader Address := do
  match Address.ofBytes? (← bytes 32) with
  | some a => pure a
  | none => failure

end FieldReader

namespace Layout

/-- The eight bytes that open an account of a named type. -/
def discriminator (name : String) : Bytes :=
  (sha256.digest ("account:" ++ name).toUTF8.toList).take 8

def requireDiscriminator (expected raw : Bytes) (what : String) (address : Option String) :
    Checked Unit :=
  if raw.take 8 = expected then .ok () else .error (.stateRead address (.notA what))

def read (layout : FieldReader α) (raw : Bytes) (what : String) (address : Option String) :
    Checked α :=
  match layout.front? raw with
  | some a => .ok a
  | none => .error (.stateRead address (.layout what))

end Layout
end PoolSwap
