import PoolSwap.Config
import PoolSwap.Message
import PoolSwap.Payload.Reader

/-! Wallet keypairs as users keep them: 64 bytes, a seed and the public key it gives, in base 58 or
as a list of byte values. -/
namespace PoolSwap.Keypair

def secretSize : Nat := 64

def byteOf : Payload → Checked UInt8
  | .int n => if 0 ≤ n ∧ n < 256 then .ok (UInt8.ofNat n.toNat) else .error (.breach .noValue)
  | .bool b => .ok (if b then 1 else 0)
  | _ => .error (.breach .wrongKind)

def ofByteList (text : String) : Checked Bytes := do
  match ← Checked.ofRule (Payload.ofText Payload.usualLevels text) with
  | .list items => items.mapM byteOf
  | _ => .error (.breach .wrongKind)

def ofBase58 (text : String) : Checked Bytes :=
  if text.toList.any (128 ≤ ·.toNat) then .error (.breach .notAscii)
  else Checked.ofOption .noValue (Base58.decode? text)

/-- The keypair of 64 bytes whose second half is the public key of the first. -/
def ofSecretBytes (bs : Bytes) : Checked Keypair :=
  if h : bs.length = secretSize then
    let keypair := ofSeed (bs.take 32) (by simp [h, secretSize])
    if keypair.address.bytes = bs.drop 32 then .ok keypair else .error (.breach .noValue)
  else .error (.argument (.secretLength bs.length))

/-- The keypair of a secret text; a text that opens with a bracket is a list of byte values. -/
def ofSecret (secret : String) : Checked Keypair := do
  let text := Blank.stripText secret
  let bytes ← if text.startsWith "[" then ofByteList text else ofBase58 text
  ofSecretBytes bytes

/-- The wallet of an environment: the secret in a variable, else in a file, else none. -/
def ofEnvironment (env : Config.Environment) (file : Option String) : Checked (Option Keypair) :=
  let secret := Blank.stripText ((Config.lookup? env "WALLET_PRIVATE_KEY").getD "")
  let secret := if secret = "" then Blank.stripText (file.getD "") else secret
  if secret = "" then .ok none else (ofSecret secret).map some

end PoolSwap.Keypair
