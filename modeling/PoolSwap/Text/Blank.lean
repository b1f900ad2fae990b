/-! The blanks that are stripped around a text. -/
namespace PoolSwap.Blank

/-- Blanks outside ASCII: next line, no-break space, and the separators of all kinds. -/
def isWideBlank (c : Char) : Bool :=
  let n := c.toNat
  n = 0x85 || n = 0xa0 || n = 0x1680 || (0x2000 ≤ n && n ≤ 0x200a) || n = 0x2028 || n = 0x2029 ||
    n = 0x202f || n = 0x205f || n = 0x3000

/-- Tab to carriage return, and space. -/
def isAsciiBlank (c : Char) : Bool := (9 ≤ c.toNat && c.toNat ≤ 13) || c = ' '

/-- The blanks that may surround an integer or a double. -/
def isNumeralBlank (c : Char) : Bool := isAsciiBlank c || isWideBlank c

def isBlank (c : Char) : Bool :=
  isNumeralBlank c || (0x1c ≤ c.toNat && c.toNat ≤ 0x1f)

/-- Characters without the leading and trailing ones of a class. -/
def strip (blank : Char → Bool) (cs : List Char) : List Char :=
  ((cs.dropWhile blank).reverse.dropWhile blank).reverse

def stripText (s : String) : String := String.ofList (strip isBlank s.toList)

end PoolSwap.Blank
