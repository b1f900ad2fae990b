/-! Rules of numbers and encodings. -/
namespace PoolSwap

/-- Rules that a value breaks. They carry no text. -/
inductive Breach where
  | divisionByZero
  /-- A number is too large for the form it is put into. -/
  | tooLarge
  /-- A text or number denotes no value of the kind asked for. -/
  | noValue
  /-- A value is of a kind that the operation does not take. -/
  | wrongKind
  /-- A value has no field of that name. -/
  | noSuchField
  /-- An amount does not fit the width of its field. -/
  | fieldWidth
  | notAscii
  /-- Bytes are no text in the encoding announced for them. -/
  | notText
  | malformedJson
  /-- A message is signed with other keypairs than those of its signers. -/
  | wrongSigners
  /-- An integer is too long to be read or written in decimal digits. -/
  | tooManyDigits
  /-- A value is nested deeper than it can be read or written. -/
  | tooDeep
deriving DecidableEq

end PoolSwap
