import DeoLang.Text.Decimal

/-!
# Machine words

* `Byte`, `Word`: the eight and sixteen bit values of the target machine.
* `Word.ofInt?`: a signed number as the word with that two's complement value.
* `Word.high`, `Word.low`: the two bytes of a word.
* `Word.decimal`: the signed value of a word in decimal.
-/

namespace DeoLang

/-- A cell of memory. -/
abbrev Byte := BitVec 8

/-- A sixteen bit value, read as signed where it is shown and as unsigned where it is an address. -/
abbrev Word := BitVec 16

namespace Word

/-- The word with signed value `n`, if `n` is in range. -/
def ofInt? (n : Int) : Option Word :=
  if -32768 ≤ n ∧ n ≤ 32767 then some (BitVec.ofInt 16 n) else none

/-- The most significant byte. -/
def high (w : Word) : Byte :=
  w.extractLsb' 8 8

/-- The least significant byte. -/
def low (w : Word) : Byte :=
  w.extractLsb' 0 8

/-- The signed value in decimal. -/
def decimal (w : Word) : String :=
  decimalInt w.toInt

end Word

end DeoLang
