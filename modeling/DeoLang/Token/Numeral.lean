import DeoLang.Word

/-!
# Literals

* `Base`: the bases of integer literals, with their markers.
* `readInt`: the value of an integer literal.
* `charValue`: the value of a character literal.

The text of an integer literal is digits in base ten, or a single zero, the marker of a base and
digits of that base. Its value is at most the largest signed word.
-/

namespace DeoLang

/-- The base of an integer literal. -/
inductive Base where
  | decimal
  | hexadecimal
  | binary
  deriving Repr, DecidableEq

/-- The value of a digit: the letters follow the nine. Other characters have none. -/
def digitValue? (c : Char) : Option Nat :=
  if '0' ≤ c ∧ c ≤ '9' then some (c.toNat - '0'.toNat)
  else if 'a' ≤ c ∧ c ≤ 'z' then some (c.toNat - 'a'.toNat + 10)
  else if 'A' ≤ c ∧ c ≤ 'Z' then some (c.toNat - 'A'.toNat + 10)
  else none

namespace Base

/-- The base that a marker character announces. -/
def ofMarker? : Char → Option Base
  | 'x' => some hexadecimal
  | 'b' => some binary
  | _ => none

/-- The count of digits in the base. -/
def radix : Base → Nat
  | decimal => 10
  | hexadecimal => 16
  | binary => 2

/-- The word that names the base. -/
def name : Base → String
  | decimal => "decimal"
  | hexadecimal => "hexadecimal"
  | binary => "binary"

/-- Whether `c` is a digit of the base. -/
def isDigit (b : Base) (c : Char) : Bool :=
  (digitValue? c).any (· < b.radix)

/-- The number that digits denote, most significant first. -/
def value (b : Base) (digits : List Char) : Nat :=
  digits.foldl (fun n c => n * b.radix + (digitValue? c).getD 0) 0

end Base

/-- Why the text of an integer literal has no value. -/
inductive NumeralError where
  | overflow
  | malformed (lexeme : String)
  deriving Repr, DecidableEq

/-- The wording of a numeral error. -/
def NumeralError.message : NumeralError → String
  | overflow => "integer overflow/underflow"
  | malformed lexeme => "malformed integer literal '" ++ lexeme ++ "'"

/-- The base and the digits of a literal: what stands in front of the first marker is a single
zero, and without a marker the base is ten. -/
def splitMarker (cs : List Char) : Option (Base × List Char) :=
  match cs.dropWhile fun c => (Base.ofMarker? c).isNone with
  | [] => some (.decimal, cs)
  | marker :: digits =>
    if cs.takeWhile (fun c => (Base.ofMarker? c).isNone) = ['0'] then
      (Base.ofMarker? marker).map (·, digits)
    else none

/-- The value of an integer literal. -/
def readInt (lexeme : String) : Except NumeralError Word :=
  match splitMarker lexeme.toList with
  | none => .error (.malformed lexeme)
  | some (base, digits) =>
    if digits.isEmpty || !digits.all base.isDigit then .error (.malformed lexeme)
    else if base.value digits ≤ 32767 then .ok (BitVec.ofNat 16 (base.value digits))
    else .error .overflow

/-- The last byte of the UTF-8 form of a character: the character itself if it is ASCII, else a
continuation byte with its six low bits. -/
def lastUtf8Byte (c : Char) : Word :=
  BitVec.ofNat 16 (if c.toNat < 128 then c.toNat else 128 + c.toNat % 64)

/-- The value of a character literal: the last byte between its quotes. -/
def charValue (lexeme : String) : Option Word :=
  match lexeme.toList with
  | '\'' :: cs =>
    match cs.reverse with
    | '\'' :: inside => inside.head?.map lastUtf8Byte
    | _ => none
  | _ => none

theorem charValue_quoted (before : List Char) (c : Char) :
    charValue (String.ofList ('\'' :: before ++ [c, '\''])) = some (lastUtf8Byte c) := by
  simp [charValue]

end DeoLang
