/-!
# Decimal text

* `decimal`: a natural number in decimal.
* `decimalInt`: an integer in decimal, a minus sign in front of a negative one.
-/

namespace DeoLang

/-- The decimal digits of `n` without leading zeros. -/
def decimal (n : Nat) : String :=
  String.ofList (Nat.toDigits 10 n)

/-- The decimal digits of `n`, after a minus sign if it is negative. -/
def decimalInt : Int → String
  | .ofNat n => decimal n
  | .negSucc n => "-" ++ decimal (n + 1)

end DeoLang
