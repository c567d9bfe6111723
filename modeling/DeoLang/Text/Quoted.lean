import DeoLang.Text.Extender
import DeoLang.Text.Hex
import DeoLang.Text.Hidden

/-!
# Quoted text

* `escapeChar`: the written form of one character between quotes.
* `quoteChar`: a character between single quotes.
* `quoteText`: a string between double quotes.

A quoted form has no line break and nothing invisible in it: what cannot be shown on its own is
written as its code point.
-/

namespace DeoLang

/-- The written form of `c` between two `quote`s. -/
def escapeChar (quote c : Char) : List Char :=
  if c = '\x00' then ['\\', '0']
  else if c = '\t' then ['\\', 't']
  else if c = '\r' then ['\\', 'r']
  else if c = '\n' then ['\\', 'n']
  else if c = '\\' ∨ c = quote then ['\\', c]
  else if isExtender c || isHidden c then '\\' :: 'u' :: '\x7b' :: hexMinimal c.toNat ++ ['\x7d']
  else [c]

/-- The character `c` between single quotes. -/
def quoteChar (c : Char) : String :=
  String.ofList ('\'' :: escapeChar '\'' c ++ ['\''])

/-- The string `s` between double quotes. -/
def quoteText (s : String) : String :=
  String.ofList ('"' :: s.toList.flatMap (escapeChar '"') ++ ['"'])

end DeoLang
