import DeoLang.Text.Quoted
import DeoLang.Token.Basic
import DeoLang.Token.Numeral

/-!
# Fragments

* `LexFault`, `LexError`: what can be wrong with a piece of a source, and where.
* `Fragment`: the piece of a source that one token or one fault takes up.
* `Fragment.scan`: the fragment at the start of a text.

A fragment takes the longest text that its token can have. It is never empty, and no character
of the source is lost: `scan_text_append_rest`.
-/

namespace DeoLang

/-- What is wrong with a fragment. -/
inductive LexFault where
  | unknown (c : Char)
  | noDigits (base : Base)
  | unterminated
  | notAscii (c : Char)
  deriving Repr, DecidableEq

/-- The wording of a fault. -/
def LexFault.message : LexFault → String
  | unknown c => "unrecognized character " ++ quoteChar c
  | noDigits base => "no digits in " ++ base.name ++ " literal"
  | unterminated => "unterminated character literal"
  | notAscii c => "character literal must be a single byte, found " ++ quoteChar c

/-- A fault with the line where its fragment starts. -/
structure LexError where
  fault : LexFault
  line : Nat
  deriving Repr, DecidableEq

/-- The start of a text: what it is, what it takes up and what follows. -/
structure Fragment where
  content : Except LexFault Terminal
  text : List Char
  rest : List Char
  deriving Repr

/-- The characters that a word can start with: the ASCII letters and the underscore. -/
def isWordStart (c : Char) : Bool :=
  c.isAlpha || c = '_'

/-- The characters that a word can go on with: those that it can start with and the digits. -/
def isWordRest (c : Char) : Bool :=
  c.isAlphanum || c = '_'

namespace Fragment

/-- The word that starts with `c`. -/
def word (c : Char) (cs : List Char) : Fragment :=
  let text := c :: cs.takeWhile isWordRest
  ⟨.ok (((Keyword.ofText? (String.ofList text)).map .keyword).getD .identifier), text,
    cs.dropWhile isWordRest⟩

/-- The integer literal that starts with the digit `c`: a run of decimal digits, then perhaps the
marker of a base with digits of that base. -/
def number (c : Char) (cs : List Char) : Fragment :=
  let run := c :: cs.takeWhile Char.isDigit
  match cs.dropWhile Char.isDigit with
  | [] => ⟨.ok .integer, run, []⟩
  | marker :: rest =>
    match Base.ofMarker? marker with
    | none => ⟨.ok .integer, run, marker :: rest⟩
    | some base =>
      if (rest.takeWhile base.isDigit).isEmpty then
        ⟨.error (.noDigits base), run ++ [marker], rest⟩
      else
        ⟨.ok .integer, run ++ marker :: rest.takeWhile base.isDigit, rest.dropWhile base.isDigit⟩

/-- The end of a character literal, from the quoted character on. Without a closing quote the
character is the last of the fragment. -/
def closeQuote (before : List Char) (c : Char) : List Char → Fragment
  | '\'' :: rest =>
    ⟨if c.toNat < 128 then .ok .character else .error (.notAscii c), before ++ [c, '\''], rest⟩
  | rest => ⟨.error .unterminated, before ++ [c], rest⟩

/-- The character literal after its opening quote. A backslash takes the next character as it
is. -/
def quoted : List Char → Fragment
  | [] => ⟨.error .unterminated, ['\''], []⟩
  | ['\\'] => ⟨.error .unterminated, ['\'', '\\'], []⟩
  | '\\' :: c :: cs => closeQuote ['\'', '\\'] c cs
  | c :: cs => closeQuote ['\''] c cs

/-- The fragment at the start of a text. -/
def scan (c : Char) (cs : List Char) : Fragment :=
  match Punct.ofChar? c with
  | some p => ⟨.ok (.punct p), [c], cs⟩
  | none =>
    if c = '\'' then quoted cs
    else if c.isDigit then number c cs
    else if isWordStart c then word c cs
    else ⟨.error (.unknown c), [c], cs⟩

theorem word_text_append_rest (c : Char) (cs : List Char) :
    (word c cs).text ++ (word c cs).rest = c :: cs := by
  simp [word]

theorem number_text_append_rest (c : Char) (cs : List Char) :
    (number c cs).text ++ (number c cs).rest = c :: cs := by
  unfold number
  have split := List.takeWhile_append_dropWhile (p := Char.isDigit) (l := cs)
  split
  · next h => simpa [h] using split
  · next marker rest h =>
    rw [h] at split
    split
    · simpa using split
    · split <;> simp [split]

theorem closeQuote_text_append_rest (before : List Char) (c : Char) (cs : List Char) :
    (closeQuote before c cs).text ++ (closeQuote before c cs).rest = before ++ c :: cs := by
  unfold closeQuote
  split <;> simp

theorem quoted_text_append_rest (cs : List Char) :
    (quoted cs).text ++ (quoted cs).rest = '\'' :: cs := by
  unfold quoted
  split <;> simp [closeQuote_text_append_rest]

/-- A fragment and what follows it are the whole text. -/
theorem scan_text_append_rest (c : Char) (cs : List Char) :
    (scan c cs).text ++ (scan c cs).rest = c :: cs := by
  unfold scan
  split
  · rfl
  split
  · next h => rw [h]; exact quoted_text_append_rest cs
  split
  · exact number_text_append_rest c cs
  split
  · exact word_text_append_rest c cs
  · rfl

theorem number_text_ne_nil (c : Char) (cs : List Char) : (number c cs).text ≠ [] := by
  unfold number
  split
  · simp
  split
  · simp
  split <;> simp

theorem closeQuote_text_ne_nil (before : List Char) (c : Char) (cs : List Char) :
    (closeQuote before c cs).text ≠ [] := by
  unfold closeQuote
  split <;> simp

theorem quoted_text_ne_nil (cs : List Char) : (quoted cs).text ≠ [] := by
  unfold quoted
  split <;> simp [closeQuote_text_ne_nil]

/-- A fragment takes up at least one character. -/
theorem scan_text_ne_nil (c : Char) (cs : List Char) : (scan c cs).text ≠ [] := by
  unfold scan
  split
  · simp
  split
  · exact quoted_text_ne_nil cs
  split
  · exact number_text_ne_nil c cs
  split
  · simp [word]
  · simp

theorem length_scan_rest_le (c : Char) (cs : List Char) : (scan c cs).rest.length ≤ cs.length := by
  have whole := congrArg List.length (scan_text_append_rest c cs)
  have pos := List.length_pos_iff.mpr (scan_text_ne_nil c cs)
  simp only [List.length_append, List.length_cons] at whole
  omega

end Fragment

end DeoLang
