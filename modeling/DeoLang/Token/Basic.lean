/-!
# Tokens

* `Punct`, `Keyword`: the fixed words of the language.
* `Terminal`: the classes of tokens that the grammar tells apart.
* `Token`: a terminal with its text and the line where it starts.
-/

namespace DeoLang

/-- The punctuation marks, one character each. -/
inductive Punct where
  | braceOpen
  | braceClose
  | parenOpen
  | parenClose
  | comma
  | plus
  | minus
  | star
  | slash
  deriving Repr, DecidableEq

namespace Punct

/-- The character of a mark. -/
def char : Punct → Char
  | braceOpen => '{'
  | braceClose => '}'
  | parenOpen => '('
  | parenClose => ')'
  | comma => ','
  | plus => '+'
  | minus => '-'
  | star => '*'
  | slash => '/'

/-- The mark of a character. -/
def ofChar? : Char → Option Punct
  | '{' => some braceOpen
  | '}' => some braceClose
  | '(' => some parenOpen
  | ')' => some parenClose
  | ',' => some comma
  | '+' => some plus
  | '-' => some minus
  | '*' => some star
  | '/' => some slash
  | _ => none

theorem ofChar?_eq_some_iff {c : Char} {p : Punct} : ofChar? c = some p ↔ c = p.char := by
  constructor
  · intro h
    unfold ofChar? at h
    split at h <;> cases h <;> rfl
  · rintro rfl
    cases p <;> rfl

end Punct

/-- The reserved words. -/
inductive Keyword where
  | fn
  | main
  | deo
  deriving Repr, DecidableEq

namespace Keyword

/-- The text of a reserved word. -/
def text : Keyword → String
  | fn => "fn"
  | main => "main"
  | deo => "deo"

/-- The reserved word with the given text. -/
def ofText? (s : String) : Option Keyword :=
  if s = "fn" then some fn
  else if s = "main" then some main
  else if s = "deo" then some deo
  else none

theorem ofText?_eq_some_iff {s : String} {k : Keyword} : ofText? s = some k ↔ s = k.text := by
  constructor
  · intro h
    unfold ofText? at h
    split at h
    · cases h; assumption
    split at h
    · cases h; assumption
    split at h
    · cases h; assumption
    · cases h
  · rintro rfl
    cases k <;> decide

end Keyword

/-- The classes of tokens that the grammar tells apart. -/
inductive Terminal where
  | punct (p : Punct)
  | identifier
  | integer
  | character
  | keyword (k : Keyword)
  | ending
  deriving Repr, DecidableEq

/-- How a message names a terminal. -/
def Terminal.describe : Terminal → String
  | punct p => String.ofList ['\'', p.char, '\'']
  | identifier => "identifier"
  | integer => "integer literal"
  | character => "character literal"
  | keyword k => "keyword '" ++ k.text ++ "'"
  | ending => "end of file"

/-- A token of a source. -/
structure Token where
  terminal : Terminal
  lexeme : String
  line : Nat
  deriving Repr, DecidableEq

/-- The token that stands for the end of a source. -/
def Token.ending (line : Nat) : Token :=
  ⟨.ending, "<eof>", line⟩

end DeoLang
