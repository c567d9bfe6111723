import DeoLang.Machine.Opcode

/-!
# Emitters

* `Section`: the parts of an image.
* `Emitter`: the bytes written so far, and the section that is written to.
* `Emitter.image`: the bytes of all sections in the order of memory.
-/

namespace DeoLang

/-- A part of an image: the code at the reset vector, or the code behind it. -/
inductive Section where
  | vector
  | rest
  deriving Repr, DecidableEq

/-- The sections of an image with their bytes, newest first, and the one that is written to. -/
structure Emitter where
  vector : List Byte
  rest : List Byte
  target : Section
  deriving Repr, DecidableEq

namespace Emitter

/-- An emitter that has written nothing. -/
def empty : Emitter :=
  ⟨[], [], .rest⟩

/-- Writes a byte. -/
def byte (e : Emitter) (b : Byte) : Emitter :=
  match e.target with
  | .vector => { e with vector := b :: e.vector }
  | .rest => { e with rest := b :: e.rest }

/-- Writes an instruction. -/
def op (e : Emitter) (o : Opcode) : Emitter :=
  e.byte o.byte

/-- Writes the instruction that pushes a word. -/
def push (e : Emitter) (w : Word) : Emitter :=
  ((e.op .lit2).byte w.high).byte w.low

/-- Makes another section the one that is written to. -/
def select (e : Emitter) (s : Section) : Emitter :=
  { e with target := s }

/-- The bytes of all sections in the order of memory. -/
def image (e : Emitter) : List Byte :=
  e.vector.reverse ++ e.rest.reverse

end Emitter

end DeoLang
