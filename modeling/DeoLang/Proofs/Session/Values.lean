import DeoLang.Proofs.Program.Division
import DeoLang.Proofs.Session.Literal
import DeoLang.Proofs.Session.Messages

/-!
# The literals of a source

* `Token.Exact`: what is read from a literal token is what its text says; `exact_of_mem_results`.
* `Message.not_malformed_character`: no message of a parse is about a bad character literal.
* `toInt_of_parse`: the literals of the program of a source are not negative.
* **`literals_agree`**: the lexer and the reading of literals agree on every source.
-/

namespace DeoLang

/-- What is read from a literal token is what its text says. -/
structure Token.Exact (t : Token) : Prop where
  /-- The value is the code of the character, which is quoted or escaped. -/
  character : t.terminal = .character → ∃ before c v,
    t.lexeme.toList = '\'' :: before ++ [c, '\''] ∧ Escape before c ∧ c.toNat < 128 ∧
      charValue t.lexeme = some v ∧ v.toInt = c.toNat
  malformed : t.terminal = .integer →
    (readInt t.lexeme = .error (.malformed t.lexeme) ↔ Mismarked t.lexeme.toList)
  /-- The value is the number of the digits, if it is not too large. -/
  numeral : t.terminal = .integer → ¬Mismarked t.lexeme.toList →
    ∃ b ds, Numeral b ds t.lexeme.toList ∧
      (b.number ds ≤ 32767 → ∃ v, readInt t.lexeme = .ok v ∧ v.toInt = b.number ds) ∧
      (32767 < b.number ds → readInt t.lexeme = .error .overflow)

theorem exact_of_mem_results {c : Cursor} {t : Token} (h : .ok t ∈ c.results) : t.Exact := by
  have spells {u : Terminal} (terminal : t.terminal = u) (noEnd : u ≠ .ending) :
      Spells u t.lexeme.toList := by
    subst terminal
    exact Cursor.spelled_of_mem_results h noEnd
  exact ⟨fun character => exists_charValue_eq (spells character (by decide)),
    fun integer => readInt_eq_malformed_iff_mismarked (spells integer (by decide)),
    fun integer => exists_numeral_of_spells (spells integer (by decide))⟩

theorem Session.Acts.spelled {source : String} {s : Session}
    (h : Session.Acts (Session.ofSource source) s) : s.window.Spelled := by
  obtain ⟨n, -, window⟩ := h.exists_iterate
  rw [window]
  exact Function.Iterate.rec Window.Spelled (Window.spelled_ofSource source)
    (fun _ spelled => spelled.slide) n

theorem Message.exists_front {message : String} (h : Message message) :
    ∃ front ∈ ["u", "n", "c", "e", "i", "malformed i"], front.toList <+: message.toList := by
  cases h with
  | fault f =>
    obtain ⟨c, hc, start⟩ := f.exists_prefix_message
    fin_cases hc
    · exact ⟨"u", by decide, start⟩
    · exact ⟨"n", by decide, start⟩
    · exact ⟨"c", by decide, start⟩
  | expected t asked =>
    refine ⟨"e", by decide, ?_⟩
    rw [String.append_assoc, String.append_assoc]
    exact prefix_toList_append _ (by decide)
  | @numeral lexeme e _ _ =>
    cases e with
    | overflow => exact ⟨"i", by decide, by decide⟩
    | malformed lexeme =>
      refine ⟨"malformed i", by decide, ?_⟩
      exact prefix_toList_append _ (prefix_toList_append _ (by decide))

theorem Message.not_malformed_character {message : String} (h : Message message) :
    ¬"malformed character literal".toList <+: message.toList := by
  have apart : ∀ front ∈ ["u", "n", "c", "e", "i", "malformed i"],
      ¬front.toList <+: "malformed character literal".toList ∧
        ¬"malformed character literal".toList <+: front.toList := by
    decide
  obtain ⟨front, mem, start⟩ := h.exists_front
  intro malformed
  rcases List.prefix_or_prefix_of_prefix start malformed with short | long
  · exact (apart front mem).1 short
  · exact (apart front mem).2 long

theorem toInt_of_parse {source : String} {p : Program} (h : parse source = .ok p) :
    ∀ o ∈ p.outputs, ∀ e ∈ o.operands, ∀ w, .literal w ∈ e.parts →
      0 ≤ w.toInt ∧ w.toInt ≤ 32767 := by
  obtain ⟨ts, -, tree⟩ := parse_eq_ok_iff.mp h
  intro o ho e he w hw
  obtain ⟨x, y, rfl, ⟨t, -, device⟩, u, -, value⟩ := tree.readFrom o ho
  rw [Output.operands, List.mem_pair] at he
  rcases he with rfl | rfl
  · obtain rfl : w = x := by simpa [Expr.parts] using hw
    exact toInt_of_value? device
  · obtain rfl : w = y := by simpa [Expr.parts] using hw
    exact toInt_of_value? value

/-- **The lexer and the reading of literals agree on every source.** The value of a character token
is the code of its character, so that no session finds one without a value and nothing is said of a
bad character literal, recorded or held back. An integer token is malformed exactly when its marker
is behind other digits than a single zero, and else its number decides. So the literals of a program
are not negative. -/
theorem literals_agree (source : String) :
    (∀ t, .ok t ∈ (Cursor.ofSource source).results → t.Exact) ∧
    (∀ s, Session.Acts (Session.ofSource source) s → s.current.terminal = .character →
      ∃ v, s.literal = (some v, s.advance)) ∧
    (∀ e ∈ (Session.ofSource source).finish.2.events, ∀ d, e.Tells d →
      ¬"malformed character literal".toList <+: d.message.toList) ∧
    ∀ p, parse source = .ok p → ∀ o ∈ p.outputs, ∀ e ∈ o.operands, ∀ w, .literal w ∈ e.parts →
      0 ≤ w.toInt ∧ w.toInt ≤ 32767 :=
  ⟨fun _ => exact_of_mem_results, fun _ acts => Session.literal_of_character acts.spelled,
    fun e he d tells => (message_of_tells source e he d tells).not_malformed_character,
    fun _ => toInt_of_parse⟩

/-- An output with a character literal whose character is escaped. -/
def escapedQuote : String :=
  "main \x7b deo '\\'', 24 \x7d"

theorem literals_agree_escapedQuote :
    Token.Exact ⟨.character, "'\\''", 1⟩ ∧
    (∃ s, Session.Acts (Session.ofSource escapedQuote) s ∧ s.current = ⟨.character, "'\\''", 1⟩ ∧
      ∃ v, s.literal = (some v, s.advance)) ∧
    (∃ d, parse "+" = .error [d] ∧ ¬"malformed character literal".toList <+: d.message.toList) ∧
    ∃ p, parse escapedQuote = .ok p ∧ p.outputs = [⟨.literal 39, .literal 24⟩] ∧
      0 ≤ (39 : Word).toInt := by
  obtain ⟨exact, valued, -, small⟩ := literals_agree escapedQuote
  obtain ⟨-, -, clean, -⟩ := literals_agree "+"
  refine ⟨exact _ ?_, ?_, ?_, ?_⟩
  · have results : (Cursor.ofSource escapedQuote).results = [.ok ⟨.keyword .main, "main", 1⟩,
        .ok ⟨.punct .braceOpen, "\x7b", 1⟩, .ok ⟨.keyword .deo, "deo", 1⟩,
        .ok ⟨.character, "'\\''", 1⟩, .ok ⟨.punct .comma, ",", 1⟩, .ok ⟨.integer, "24", 1⟩,
        .ok ⟨.punct .braceClose, "\x7d", 1⟩, .ok (Token.ending 1)] := by cbv
    rw [results]
    simp
  · have acts : Session.Acts (Session.ofSource escapedQuote)
        (Session.ofSource escapedQuote).advance.advance.advance.advance.advance :=
      ((((Relation.ReflTransGen.single (.advance _)).tail (.advance _)).tail (.advance _)).tail
        (.advance _)).tail (.advance _)
    have current : (Session.ofSource escapedQuote).advance.advance.advance.advance.advance.current =
        ⟨.character, "'\\''", 1⟩ := by cbv
    exact ⟨_, acts, current, valued _ acts (by rw [current])⟩
  · have failed : parse "+" = .error [⟨.error, 1, "expected declaration, but got '+'"⟩] := by cbv
    have recorded : .recorded ⟨.error, 1, "expected declaration, but got '+'"⟩ ∈
        (Session.ofSource "+").finish.2.events := by
      refine Session.recorded_mem_events ?_
      rw [(diagnostics_of_parse failed).1]
      exact List.mem_singleton_self _
    exact ⟨_, failed, clean _ recorded _ (.inl rfl)⟩
  · have program : parse escapedQuote = .ok ⟨[⟨1, [.deo (.literal 39) (.literal 24)]⟩]⟩ := by cbv
    have outputs : Program.outputs ⟨[⟨1, [.deo (.literal 39) (.literal 24)]⟩]⟩ =
        [⟨.literal 39, .literal 24⟩] := by cbv
    have literal := small _ program ⟨.literal 39, .literal 24⟩ (by rw [outputs]; simp) (.literal 39)
      (by simp [Output.operands]) 39 (by simp [Expr.parts])
    exact ⟨_, program, outputs, literal.1⟩

end DeoLang
