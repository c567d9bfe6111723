import DeoLang.Proofs.Session.Reading
import DeoLang.Proofs.Token.Supply

/-!
# The grammar of the parser

* `Session.finish_eq`: a session ends in its declarations, or in its diagnostics if there are any.
* `exists_charValue`: the character literals of a source have values.
* `HasTokens`: a source consists of tokens and nothing is wrong with its text.
* `parse_eq_ok_iff`: the program of a source is the tree of its tokens.
* **`parse_grammar`**: a source has a program exactly when its tokens derive from the grammar and
  its integers have values; any other source has errors and nothing else.
-/

namespace DeoLang

namespace Session

/-- The session behind all declarations and the end. -/
def finished (s : Session) : Session :=
  s.advance.advance.decls.2.advance

theorem moves_finished (s : Session) : Moves s s.finished :=
  ((s.moves_advance.trans (moves_advance _)).trans (moves_decls _)).trans (moves_advance _)

theorem program_eq (s : Session) :
    s.advance.advance.program = (⟨s.advance.advance.decls.1⟩, s.finished) := by
  rw [program, expect_of_check (check_iff.mp (atEnd_decls _))]
  rfl

theorem finish_snd (s : Session) : s.finish.2 = s.finished := by
  simp only [finish, s.program_eq]
  split <;> rfl

theorem finish_eq {s : Session} (h : s.Sound) : s.finish.1 =
    if s.finished.diagnostics = [] then .ok ⟨s.advance.advance.decls.1⟩
    else .error s.finished.diagnostics := by
  have sound := h.of_moves s.moves_finished
  simp only [finish, s.program_eq]
  by_cases clean : s.finished.diagnostics = []
  · rw [if_pos clean, if_neg (by rw [sound.hasErrors_iff]; simp [clean])]
  · rw [if_neg clean, if_pos (sound.hasErrors_iff.mpr clean)]

theorem window_start (source : String) : (ofSource source).advance.advance.window =
    Window.ofItems (Item.group (Cursor.ofSource source).results) :=
  Window.slide_slide_ofSource source

theorem diagnostics_finished (source : String) : (ofSource source).finished.diagnostics =
    (ofSource source).advance.advance.decls.2.diagnostics := by
  have ended : (ofSource source).advance.advance.decls.2.window.Ended :=
    Moves.window_slide (P := Window.Ended) (fun _ h => h.slide) (moves_decls _)
      (Window.ended_ofSource source)
  have quiet := ended.errors_of_check (atEnd_decls _)
  rw [finished, diagnostics_advance, quiet]
  simp

theorem reads_of_finished {s : Session} (h : s.Sound) (clean : s.finished.diagnostics = []) :
    ∃ ts last, Reads s (s.current :: s.window.ahead.token :: (ts ++ [last])) s.finished ∧
      last.terminal = .ending ∧ ProgramTree ts s.advance.advance.decls.1 := by
  set first := s.advance.advance with hfirst
  have sound : first.Sound := h.of_moves (s.moves_advance.trans (moves_advance _))
  have calm : s.finished.panic = false := (h.of_moves s.moves_finished).panic_eq_false clean
  have quiet : first.decls.2.diagnostics = [] := by
    have before := first.decls.2.prefix_diagnostics_advance
    rw [show first.decls.2.advance = s.finished from rfl, clean] at before
    exact List.prefix_nil.mp before
  obtain ⟨ts, reads, tree⟩ := reads_of_decls first sound quiet
  have last : Reads first.decls.2 [first.decls.2.current] s.finished := (Reads.nil calm).advance
  refine ⟨ts, _, ?_, check_iff.mp first.atEnd_decls, tree⟩
  rw [← Window.current_slide]
  exact (reads.append last).advance.advance

theorem finished_of_reads {s s' : Session} {t u last : Token} {ts : List Token}
    {mains : List Block} (tree : ProgramTree ts mains)
    (reads : Reads s (t :: u :: (ts ++ [last])) s') (ending : last.terminal = .ending) :
    s.advance.advance.decls.1 = mains ∧ s.finished = s' := by
  obtain ⟨-, -, -, reads⟩ := Reads.cons_iff.mp reads
  obtain ⟨-, -, -, reads⟩ := Reads.cons_iff.mp reads
  obtain ⟨s₁, program, reads⟩ := reads.exists_of_append
  obtain ⟨rfl, -, -, reads⟩ := Reads.cons_iff.mp reads
  obtain ⟨rfl, -⟩ := Reads.nil_iff.mp reads
  have decls := decls_of_reads tree program (check_iff.mpr ending)
  exact ⟨by rw [decls], by rw [finished, decls]⟩

end Session

/-- The source consists of the tokens `ts`, and nothing is wrong with its text. -/
def HasTokens (source : String) (ts : List Token) : Prop :=
  ∃ line, (Cursor.ofSource source).results = ts.map .ok ++ [.ok (Token.ending line)]

theorem diagnostics_finish (source : String) :
    (Session.ofSource source).finish.2.diagnostics =
      (Session.ofSource source).advance.advance.decls.2.diagnostics := by
  rw [Session.finish_snd, Session.diagnostics_finished]

/-- A source has a program if no diagnostics are recorded, and else it has these. -/
theorem parse_eq (source : String) : parse source =
    if (Session.ofSource source).finish.2.diagnostics = [] then
      .ok ⟨(Session.ofSource source).advance.advance.decls.1⟩
    else .error (Session.ofSource source).finish.2.diagnostics := by
  rw [Session.finish_snd]
  exact Session.finish_eq (Session.sound_ofSource source)

theorem exists_parse_eq_ok_iff (source : String) :
    (∃ p, parse source = .ok p) ↔ (Session.ofSource source).finish.2.diagnostics = [] := by
  rw [parse_eq]
  split
  · next clean => exact ⟨fun _ => clean, fun _ => ⟨_, rfl⟩⟩
  · next reported => exact ⟨fun ⟨_, ok⟩ => (nomatch ok), fun clean => absurd clean reported⟩

theorem diagnostics_of_parse {source : String} {report : Report}
    (h : parse source = .error report) :
    (Session.ofSource source).finish.2.diagnostics = report ∧ report ≠ [] := by
  rw [parse_eq] at h
  split at h
  · cases h
  · next reported => cases h; exact ⟨rfl, reported⟩

/-- **The program of a source is the tree of its tokens.** -/
theorem parse_eq_ok_iff {source : String} {p : Program} :
    parse source = .ok p ↔ ∃ ts, HasTokens source ts ∧ ProgramTree ts p.mains := by
  have sound := Session.sound_ofSource source
  constructor
  · intro h
    rw [parse_eq, Session.finish_snd] at h
    split at h
    · next clean =>
      obtain ⟨ts, last, reads, ending, tree⟩ := Session.reads_of_finished sound clean
      have results := (passes_ofSource_iff source tree.ne_ending ending).mp ⟨_, reads.passes⟩
      obtain ⟨rs, line, all, -⟩ := exists_results_eq source
      obtain ⟨-, same⟩ := List.append_inj' (results.symm.trans all) rfl
      cases h
      refine ⟨ts, ⟨line, ?_⟩, tree⟩
      rw [results, same]
    · cases h
  · rintro ⟨ts, ⟨line, results⟩, tree⟩
    obtain ⟨w, passes⟩ := (passes_ofSource_iff source tree.ne_ending rfl).mpr results
    obtain ⟨s', reads⟩ := Session.exists_reads_of_passes (s := Session.ofSource source) passes rfl
    obtain ⟨mains, finished⟩ := Session.finished_of_reads tree reads rfl
    have clean : (Session.ofSource source).finished.diagnostics = [] := by
      rw [finished, reads.diagnostics_eq]
      rfl
    rw [parse_eq, Session.finish_snd, if_pos clean, mains]

theorem errors_of_parse {source : String} {report : Report}
    (h : parse source = .error report) : report ≠ [] ∧ ∀ d ∈ report, d.severity = .error := by
  obtain ⟨rfl, reported⟩ := diagnostics_of_parse h
  have sound := (Session.sound_ofSource source).of_moves (Session.moves_finished _)
  refine ⟨reported, ?_⟩
  rw [Session.finish_snd]
  exact sound.isError

/-! ## The literals of a source -/

theorem exists_charValue {c : Cursor} {t : Token} (h : .ok t ∈ c.results)
    (character : t.terminal = .character) : ∃ w, charValue t.lexeme = some w := by
  induction c using Cursor.cursor_induction with
  | nil c ended =>
    rw [Cursor.results_of_nil ended, List.mem_singleton] at h
    cases h
    cases character
  | cons c a cs starts ih =>
    rw [Cursor.results_of_cons starts] at h
    rcases List.mem_cons.mp h with first | later
    · obtain ⟨content, lexeme⟩ := Fragment.lexed_eq_ok first.symm
      rw [character] at content
      rcases Fragment.scan_content_eq_ok content with
        ⟨p, e⟩ | e | e | ⟨k, e⟩ | ⟨-, before, c', text⟩
      · cases e
      · cases e
      · cases e
      · cases e
      · refine ⟨lastUtf8Byte c', ?_⟩
        rw [← charValue_quoted before, ← text, ← lexeme, String.ofList_toList]
    · exact ih later

theorem HasTokens.literalsValued_iff {source : String} {ts : List Token}
    (h : HasTokens source ts) : LiteralsValued ts ↔
      ∀ t ∈ ts, t.terminal = .integer → ∃ w, readInt t.lexeme = .ok w := by
  obtain ⟨line, results⟩ := h
  constructor
  · intro valued t ht integer
    obtain ⟨w, value⟩ := valued t ht (.inl integer)
    rw [Token.value?, integer] at value
    cases read : readInt t.lexeme with
    | ok w => exact ⟨w, rfl⟩
    | error e => simp [read, Except.toOption] at value
  · intro valued t ht literal
    rcases literal with integer | character
    · obtain ⟨w, read⟩ := valued t ht integer
      exact ⟨w, by rw [Token.value?, integer]; simp [read, Except.toOption]⟩
    · have mem : .ok t ∈ (Cursor.ofSource source).results := by
        rw [results]
        exact List.mem_append_left _ (List.mem_map_of_mem ht)
      obtain ⟨w, value⟩ := exists_charValue mem character
      exact ⟨w, by rw [Token.value?, character]; exact value⟩

/-- **The parser accepts its grammar and builds the tree.** A source has a program exactly when
nothing is wrong with its text, its tokens derive from the grammar and its integers have values, and
then the program is the tree of the tokens. Any other source has a report, with errors only. -/
theorem parse_grammar (source : String) :
    (∀ p, parse source = .ok p ↔ ∃ ts, HasTokens source ts ∧ ProgramTree ts p.mains) ∧
    ((∃ p, parse source = .ok p) ↔
      ∃ ts, HasTokens source ts ∧ IsProgram (ts.map Token.terminal) ∧
        ∀ t ∈ ts, t.terminal = .integer → ∃ w, readInt t.lexeme = .ok w) ∧
    ∀ report, parse source = .error report → report ≠ [] ∧ ∀ d ∈ report, d.severity = .error := by
  refine ⟨fun p => parse_eq_ok_iff, ?_, fun report h => errors_of_parse h⟩
  constructor
  · rintro ⟨p, h⟩
    obtain ⟨ts, tokens, tree⟩ := parse_eq_ok_iff.mp h
    exact ⟨ts, tokens, tree.isProgram, tokens.literalsValued_iff.mp tree.literalsValued⟩
  · rintro ⟨ts, tokens, derives, valued⟩
    obtain ⟨mains, tree⟩ :=
      exists_programTree_iff.mpr ⟨derives, tokens.literalsValued_iff.mpr valued⟩
    exact ⟨⟨mains⟩, parse_eq_ok_iff.mpr ⟨ts, tokens, tree⟩⟩

end DeoLang
