import DeoLang.Build
import DeoLang.Proofs.Image.Decode
import DeoLang.Proofs.Program.Review
import DeoLang.Proofs.Session.Lines
import DeoLang.Proofs.Token.Shift

/-!
# Layout

* `Finding.plain`, `mainsFindings_reline`: the findings of a review, apart from lines, are those of
  the program with all blocks at one line.
* `severities_report`: under a policy the severities of a report do not depend on lines.
* `Verdict`, `verdict`: what a build comes to apart from lines.
* **`verdict_eq_of_plain`**: sources with the same results apart from lines come to the same.
* `Cursor.Lexes.insert`: trivia behind a token change nothing but the lines further down.
* **`insert_trivia`**: trivia between tokens change nothing but lines, up to the image.
-/

namespace DeoLang

/-! ## Findings apart from lines -/

/-- The cause apart from the line of the first main block. -/
def Cause.plain : Cause → Cause
  | divisionByZero => divisionByZero
  | duplicateMain _ => duplicateMain 0
  | wideDevice device => wideDevice device

/-- The finding apart from its lines. -/
def Finding.plain (f : Finding) : Finding :=
  ⟨0, f.cause.plain⟩

theorem Expr.map_plain_findings (line : Nat) (e : Expr) :
    (e.findings line).map Finding.plain = e.findings 0 := by
  induction e with
  | literal value => rfl
  | binary op lhs rhs ihl ihr =>
    rw [findings, List.map_append, List.map_append, ihl, ihr, findings]
    split <;> rfl

theorem map_plain_deviceFindings (line : Nat) (device : Expr) :
    (deviceFindings line device).map Finding.plain = deviceFindings 0 device := by
  unfold deviceFindings
  cases device.value? with
  | none => rfl
  | some value =>
    dsimp only
    split <;> rfl

theorem Output.map_plain_findings (line : Nat) (o : Output) :
    (o.findings line).map Finding.plain = o.findings 0 := by
  rw [findings, List.map_append, List.map_append, Expr.map_plain_findings,
    Expr.map_plain_findings, map_plain_deviceFindings, findings]

theorem bodyFindings_reline (line : Nat) (body : List Stmt) :
    bodyFindings 0 (relineBody 0 body) = (bodyFindings line body).map Finding.plain := by
  induction body using body_induction generalizing line with
  | nil => simp [bodyFindings]
  | deo device value rest ih =>
    rw [relineBody_deo, bodyFindings, bodyFindings, List.map_append, Output.map_plain_findings,
      ih line]
  | block inner body rest ihb ihr =>
    rw [relineBody_block, bodyFindings, bodyFindings, List.map_append, ihb inner, ihr line]

theorem laterFindings_reline (first : Nat) (b : Block) :
    laterFindings 0 (b.reline 0) = (laterFindings first b).map Finding.plain := by
  rw [laterFindings, laterFindings, List.map_cons, ← bodyFindings_reline]
  rfl

theorem mainsFindings_reline (mains : List Block) :
    mainsFindings (mains.map (Block.reline 0)) = (mainsFindings mains).map Finding.plain := by
  cases mains with
  | nil => rfl
  | cons first later =>
    have rest : (later.map (Block.reline 0)).flatMap (laterFindings 0) =
        (later.flatMap (laterFindings first.line)).map Finding.plain := by
      rw [List.flatMap_map, List.map_flatMap]
      exact congrArg (List.flatMap · later) (funext fun b => laterFindings_reline first.line b)
    rw [mainsFindings, List.map_append, ← bodyFindings_reline, ← rest]
    rfl

theorem Policy.level_plain (policy : Policy) (cause : Cause) :
    policy.level cause.plain = policy.level cause := by
  cases cause <;> rfl

theorem Policy.severity_judge_plain (policy : Policy) (f : Finding) :
    (policy.judge f.plain).map Diagnostic.severity = (policy.judge f).map Diagnostic.severity := by
  have level : policy.level f.plain.cause = policy.level f.cause := policy.level_plain f.cause
  rw [judge, judge, level]
  cases policy.level f.cause <;> rfl

theorem severities_report (policy : Policy) {p q : Program}
    (same : p.mains.map (Block.reline 0) = q.mains.map (Block.reline 0)) :
    (p.report policy).map Diagnostic.severity = (q.report policy).map Diagnostic.severity := by
  have plain (p : Program) : (p.report policy).map Diagnostic.severity =
      (mainsFindings (p.mains.map (Block.reline 0))).filterMap
        fun f => (policy.judge f).map Diagnostic.severity := by
    rw [← filterMap_judge_program, findings_eq, List.map_filterMap, mainsFindings_reline,
      List.filterMap_map]
    exact congrArg (List.filterMap · _) (funext fun f => (policy.severity_judge_plain f).symm)
  rw [plain, plain, same]

/-! ## Builds apart from lines -/

/-- What a build comes to, apart from the lines in it. -/
inductive Verdict where
  | built (image : List Byte) (warnings : Nat)
  | parsing (report : Report)
  | semantics (severities : List Severity)
  | tooLarge (size : Nat)
  deriving Repr, DecidableEq

/-- What a build comes to. In a report of a review the messages may name a line as well, so that
only the severities are left of it. -/
def verdict : Except BuildError Build → Verdict
  | .ok b => .built b.image b.warnings.length
  | .error (.parsing report) => .parsing (report.map Diagnostic.plain)
  | .error (.semantics report) => .semantics (report.map Diagnostic.severity)
  | .error (.tooLarge size) => .tooLarge size

theorem hasErrors_eq_any (report : Report) :
    report.hasErrors = (report.map Diagnostic.severity).any (· = .error) := by
  rw [List.any_map]
  rfl

theorem verdict_eq_of_severities {policy : Policy} {p q : Program} (image : p.image = q.image)
    (severities : (p.report policy).map Diagnostic.severity =
      (q.report policy).map Diagnostic.severity) {a b : String}
    (first : parse a = .ok p) (second : parse b = .ok q) :
    verdict (compile policy a) = verdict (compile policy b) := by
  have errors : (p.report policy).hasErrors = (q.report policy).hasErrors := by
    rw [hasErrors_eq_any, hasErrors_eq_any, severities]
  have length : (p.report policy).length = (q.report policy).length := by
    rw [← List.length_map (f := Diagnostic.severity), severities, List.length_map]
  simp only [compile, first, second, review_eq_ite, errors]
  by_cases bad : (q.report policy).hasErrors = true
  · simp only [if_pos bad, verdict, severities]
  · simp only [if_neg bad, Program.build, image]
    split <;> simp only [verdict, length]

/-- **Sources with the same results apart from lines come to the same**, under every policy. -/
theorem verdict_eq_of_plain {a b : String} (same : (Cursor.ofSource a).results.map Lexed.plain =
    (Cursor.ofSource b).results.map Lexed.plain) (policy : Policy) :
    verdict (compile policy a) = verdict (compile policy b) := by
  rcases parse_plain same with ⟨p, q, first, second, mains⟩ | ⟨r, r', first, second, reports⟩
  · have reline : Block.outputs ∘ Block.reline 0 = Block.outputs := funext (Block.outputs_reline 0)
    have outputs := congrArg (List.map Block.outputs) mains
    rw [List.map_map, List.map_map, reline] at outputs
    exact verdict_eq_of_severities (image_eq_of_outputs outputs) (severities_report policy mains)
      first second
  · simp only [compile, first, second, verdict, reports]

/-! ## Trivia between tokens -/

theorem Lexed.plain_shift (k : Nat) (r : Lexed) : (r.shift k).plain = r.plain := by
  cases r <;> rfl

/-- Trivia behind a token, or in front of everything, change nothing but the lines of what is lexed
behind them. -/
theorem Cursor.Lexes.insert {c : Cursor} {rs : List Lexed} {front rest : List Char} {line : Nat}
    (h : c.Lexes rs ⟨rest, line⟩) (text : c.rest = front ++ rest)
    (token : ∀ r ∈ rs.getLast?, ∃ t, r = .ok t) {t : List Char} (trivia : Trivia false t) :
    (Cursor.mk (front ++ (t ++ rest)) c.line).results =
      rs ++ (Cursor.mk rest line).results.map (Lexed.shift (t.count '\n')) := by
  rw [← results_shift]
  by_cases empty : t = []
  · -- a word may follow the token at once, and it is left where it is
    subst empty
    rw [List.nil_append, ← text]
    exact h.results
  have stop : ∀ b ∈ (t ++ rest).head?, isWordRest b = false :=
    trivia.stop fun h => absurd h empty
  obtain ⟨p, text', -, -, lexes⟩ := h.replace token stop
  obtain rfl : front = p := List.append_cancel_right (text.symm.trans text')
  have skipped : (Cursor.mk (t ++ rest) line).skip =
      ((Cursor.mk rest line).shift (t.count '\n')).skip := skipFrom_trivia trivia rest line
  rw [lexes.results, results_eq_of_skip skipped]

/-- **Trivia do not change the meaning of a source.** Let `u` be empty or end with a token of the
source `u ++ v`, and let `w` consist of blanks and of comments that end with their lines. With `w`
between the two, the results up to the end of `u` stay what they are. Those from there on, the end
last, move down by the lines of `w` and are the same otherwise. Under every policy both sources
come to the same: the same image, or the same kind of failure with as many diagnostics. -/
theorem insert_trivia {u v w : String} {rs : List Lexed} {line : Nat}
    (cut : (Cursor.ofSource (u ++ v)).Lexes rs ⟨v.toList, line⟩)
    (token : ∀ r ∈ rs.getLast?, ∃ t, r = .ok t) (trivia : Trivia false w.toList) :
    ∃ (later : List Lexed) (last : Nat), later.getLast? = some (.ok (Token.ending last)) ∧
      (Cursor.ofSource (u ++ v)).results = rs ++ later ∧
      (Cursor.ofSource (u ++ w ++ v)).results =
        rs ++ later.map (Lexed.shift (w.toList.count '\n')) ∧
      ∀ policy, verdict (compile policy (u ++ w ++ v)) = verdict (compile policy (u ++ v)) := by
  obtain ⟨pieces, spaces, partition⟩ := exists_isPartition (Cursor.mk v.toList line)
  have inserted := cut.insert String.toList_append token trivia
  have text : Cursor.ofSource (u ++ w ++ v) =
      ⟨u.toList ++ (w.toList ++ v.toList), (Cursor.ofSource (u ++ v)).line⟩ := by
    simp [Cursor.ofSource]
  rw [← text] at inserted
  have last := congrArg List.getLast? partition.results
  rw [List.getLast?_concat] at last
  refine ⟨_, _, last, cut.results, inserted, verdict_eq_of_plain ?_⟩
  have plain (k : Nat) : Lexed.plain ∘ Lexed.shift k = Lexed.plain := funext (Lexed.plain_shift k)
  rw [inserted, cut.results, List.map_append, List.map_append, List.map_map, plain]

/-- Behind the device of an output there is a comment. -/
theorem insert_trivia_device :
    verdict (compile .default ("main \x7b deo 2" ++ " # low\n" ++ ",65 \x7d")) =
      .built [0xA0, 0x00, 0x41, 0xA0, 0x00, 0x02, 0x03, 0x37, 0x00] 0 := by
  have cut : (Cursor.ofSource ("main \x7b deo 2" ++ ",65 \x7d")).Lexes
      [.ok ⟨.keyword .main, "main", 1⟩, .ok ⟨.punct .braceOpen, "\x7b", 1⟩,
        .ok ⟨.keyword .deo, "deo", 1⟩, .ok ⟨.integer, "2", 1⟩] ⟨",65 \x7d".toList, 1⟩ :=
    .cons (by decide) (.cons (by decide) (.cons (by decide) (.cons (by decide) (.nil _))))
  have token : ∀ r ∈ [(.ok ⟨.integer, "2", 1⟩ : Lexed)].getLast?, ∃ t, r = .ok t := by
    rintro _ ⟨⟩
    exact ⟨_, rfl⟩
  have trivia : Trivia false " # low\n".toList :=
    .blank (by decide) (.comment (show '\n' ∉ " low".toList by decide) (.blank (by decide) .nil))
  obtain ⟨later, last, -, -, -, same⟩ := insert_trivia cut token trivia
  rw [same .default]
  cbv

end DeoLang
