import Mathlib
import DeoLang.Proofs.Program.Outputs
import DeoLang.Proofs.Session.InStep

/-!
# Declarations do not disturb each other

* `IsBalanced`, `IsGroups`: results with balanced braces, and main keywords with a block behind
  each.
* `IsGroups.shut`: the braces of groups close all that opens in them.
* `Session.decls_append`: the declarations and diagnostics of one source in front of another.
* **`parse_append`**: the errors of a source of groups do not reach into a source on the next line.
-/

namespace DeoLang

/-- A brace of either kind. -/
def IsBrace (r : Lexed) : Prop :=
  ∃ t, r = .ok t ∧ (t.terminal = .punct .braceOpen ∨ t.terminal = .punct .braceClose)

/-- Results with balanced braces. Whatever else stands among them does not matter. -/
inductive IsBalanced : List Lexed → Prop where
  | nil : IsBalanced []
  | other {r : Lexed} {rest : List Lexed} : ¬IsBrace r → IsBalanced rest → IsBalanced (r :: rest)
  | braces {opening closing : Token} {inner rest : List Lexed} :
      opening.terminal = .punct .braceOpen → IsBalanced inner →
      closing.terminal = .punct .braceClose → IsBalanced rest →
      IsBalanced (.ok opening :: inner ++ .ok closing :: rest)

/-- Groups of results. Each one starts with a main keyword and ends with the brace that closes the
first brace in it. -/
inductive IsGroups : List Lexed → Prop where
  | nil : IsGroups []
  | group {keyword opening closing : Token} {front inner rest : List Lexed} :
      keyword.terminal = .keyword .main → (∀ r ∈ front, ¬IsBrace r) →
      opening.terminal = .punct .braceOpen → IsBalanced inner →
      closing.terminal = .punct .braceClose → IsGroups rest →
      IsGroups (.ok keyword :: front ++ .ok opening :: inner ++ .ok closing :: rest)

/-- The terminal of a result that is a token. -/
def Lexed.terminal? : Lexed → Option Terminal
  | .ok t => some t.terminal
  | .error _ => none

/-- The terminals of the tokens among results. -/
def terminals (rs : List Lexed) : List Terminal :=
  rs.filterMap Lexed.terminal?

@[simp] theorem terminals_nil : terminals [] = [] := rfl

@[simp] theorem terminals_ok (t : Token) (rs : List Lexed) :
    terminals (.ok t :: rs) = t.terminal :: terminals rs := rfl

@[simp] theorem terminals_error (e : LexError) (rs : List Lexed) :
    terminals (.error e :: rs) = terminals rs := rfl

@[simp] theorem terminals_append (rs rs' : List Lexed) :
    terminals (rs ++ rs') = terminals rs ++ terminals rs' :=
  List.filterMap_append

theorem isBalanced_of_forall {rs : List Lexed} (h : ∀ r ∈ rs, ¬IsBrace r) : IsBalanced rs := by
  induction rs with
  | nil => exact .nil
  | cons r rs ih =>
    obtain ⟨first, later⟩ := List.forall_mem_cons.mp h
    exact .other first (ih later)

theorem IsBalanced.shut {rs : List Lexed} (h : IsBalanced rs) {depth : Nat} {ts : List Terminal}
    (more : ts ≠ []) (rest : Shut depth ts) : Shut depth (terminals rs ++ ts) := by
  induction h generalizing depth ts with
  | nil => exact rest
  | @other r rs other _ ih =>
    cases r with
    | error e => exact ih more rest
    | ok t =>
      have opening : t.terminal ≠ .punct .braceOpen := fun h => other ⟨t, rfl, .inl h⟩
      have closing : t.terminal ≠ .punct .braceClose := fun h => other ⟨t, rfl, .inr h⟩
      refine ⟨fun _ => List.append_ne_nil_of_right_ne_nil _ more, ?_⟩
      rw [depthBehind_eq opening closing]
      exact ih more rest
  | @braces o c inner rs opening _ closing _ ihi ihr =>
    have whole : terminals (.ok o :: inner ++ .ok c :: rs) ++ ts =
        .punct .braceOpen :: (terminals inner ++ .punct .braceClose :: (terminals rs ++ ts)) := by
      simp [opening, closing]
    rw [whole]
    refine ⟨by simp, ihi (List.cons_ne_nil _ _) ⟨by simp, ?_⟩⟩
    exact ihr more rest

theorem IsGroups.shut {rs : List Lexed} (h : IsGroups rs) : Shut 0 (terminals rs) := by
  induction h with
  | nil => rfl
  | @group m o c front inner rs keyword others opening balanced closing _ ih =>
    have whole : terminals (.ok m :: front ++ .ok o :: inner ++ .ok c :: rs) =
        .keyword .main :: (terminals front ++ .punct .braceOpen ::
          (terminals inner ++ .punct .braceClose :: terminals rs)) := by
      simp [keyword, opening, closing]
    rw [whole]
    refine ⟨by simp, (isBalanced_of_forall others).shut (List.cons_ne_nil _ _) ⟨by simp, ?_⟩⟩
    exact balanced.shut (List.cons_ne_nil _ _) ⟨by simp, ih⟩

theorem IsGroups.getLast? {rs : List Lexed} (h : IsGroups rs) :
    ∀ r ∈ rs.getLast?, ∃ t, r = .ok t := by
  induction h with
  | nil => simp
  | @group m o c front inner rs _ _ _ _ _ _ ih =>
    intro r hr
    rw [List.getLast?_append, List.getLast?_cons, Option.some_or] at hr
    cases last : rs.getLast? with
    | none => exact ⟨c, by simpa [last, eq_comm] using hr⟩
    | some r' => exact ih r (by simpa [last] using hr)

theorem IsGroups.exists_head {rs : List Lexed} (h : IsGroups rs) (e : Token) :
    ∃ t rest, rs ++ [.ok e] = .ok t :: rest := by
  cases h with
  | nil => exact ⟨e, [], rfl⟩
  | group => exact ⟨_, _, rfl⟩

/-! ## Items of groups -/

theorem map_terminal_groupAfter (errors : List LexError) (rs : List Lexed) :
    (Item.groupAfter [] errors rs).map (fun i => i.token.terminal) = terminals rs := by
  induction rs generalizing errors with
  | nil => rfl
  | cons r rs ih =>
    cases r with
    | error e => exact ih (e :: errors)
    | ok t =>
      rw [Item.groupAfter, Item.groupAfter_eq_append, List.map_append, ih]
      rfl

theorem map_terminal_group (rs : List Lexed) :
    (Item.group rs).map (fun i => i.token.terminal) = terminals rs :=
  map_terminal_groupAfter [] rs

theorem ne_ending_of_mem_group {rs : List Lexed} (others : ∀ t, .ok t ∈ rs → t.terminal ≠ .ending)
    {i : Item} (mem : i ∈ Item.group rs) : i.token.terminal ≠ .ending := by
  have terminal : i.token.terminal ∈ terminals rs := by
    rw [← map_terminal_group]
    exact List.mem_map_of_mem mem
  obtain ⟨r, hr, same⟩ := List.mem_filterMap.mp terminal
  cases r with
  | error e => cases same
  | ok t => exact Option.some.inj same ▸ others t hr

theorem group_append {rs : List Lexed} (last : ∀ r ∈ rs.getLast?, ∃ t, r = .ok t)
    (rs' : List Lexed) : Item.group (rs ++ rs') = Item.group rs ++ Item.group rs' := by
  rcases List.eq_nil_or_concat rs with rfl | ⟨front, r, rfl⟩
  · rfl
  · rw [List.concat_eq_append] at last ⊢
    obtain ⟨t, rfl⟩ := last r (by simp)
    have items := group_flatMap_results (Item.group (front ++ [.ok t])) rs'
    rwa [flatMap_results_group] at items

namespace Session

/-- A session in front of the first token of a source, if no error comes before it. -/
theorem start_ofSource {source : String} {t : Token} {rest : List Lexed}
    (results : (Cursor.ofSource source).results = .ok t :: rest) :
    (ofSource source).advance.advance.window =
      Window.ofItems (Item.group (Cursor.ofSource source).results) ∧
    (ofSource source).advance.advance.panic = false ∧
    (ofSource source).advance.advance.diagnostics = [] := by
  have first : (ofSource source).window.errors = [] := rfl
  have second : (ofSource source).advance.window.errors = [] := by
    have group : Item.group (.ok t :: rest) = ⟨[], t⟩ :: Item.group rest :=
      Item.group_errors_cons [] t rest
    rw [window_advance]
    change (Window.ofSource source).slide.errors = []
    rw [Window.ofSource_eq_ofItems, results, group, Window.slide_ofItems]
    rfl
  refine ⟨window_start source, ?_, ?_⟩
  · rw [panic_advance, panic_advance, first, second]
    rfl
  · rw [diagnostics_advance, panic_advance, diagnostics_advance, first, second]
    rfl

end Session

/-! ## Shifting by no lines -/

theorem shiftBody_zero (body : List Stmt) : shiftBody 0 body = body := by
  induction body using body_induction with
  | nil => simp
  | deo device value rest ih => simp [ih]
  | block line body rest ihb ihr => simp [ihb, ihr]

theorem map_blockShift_zero (mains : List Block) : mains.map (Block.shift 0) = mains := by
  have same : Block.shift 0 = id := by
    funext b
    rw [Block.shift, shiftBody_zero]
    rfl
  rw [same, List.map_id]

theorem map_diagnosticShift_zero (ds : Report) : ds.map (Diagnostic.shift 0) = ds :=
  List.map_id ds

namespace Session

variable {s s' : Session}

/-- Items whose braces close all that opens in them give the same declarations and diagnostics in
front of a main block or an end. Behind them nothing is held back. -/
theorem decls_of_shut {items later : List Item} {last next : Token}
    (window : s.window = Window.ofItems (items ++ [.quiet last]))
    (window' : s'.window = Window.ofItems (items ++ .quiet next :: later))
    (ending : last.terminal = .ending)
    (stop : next.terminal = .ending ∨ next.terminal = .keyword .main)
    (others : ∀ i ∈ items, i.token.terminal ≠ .ending)
    (shut : Shut 0 (items.map fun i => i.token.terminal))
    (calm : s.panic = false) (calm' : s'.panic = false)
    (diagnostics : s.diagnostics = []) (diagnostics' : s'.diagnostics = []) :
    ∃ s'' : Session, s'.decls = (s.decls.1 ++ s''.decls.1, s''.decls.2) ∧
      s''.window = Window.ofItems (.quiet next :: later) ∧ s''.panic = false ∧
      s''.diagnostics = s.decls.2.diagnostics := by
  let seam : Seam 0 := ⟨.quiet last, .quiet next, later, [], ending, stop, rfl⟩
  have inStep : InStep seam 0 s s' := by
    refine ⟨items, window, ?_, others, .inr shut, calm'.trans calm.symm, ?_⟩
    · rw [map_shift_zero]
      exact window'
    · rw [diagnostics, diagnostics']
      rfl
  obtain ⟨s'', behind, decls⟩ := inStep.decls
  obtain ⟨window'', panic'', diagnostics''⟩ := behind.at_seam s.atEnd_decls
  rw [map_blockShift_zero] at decls
  rw [map_diagnosticShift_zero] at diagnostics''
  exact ⟨s'', decls, window'', panic''.trans (panic_decls calm), diagnostics''⟩

/-- The same items further down give the same declarations and diagnostics, further down. -/
theorem decls_shift {k : Nat} {front : List Item} {last : Item}
    (window : s.window = Window.ofItems (front ++ [last]))
    (window' : s'.window = Window.ofItems ((front ++ [last]).map (Item.shift k)))
    (ending : last.token.terminal = .ending)
    (others : ∀ i ∈ front, i.token.terminal ≠ .ending)
    (calm : s.panic = false) (calm' : s'.panic = false) (diagnostics : s.diagnostics = []) :
    s'.decls.1 = s.decls.1.map (Block.shift k) ∧
      s'.decls.2.diagnostics =
        s'.diagnostics ++ s.decls.2.diagnostics.map (Diagnostic.shift k) := by
  have inStep : InStep (.atEnding k s'.diagnostics ending) 0 s s' := by
    refine ⟨front, window, ?_, others, .inl rfl, calm'.trans calm.symm, ?_⟩
    · rw [window', List.map_append]
      rfl
    · rw [diagnostics]
      exact (List.append_nil _).symm
  exact inStep.decls_atEnding

/-- **The declarations of a source of groups in front of another source.** If the results of `c` are
those of the groups of `a` and then those of `b`, further down, then `c` has the declarations and
the diagnostics of `a` and then those of `b`, further down. -/
theorem decls_append {a b c : String} {k : Nat} {rs later : List Lexed} {last first : Token}
    (resultsA : (Cursor.ofSource a).results = rs ++ [.ok last]) (groups : IsGroups rs)
    (resultsB : (Cursor.ofSource b).results = .ok first :: later)
    (start : first.terminal = .keyword .main ∨ first.terminal = .ending)
    (resultsC : (Cursor.ofSource c).results =
      rs ++ (Cursor.ofSource b).results.map (Lexed.shift k)) :
    (ofSource c).advance.advance.decls.1 = (ofSource a).advance.advance.decls.1 ++
      (ofSource b).advance.advance.decls.1.map (Block.shift k) ∧
    (ofSource c).advance.advance.decls.2.diagnostics =
      (ofSource a).advance.advance.decls.2.diagnostics ++
        (ofSource b).advance.advance.decls.2.diagnostics.map (Diagnostic.shift k) := by
  obtain ⟨t, rest, headA⟩ := groups.exists_head last
  obtain ⟨u, rest', headC⟩ := groups.exists_head (first.shift k)
  have shapeC : (Cursor.ofSource c).results = .ok u :: (rest' ++ later.map (Lexed.shift k)) := by
    rw [resultsC, resultsB, List.map_cons, ← List.cons_append, ← headC, List.append_assoc]
    rfl
  obtain ⟨windowA, calmA, noneA⟩ := start_ofSource (resultsA.trans headA)
  obtain ⟨windowB, calmB, noneB⟩ := start_ofSource resultsB
  obtain ⟨windowC, calmC, noneC⟩ := start_ofSource shapeC
  have itemsB : Item.group (Cursor.ofSource b).results = .quiet first :: Item.group later := by
    rw [resultsB]
    exact Item.group_errors_cons [] first later
  have itemsC : Item.group (Cursor.ofSource c).results = Item.group rs ++
      (Item.group (Cursor.ofSource b).results).map (Item.shift k) := by
    rw [resultsC, group_append groups.getLast?, group_map_shift]
  -- up to the seam the source is the first one
  obtain ⟨s, decls, window, calm, diagnostics⟩ : ∃ s : Session,
      (ofSource c).advance.advance.decls =
        ((ofSource a).advance.advance.decls.1 ++ s.decls.1, s.decls.2) ∧
      s.window = Window.ofItems ((Item.group (Cursor.ofSource b).results).map (Item.shift k)) ∧
      s.panic = false ∧ s.diagnostics = (ofSource a).advance.advance.decls.2.diagnostics := by
    obtain ⟨rs', line, resultsA', others⟩ := exists_results_eq a
    obtain ⟨rfl, tail⟩ := List.append_inj' (resultsA.symm.trans resultsA') rfl
    obtain rfl : last = Token.ending line := by simpa using tail
    rw [resultsA, group_append groups.getLast?] at windowA
    rw [itemsC, itemsB] at windowC
    rw [itemsB]
    refine decls_of_shut windowA windowC rfl start.symm (fun i => ne_ending_of_mem_group others) ?_
      calmA calmC noneA noneC
    rw [map_terminal_group]
    exact groups.shut
  -- from there on it is the second one, further down
  obtain ⟨front, final, groupB, ending, others⟩ := exists_group_eq b
  rw [groupB] at windowB window
  obtain ⟨mains, report⟩ := decls_shift windowB window ending others calmB calm noneB
  rw [decls]
  dsimp only
  rw [mains, report, diagnostics]
  exact ⟨rfl, rfl⟩

end Session

/-- Parsing `b` on the line behind `a` is parsing `a` and then parsing `b` further down. -/
structure ParseApart (a b : String) : Prop where
  diagnostics : (Session.ofSource (a ++ "\n" ++ b)).finish.2.diagnostics =
    (Session.ofSource a).finish.2.diagnostics ++
      (Session.ofSource b).finish.2.diagnostics.map (Diagnostic.shift (1 + a.toList.count '\n'))
  succeeds : (∃ r, parse (a ++ "\n" ++ b) = .ok r) ↔
    (∃ p, parse a = .ok p) ∧ ∃ q, parse b = .ok q
  program : ∀ p q, parse a = .ok p → parse b = .ok q → parse (a ++ "\n" ++ b) =
    .ok ⟨p.mains ++ q.mains.map (Block.shift (1 + a.toList.count '\n'))⟩

theorem results_append_newline {a : String} {rs : List Lexed} {last : Token}
    (results : (Cursor.ofSource a).results = rs ++ [.ok last]) (groups : IsGroups rs)
    (b : String) : (Cursor.ofSource (a ++ "\n" ++ b)).results =
      rs ++ (Cursor.ofSource b).results.map (Lexed.shift (1 + a.toList.count '\n')) :=
  Cursor.results_ofSource_append results groups.getLast? b

/-- **Declarations do not disturb each other.** Let the results of `a` be groups and its end, and
let those of `b` start with a main keyword or be its end only. Then `b` on the line behind `a` adds
its own diagnostics and its own main blocks to those of `a`, on the lines where they then stand. -/
theorem parse_append {a b : String} {rs later : List Lexed} {last first : Token}
    (resultsA : (Cursor.ofSource a).results = rs ++ [.ok last]) (groups : IsGroups rs)
    (resultsB : (Cursor.ofSource b).results = .ok first :: later)
    (start : first.terminal = .keyword .main ∨ first.terminal = .ending) : ParseApart a b := by
  obtain ⟨mains, report⟩ := Session.decls_append resultsA groups resultsB start
    (results_append_newline resultsA groups b)
  rw [← diagnostics_finish, ← diagnostics_finish, ← diagnostics_finish] at report
  refine ⟨report, ?_, ?_⟩
  · rw [exists_parse_eq_ok_iff, exists_parse_eq_ok_iff, exists_parse_eq_ok_iff, report,
      List.append_eq_nil_iff, List.map_eq_nil_iff]
  · intro p q okA okB
    have noneA := (exists_parse_eq_ok_iff a).mp ⟨p, okA⟩
    have noneB := (exists_parse_eq_ok_iff b).mp ⟨q, okB⟩
    rw [parse_eq, if_pos noneA] at okA
    rw [parse_eq, if_pos noneB] at okB
    have noneC : (Session.ofSource (a ++ "\n" ++ b)).finish.2.diagnostics = [] := by
      rw [report, noneA, noneB]
      rfl
    cases okA
    cases okB
    rw [parse_eq, if_pos noneC, mains]

/-- A main block with an error in its text and another one in inner braces. -/
def brokenMain : String :=
  "main \x7b deo $\n \x7b + \x7d \x7d # one"

/-- A main block and a brace too many. -/
def strayBrace : String :=
  "main \x7b \x7d\n\x7d"

theorem parse_append_brokenMain : ∃ (rs later : List Lexed) (last first : Token),
    (Cursor.ofSource brokenMain).results = rs ++ [.ok last] ∧ IsGroups rs ∧
      (Cursor.ofSource strayBrace).results = .ok first :: later ∧
      (first.terminal = .keyword .main ∨ first.terminal = .ending) ∧
      ParseApart brokenMain strayBrace := by
  have resultsA : (Cursor.ofSource brokenMain).results =
      ([.ok ⟨.keyword .main, "main", 1⟩, .ok ⟨.punct .braceOpen, "\x7b", 1⟩,
        .ok ⟨.keyword .deo, "deo", 1⟩, .error ⟨.unknown '$', 1⟩,
        .ok ⟨.punct .braceOpen, "\x7b", 2⟩, .ok ⟨.punct .plus, "+", 2⟩,
        .ok ⟨.punct .braceClose, "\x7d", 2⟩, .ok ⟨.punct .braceClose, "\x7d", 2⟩] : List Lexed) ++
        [Except.ok (Token.ending 2)] := by cbv
  have resultsB : (Cursor.ofSource strayBrace).results =
      (.ok ⟨.keyword .main, "main", 1⟩ :: [.ok ⟨.punct .braceOpen, "\x7b", 1⟩,
        .ok ⟨.punct .braceClose, "\x7d", 1⟩, .ok ⟨.punct .braceClose, "\x7d", 2⟩,
        .ok (Token.ending 2)] : List Lexed) := by cbv
  have other {r : Lexed} (opening : r.terminal? ≠ some (.punct .braceOpen))
      (closing : r.terminal? ≠ some (.punct .braceClose)) : ¬IsBrace r := by
    rintro ⟨t, rfl, brace | brace⟩
    · exact opening (congrArg some brace)
    · exact closing (congrArg some brace)
  have plus : IsBalanced [.ok ⟨.punct .plus, "+", 2⟩] := .other (other (by decide) (by decide)) .nil
  have braces : IsBalanced [.ok ⟨.punct .braceOpen, "\x7b", 2⟩, .ok ⟨.punct .plus, "+", 2⟩,
      .ok ⟨.punct .braceClose, "\x7d", 2⟩] := .braces rfl plus rfl .nil
  have inner : IsBalanced [.ok ⟨.keyword .deo, "deo", 1⟩, .error ⟨.unknown '$', 1⟩,
      .ok ⟨.punct .braceOpen, "\x7b", 2⟩, .ok ⟨.punct .plus, "+", 2⟩,
      .ok ⟨.punct .braceClose, "\x7d", 2⟩] :=
    .other (other (by decide) (by decide)) (.other (other (by decide) (by decide)) braces)
  have groups := @IsGroups.group ⟨.keyword .main, "main", 1⟩ ⟨.punct .braceOpen, "\x7b", 1⟩
    ⟨.punct .braceClose, "\x7d", 2⟩ [] _ [] rfl (by simp) rfl inner rfl .nil
  exact ⟨_, _, _, _, resultsA, groups, resultsB, .inl rfl,
    parse_append resultsA groups resultsB (.inl rfl)⟩

end DeoLang
