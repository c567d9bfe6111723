import DeoLang.Proofs.Session.Parse
import DeoLang.Proofs.Token.Shift

/-!
# Sessions in step

* `Diagnostic.shift`, `shiftBody`, `Block.shift`: the same some lines further down.
* `Shut`: the braces of terminals close the blocks around them and all that open in them.
* `Seam`: what two sessions have in front of them behind the items that they share; with
  `Seam.atEnding` that is the same end.
* `InStep`: two sessions have the same in front of them, up to a seam.
* **`bodyInStep`**, **`InStep.decls`**: sessions in step build the same and stay in step, up to
  the seam.
-/

namespace DeoLang

variable {k : Nat}

/-- The diagnostic `k` lines further down. -/
def Diagnostic.shift (k : Nat) (d : Diagnostic) : Diagnostic :=
  { d with line := d.line + k }

/-- The statements `k` lines further down. -/
def shiftBody (k : Nat) : List Stmt → List Stmt
  | [] => []
  | .deo device value :: rest => .deo device value :: shiftBody k rest
  | .block line body :: rest => .block (line + k) (shiftBody k body) :: shiftBody k rest

/-- The block `k` lines further down. -/
def Block.shift (k : Nat) (b : Block) : Block :=
  ⟨b.line + k, shiftBody k b.body⟩

@[simp] theorem shiftBody_nil : shiftBody k [] = [] := by
  rw [shiftBody]

@[simp] theorem shiftBody_deo (device value : Expr) (rest : List Stmt) :
    shiftBody k (.deo device value :: rest) = .deo device value :: shiftBody k rest := by
  rw [shiftBody]

@[simp] theorem shiftBody_block (line : Nat) (body rest : List Stmt) :
    shiftBody k (.block line body :: rest) =
      .block (line + k) (shiftBody k body) :: shiftBody k rest := by
  rw [shiftBody]

theorem shiftBody_append (before after : List Stmt) :
    shiftBody k (before ++ after) = shiftBody k before ++ shiftBody k after := by
  induction before with
  | nil => simp
  | cons stmt before ih => cases stmt <;> simp [ih]

/-! ## Braces -/

/-- How many blocks are open behind a terminal. -/
def depthBehind (depth : Nat) : Terminal → Nat
  | .punct .braceOpen => depth + 1
  | .punct .braceClose => depth - 1
  | _ => depth

theorem depthBehind_le {m n : Nat} (h : m ≤ n) (t : Terminal) :
    depthBehind m t ≤ depthBehind n t := by
  unfold depthBehind
  split <;> omega

theorem depthBehind_eq {depth : Nat} {t : Terminal} (opening : t ≠ .punct .braceOpen)
    (closing : t ≠ .punct .braceClose) : depthBehind depth t = depth := by
  unfold depthBehind
  split
  · exact absurd rfl opening
  · exact absurd rfl closing
  · rfl

/-- The braces of terminals close the `depth` blocks around them and all that open in them.
Something follows a main keyword. -/
def Shut : Nat → List Terminal → Prop
  | depth, [] => depth = 0
  | depth, t :: ts => (t = .keyword .main → ts ≠ []) ∧ Shut (depthBehind depth t) ts

theorem Shut.mono {m n : Nat} {ts : List Terminal} (h : Shut n ts) (le : m ≤ n) : Shut m ts := by
  induction ts generalizing m n with
  | nil => exact Nat.le_zero.mp (Nat.le_trans le (Nat.le_of_eq h))
  | cons t ts ih => exact ⟨h.1, ih h.2 (depthBehind_le le t)⟩

/-! ## Seams -/

/-- What two sessions have in front of them behind the items that they share: the one its end, the
other an end or a main block, with the same errors in front. The other one has had the diagnostics
`base` before. -/
structure Seam (k : Nat) where
  last : Item
  next : Item
  later : List Item
  base : Report
  ending : last.token.terminal = .ending
  stop : next.token.terminal = .ending ∨ next.token.terminal = .keyword .main
  errors : next.errors = last.errors.map (LexError.shift k)

/-- The seam of two sessions that both come to the same end. -/
def Seam.atEnding (k : Nat) (base : Report) {last : Item}
    (ending : last.token.terminal = .ending) : Seam k :=
  ⟨last, last.shift k, [], base, ending, .inl ending, rfl⟩

namespace Session

/-- Two sessions have shared items in front of them, those of the second one `k` lines further down,
and their diagnostics are the same. Either the seam belongs to what is shared, or the braces of the
shared items close the `depth` blocks that are open. -/
structure Shares (seam : Seam k) (depth : Nat) (items : List Item) (s s' : Session) : Prop where
  window : s.window = Window.ofItems (items ++ [seam.last])
  window' : s'.window = Window.ofItems (items.map (Item.shift k) ++ seam.next :: seam.later)
  others : ∀ i ∈ items, i.token.terminal ≠ .ending
  nested : seam.next.token = seam.last.token.shift k ∨
    Shut depth (items.map fun i => i.token.terminal)
  panic : s'.panic = s.panic
  diagnostics : s'.diagnostics = seam.base ++ s.diagnostics.map (Diagnostic.shift k)

/-- Two sessions see the same token. -/
def SeesSame (k : Nat) (s s' : Session) : Prop :=
  s'.current = s.current.shift k

theorem SeesSame.check {s s' : Session} (h : SeesSame k s s') (t : Terminal) :
    s'.check t = s.check t := by
  rw [Bool.eq_iff_iff, check_iff, check_iff, h, Token.terminal_shift]

namespace Shares

variable {seam : Seam k} {depth : Nat} {items : List Item} {i : Item} {s s' : Session}

theorem exists_cons (h : Shares seam depth items s s') (go : s.atEnd = false) :
    ∃ i rest, items = i :: rest := by
  cases items with
  | nil =>
    have ending := seam.ending
    rw [atEnd_eq_false_iff, current, h.window, List.nil_append, Window.current_ofItems] at go
    exact absurd ending go
  | cons i rest => exact ⟨i, rest, rfl⟩

theorem current_eq (h : Shares seam depth (i :: items) s s') : s.current = i.token := by
  rw [current, h.window]
  exact Window.current_ofItems _ _

theorem sees (h : Shares seam depth items s s')
    (ended : items = [] → seam.next.token = seam.last.token.shift k) : SeesSame k s s' := by
  rw [SeesSame, current, current, h.window, h.window']
  cases items with
  | nil =>
    have same := ended rfl
    rw [List.map_nil, List.nil_append, List.nil_append, Window.current_ofItems,
      Window.current_ofItems, same]
  | cons i items =>
    rw [List.cons_append, List.map_cons, List.cons_append, Window.current_ofItems,
      Window.current_ofItems]
    rfl

theorem errors (h : Shares seam depth (i :: items) s s') :
    s'.window.errors = s.window.errors.map (LexError.shift k) := by
  rw [h.window, h.window']
  cases items with
  | nil => exact seam.errors
  | cons j items => rfl

theorem advance (h : Shares seam depth (i :: items) s s') :
    Shares seam (depthBehind depth i.token.terminal) items s.advance s'.advance := by
  have errors := h.errors
  obtain ⟨window, window', others, nested, panic, diagnostics⟩ := h
  refine ⟨?_, ?_, fun j hj => others j (List.mem_cons_of_mem i hj), nested.imp_right (·.2), ?_, ?_⟩
  · rw [window_advance, window]
    cases items <;> exact Window.slide_ofItems _ _ _
  · rw [window_advance, window']
    cases items <;> exact Window.slide_ofItems _ _ _
  · rw [panic_advance, panic_advance, panic, errors, List.isEmpty_map]
  · rw [diagnostics_advance, diagnostics_advance, panic, errors]
    split
    · exact diagnostics
    · rw [diagnostics, List.map_append, List.append_assoc]
      cases s.window.errors <;> rfl

end Shares

/-- Two sessions are in step up to a seam. -/
def InStep (seam : Seam k) (depth : Nat) (s s' : Session) : Prop :=
  ∃ items, Shares seam depth items s s'

namespace InStep

variable {seam : Seam k} {depth : Nat} {s s' : Session}

theorem mono (h : InStep seam depth s s') {m : Nat} (le : m ≤ depth) : InStep seam m s s' := by
  obtain ⟨items, window, window', others, nested, panic, diagnostics⟩ := h
  exact ⟨items, window, window', others, nested.imp_right (·.mono le), panic, diagnostics⟩

theorem panic (h : InStep seam depth s s') : s'.panic = s.panic := by
  obtain ⟨items, shares⟩ := h
  exact shares.panic

theorem sees_of_not_atEnd (h : InStep seam depth s s') (go : s.atEnd = false) :
    SeesSame k s s' := by
  obtain ⟨items, shares⟩ := h
  obtain ⟨i, rest, rfl⟩ := shares.exists_cons go
  exact shares.sees (fun empty => absurd empty (List.cons_ne_nil i rest))

/-- Within a block there is always something to share. -/
theorem sees (h : InStep seam (depth + 1) s s') : SeesSame k s s' := by
  obtain ⟨items, shares⟩ := h
  refine shares.sees fun empty => shares.nested.resolve_right fun shut => ?_
  subst empty
  cases shut

/-- Behind a main keyword there is still something to share. -/
theorem sees_behind_main (h : InStep seam depth s s') (main : s.check (.keyword .main) = true) :
    SeesSame k s.advance s'.advance := by
  obtain ⟨items, shares⟩ := h
  obtain ⟨i, rest, rfl⟩ := shares.exists_cons (atEnd_of_check main (by decide))
  rw [check_iff, shares.current_eq] at main
  refine shares.advance.sees fun empty => shares.nested.resolve_right fun shut => ?_
  subst empty
  exact shut.1 main rfl

theorem report (h : InStep seam depth s s') (d : Diagnostic) :
    InStep seam depth (s.report d) (s'.report (d.shift k)) := by
  obtain ⟨items, window, window', others, nested, panic, diagnostics⟩ := h
  refine ⟨items, by rwa [window_report], by rwa [window_report], others, nested, ?_, ?_⟩
  · rw [panic_report, panic_report]
  · rw [diagnostics_report, diagnostics_report, panic]
    split
    · exact diagnostics
    · rw [diagnostics, List.map_append, List.append_assoc]
      rfl

theorem error (h : InStep seam depth s s') (line : Nat) (message : String) :
    InStep seam depth (s.error line message) (s'.error (line + k) message) :=
  h.report ⟨.error, line, message⟩

theorem errorExpected (h : InStep seam depth s s') (same : SeesSame k s s') (expected : String) :
    InStep seam depth (s.errorExpected expected) (s'.errorExpected expected) := by
  have error := h.error s.current.line
    ("expected " ++ expected ++ ", but got " ++ s.current.terminal.describe)
  rw [Session.errorExpected, errorHere, Session.errorExpected, errorHere, same]
  exact error

/-- **Sessions in step advance in step.** -/
theorem advance (h : InStep seam depth s s') (go : s.atEnd = false) :
    InStep seam (depthBehind depth s.current.terminal) s.advance s'.advance := by
  obtain ⟨items, shares⟩ := h
  obtain ⟨i, rest, rfl⟩ := shares.exists_cons go
  rw [shares.current_eq]
  exact ⟨rest, shares.advance⟩

theorem advance_of_terminal (h : InStep seam depth s s') {t : Terminal}
    (current : s.current.terminal = t) (notEnd : t ≠ .ending) {m : Nat}
    (le : m ≤ depthBehind depth t) : InStep seam m s.advance s'.advance := by
  subst current
  exact (h.advance (atEnd_eq_false_iff.mpr notEnd)).mono le

/-! ## Nodes -/

theorem expect (h : InStep seam depth s s') (same : SeesSame k s s') {t : Terminal}
    (notEnd : t ≠ .ending) {m : Nat} (le : m ≤ depth) (le' : m ≤ depthBehind depth t) :
    (s'.expect t).1 = (s.expect t).1.map (Token.shift k) ∧
      InStep seam m (s.expect t).2 (s'.expect t).2 := by
  unfold Session.expect
  rw [same.check]
  split
  · next check =>
    exact ⟨congrArg some same, h.advance_of_terminal (check_iff.mp check) notEnd le'⟩
  · exact ⟨rfl, (h.errorExpected same _).mono le⟩

theorem literal (h : InStep seam depth s s') (same : SeesSame k s s') :
    s'.literal.1 = s.literal.1 ∧ InStep seam depth s.literal.2 s'.literal.2 := by
  have token : s'.current = s.current.shift k := same
  unfold Session.literal
  simp only [token, Token.terminal_shift, Token.lexeme_shift, Token.line_shift]
  split
  · next integer =>
    have advance := h.advance_of_terminal integer (by decide) (Nat.le_refl _)
    split
    · exact ⟨rfl, advance⟩
    · exact ⟨rfl, advance.error _ _⟩
  · next character =>
    have advance := h.advance_of_terminal character (by decide) (Nat.le_refl _)
    split
    · exact ⟨rfl, advance⟩
    · exact ⟨rfl, advance.error _ _⟩
  · exact ⟨rfl, h.errorExpected same _⟩

theorem expr (h : InStep seam depth s s') (same : SeesSame k s s') :
    s'.expr.1 = s.expr.1 ∧ InStep seam depth s.expr.2 s'.expr.2 :=
  ⟨congrArg (Option.map Expr.literal) (h.literal same).1, (h.literal same).2⟩

theorem deo (h : InStep seam (depth + 1) s s') :
    s'.deo.1.toList = shiftBody k s.deo.1.toList ∧
      InStep seam (depth + 1) s.deo.2 s'.deo.2 := by
  obtain ⟨device, first⟩ := h.expr h.sees
  unfold Session.deo
  generalize s.expr = r at device first ⊢
  generalize s'.expr = r' at device first ⊢
  obtain ⟨x, s₁⟩ := r
  obtain ⟨x', s₁'⟩ := r'
  obtain rfl : x' = x := device
  cases x' with
  | none => exact ⟨by simp, first⟩
  | some x =>
    obtain ⟨comma, second⟩ := first.expect first.sees (t := .punct .comma) (by decide)
      (Nat.le_refl _) (Nat.le_refl _)
    dsimp only
    generalize s₁.expect (.punct .comma) = r at comma second ⊢
    generalize s₁'.expect (.punct .comma) = r' at comma second ⊢
    obtain ⟨c, s₂⟩ := r
    obtain ⟨c', s₂'⟩ := r'
    obtain rfl : c' = c.map (Token.shift k) := comma
    cases c with
    | none => exact ⟨by simp, second⟩
    | some c =>
      obtain ⟨value, third⟩ := second.expr second.sees
      dsimp only [Option.map_some]
      generalize s₂.expr = r at value third ⊢
      generalize s₂'.expr = r' at value third ⊢
      obtain ⟨y, s₃⟩ := r
      obtain ⟨y', s₃'⟩ := r'
      obtain rfl : y' = y := value
      cases y' with
      | none => exact ⟨by simp, third⟩
      | some y => exact ⟨by simp, third⟩

end InStep

/-- Sessions that are in step in front of a body build the same and are in step behind it. -/
def BodyInStep (seam : Seam k) (s : Session) : Prop :=
  ∀ depth s', InStep seam (depth + 1) s s' → s'.stmts.1 = shiftBody k s.stmts.1 ∧
    InStep seam (depth + 1) s.stmts.2 s'.stmts.2

namespace InStep

variable {seam : Seam k} {depth : Nat} {s s' : Session}

theorem block_of_body (h : InStep seam depth s s') (same : SeesSame k s s')
    (inside : s.check (.punct .braceOpen) = true → s.advance.BodyInStep seam) :
    s'.block.1 = s.block.1.map (Block.shift k) ∧ InStep seam depth s.block.2 s'.block.2 := by
  rw [block_eq, block_eq, same.check]
  split
  · next opening =>
    have advance := h.advance_of_terminal (check_iff.mp opening) (by decide) (Nat.le_refl _)
    obtain ⟨body, behind⟩ := inside opening depth _ advance
    obtain ⟨closing, last⟩ := behind.expect behind.sees (t := .punct .braceClose) (by decide)
      (Nat.le_succ depth) (Nat.le_refl _)
    refine ⟨?_, last⟩
    dsimp only
    rw [closing, body, same]
    cases (s.advance.stmts.2.expect (.punct .braceClose)).1 <;> rfl
  · exact ⟨rfl, h.errorExpected same _⟩

theorem stmt_of_body (h : InStep seam (depth + 1) s s') (go : s.atBodyEnd = false)
    (inside : s.check (.punct .braceOpen) = true → s.advance.BodyInStep seam) :
    s'.stmt.1.toList = shiftBody k s.stmt.1.toList ∧
      InStep seam (depth + 1) s.stmt.2 s'.stmt.2 := by
  have same := h.sees
  rw [stmt_eq, stmt_eq, same.check, same.check]
  split
  · next keyword =>
    exact (h.advance_of_terminal (check_iff.mp keyword) (by decide) (Nat.le_refl _)).deo
  split
  · obtain ⟨block, behind⟩ := h.block_of_body same inside
    refine ⟨?_, behind⟩
    rw [block]
    cases s.block.1 <;> simp [Block.shift]
  · next noOpening =>
    obtain ⟨notEnd, noClosing⟩ := atBodyEnd_eq_false_iff.mp go
    have terminal : (s.errorExpected "statement").current = s.current := by
      rw [current, window_errorExpected, current]
    have other : depthBehind (depth + 1) s.current.terminal = depth + 1 :=
      depthBehind_eq (mt check_iff.mpr noOpening) noClosing
    refine ⟨by simp, (h.errorExpected same "statement").advance_of_terminal rfl ?_ ?_⟩
    · rwa [terminal]
    · exact Nat.le_of_eq (by rw [terminal, other])

end InStep

/-- **Sessions in step build the same statements and stay in step.** -/
theorem bodyInStep (seam : Seam k) (s : Session) : s.BodyInStep seam := by
  induction s using stmts_induction with
  | stop s h =>
    intro depth s' inStep
    have h' : s'.atBodyEnd = true := by
      rwa [atBodyEnd, atEnd, inStep.sees.check, inStep.sees.check]
    rw [stmts_eq s, if_pos h, stmts_eq s', if_pos h']
    exact ⟨by simp, inStep⟩
  | step s h ihBlock ih =>
    intro depth s' inStep
    have h' : s'.atBodyEnd = false := by
      rwa [atBodyEnd, atEnd, inStep.sees.check, inStep.sees.check]
    obtain ⟨first, behind⟩ := inStep.stmt_of_body h ihBlock
    obtain ⟨later, last⟩ := ih depth _ behind
    rw [stmts_eq s, h, stmts_eq s', h']
    refine ⟨?_, last⟩
    simp only [Bool.false_eq_true, if_false]
    rw [first, later, shiftBody_append]

/-! ## Declarations -/

namespace InStep

variable {seam : Seam k} {depth : Nat} {s s' : Session}

theorem decl (h : InStep seam 0 s s') (go : s.atEnd = false) :
    s'.decl.1 = s.decl.1.map (Block.shift k) ∧ InStep seam 0 s.decl.2 s'.decl.2 := by
  have same := h.sees_of_not_atEnd go
  unfold Session.decl
  rw [same.check]
  split
  · next main =>
    have advance := h.advance_of_terminal (check_iff.mp main) (by decide) (Nat.le_refl _)
    exact advance.block_of_body (h.sees_behind_main main) fun _ => bodyInStep seam _
  · refine ⟨rfl, ((h.errorExpected same "declaration").advance ?_).mono (Nat.zero_le _)⟩
    rwa [atEnd, Session.check, window_errorExpected]

/-- When the first session has come to its end, the second one has the seam in front of it. -/
theorem at_seam (h : InStep seam depth s s') (atEnd : s.atEnd = true) :
    s'.window = Window.ofItems (seam.next :: seam.later) ∧ s'.panic = s.panic ∧
      s'.diagnostics = seam.base ++ s.diagnostics.map (Diagnostic.shift k) := by
  obtain ⟨items, shares⟩ := h
  cases items with
  | nil => exact ⟨shares.window', shares.panic, shares.diagnostics⟩
  | cons i items =>
    rw [atEnd_iff, shares.current_eq] at atEnd
    exact absurd atEnd (shares.others i List.mem_cons_self)

theorem stops (h : InStep seam depth s s') (atEnd : s.atEnd = true) :
    (s'.atEnd || s'.check (.keyword .main)) = true := by
  have current : s'.current = seam.next.token := by
    rw [Session.current, (h.at_seam atEnd).1]
    exact Window.current_ofItems _ _
  rw [Bool.or_eq_true, atEnd_iff, check_iff, current]
  exact seam.stop

theorem resume (h : InStep seam depth s s') : InStep seam depth
    { s with panic := false, history := .recovered :: s.history }
    { s' with panic := false, history := .recovered :: s'.history } := by
  obtain ⟨items, window, window', others, nested, -, diagnostics⟩ := h
  refine ⟨items, window, window', others, nested, rfl, ?_⟩
  rw [diagnostics_cons _ _ rfl, diagnostics_cons _ _ rfl]
  exact diagnostics

theorem recover (h : InStep seam 0 s s') : InStep seam 0 s.recover s'.recover := by
  fun_induction Session.recover s generalizing s' with
  | case1 s stop =>
    have stop' : (s'.atEnd || s'.check (.keyword .main)) = true := by
      cases atEnd : s.atEnd with
      | true => exact h.stops atEnd
      | false =>
        have same := h.sees_of_not_atEnd atEnd
        rwa [Session.atEnd, same.check, same.check]
    rw [Session.recover, dif_pos stop']
    exact h.resume
  | case2 s go ih =>
    have notEnd : s.atEnd = false := by
      rw [Bool.or_eq_true, not_or, Bool.not_eq_true] at go
      exact go.1
    have same := h.sees_of_not_atEnd notEnd
    have go' : ¬(s'.atEnd || s'.check (.keyword .main)) = true := by
      rwa [Session.atEnd, same.check, same.check]
    have skipped : s'.recover = s'.advance.recover := by rw [Session.recover, dif_neg go']
    rw [skipped]
    exact ih ((h.advance notEnd).mono (Nat.zero_le _))

theorem settle (h : InStep seam 0 s s') : InStep seam 0 s.settle s'.settle := by
  unfold Session.settle
  rw [h.panic]
  split
  · exact h.recover
  · exact h

end InStep

theorem panic_decls {s : Session} (calm : s.panic = false) : s.decls.2.panic = false := by
  induction s using decls_induction with
  | stop s h => rwa [decls_eq, if_pos h]
  | step s h ih =>
    rw [decls_eq, h]
    exact ih s.decl.2.panic_settle

/-- **Sessions in step build the same declarations up to the seam.** What the second one builds
behind it comes last. -/
theorem InStep.decls {seam : Seam k} {s s' : Session} (h : InStep seam 0 s s') :
    ∃ s'', InStep seam 0 s.decls.2 s'' ∧
      s'.decls = (s.decls.1.map (Block.shift k) ++ s''.decls.1, s''.decls.2) := by
  induction s using decls_induction generalizing s' with
  | stop s atEnd =>
    refine ⟨s', ?_, ?_⟩
    · rwa [decls_eq, if_pos atEnd]
    · rw [decls_eq s, if_pos atEnd]
      rfl
  | step s notEnd ih =>
    have same := h.sees_of_not_atEnd notEnd
    have notEnd' : s'.atEnd = false := by rwa [Session.atEnd, same.check]
    obtain ⟨first, behind⟩ := h.decl notEnd
    obtain ⟨s'', last, later⟩ := ih behind.settle
    refine ⟨s'', ?_, ?_⟩
    · rwa [decls_eq, notEnd]
    · rw [decls_eq s', notEnd', decls_eq s, notEnd]
      simp only [Bool.false_eq_true, if_false]
      rw [later, first]
      cases s.decl.1 <;> simp

/-- Sessions in step up to the same end have the same declarations and diagnostics. -/
theorem InStep.decls_atEnding {last : Item} {ending : last.token.terminal = .ending} {base : Report}
    {s s' : Session} (h : InStep (.atEnding k base ending) 0 s s') :
    s'.decls.1 = s.decls.1.map (Block.shift k) ∧
      s'.decls.2.diagnostics = base ++ s.decls.2.diagnostics.map (Diagnostic.shift k) := by
  obtain ⟨s'', behind, decls⟩ := h.decls
  obtain ⟨window, -, diagnostics⟩ := behind.at_seam s.atEnd_decls
  have atEnd : s''.atEnd = true := by
    rw [atEnd_iff, current, window, Window.current_ofItems]
    exact ending
  rw [decls, decls_eq s'', if_pos atEnd]
  exact ⟨List.append_nil _, diagnostics⟩

end Session

end DeoLang
