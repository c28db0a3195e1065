import PackageCheck.Proofs.Typing.JumpErrors
import PackageCheck.Tree.Make

/-! # Every jump of a function is resolved

A check of a function comes to each jump of the function, whatever else fails: it resolves the jump
if it leads anywhere, and adds an error otherwise. The proofs follow the statements, since no
expression holds a jump of its own. -/

namespace PackageCheck

variable {table : SymbolTable}

/-! ## Settled jumps -/

namespace PlacedJump

/-- The error of a jump that leads nowhere. -/
def rejection? (file : String) (placed : PlacedJump) : Option Diagnostic :=
  if placed.permitted then none
  else some (.invalidJump placed.jump.kind placed.jump.label ⟨file, placed.position⟩)

/-- Whether a jump has got the handles that its surroundings show if it leads anywhere, and is as it
    was otherwise. -/
structure Settled (table : SymbolTable) (before after : PlacedJump) : Prop where
  position : after.position = before.position
  /-- What is around the jump has got its handles, and is the same otherwise. -/
  view : after.around.view = before.around.view
  declared : after.around.Declared table
  accepted : before.permitted = true → after.around.resolve before.jump = some after.jump
  rejected : before.permitted = false → after.jump = before.jump

end PlacedJump

/-- Whether an error is that of a jump of a kind with a label. -/
def Diagnostic.isInvalidJump (err : Diagnostic) (kind : JumpKind) (label : Option String) : Bool :=
  match err with
  | .invalidJump kind' label' _ => kind' == kind && label' == label
  | _ => false

/-- Whether a site holds a jump of a kind with a label that leads nowhere. -/
def JumpSite.leadsNowhere (site : JumpSite) (kind : JumpKind) (label : Option String) : Bool :=
  !site.permitted && (site.jump.kind == kind && site.jump.label == label)

/-- Whether the jumps of a node are settled, and the errors of those that lead nowhere are among as
    many errors of a kind. -/
structure SettledJumps (table : SymbolTable) (p : Diagnostic → Bool) (file : String)
    (before after : List PlacedJump) (n : Nat) : Prop where
  settled : List.Forall₂ (PlacedJump.Settled table) before after
  errors : (before.filterMap (·.rejection? file)).countP p ≤ n

namespace SettledJumps

variable {p : Diagnostic → Bool} {file : String} {before before' after after' : List PlacedJump}
  {n m : Nat}

theorem nil : SettledJumps table p file [] [] n :=
  ⟨.nil, Nat.zero_le _⟩

theorem append (first : SettledJumps table p file before after n)
    (second : SettledJumps table p file before' after' m) :
    SettledJumps table p file (before ++ before') (after ++ after') (n + m) where
  settled := List.rel_append first.settled second.settled
  errors := by
    rw [List.filterMap_append, List.countP_append]
    exact Nat.add_le_add first.errors second.errors

theorem mono (settled : SettledJumps table p file before after n) (more : n ≤ m) :
    SettledJumps table p file before after m :=
  ⟨settled.settled, Nat.le_trans settled.errors more⟩

end SettledJumps

theorem StmtForm.isFlow_erase {renumber : StmtId → StmtId} (form : StmtForm) :
    (form.erase renumber).isFlow = form.isFlow := by
  cases form with
  | struct decl =>
    obtain ⟨_, _, _, _⟩ := decl
    rfl
  | loop loop =>
    obtain ⟨_, _, _, _⟩ := loop
    rfl
  | _ => rfl

namespace Typing

open Check

/-- Whether a check settles jumps: those that were there, and those of what it comes to. -/
abbrev Check.Settles (table : SymbolTable) (p : Diagnostic → Bool) (names : String → Prop)
    (file : String) (check : Check α) (before : List PlacedJump) (after : α → List PlacedJump) :
    Prop :=
  check.Tallies table p names fun a n => SettledJumps table p file before (after a) n

/-- Whether the check of a node settles jumps, the error in which it ends among those found. -/
abbrev Check.SettlesNode (table : SymbolTable) (p : Diagnostic → Bool) (names : String → Prop)
    (file : String) (check : Check (Checked ν τ)) (before : List PlacedJump)
    (after : ν → List PlacedJump) : Prop :=
  check.Tallies table p names fun checked n =>
    SettledJumps table p file before (after checked.1) (n + pending p checked.2)

variable {p : Diagnostic → Bool} {names : String → Prop}

section Settles

variable {file : String} {before : List PlacedJump}

/-- What is checked first holds no jumps of the function's own. -/
theorem Check.Settles.past {check : Check β} {next : β → Check α} {after : α → List PlacedJump}
    (tail : ∀ b, (next b).Settles table p names file before after) :
    (check >>= next).Settles table p names file before after :=
  Tallies.past (fun _ _ _ more settled => settled.mono more) tail

theorem Check.SettlesNode.past {check : Check β} {next : β → Check (Checked ν τ)}
    {after : ν → List PlacedJump}
    (tail : ∀ b, (next b).SettlesNode table p names file before after) :
    (check >>= next).SettlesNode table p names file before after :=
  Tallies.past (fun _ _ _ more settled => settled.mono (Nat.add_le_add_right more _)) tail

theorem Check.SettlesNode.recorded {check : Check (Checked ν τ)} {after : ν → List PlacedJump}
    (inside : check.SettlesNode table p names file before after) :
    (Typing.recorded check).Settles table p names file before after :=
  Tallies.recorded (R := fun node n => SettledJumps table p file before (after node) n) inside

end Settles

/-! ## Statements -/

/-- A jump is settled, and its error is pending if it leads nowhere. -/
theorem resolveJump_settles {ctx : Context} {around other : Surroundings}
    (mirrors : ctx.Mirrors table around) (same : around.view = other.view) (jump : Jump)
    (position : Position) :
    SettledJumps table p ctx.file [⟨⟨jump, other⟩, position⟩]
      [⟨⟨(resolveJump ctx jump position).1, around⟩, position⟩]
      (pending p (resolveJump ctx jump position).2) := by
  rw [resolveJump_eq mirrors]
  have leads : (around.resolve jump).isSome = other.permits jump :=
    (isSome_resolve mirrors.declared jump).trans (Surroundings.permits_of_view same jump)
  cases resolved : around.resolve jump with
  | some jump' =>
    rw [resolved] at leads
    refine ⟨.cons ⟨rfl, same, mirrors.declared, fun _ => resolved, fun rejected => ?_⟩ .nil, ?_⟩
    · cases leads.trans rejected
    · simp [PlacedJump.rejection?, JumpSite.permitted, ← leads]
  | none =>
    rw [resolved] at leads
    refine ⟨.cons ⟨rfl, same, mirrors.declared, fun permitted => ?_, fun _ => rfl⟩ .nil, ?_⟩
    · cases leads.trans permitted
    · simp [PlacedJump.rejection?, JumpSite.permitted, ← leads, pending_error, Context.site,
        List.countP_cons]

/-- The labels that are put in have the names of those that were there. -/
theorem view_relabel (statements : List Stmt) : ∀ labels : List (Option StmtLabel),
    labels.map (·.map StmtLabel.erase) = statements.map (·.label.map StmtLabel.erase) →
      ((relabel statements labels).filterMap Stmt.labelled?).map LabelledStmt.view =
        (statements.filterMap Stmt.labelled?).map LabelledStmt.view := by
  induction statements with
  | nil => exact fun labels _ => rfl
  | cons s rest hypothesis =>
    intro labels named
    cases labels with
    | nil => cases named
    | cons label labels =>
      obtain ⟨here, others⟩ := List.cons.inj named
      have viewed : ∀ s : Stmt, s.labelled?.map LabelledStmt.view =
          (s.label.map (·.name)).map fun name => (name, if s.isLoop then some s.id else none) := by
        intro s
        rw [Stmt.labelled?, Option.map_map, Option.map_map]
        rfl
      have first : (Stmt.labelled? { s with label := label }).map LabelledStmt.view =
          s.labelled?.map LabelledStmt.view := by
        rw [viewed, viewed, StmtLabel.names_of_erase here]
        rfl
      have behind := hypothesis labels others
      rw [List.map_filterMap, List.map_filterMap] at behind ⊢
      rw [relabel, List.zipWith_cons_cons, List.filterMap_cons, List.filterMap_cons, first]
      rw [relabel] at behind
      rw [behind]

/-- Other statements have no jumps, before and after. -/
theorem checkForm_settles_of_not_isFlow (ctx : Context) {around other : Surroundings} {id : StmtId}
    {position : Position} {label : Option String} {form : StmtForm} (plain : form.isFlow = false) :
    (checkForm ctx id position label form).SettlesNode table p names ctx.file
      (form.ownJumps other id position label) (·.ownJumps around id position label) := by
  apply (Tallies.also (.trivial _) (@checkForm_shows table (fun id => id) ctx id position label
    form)).imp
  intro checked n holds
  obtain ⟨⟨same, -⟩, -⟩ := holds
  -- a check keeps the form of what it checks
  have plain' : checked.1.isFlow = false := by
    rw [← StmtForm.isFlow_erase checked.1, same, StmtForm.isFlow_erase form, plain]
  show SettledJumps table p ctx.file _ (checked.1.ownJumps around id position label) _
  rw [StmtForm.ownJumps_of_not_isFlow plain, StmtForm.ownJumps_of_not_isFlow plain']
  exact .nil

mutual

theorem checkStatements_settles {ctx : Context} {around other : Surroundings}
    (mirrors : ctx.Mirrors table around) (same : around.view = other.view) :
    ∀ block : Block, (checkStatements ctx block).Settles table p names ctx.file
      (block.ownJumps other) (·.ownJumps around)
  | ⟨statements, labels⟩ => by
    rw [checkStatements]
    apply Tallies.bind (.also (.trivial _) (.and (declareLabels_shows ctx .empty statements)
      (declareLabels_labels statements .empty)))
    intro declared n holds
    obtain ⟨labels', annotated⟩ := declared
    obtain ⟨⟨named, shown⟩, -⟩ := holds
    have length : annotated.length = statements.length := by
      simpa using congrArg List.length named
    have seen := Surroundings.view_inBlock same (view_relabel statements annotated named)
    apply Tallies.bind (.also (checkEach_settles (mirrors.inBlock shown) seen statements annotated
      named) (.and (@checkEach_shows table id _ statements annotated named)
        (labels_checkEach statements annotated length)))
    intro statements' m holds
    obtain ⟨⟨shows, labelled⟩, settled⟩ := holds
    apply Tallies.pure
    -- what the context shows is what can be seen of the checked statements
    show SettledJumps table p ctx.file _ (Stmt.ownJumpsList (around.inBlock _) statements') _
    rw [labelled_of_relabelled (labelSites_of_erase shows) labelled]
    exact settled.mono (by omega)

theorem checkEach_settles {ctx : Context} {around other : Surroundings}
    (mirrors : ctx.Mirrors table around) (same : around.view = other.view) :
    ∀ (statements : List Stmt) (labels : List (Option StmtLabel)),
      labels.map (·.map StmtLabel.erase) = statements.map (·.label.map StmtLabel.erase) →
        (checkEach ctx statements labels).Settles table p names ctx.file
          (Stmt.ownJumpsList other statements) (Stmt.ownJumpsList around)
  | s :: rest, label :: labels, named => by
    rw [checkEach]
    obtain ⟨here, others⟩ := List.cons.inj named
    apply Tallies.bind (.also (checkStmt_settles mirrors same s).recorded
      (@checkStmt_shows table id ctx s).recorded)
    intro s' n holds
    obtain ⟨shows, first⟩ := holds
    apply Tallies.bind (checkEach_settles mirrors same rest labels others)
    intro rest' m behind
    apply Tallies.pure
    -- the label that is put in has the same name
    have relabelled : Stmt.ownJumps around { s' with label := label } = s'.ownJumps around := by
      have name := StmtLabel.names_of_erase (here.trans (label_of_erase shows).symm)
      obtain ⟨id, position, label', form⟩ := s'
      exact congrArg (form.ownJumps around id position) name
    show SettledJumps table p ctx.file _ (Stmt.ownJumps around { s' with label := label } ++
      Stmt.ownJumpsList around rest') _
    rw [relabelled]
    exact first.append behind
  | [], [], _ => .pure .nil
  | [], _ :: _, named => nomatch named
  | _ :: _, [], named => nomatch named

theorem checkStmt_settles {ctx : Context} {around other : Surroundings}
    (mirrors : ctx.Mirrors table around) (same : around.view = other.view) :
    ∀ s : Stmt, (checkStmt ctx s).SettlesNode table p names ctx.file (s.ownJumps other)
      (·.ownJumps around)
  | ⟨id, position, label, form⟩ => by
    rw [checkStmt]
    exact .bind (checkForm_settles mirrors same id position _ form) fun _ _ settled =>
      .pure settled

theorem checkForm_settles {ctx : Context} {around other : Surroundings}
    (mirrors : ctx.Mirrors table around) (same : around.view = other.view) (id : StmtId)
    (position : Position) (label : Option String) : ∀ form : StmtForm,
      (checkForm ctx id position label form).SettlesNode table p names ctx.file
        (form.ownJumps other id position label) (·.ownJumps around id position label)
  | .cond branches => by
    rw [checkForm]
    exact .bind (checkBranches_settles mirrors same id branches) fun _ _ settled => .pure settled
  | .loop ⟨header, condition, step, body⟩ => by
    rw [checkForm]
    apply Tallies.withScope
    apply SettlesNode.past
    intro header'
    apply SettlesNode.past
    intro condition'
    apply Tallies.bind (checkStep_settles mirrors same step)
    intro step' n first
    -- only the body is inside the loop
    apply Tallies.bind (.withScope (checkStatements_settles (mirrors.inLoop id label)
      (Surroundings.view_inLoop same id label) body))
    intro body' m second
    apply Tallies.pure
    exact first.append second
  | .jump jump => by
    rw [checkForm]
    apply Tallies.pure
    rw [Nat.zero_add]
    exact resolveJump_settles mirrors same jump position
  | .assign _ _ _ => checkForm_settles_of_not_isFlow ctx rfl
  | .struct _ => checkForm_settles_of_not_isFlow ctx rfl
  | .typeAlias _ => checkForm_settles_of_not_isFlow ctx rfl
  | .var _ => checkForm_settles_of_not_isFlow ctx rfl
  | .pass => checkForm_settles_of_not_isFlow ctx rfl
  | .expr _ => checkForm_settles_of_not_isFlow ctx rfl
  | .ret _ => checkForm_settles_of_not_isFlow ctx rfl

theorem checkStep_settles {ctx : Context} {around other : Surroundings}
    (mirrors : ctx.Mirrors table around) (same : around.view = other.view) : ∀ step : Option Stmt,
    (checkStep ctx step).Settles table p names ctx.file (Stmt.ownJumpsOption other step)
      (Stmt.ownJumpsOption around)
  | none => .pure .nil
  | some s => by
    rw [checkStep]
    exact .bind (checkStmt_settles mirrors same s).recorded fun _ _ settled => .pure settled

theorem checkBranches_settles {ctx : Context} {around other : Surroundings}
    (mirrors : ctx.Mirrors table around) (same : around.view = other.view) (id : StmtId) :
    ∀ branches : List Branch, (checkBranches ctx id branches).Settles table p names ctx.file
      (Branch.ownJumpsList other branches) (Branch.ownJumpsList around)
  | [] => .pure .nil
  | ⟨header, condition, body⟩ :: rest => by
    rw [checkBranches]
    apply Tallies.bind (Q := fun branch n => SettledJumps table p ctx.file (body.ownJumps other)
      (branch.body.ownJumps around) n)
    · apply Tallies.withScope
      apply Settles.past
      intro header'
      apply Settles.past
      intro condition'
      exact .bind (.withScope (checkStatements_settles mirrors same body)) fun _ _ settled =>
        .pure settled
    · intro branch n first
      apply Tallies.bind (checkBranches_settles mirrors same id rest)
      intro rest' m behind
      apply Tallies.pure
      rw [Branch.ownJumpsList_cons around branch]
      exact first.append behind

end

theorem checkBody_settles (ctx : Context) (func : Func) (signature : Signature)
    (receiver : Option Ty) : (checkBody ctx func signature receiver).Settles table p names ctx.file
      func.ownJumps Func.ownJumps := by
  obtain ⟨name, receiver', params, results, body⟩ := func
  rw [checkBody]
  apply Tallies.withScope
  -- the parameters and results are declared first
  apply Settles.past
  intro receiver''
  apply Settles.past
  intro params'
  apply Settles.past
  intro results'
  have mirrors : (ctx.ofBody results signature).Mirrors table {} := .outermost _ _
  exact .bind (checkStatements_settles mirrors rfl body) fun _ _ settled => .pure settled

/-! ## Runs -/

/-- Whether a check has treated the jumps of a function, or of a statement outside of functions, as
    their surroundings say. The jumps are given as they were and as they are, together with all
    those in the checked tree, which also hold the jumps of the functions inside. -/
structure LexicalJumps (file : String) (before after : State) (own own' : List PlacedJump)
    (sites : List JumpSite) : Prop where
  settled : List.Forall₂ (PlacedJump.Settled after.symbols) own own'
  /-- Each jump that leads nowhere is an error. -/
  rejected : ∀ p : Diagnostic → Bool,
    before.errors.countP p + (own.filterMap (·.rejection? file)).countP p ≤ after.errors.countP p
  /-- No other jump is. -/
  accepted : ∀ kind label, after.errors.countP (·.isInvalidJump kind label) ≤
    before.errors.countP (·.isInvalidJump kind label) + sites.countP (·.leadsNowhere kind label)

theorem accounted_isInvalidJump (kind : JumpKind) (label : Option String) :
    Accounted (·.isInvalidJump kind label) (fun _ => False) (·.leadsNowhere kind label) where
  plain err plain := by
    cases err with
    | invalidJump kind' label' site => cases plain
    | _ => rfl
  named _ _ watched := by cases watched
  counted site at' nowhere watched := by
    simpa [JumpSite.leadsNowhere, nowhere, Diagnostic.isInvalidJump] using watched

/-- A check that settles the jumps of its own and accounts for all others is lexical. -/
theorem LexicalJumps.of_tallies {file : String} {s : State} {check : Check α}
    {own : List PlacedJump} (view : α → List PlacedJump) (sites : α → List JumpSite)
    (named : s.WellScoped)
    (settles : ∀ table p, check.Settles table p (fun _ => False) file own view)
    (adds : ∀ table kind label, check.Adds table (·.isInvalidJump kind label) (fun _ => False)
      fun a => (sites a).countP (·.leadsNowhere kind label)) :
    LexicalJumps file s (check.run s).2 own (view (check.run s).1) (sites (check.run s).1) where
  settled := by
    obtain ⟨n, -, settled⟩ := settles _ (fun _ => false) s named
      (SymbolTable.Extends.refl _).toWithin fun _ none => none.elim
    exact settled.settled
  rejected p := by
    obtain ⟨n, tally, settled⟩ := settles _ p s named (SymbolTable.Extends.refl _).toWithin
      fun _ none => none.elim
    have errors := settled.errors
    simp only [State.tally] at tally
    omega
  accepted kind label := by
    obtain ⟨n, tally, few⟩ := adds _ kind label s named (SymbolTable.Extends.refl _).toWithin
      fun _ none => none.elim
    simp only [State.tally] at tally few
    omega

/-- The check of the body of a function is lexical. -/
theorem lexical_checkBody {s : State} (named : s.WellScoped) (ctx : Context) (func : Func)
    (signature : Signature) (receiver : Option Ty) :
    let ran := (checkBody ctx func signature receiver).run s
    LexicalJumps ctx.file s ran.2 func.ownJumps ran.1.ownJumps ran.1.jumpSites :=
  .of_tallies Func.ownJumps Func.jumpSites named
    (fun _ _ => checkBody_settles ctx func signature receiver) fun _ kind label =>
      checkBody_adds (accounted_isInvalidJump kind label) ctx func signature receiver

/-- The check of a statement at the top of a file is lexical. -/
theorem lexical_checkTopLevel {s : State} (named : s.WellScoped) (file : String) (stmt : Stmt) :
    let ran := (checkTopLevel file stmt).run s
    LexicalJumps file s ran.2 (stmt.ownJumps {}) (ran.1.ownJumps {}) (ran.1.jumpSites {}) := by
  have started : State.WellScoped { s with tainted := false, uses := [] } := named
  have lexical := LexicalJumps.of_tallies (Stmt.ownJumps {}) (Stmt.jumpSites {}) started
    (fun table p => (checkStmt_settles (.outermost file none) rfl stmt).recorded)
    fun table kind label => (checkStmt_adds (accounted_isInvalidJump kind label)
      (.outermost file none) stmt).recorded
  exact ⟨lexical.settled, lexical.rejected, lexical.accepted⟩

/-- The error of each jump that leads nowhere is found. -/
theorem LexicalJumps.mem_errors {file : String} {before after : State}
    {own own' : List PlacedJump} {sites : List JumpSite}
    (lexical : LexicalJumps file before after own own' sites) {placed : PlacedJump}
    {err : Diagnostic} (member : placed ∈ own) (rejected : placed.rejection? file = some err) :
    err ∈ after.errors := by
  classical
  -- there are as many errors of the kind as jumps, so there is one
  have among : 0 < (own.filterMap (·.rejection? file)).countP (· = err) :=
    List.countP_pos_iff.mpr ⟨err, List.mem_filterMap.mpr ⟨placed, member, rejected⟩, by simp⟩
  have found : 0 < after.errors.countP (· = err) := by
    have enough := lexical.rejected (· = err)
    omega
  obtain ⟨other, listed, same⟩ := List.countP_pos_iff.mp found
  rwa [of_decide_eq_true same] at listed

/-- A jump is accepted exactly if it leads anywhere from where it stands, and then it leads to the
    innermost loop or label that its surroundings show; every other jump that a check comes to is an
    error. A check of the body of a function comes to all jumps of the function, and so does the
    check of a statement outside of functions. -/
theorem jumps_lexical (s : State) (named : s.WellScoped) :
    (∀ (ctx : Context) (func : Func) (signature : Signature) (receiver : Option Ty),
      let ran := (checkBody ctx func signature receiver).run s
      LexicalJumps ctx.file s ran.2 func.ownJumps ran.1.ownJumps ran.1.jumpSites) ∧
    ∀ (file : String) (stmt : Stmt),
      let ran := (checkTopLevel file stmt).run s
      LexicalJumps file s ran.2 (stmt.ownJumps {}) (ran.1.ownJumps {}) (ran.1.jumpSites {}) :=
  ⟨lexical_checkBody named, lexical_checkTopLevel named⟩

/-- A function that leaves its loop `L` from inside, and then has nothing more to leave. -/
def strayBreak : Func :=
  .make (some "f") none [] []
    [(Stmt.loop none none none [.jump .«break» (some "L")]).labelled "L", .jump .«break» none]

/-- The first `break` leads to the loop, and the second one is the only error. -/
theorem jumps_lexical_strayBreak :
    let ran := (checkBody { file := "m.hv" } strayBreak ⟨[], []⟩ none).run .bare
    LexicalJumps "m.hv" .bare ran.2 strayBreak.ownJumps ran.1.ownJumps ran.1.jumpSites ∧
      ran.1.ownJumps.map (·.jump.target) = [some {}, none] ∧ ran.2.errors.length = 1 :=
  ⟨(jumps_lexical .bare State.wellScoped_bare).1 { file := "m.hv" } strayBreak ⟨[], []⟩ none,
    by decide +kernel, by decide +kernel⟩

end Typing

end PackageCheck
