import PackageCheck.Proofs.Typing.Annotations
import PackageCheck.Proofs.Typing.Frame
import PackageCheck.Proofs.Typing.Repetition

/-! # Annotations that stay

A check of an annotated tree finds out what is written in it already. Where the first check has
annotated a part, the second one writes the same again, and where the first one has stopped in
front of a part, the second one stops at the same place. -/

namespace PackageCheck.Typing

open Check

variable {ctx : Context} {s s' : State}

/-! ## Parts that look the same -/

section OfErase

theorem funcType_of_erase {func func' : Func} (same : func'.erase id = func.erase id) :
    funcType ctx func' = funcType ctx func := by
  rw [← funcType_erase func', same, funcType_erase]

theorem receiverType_of_erase {receiver receiver' : Option Param}
    (same : receiver'.map Param.erase = receiver.map Param.erase) :
    receiverType ctx receiver' = receiverType ctx receiver := by
  rw [← receiverType_erase receiver', same, receiverType_erase]

theorem ofBody_of_erase {results results' : List Param} {signature : Signature}
    (same : results'.map Param.erase = results.map Param.erase) :
    ctx.ofBody results' signature = ctx.ofBody results signature := by
  rw [← Context.ofBody_erase results', same, Context.ofBody_erase]

theorem structTarget_of_erase {name : String} {position : Position} {fields : List FieldDecl}
    {methods methods' : List Func} (same : Func.eraseList id methods' = Func.eraseList id methods) :
    structTarget ctx name position fields methods' =
      structTarget ctx name position fields methods := by
  rw [← structTarget_erase name position fields methods', same, structTarget_erase]

theorem layoutOf_of_erase {type : Ty} {elements elements' : List Element} {position : Position}
    (same : Element.eraseList id elements' = Element.eraseList id elements) :
    layoutOf ctx type elements' position = layoutOf ctx type elements position := by
  rw [← layoutOf_erase type elements', same, layoutOf_erase]

theorem conversion?_of_erase {callee callee' : Expr} (same : callee'.erase id = callee.erase id) :
    conversion? ctx callee' = conversion? ctx callee := by
  rw [← conversion?_erase callee', same, conversion?_erase]

theorem Element.isEmpty_of_erase {elements elements' : List Element}
    (same : Element.eraseList id elements' = Element.eraseList id elements) :
    elements'.isEmpty = elements.isEmpty := by
  rw [← Element.isEmpty_eraseList, same, Element.isEmpty_eraseList]

theorem Expr.length_of_erase {es es' : List Expr}
    (same : Expr.eraseList id es' = Expr.eraseList id es) : es'.length = es.length := by
  rw [← Expr.length_eraseList, same, Expr.length_eraseList]

theorem position_of_erase {e e' : Expr} (same : e'.erase id = e.erase id) :
    e'.position = e.position := by
  obtain ⟨position, form, type⟩ := e
  obtain ⟨position', form', type'⟩ := e'
  exact (Expr.mk.inj same).1

theorem receiver_of_erase {func func' : Func} (same : func'.erase id = func.erase id) :
    func'.receiver.map Param.erase = func.receiver.map Param.erase := by
  obtain ⟨name, receiver, params, results, body⟩ := func
  obtain ⟨name', receiver', params', results', body'⟩ := func'
  exact (Func.mk.inj same).2.1

end OfErase

/-- The node that a run gives back looks like the one that was checked. -/
theorem Shows.of_run {check : Check (Checked ν τ)} (view : ν → μ) {seen : μ} {node : ν}
    {result : Except Diagnostic τ} (named : s.WellScoped)
    (ran : check.run s = ((node, result), s')) (shows : ∀ table, check.Shows table view seen) :
    view node = seen :=
  (Ensures.of_run shows named ran).1

/-! ## Expressions -/

/-- An expression that checks takes the type that is found, whatever type it had. -/
theorem infer_retyped {hint : Ty} {e e' : Expr} {type found : Ty}
    (ran : (infer ctx e hint).run s = ((e', .ok found), s')) :
    (infer ctx { e with type := type } hint).run s = ((e', .ok found), s') := by
  obtain ⟨position, form, _⟩ := e
  rw [infer] at ran ⊢
  obtain ⟨⟨form', result⟩, s₁, inside, rest⟩ := bind_inv ran
  rw [run_bind_of inside]
  cases result with
  | ok found => cases rest; rfl
  | error err => cases rest

theorem expecting_repeats {e : Expr} {expected : Ty}
    (inside : (infer ctx e expected).RepeatsNode fun e => infer ctx e expected) :
    (expecting ctx expected (infer ctx e)).RepeatsNode fun e =>
      expecting ctx expected (infer ctx e) :=
  inside.agreeing infer_retyped

/-- A name is looked up again, whatever it was bound to. -/
theorem inferIdent_repeats (ctx : Context) (ident : Ident) (position : Position) :
    (inferIdent ctx ident position).RepeatsNode fun ident => inferIdent ctx ident position := by
  intro s s' checked _ ran
  unfold inferIdent at ran ⊢
  obtain ⟨_, _, seen, rest⟩ := bind_inv ran
  cases seen
  rw [run_bind_of (show state.run s = (s, s) from rfl)]
  cases found : s.scopes.find? ident.name with
  | none =>
    rw [found] at rest
    cases rest
    dsimp only
    rw [found]
    rfl
  | some id =>
    rw [found] at rest
    cases rest
    simp only [Ident.bind, found]
    rfl

/-- The callee of a conversion is one again, once it is annotated. -/
theorem conversion?_of_run {callee : Expr} {target : Expr × Ty} (named : s.WellScoped)
    (ran : (conversion? ctx callee).run.run s = (.ok (some target), s')) :
    conversion? ctx target.1 = conversion? ctx callee :=
  conversion?_of_erase
    (Ensures.of_run (fun _ => erase_conversion? ctx callee) named ran _ rfl target rfl)

theorem Layout.typeKey_typeKey (layout : Layout) (key : Expr) :
    layout.typeKey (layout.typeKey key) = layout.typeKey key := by
  obtain ⟨position, form, type⟩ := key
  cases layout with
  | keyed fields =>
    cases form with
    | ident ident =>
      cases found : fields.field? ident.name <;> simp [Layout.typeKey, Expr.ident?, found]
    | _ => rfl
  | _ => rfl

theorem resolveJump_resolveJump (jump : Jump) (position : Position) :
    resolveJump ctx (resolveJump ctx jump position).1 position = resolveJump ctx jump position := by
  obtain ⟨kind, name, symbol, target⟩ := jump
  cases kind with
  | goto => cases found : name.bind ctx.label? <;> simp [resolveJump, found]
  | _ => cases found : ctx.loop? name <;> simp [resolveJump, found]

theorem find?_of_erase {es es' : List Expr} (same : Expr.eraseList id es' = Expr.eraseList id es)
    (all : es.find? (!·.isAssignable) = none) : es'.find? (!·.isAssignable) = none := by
  have written := congrArg (List.find? (!·.isAssignable)) same
  rw [Expr.find?_eraseList, Expr.find?_eraseList, all] at written
  exact Option.map_eq_none_iff.mp written

/-! ## Declarations -/

theorem declareParam_repeats (param : Param) (type : Ty) :
    (declareParam ctx param type).RepeatsNode fun param => declareParam ctx param type := by
  obtain ⟨name, position, spec, symbol⟩ := param
  cases name with
  | none => exact .pure rfl
  | some name =>
    refine .given rfl fun _ _ declared ran => ?_
    cases ran
    exact run_given_of_ok declared _ _

theorem declareParams_repeats (params : List Param) (types : List Ty) :
    (declareParams ctx params types).Repeats fun params => declareParams ctx params types := by
  induction params generalizing types with
  | nil =>
    intro s s' params _ ran
    cases ran
    rfl
  | cons param params hypothesis =>
    cases types with
    | nil =>
      intro s s' params _ ran
      cases ran
      rfl
    | cons type types =>
      intro s s' params' named ran
      rw [declareParams] at ran
      obtain ⟨param', s₁, first, rest⟩ := bind_inv ran
      obtain ⟨params', s₂, others, ended⟩ := bind_inv rest
      cases ended
      have again := (declareParam_repeats param type).recorded named first
      have againOthers := hypothesis types (wellScoped_of_run named first) others
      change (declareParams ctx (param' :: params') (type :: types)).run s = _
      rw [declareParams, run_bind_of again, run_bind_of againOthers]
      rfl

theorem declareReceiver_repeats (receiver : Option Param) (type : Option Ty) :
    (declareReceiver ctx receiver type).Repeats fun receiver =>
      declareReceiver ctx receiver type := by
  intro s s' receiver' named ran
  cases receiver with
  | none =>
    cases ran
    rfl
  | some param =>
    cases type with
    | none =>
      cases ran
      rfl
    | some type =>
      obtain ⟨param', s₁, inside, ended⟩ := bind_inv ran
      cases ended
      exact run_bind_of ((declareParam_repeats param type).recorded named inside) _

/-- The symbol that a variable had is replaced in any case, unless the variable is not declared. -/
theorem declareVar_repeats (decl : VarDecl) (type : Ty) (init : Option StmtId)
    (result : Except Diagnostic Unit) :
    (declareVar ctx decl type init result).RepeatsNode fun decl =>
      declareVar ctx decl type init result := by
  refine .given rfl fun _ _ declared ran => ?_
  cases ran
  exact run_given_of_ok declared _ _

/-- Only the symbol of a declared variable changes. -/
theorem declareVar_inv {decl decl' : VarDecl} {type : Ty} {init : Option StmtId}
    {result result' : Except Diagnostic Unit}
    (ran : (declareVar ctx decl type init result).run s = ((decl', result'), s')) :
    ∃ symbol, decl' = { decl with symbol := symbol } := by
  obtain ⟨name, position, spec, value, symbol⟩ := decl
  obtain ⟨declared, s₁, attempted, behind⟩ := bind_inv ran
  cases declared with
  | ok id => cases behind; exact ⟨some id, rfl⟩
  | error err => cases behind; exact ⟨symbol, rfl⟩

/-- The declaration of a variable does not look at its value. -/
theorem declareVar_revalued {decl decl' : VarDecl} {type : Ty} {init : Option StmtId}
    (ran : (declareVar ctx decl type init (.ok ())).run s = ((decl', .ok ()), s'))
    (value : Option Expr) :
    (declareVar ctx { decl' with value := value } type init (.ok ())).run s =
      (({ decl' with value := value }, .ok ()), s') := by
  obtain ⟨declared, s₁, attempted, behind⟩ := bind_inv ran
  cases declared with
  | ok id =>
    cases behind
    exact run_given_of_ok attempted _ _
  | error err => cases behind

theorem checkAlias_repeats (decl : AliasDecl) (position : Position) :
    (checkAlias ctx decl position).RepeatsNode fun decl => checkAlias ctx decl position := by
  -- the definition of an alias has no node behind it
  have root : ∀ id : SymbolId, RepeatsNode
      (do return ((), ← (aliasRoot ctx id decl.name position).run)) fun _ =>
        do return ((), ← (aliasRoot ctx id decl.name position).run) := fun _ _ _ _ _ ran => ran
  have declared : RepeatsNode (declareType ctx decl.name position ()
      (aliasTarget ctx decl.name position decl.target) fun id _ => do
        return ((), ← (aliasRoot ctx id decl.name position).run)) _ :=
    .declareType fun id _ => root id
  refine declared.rebuildKnown (fun _ => .trivial _) (fun node _ => rfl) fun node => ?_
  obtain ⟨id, _⟩ := node
  cases id <;> rfl

/-! ## Labels -/

/-- What the declaration of labels looks at in a statement besides its label. -/
def labelSite (s : Stmt) : StmtId × Position × Bool :=
  (s.id, s.position, s.isLoop)

theorem labelSites_of_erase {statements statements' : List Stmt}
    (same : Stmt.eraseList id statements' = Stmt.eraseList id statements) :
    statements'.map labelSite = statements.map labelSite := by
  have unread : ∀ s : Stmt, labelSite (s.erase id) = labelSite s := by
    intro s
    obtain ⟨number, position, label, form⟩ := s
    exact congrArg (fun isLoop => (number, position, isLoop)) (Stmt.isLoop_erase _)
  have whole := congrArg (List.map labelSite) same
  simpa only [Stmt.eraseList_eq_map, List.map_map, Function.comp_def, unread] using whole

/-- Each statement gets the label that it got before. -/
theorem declareLabels_again {statements statements' : List Stmt}
    {labels labels' : NameMap SymbolId} {annotated : List (Option StmtLabel)}
    (ran : (declareLabels ctx labels statements).run s = ((labels', annotated), s'))
    (sites : statements'.map labelSite = statements.map labelSite)
    (same : statements'.map (·.label) = annotated) :
    (declareLabels ctx labels statements').run s = ((labels', annotated), s') := by
  induction statements generalizing statements' labels labels' annotated s s' with
  | nil =>
    obtain rfl := List.map_eq_nil_iff.mp sites
    exact ran
  | cons stmt rest hypothesis =>
    cases statements' with
    | nil => cases sites
    | cons stmt' rest' =>
      obtain ⟨here, others⟩ := List.cons.inj sites
      obtain ⟨number, placed⟩ := Prod.mk.inj here
      obtain ⟨placed, isLoop⟩ := Prod.mk.inj placed
      rw [List.map_cons] at same
      rw [declareLabels] at ran ⊢
      cases labelled : stmt.label with
      | none =>
        rw [labelled] at ran
        obtain ⟨⟨found, annotated'⟩, s₁, inside, ended⟩ := bind_inv ran
        cases ended
        obtain ⟨unlabelled, same⟩ := List.cons.inj same
        rw [unlabelled]
        exact run_bind_of (hypothesis inside others same) _
      | some label =>
        rw [labelled] at ran
        obtain ⟨symbol, s₁, inserted, behind⟩ := bind_inv ran
        cases clash : labels.find? label.name with
        | none =>
          simp only [clash] at behind
          obtain ⟨⟨found, annotated'⟩, s₂, inside, ended⟩ := bind_inv behind
          cases ended
          obtain ⟨bound, same⟩ := List.cons.inj same
          simp only [bound, number, placed, isLoop]
          rw [run_bind_of inserted]
          simp only [clash]
          exact run_bind_of (hypothesis inside others same) _
        | some previous =>
          simp only [clash] at behind
          obtain ⟨_, s₂, seen, behind⟩ := bind_inv behind
          obtain ⟨_, s₃, reported, behind⟩ := bind_inv behind
          obtain ⟨⟨found, annotated'⟩, s₄, inside, ended⟩ := bind_inv behind
          cases ended
          obtain ⟨bound, same⟩ := List.cons.inj same
          simp only [bound, number, placed, isLoop]
          rw [run_bind_of inserted]
          simp only [clash]
          rw [run_bind_of seen, run_bind_of reported]
          exact run_bind_of (hypothesis inside others same) _

/-- Each statement gets its label back, if there is one for each. -/
theorem labels_checkEach {table : SymbolTable} : ∀ (statements : List Stmt)
    (labels : List (Option StmtLabel)), labels.length = statements.length →
      (checkEach ctx statements labels).Ensures table fun statements' =>
        statements'.map (·.label) = labels
  | [], [], _ => .pure rfl
  | s :: rest, label :: labels, length => by
    rw [checkEach]
    refine .bind (.trivial _) fun s' _ => ?_
    refine .bind (labels_checkEach rest labels (Nat.succ.inj length)) fun rest' same => .pure ?_
    exact congrArg (label :: ·) same

theorem label_of_erase {stmt stmt' : Stmt} (same : stmt'.erase id = stmt.erase id) :
    stmt'.label.map StmtLabel.erase = stmt.label.map StmtLabel.erase := by
  obtain ⟨number, position, label, form⟩ := stmt
  obtain ⟨number', position', label', form'⟩ := stmt'
  exact (Stmt.mk.inj same).2.2.1

theorem StmtLabel.names_of_erase {label label' : Option StmtLabel}
    (same : label.map StmtLabel.erase = label'.map StmtLabel.erase) :
    label.map (·.name) = label'.map (·.name) := by
  have names := congrArg (Option.map (·.name)) same
  rw [Option.map_map, Option.map_map] at names
  exact names

/-- The check of a statement passes its label on. It looks at no more than the name. -/
theorem recorded_relabelled {stmt stmt' : Stmt} {label : Option StmtLabel}
    (ran : (recorded (checkStmt ctx stmt)).run s = (stmt', s'))
    (same : label.map StmtLabel.erase = stmt.label.map StmtLabel.erase) :
    (recorded (checkStmt ctx { stmt with label := label })).run s =
      ({ stmt' with label := label }, s') := by
  obtain ⟨number, position, written, form⟩ := stmt
  have named : label.map (·.name) = written.map (·.name) := StmtLabel.names_of_erase same
  rw [run_recorded, checkStmt] at ran ⊢
  rw [named]
  generalize (checkForm ctx number position (written.map (·.name)) form) = check at *
  cases ran
  rfl

/-! ## Assignments -/

section Assignments

variable {sid : StmtId} {position : Position} {label : Option String} {op : AssignOp}

/-- An assignment with an operator looks at its target as at an operand. -/
theorem assignOperated_repeats {target value : Expr} {binary : BinaryOp}
    (assignable : [target].find? (!·.isAssignable) = none) (operator : op.binary? = some binary)
    (first : (infer ctx target .unknown).RepeatsNode fun e => infer ctx e .unknown)
    (second : ∀ type, (infer ctx value type).RepeatsNode fun e => infer ctx e type) :
    (checkForm ctx sid position label (.assign [target] [value] op)).RepeatsNode fun form =>
      checkForm ctx sid position label form := by
  have unfolded : ∀ target value : Expr, [target].find? (!·.isAssignable) = none →
      checkForm ctx sid position label (.assign [target] [value] op) =
        (((infer ctx target .unknown).andThen value fun type =>
          expecting ctx type (infer ctx value)).conclude fun operand =>
            checkOperand ctx binary.render (binary == .add) operand position).rebuild
          fun both => .assign [both.1] [both.2] op := by
    intro target value assignable
    rw [checkForm, assignable, operator]
  have operands : ((infer ctx target .unknown).andThen value fun type =>
      expecting ctx type (infer ctx value)).RepeatsNode fun both =>
        (infer ctx both.1 .unknown).andThen both.2 fun type =>
          expecting ctx type (infer ctx both.2) :=
    first.andThen fun type => expecting_repeats (second type)
  rw [unfolded target value assignable]
  refine operands.conclude.rebuildKnown (g := fun _ both => .assign [both.1] [both.2] op)
    (N := fun both => (both.1.erase id, both.2.erase id) = (target.erase id, value.erase id))
      (fun _ => Shows.conclude (Shows.andThen (infer_shows ctx target _) rfl fun type =>
        agreeing_shows (infer_shows ctx value type))) (fun both same => ?_) fun _ => rfl
  -- whether the annotated target can be assigned to is seen from its form
  have targets : Expr.eraseList id [both.1] = Expr.eraseList id [target] :=
    congrArg ([·]) (Prod.mk.inj same).1
  exact unfolded _ _ (find?_of_erase targets assignable)

/-- An assignment of as many values as there are targets. -/
theorem assignPaired_repeats {lhs rhs : List Expr}
    (assignable : lhs.find? (!·.isAssignable) = none) (operator : op.binary? = none)
    (pairs : lhs.length = rhs.length)
    (assigned : (assignAll ctx lhs (waitingAll ctx rhs)).RepeatsNode fun both =>
      assignAll ctx both.1 (waitingAll ctx both.2)) :
    (checkForm ctx sid position label (.assign lhs rhs op)).RepeatsNode fun form =>
      checkForm ctx sid position label form := by
  have unfolded : ∀ lhs rhs : List Expr, lhs.find? (!·.isAssignable) = none →
      lhs.length = rhs.length → checkForm ctx sid position label (.assign lhs rhs op) =
        (assignAll ctx lhs (waitingAll ctx rhs)).rebuild fun both =>
          .assign both.1 both.2 op := by
    intro lhs rhs assignable pairs
    rw [checkForm, assignable, operator]
    exact if_pos pairs
  rw [unfolded lhs rhs assignable pairs]
  refine assigned.rebuildKnown (g := fun _ both => .assign both.1 both.2 op)
    (N := fun both => (Expr.eraseList id both.1, Expr.eraseList id both.2) =
      (Expr.eraseList id lhs, Expr.eraseList id ((waitingAll ctx rhs).map (·.expr))))
        (fun _ => assignAll_shows ctx lhs _ (waitingAll_shows ctx rhs))
          (fun both same => ?_) fun _ => rfl
  rw [waitingAll_exprs] at same
  obtain ⟨targets, values⟩ := Prod.mk.inj same
  refine unfolded _ _ (find?_of_erase targets assignable) ?_
  rw [Expr.length_of_erase targets, Expr.length_of_erase values, pairs]

/-- An assignment of the parts of one value, one to each target. -/
theorem assignParts_repeats {lhs : List Expr} {value : Expr}
    (assignable : lhs.find? (!·.isAssignable) = none) (operator : op.binary? = none)
    (unpaired : ¬ lhs.length = [value].length)
    (whole : (infer ctx value .unknown).RepeatsNode fun e => infer ctx e .unknown)
    (parts : ∀ types, (expectAll ctx lhs types).RepeatsNode fun es => expectAll ctx es types) :
    (checkForm ctx sid position label (.assign lhs [value] op)).RepeatsNode fun form =>
      checkForm ctx sid position label form := by
  rintro s s' ⟨form', result⟩ named ran
  have shown := Shows.of_run (StmtForm.erase id) named ran fun _ =>
    checkForm_shows ctx sid position label (.assign lhs [value] op)
  rw [checkForm, assignable, operator] at ran
  dsimp only at ran
  rw [if_neg unpaired] at ran
  obtain ⟨⟨value', lhs'⟩, inside, rfl⟩ := rebuild_inv ran
  obtain ⟨⟨_, typed⟩, s₁, first, behind⟩ := bind_inv inside
  obtain ⟨⟨_, _⟩, s₂, second, ended⟩ := bind_inv behind
  cases ended
  obtain ⟨targets, -⟩ := StmtForm.assign.inj shown
  have unpaired : ¬ lhs.length = [value'].length := unpaired
  change (checkForm ctx sid position label (.assign lhs' [value'] op)).run s = _
  rw [checkForm, find?_of_erase targets assignable, operator]
  dsimp only
  rw [Expr.length_of_erase targets, if_neg unpaired]
  refine run_rebuild_of (?_ : Check.run _ _ = (((value', lhs'), result), s')) _
  refine (run_bind_of (whole named first) _).trans ?_
  dsimp only
  refine (run_bind_of (?_ : Check.run _ _ = ((lhs', result), s')) _).trans rfl
  cases typed with
  | error err => cases second; rfl
  | ok type =>
    cases type with
    | tuple members =>
      change (if members.length = lhs.length then expectAll ctx lhs members
        else _ : Check _).run s₁ = _ at second
      change (if members.length = lhs.length then expectAll ctx lhs' members
        else _ : Check _).run s₁ = _
      by_cases enough : members.length = lhs.length
      · rw [if_pos enough] at second ⊢
        exact parts members (wellScoped_of_run named first) second
      · rw [if_neg enough] at second ⊢
        cases second
        rfl
    | _ => cases second; rfl

end Assignments

/-! ## Trees -/

mutual

theorem infer_repeats (ctx : Context) : ∀ (e : Expr) (hint : Ty),
    (infer ctx e hint).RepeatsNode fun e => infer ctx e hint
  | ⟨position, form, type⟩, hint => by
    intro s s' checked named ran
    rw [infer] at ran
    obtain ⟨⟨form', result⟩, s₁, inside, rest⟩ := bind_inv ran
    have again := inferForm_repeats ctx position form hint named inside
    cases result with
    | ok found =>
      cases rest
      change (infer ctx ⟨position, form', found⟩ hint).run s = _
      rw [infer, run_bind_of again]
      rfl
    | error err =>
      cases rest
      change (infer ctx ⟨position, form', type⟩ hint).run s = _
      rw [infer, run_bind_of again]
      rfl

theorem inferForm_repeats (ctx : Context) (position : Position) : ∀ (form : ExprForm) (hint : Ty),
    (inferForm ctx position form hint).RepeatsNode fun form => inferForm ctx position form hint
  | .literal literal, hint => .pure rfl
  | .blank, hint => .pure rfl
  | .compound spec shape elements, hint => by
    rw [inferForm]
    refine .given (by rw [inferForm]) fun {s s₀ s' type form result} _ named typed ran => ?_
    split at ran
    case isTrue empty =>
      cases ran
      rw [inferForm, run_given_of_ok typed, if_pos empty]
      rfl
    case isFalse full =>
      obtain ⟨laidOut, s₁, attempted, behind⟩ := bind_inv ran
      cases laidOut with
      | error err =>
        cases behind
        rw [inferForm, run_given_of_ok typed, if_neg full, run_given_of_error attempted]
      | ok layout =>
        obtain ⟨elements', inside, rfl⟩ := rebuild_inv behind
        have placed := wellScoped_of_run named attempted
        have same : Element.eraseList id elements' = Element.eraseList id elements :=
          Shows.of_run (Element.eraseList id) placed inside fun _ =>
          Shows.mapResult (checkElements_shows ctx elements layout)
        have again := (checkElements_repeats ctx elements layout).mapResult placed inside
        rw [← Element.isEmpty_of_erase same] at full
        rw [← layoutOf_of_erase same] at attempted
        rw [inferForm, run_given_of_ok typed, if_neg full, run_given_of_ok attempted]
        exact run_rebuild_of again _
  | .binary op left right, hint => by
    rw [inferForm]
    by_cases logical : op.isLogical = true
    · rw [if_pos logical]
      refine (RepeatsNode.andThen (expecting_repeats (infer_repeats ctx left _)) fun _ =>
        expecting_repeats (infer_repeats ctx right _)).mapResult.rebuild fun both => ?_
      obtain ⟨left', right'⟩ := both
      rw [inferForm, if_pos logical]
    · rw [if_neg logical]
      refine ((infer_repeats ctx left .unknown).andThen fun type =>
        expecting_repeats (infer_repeats ctx right type)).conclude.rebuild fun both => ?_
      obtain ⟨left', right'⟩ := both
      rw [inferForm, if_neg logical]
  | .unary op operand, hint => by
    cases op with
    | plus => exact (infer_repeats ctx operand hint).conclude.rebuild fun _ => rfl
    | minus => exact (infer_repeats ctx operand hint).conclude.rebuild fun _ => rfl
    | not => exact (expecting_repeats (infer_repeats ctx operand .bool)).rebuild fun _ => rfl
    | addressOf => exact (infer_repeats ctx operand _).mapResult.rebuild fun _ => rfl
    | deref => exact (infer_repeats ctx operand .unknown).conclude.rebuild fun _ => rfl
  | .index left index, hint => by
    rw [inferForm]
    refine ((infer_repeats ctx left .unknown).conclude.andThen (k := fun index types =>
      (expecting ctx types.1 (infer ctx index)).mapResult fun _ => types.2) fun types =>
        (expecting_repeats (infer_repeats ctx index types.1)).mapResult).rebuild fun both => ?_
    obtain ⟨left', index'⟩ := both
    rw [inferForm]
  | .selector left field, hint => by
    rw [inferForm]
    exact (infer_repeats ctx left .unknown).conclude.rebuild fun _ => by rw [inferForm]
  | .call callee args, hint => by
    rw [inferForm]
    refine .given (by rw [inferForm]) fun {s s₁ s₂ target _ result} named placed converted ran => ?_
    cases target with
    | some target =>
      -- the callee of a conversion comes back annotated, and is a type again
      have same := conversion?_of_run named converted
      rw [← same] at converted
      obtain ⟨callee', type⟩ := target
      match args with
      | [] =>
        cases ran
        rw [inferForm, run_given_of_ok converted]
        rfl
      | [arg] =>
        obtain ⟨arg', inside, rfl⟩ := rebuild_inv ran
        have again := (infer_repeats ctx arg type).mapResult placed inside
        rw [inferForm, run_given_of_ok converted]
        exact run_rebuild_of again _
      | _ :: _ :: _ =>
        cases ran
        rw [inferForm, run_given_of_ok converted]
        rfl
    | none =>
      obtain ⟨⟨callee', args'⟩, inside, rfl⟩ := rebuild_inv ran
      have both : RepeatsNode (((infer ctx callee .unknown).conclude fun type =>
          callSignature ctx type args.length position).andThen args fun signature =>
            (expectAll ctx args signature.args).mapResult fun _ => signature.resultType) _ :=
        (infer_repeats ctx callee .unknown).conclude.andThen fun signature =>
          (expectAll_repeats ctx args signature.args).mapResult
      have again := both placed inside
      have first : ∀ table, Shows table ((infer ctx callee .unknown).conclude fun type =>
          callSignature ctx type args.length position) (Expr.erase id) (callee.erase id) :=
        fun _ => .conclude (infer_shows ctx callee .unknown)
      have second : ∀ table (signature : Signature), Shows table
          ((expectAll ctx args signature.args).mapResult fun _ => signature.resultType)
          (Expr.eraseList id) (Expr.eraseList id args) :=
        fun _ signature => .mapResult (expectAll_shows ctx args signature.args)
      have same := Shows.of_run (fun both => (both.1.erase id, Expr.eraseList id both.2))
        placed inside fun table => Shows.andThen (first table) rfl (second table)
      obtain ⟨sameCallee, sameArgs⟩ := Prod.mk.inj same
      rw [← conversion?_of_erase sameCallee] at converted
      rw [inferForm, run_given_of_ok converted]
      dsimp only
      rw [Expr.length_of_erase sameArgs]
      exact run_rebuild_of again _
  | .func func, hint => by
    rw [inferForm]
    refine .given (by rw [inferForm]) fun {s s₁ s₂ found form result} named placed typed ran => ?_
    obtain ⟨receiver, signature⟩ := found
    obtain ⟨func', s₃, inside, ended⟩ := bind_inv ran
    cases ended
    have again := checkBody_repeats ctx func signature receiver placed inside
    have same := Ensures.seen_of_run (Func.erase id)
      (fun _ => checkBody_shows ctx func signature receiver) placed inside
    rw [← funcType_of_erase same] at typed
    rw [inferForm, run_given_of_ok typed]
    exact run_bind_of again _
  | .ident ident, hint => by
    rw [inferForm]
    refine RepeatsNode.rebuild (inferIdent_repeats ctx ident position) fun _ => ?_
    rw [inferForm]
  | .type spec, hint => .pure rfl

theorem expectAll_repeats (ctx : Context) : ∀ (es : List Expr) (types : List Ty),
    (expectAll ctx es types).RepeatsNode fun es => expectAll ctx es types
  | e :: es, type :: types => by
    rw [expectAll]
    refine ((expecting_repeats (infer_repeats ctx e type)).andThen fun _ =>
      expectAll_repeats ctx es types).rebuild fun both => ?_
    obtain ⟨e', es'⟩ := both
    rw [expectAll]
  | [], _ => .pure rfl
  | _ :: _, [] => .pure rfl

theorem waitingAll_repeats (ctx : Context) : ∀ es : List Expr, ∀ e ∈ es, ∀ hint,
    (infer ctx e hint).RepeatsNode fun e => infer ctx e hint
  | [] => nofun
  | e :: es => List.forall_mem_cons.mpr ⟨infer_repeats ctx e, waitingAll_repeats ctx es⟩

theorem assignAll_repeats (ctx : Context) : ∀ targets values : List Expr,
    (∀ value ∈ values, ∀ hint, (infer ctx value hint).RepeatsNode fun e => infer ctx e hint) →
      (assignAll ctx targets (waitingAll ctx values)).RepeatsNode fun both =>
        assignAll ctx both.1 (waitingAll ctx both.2)
  | target :: targets, value :: values, waits => by
    rw [waitingAll, assignAll, waitingAll_exprs]
    obtain ⟨here, others⟩ := List.forall_mem_cons.mp waits
    have first : ((infer ctx target .unknown).andThen value fun type =>
        expecting ctx type (infer ctx value)).RepeatsNode fun both =>
          (infer ctx both.1 .unknown).andThen both.2 fun type =>
            expecting ctx type (infer ctx both.2) :=
      (infer_repeats ctx target .unknown).andThen fun type => expecting_repeats (here type)
    refine (first.andThen (k := fun both _ => assignAll ctx both.1 (waitingAll ctx both.2))
      fun _ => assignAll_repeats ctx targets values others).rebuild fun both => ?_
    obtain ⟨⟨target', value'⟩, targets', values'⟩ := both
    dsimp only
    rw [waitingAll, assignAll, waitingAll_exprs]
  | [], values, _ => by
    have done : ∀ waiting : List Waiting, assignAll ctx [] waiting =
        return (([], waiting.map (·.expr)), .ok ()) := by
      intro waiting
      cases waiting <;> rfl
    rw [done, waitingAll_exprs]
    exact .pure (by rw [done, waitingAll_exprs])
  | target :: targets, [], _ => .pure rfl

theorem checkKey_repeats (ctx : Context) (layout : Layout) : ∀ key : Option Expr,
    (checkKey ctx layout key).RepeatsNode fun key => checkKey ctx layout key
  | none => .pure rfl
  | some key => by
    rw [checkKey]
    cases wanted : layout.keyType? with
    | none =>
      refine .pure ?_
      simp only [checkKey, wanted, layout.typeKey_typeKey]
    | some type =>
      refine (expecting_repeats (infer_repeats ctx key type)).mapResult.rebuild fun key' => ?_
      simp only [checkKey, wanted]

theorem checkElements_repeats (ctx : Context) : ∀ (elements : List Element) (layout : Layout),
    (checkElements ctx elements layout).RepeatsNode fun elements =>
      checkElements ctx elements layout
  | [], layout => .pure rfl
  | ⟨key, value⟩ :: rest, layout => by
    rintro s s' ⟨elements', result⟩ named ran
    rw [checkElements] at ran
    obtain ⟨⟨key', keyed⟩, s₁, first, behind⟩ := bind_inv ran
    obtain ⟨⟨value', rest'⟩, inside, rfl⟩ := rebuild_inv behind
    have placed := wellScoped_of_run named first
    have again := RepeatsNode.givenSame (fun next : Ty × Layout =>
      (expecting_repeats (infer_repeats ctx value next.1)).andThen fun _ =>
        checkElements_repeats ctx rest next.2) placed inside
    have same := Shows.of_run (fun both => (both.1.erase id, Element.eraseList id both.2))
      placed inside fun _ => Shows.given rfl fun next => Shows.andThen
        (agreeing_shows (infer_shows ctx value next.1)) rfl fun _ =>
          checkElements_shows ctx rest next.2
    have position : value'.position = value.position :=
      position_of_erase (Prod.mk.inj same).1
    change (checkElements ctx (⟨key', value'⟩ :: rest') layout).run s = _
    rw [checkElements, run_bind_of (checkKey_repeats ctx layout key named first)]
    dsimp only
    rw [position]
    exact run_rebuild_of again _

theorem checkBody_repeats (ctx : Context) : ∀ (func : Func) (signature : Signature)
    (receiver : Option Ty), (checkBody ctx func signature receiver).Repeats fun func =>
      checkBody ctx func signature receiver
  | ⟨name, receiver, params, results, body⟩, signature, receiverType => by
    intro s s' func' named ran
    rw [checkBody] at ran
    obtain ⟨s₁, inside, rfl⟩ := withScope_inv ran
    obtain ⟨receiver', s₂, first, inside⟩ := bind_inv inside
    obtain ⟨params', s₃, second, inside⟩ := bind_inv inside
    obtain ⟨results', s₄, third, inside⟩ := bind_inv inside
    obtain ⟨body', s₅, fourth, ended⟩ := bind_inv inside
    cases ended
    have named₂ := wellScoped_of_run named.pushScope first
    have named₃ := wellScoped_of_run named₂ second
    have named₄ := wellScoped_of_run named₃ third
    have same := Ensures.seen_of_run (List.map Param.erase)
      (fun _ => declareParams_shows ctx results signature.results) named₃ third
    have frame : ctx.ofBody results' signature = ctx.ofBody results signature :=
      ofBody_of_erase same
    change (checkBody ctx ⟨name, receiver', params', results', body'⟩ signature _).run s = _
    rw [checkBody, frame]
    refine run_withScope_of ?_
    rw [run_bind_of (declareReceiver_repeats receiver receiverType named.pushScope first),
      run_bind_of (declareParams_repeats params _ named₂ second),
      run_bind_of (declareParams_repeats results _ named₃ third),
      run_bind_of (checkStatements_repeats _ body named₄ fourth)]
    rfl

theorem checkMethods_repeats (ctx : Context) (this : Ty) : ∀ (methods : List Func)
    (signatures : List Signature), (checkMethods ctx this methods signatures).RepeatsNode
      fun methods => checkMethods ctx this methods signatures
  | method :: methods, signature :: signatures => by
    rw [checkMethods]
    refine .given (by rw [checkMethods]) fun {s s₁ s₂ found _ result} named placed typed ran => ?_
    obtain ⟨method', s₃, first, behind⟩ := bind_inv ran
    obtain ⟨⟨rest', others⟩, s₄, second, ended⟩ := bind_inv behind
    cases ended
    have same := Ensures.seen_of_run (Func.erase id)
      (fun _ => checkBody_shows ctx method signature _) placed first
    rw [← receiverType_of_erase (receiver_of_erase same)] at typed
    rw [checkMethods, run_given_of_ok typed]
    have named₃ := wellScoped_of_run placed first
    exact (run_bind_of (checkBody_repeats ctx method signature _ placed first) _).trans
      (run_bind_of (checkMethods_repeats ctx this methods signatures named₃ second) _)
  | [], _ => .pure rfl
  | _ :: _, [] => .pure rfl

theorem checkStatements_repeats (ctx : Context) : ∀ block : Block,
    (checkStatements ctx block).Repeats fun block => checkStatements ctx block
  | ⟨statements, labels⟩ => by
    intro s s' block named ran
    rw [checkStatements] at ran
    obtain ⟨⟨labels', annotated⟩, s₁, declared, inside⟩ := bind_inv ran
    obtain ⟨statements', s₂, checked, ended⟩ := bind_inv inside
    cases ended
    have placed := wellScoped_of_run named declared
    have labelled := Ensures.of_run (fun _ => declareLabels_shows ctx .empty statements) named
      declared
    have length : annotated.length = statements.length := by
      simpa using congrArg List.length labelled
    have same := Ensures.seen_of_run (Stmt.eraseList id)
      (fun _ => checkEach_shows _ statements annotated labelled) placed checked
    have back := Ensures.seen_of_run (List.map (·.label))
      (fun _ => labels_checkEach statements annotated length) placed checked
    -- the labels were declared in front of the statements, and are declared again from what the
    -- check of the statements has left of them
    have again := declareLabels_again declared (labelSites_of_erase same) back
    change (checkStatements ctx ⟨statements', labels'⟩).run s = _
    rw [checkStatements, run_bind_of again]
    exact run_bind_of (checkEach_repeats _ statements annotated labelled placed checked) _

theorem checkEach_repeats (ctx : Context) : ∀ (statements : List Stmt)
    (labels : List (Option StmtLabel)),
      labels.map (·.map StmtLabel.erase) = statements.map (·.label.map StmtLabel.erase) →
        (checkEach ctx statements labels).Repeats fun statements => checkEach ctx statements labels
  | stmt :: rest, label :: labels, named => by
    intro s s' statements' placed ran
    rw [checkEach] at ran
    obtain ⟨here, others⟩ := List.cons.inj named
    obtain ⟨stmt', s₁, first, behind⟩ := bind_inv ran
    obtain ⟨rest', s₂, second, ended⟩ := bind_inv behind
    cases ended
    have again := (checkStmt_repeats ctx stmt).recorded placed first
    have placed₁ := wellScoped_of_run placed first
    have againOthers := checkEach_repeats ctx rest labels others placed₁ second
    have same := Ensures.seen_of_run (Stmt.erase id)
      (fun _ => (checkStmt_shows ctx stmt).recorded) placed first
    have relabelled := recorded_relabelled again (here.trans (label_of_erase same).symm)
    change (checkEach ctx ({ stmt' with label := label } :: rest') (label :: labels)).run s = _
    rw [checkEach, run_bind_of relabelled, run_bind_of againOthers]
    rfl
  | [], labels, _ => by
    intro s s' statements' _ ran
    cases labels <;> cases ran <;> rfl
  | stmt :: rest, [], named => by cases named

theorem checkStmt_repeats (ctx : Context) : ∀ stmt : Stmt,
    (checkStmt ctx stmt).RepeatsNode fun stmt => checkStmt ctx stmt
  | ⟨id, position, label, form⟩ => by
    intro s s' checked named ran
    rw [checkStmt] at ran
    obtain ⟨⟨form', result⟩, s₁, inside, ended⟩ := bind_inv ran
    cases ended
    change (checkStmt ctx ⟨id, position, label, form'⟩).run s = _
    rw [checkStmt]
    exact run_bind_of (checkForm_repeats ctx id position _ form named inside) _

theorem checkForm_repeats (ctx : Context) (sid : StmtId) (position : Position)
    (label : Option String) : ∀ form : StmtForm,
      (checkForm ctx sid position label form).RepeatsNode fun form =>
        checkForm ctx sid position label form
  | .assign lhs rhs op => by
    cases assignable : lhs.find? (!·.isAssignable) with
    | some e => exact .stops (by rw [checkForm, assignable]) rfl
    | none =>
    cases operator : op.binary? with
    | some binary =>
      match lhs, rhs with
      | [target], [value] =>
        exact assignOperated_repeats assignable operator (infer_repeats ctx target .unknown)
          (infer_repeats ctx value)
      | [], rhs => exact .stops (by rw [checkForm, assignable, operator]) rfl
      | target :: second :: lhs, rhs => exact .stops (by rw [checkForm, assignable, operator]) rfl
      | [target], [] => exact .stops (by rw [checkForm, assignable, operator]) rfl
      | [target], value :: second :: rhs =>
        exact .stops (by rw [checkForm, assignable, operator]) rfl
    | none =>
    by_cases pairs : lhs.length = rhs.length
    · exact assignPaired_repeats assignable operator pairs
        (assignAll_repeats ctx lhs rhs (waitingAll_repeats ctx rhs))
    · match rhs with
      | [] => exact .stops (by rw [checkForm, assignable, operator]; exact if_neg pairs) rfl
      | value :: second :: rhs =>
        exact .stops (by rw [checkForm, assignable, operator]; exact if_neg pairs) rfl
      | [value] =>
        exact assignParts_repeats assignable operator pairs (infer_repeats ctx value .unknown)
          (expectAll_repeats ctx lhs)
  | .struct ⟨name, fields, methods, symbol⟩ => by
    rw [checkForm]
    have declared : RepeatsNode (declareType ctx name position methods
        (structTarget ctx name position fields methods) fun struct signatures =>
          checkMethods ctx (.custom name struct) methods signatures) fun node =>
        declareType ctx name position node.2 (structTarget ctx name position fields methods)
          fun struct signatures => checkMethods ctx (.custom name struct) node.2 signatures :=
      .declareType fun struct signatures =>
        checkMethods_repeats ctx (.custom name struct) methods signatures
    refine declared.rebuildKnown (N := fun node : Option SymbolId × List Func =>
      Func.eraseList id node.2 = Func.eraseList id methods)
        (g := fun before after => .struct ⟨name, fields, after.2, after.1.or (before.1.or symbol)⟩)
        (fun _ => Shows.declareType rfl fun struct signatures =>
          checkMethods_shows ctx (.custom name struct) methods signatures)
            (fun node same => ?_) fun node => ?_
    · obtain ⟨struct, methods'⟩ := node
      have defined : structTarget ctx name position fields methods' =
          structTarget ctx name position fields methods := structTarget_of_erase same
      dsimp only
      rw [checkForm, defined]
    · obtain ⟨struct, methods'⟩ := node
      cases struct <;> rfl
  | .typeAlias decl => by
    rw [checkForm]
    exact (checkAlias_repeats decl position).rebuild fun _ => by rw [checkForm]
  | .var vars => by
    rw [checkForm]
    exact (checkVars_repeats ctx sid vars).rebuild fun _ => by rw [checkForm]
  | .pass => .pure rfl
  | .cond branches => by
    intro s s' checked named ran
    rw [checkForm] at ran
    obtain ⟨branches', s₁, inside, ended⟩ := bind_inv ran
    cases ended
    change (checkForm ctx sid position label (.cond branches')).run s = _
    rw [checkForm]
    exact run_bind_of (checkBranches_repeats ctx sid branches named inside) _
  | .loop ⟨header, condition, step, body⟩ => by
    intro s s' checked named ran
    rw [checkForm] at ran
    obtain ⟨s₀, inside, rfl⟩ := withScope_inv ran
    obtain ⟨header', s₁, first, inside⟩ := bind_inv inside
    obtain ⟨condition', s₂, second, inside⟩ := bind_inv inside
    obtain ⟨step', s₃, third, inside⟩ := bind_inv inside
    obtain ⟨body', s₄, fourth, ended⟩ := bind_inv inside
    cases ended
    have named₁ := wellScoped_of_run named.pushScope first
    have named₂ := wellScoped_of_run named₁ second
    have named₃ := wellScoped_of_run named₂ third
    change (checkForm ctx sid position label (.loop ⟨header', condition', step', body'⟩)).run s = _
    rw [checkForm]
    refine run_withScope_of ?_
    rw [run_bind_of (checkHeader_repeats ctx sid header named.pushScope first),
      run_bind_of (checkCondition_repeats ctx condition named₁ second),
      run_bind_of (checkStep_repeats ctx step named₂ third),
      run_bind_of ((checkStatements_repeats _ body).withScope named₃ fourth)]
    rfl
  | .expr e => by
    rw [checkForm]
    exact (infer_repeats ctx e .unknown).mapResult.rebuild fun _ => by rw [checkForm]
  | .jump jump => by
    have resolved : ∀ jump, checkForm ctx sid position label (.jump jump) =
        return (.jump (resolveJump ctx jump position).1, (resolveJump ctx jump position).2) :=
      fun _ => rfl
    rw [resolved]
    exact .pure (by rw [resolved, resolveJump_resolveJump])
  | .ret values => by
    rw [checkForm]
    have inside : (given (liftM (returnTypes ctx values.length position)) values fun types =>
        expectAll ctx values types).RepeatsNode fun values' =>
          given (liftM (returnTypes ctx values.length position)) values' fun types =>
            expectAll ctx values' types :=
      .givenSame fun types => expectAll_repeats ctx values types
    refine inside.rebuildKnown (g := fun _ => .ret)
      (N := fun values' => Expr.eraseList id values' = Expr.eraseList id values)
        (fun _ => Shows.given rfl fun types => expectAll_shows ctx values types)
          (fun values' same => ?_) fun _ => rfl
    rw [checkForm, Expr.length_of_erase same]

theorem checkVars_repeats (ctx : Context) (sid : StmtId) : ∀ vars : VarForm,
    (checkVars ctx sid vars).RepeatsNode fun vars => checkVars ctx sid vars
  | ⟨vars, isFunc⟩ => by
    intro s s' checked named ran
    rw [checkVars] at ran
    obtain ⟨_, _, seen, behind⟩ := bind_inv ran
    cases seen
    obtain ⟨⟨vars', result⟩, s₁, inside, ended⟩ := bind_inv behind
    cases ended
    change (checkVars ctx sid ⟨vars', isFunc⟩).run s = _
    rw [checkVars, run_bind_of (show state.run s = (s, s) from rfl),
      run_bind_of (checkVarList_repeats ctx sid isFunc vars named inside)]
    rfl

theorem checkVarList_repeats (ctx : Context) (sid : StmtId) (isFunc : Bool) :
    ∀ vars : List VarDecl, (checkVarList ctx sid isFunc vars).RepeatsNode fun vars =>
      checkVarList ctx sid isFunc vars
  | [] => .pure rfl
  | decl :: rest => by
    rw [checkVarList]
    have first : RepeatsNode
        (if isFunc then checkFuncVar ctx sid decl else checkPlainVar ctx sid decl)
        fun decl => if isFunc then checkFuncVar ctx sid decl else checkPlainVar ctx sid decl := by
      cases isFunc with
      | true => exact checkFuncVar_repeats ctx sid decl
      | false => exact checkPlainVar_repeats ctx sid decl
    refine (first.noted.alongside (checkVarList_repeats ctx sid isFunc rest)).rebuild fun both => ?_
    obtain ⟨decl', rest'⟩ := both
    rw [checkVarList]

theorem checkPlainVar_repeats (ctx : Context) (sid : StmtId) : ∀ decl : VarDecl,
    (checkPlainVar ctx sid decl).RepeatsNode fun decl => checkPlainVar ctx sid decl
  | ⟨name, position, spec, value, symbol⟩ => by
    rintro s s' ⟨decl', result⟩ named ran
    rw [checkPlainVar] at ran
    obtain ⟨resolved, s₁, first, behind⟩ := bind_inv ran
    cases resolved with
    | error err =>
      obtain ⟨symbol', rfl⟩ := declareVar_inv behind
      change (checkPlainVar ctx sid ⟨name, position, spec, value, symbol'⟩).run s = _
      rw [checkPlainVar, run_bind_of first]
      exact behind
    | ok declared =>
      obtain ⟨⟨value', found⟩, s₂, inside, behind⟩ := bind_inv behind
      have placed := wellScoped_of_run named first
      have again := checkInit_repeats ctx name position declared value placed inside
      have same := Shows.of_run (Expr.eraseOption id) placed inside fun _ =>
        checkInit_shows ctx name position declared value
      have init : (value'.map fun _ => sid) = value.map fun _ => sid := by
        cases value <;> cases value' <;> first | rfl | cases same
      cases found with
      | ok type =>
        obtain ⟨symbol', rfl⟩ := declareVar_inv behind
        change (checkPlainVar ctx sid ⟨name, position, spec, value', symbol'⟩).run s = _
        rw [checkPlainVar, run_bind_of first, init]
        exact (run_bind_of again _).trans behind
      | error err =>
        obtain ⟨symbol', rfl⟩ := declareVar_inv behind
        change (checkPlainVar ctx sid ⟨name, position, spec, value', symbol'⟩).run s = _
        rw [checkPlainVar, run_bind_of first, init]
        exact (run_bind_of again _).trans behind

theorem checkInit_repeats (ctx : Context) (name : String) (position : Position) (declared : Ty) :
    ∀ value : Option Expr, (checkInit ctx name position declared value).RepeatsNode fun value =>
      checkInit ctx name position declared value
  | none => .pure rfl
  | some e => by
    rw [checkInit]
    refine ((infer_repeats ctx e declared).agreeing infer_retyped).rebuild fun _ => ?_
    rw [checkInit]

theorem checkFuncVar_repeats (ctx : Context) (sid : StmtId) : ∀ decl : VarDecl,
    (checkFuncVar ctx sid decl).RepeatsNode fun decl => checkFuncVar ctx sid decl
  | ⟨_, _, _, none, _⟩ => .pure rfl
  | ⟨name, position, spec, some ⟨valuePosition, form, type⟩, symbol⟩ => by
    cases form with
    | func func =>
      rintro s s' ⟨decl', result⟩ named ran
      rw [checkFuncVar] at ran
      obtain ⟨typed, s₁, first, behind⟩ := bind_inv ran
      cases typed with
      | error err =>
        have again := declareVar_repeats _ _ _ _ (wellScoped_of_run named first) behind
        obtain ⟨symbol', rfl⟩ := declareVar_inv behind
        change (checkFuncVar ctx sid
          ⟨name, position, spec, some ⟨valuePosition, .func func, type⟩, symbol'⟩).run s = _
        rw [checkFuncVar, run_bind_of first]
        exact again
      | ok found =>
        obtain ⟨receiver, signature⟩ := found
        have placed := wellScoped_of_run named first
        obtain ⟨⟨declared, result'⟩, s₂, second, behind⟩ := bind_inv behind
        have again := declareVar_repeats _ _ _ _ placed second
        obtain ⟨symbol', rfl⟩ := declareVar_inv second
        cases result' with
        | error err =>
          cases behind
          change (checkFuncVar ctx sid
            ⟨name, position, spec, some ⟨valuePosition, .func func, type⟩, symbol'⟩).run s = _
          rw [checkFuncVar, run_bind_of first]
          exact run_bind_of again _
        | ok _ =>
          obtain ⟨func', s₃, third, ended⟩ := bind_inv behind
          cases ended
          have placed₂ := wellScoped_of_run placed second
          have same := Ensures.seen_of_run (Func.erase id)
            (fun _ => checkBody_shows ctx func signature receiver) placed₂ third
          rw [← funcType_of_erase same] at first
          -- the variable is declared in front of the body, which only then is put into its value
          have revalued := declareVar_revalued second
            (some ⟨valuePosition, .func func', .func signature⟩)
          change (checkFuncVar ctx sid ⟨name, position, spec,
            some ⟨valuePosition, .func func', .func signature⟩, symbol'⟩).run s = _
          rw [checkFuncVar, run_bind_of first]
          refine (run_bind_of revalued _).trans ?_
          exact run_bind_of (checkBody_repeats ctx func signature receiver placed₂ third) _
    | _ => exact .pure rfl

theorem checkHeader_repeats (ctx : Context) (sid : StmtId) : ∀ header : Option VarForm,
    (checkHeader ctx sid header).Repeats fun header => checkHeader ctx sid header
  | none => by
    intro s s' header _ ran
    cases ran
    rfl
  | some vars => by
    intro s s' header named ran
    rw [checkHeader] at ran
    obtain ⟨vars', s₁, inside, ended⟩ := bind_inv ran
    cases ended
    exact run_bind_of ((checkVars_repeats ctx sid vars).recorded named inside) _

theorem checkCondition_repeats (ctx : Context) : ∀ condition : Option Expr,
    (checkCondition ctx condition).Repeats fun condition => checkCondition ctx condition
  | none => by
    intro s s' condition _ ran
    cases ran
    rfl
  | some e => by
    intro s s' condition named ran
    rw [checkCondition] at ran
    obtain ⟨e', s₁, inside, ended⟩ := bind_inv ran
    cases ended
    exact run_bind_of ((expecting_repeats (infer_repeats ctx e .bool)).recorded named inside) _

theorem checkStep_repeats (ctx : Context) : ∀ step : Option Stmt,
    (checkStep ctx step).Repeats fun step => checkStep ctx step
  | none => by
    intro s s' step _ ran
    cases ran
    rfl
  | some stmt => by
    intro s s' step named ran
    rw [checkStep] at ran
    obtain ⟨stmt', s₁, inside, ended⟩ := bind_inv ran
    cases ended
    exact run_bind_of ((checkStmt_repeats ctx stmt).recorded named inside) _

theorem checkBranches_repeats (ctx : Context) (sid : StmtId) : ∀ branches : List Branch,
    (checkBranches ctx sid branches).Repeats fun branches => checkBranches ctx sid branches
  | [] => by
    intro s s' branches _ ran
    cases ran
    rfl
  | ⟨header, condition, body⟩ :: rest => by
    intro s s' branches named ran
    rw [checkBranches] at ran
    obtain ⟨branch, s₀, branched, behind⟩ := bind_inv ran
    obtain ⟨rest', s₁, others, ended⟩ := bind_inv behind
    cases ended
    obtain ⟨s₂, inside, rfl⟩ := withScope_inv branched
    obtain ⟨header', s₃, first, inside⟩ := bind_inv inside
    obtain ⟨condition', s₄, second, inside⟩ := bind_inv inside
    obtain ⟨body', s₅, third, ended⟩ := bind_inv inside
    cases ended
    have named₁ := wellScoped_of_run named.pushScope first
    have named₂ := wellScoped_of_run named₁ second
    change (checkBranches ctx sid (⟨header', condition', body'⟩ :: rest')).run s = _
    rw [checkBranches]
    refine (run_bind_of (run_withScope_of ?_) _).trans (run_bind_of
      (checkBranches_repeats ctx sid rest (wellScoped_of_run named branched) others) _)
    rw [run_bind_of (checkHeader_repeats ctx sid header named.pushScope first),
      run_bind_of (checkCondition_repeats ctx condition named₁ second),
      run_bind_of ((checkStatements_repeats ctx body).withScope named₂ third)]
    rfl

end

end PackageCheck.Typing
