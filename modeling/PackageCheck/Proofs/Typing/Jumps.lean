import PackageCheck.Proofs.Typing.Surroundings

/-! # The jumps of a checked tree

A check leaves a jump as it was, or gives it the handles that its surroundings in the checked tree
show. The proofs follow the check: the context mirrors what is around a node, from a statement at
the top of a file down to the jumps in it. -/

namespace PackageCheck.Typing

open Check JumpSite

variable {table : SymbolTable}

/-! ## Parts of the rules -/

theorem jumpSites_typed {before : List JumpSite} (e : Expr) (type : Ty)
    (handled : Handled table before e.jumpSites) :
    Handled table before (Expr.jumpSites { e with type := type }) := by
  obtain ⟨position, form, _⟩ := e
  exact handled

theorem agreeing_jumps {what : String} {site : Expr → Site} {expected : Ty}
    {before : List JumpSite} {check : Check (Checked Expr Ty)}
    (inside : check.Gives table fun e => Handled table before e.jumpSites) :
    (agreeing what site expected check).Gives table fun e => Handled table before e.jumpSites :=
  Gives.agreeing jumpSites_typed inside

/-- A declaration leaves the initial value alone. -/
theorem declareVar_jumps {before : List JumpSite} {decl : VarDecl} {type : Ty}
    {init : Option StmtId} {result : Except Diagnostic Unit} (ctx : Context)
    (handled : Handled table before (Expr.jumpSitesOption decl.value)) :
    (declareVar ctx decl type init result).Gives table
      fun decl => Handled table before (Expr.jumpSitesOption decl.value) :=
  .given handled fun _ => .pure handled

/-! ## Trees -/

mutual

theorem infer_jumps (ctx : Context) : ∀ (e : Expr) (hint : Ty),
    (infer ctx e hint).Gives table fun e' => Handled table e.jumpSites e'.jumpSites
  | ⟨position, form, type⟩, hint => by
    rw [infer]
    refine .bind (inferForm_jumps ctx position form hint) fun (form', result) ⟨handled, _⟩ => ?_
    cases result with
    | ok found => exact Gives.pure handled
    | error err => exact Gives.pure handled

theorem inferForm_jumps (ctx : Context) (position : Position) : ∀ (form : ExprForm) (hint : Ty),
    (inferForm ctx position form hint).Gives table
      fun form' => Handled table form.jumpSites form'.jumpSites
  | .literal literal, hint => Gives.pure (.refl _)
  | .blank, hint => Gives.pure (.refl _)
  | .compound spec shape elements, hint => by
    rw [inferForm]
    refine .given (.refl _) fun type => ?_
    split
    · exact Gives.pure (.refl _)
    · refine .given (.refl _) fun layout => ?_
      exact .rebuild (.mapResult (checkElements_jumps ctx elements layout)) fun _ handled => handled
  | .binary op left right, hint => by
    rw [inferForm]
    split
    · exact .rebuild (.mapResult (.andThen (agreeing_jumps (infer_jumps ctx left _)) (.refl _)
        fun _ => agreeing_jumps (infer_jumps ctx right _))) fun _ both => both.1.append both.2
    · exact .rebuild (.conclude (.andThen (infer_jumps ctx left _) (.refl _)
        fun _ => agreeing_jumps (infer_jumps ctx right _))) fun _ both => both.1.append both.2
  | .unary op operand, hint => by
    cases op with
    | plus => exact .rebuild (.conclude (infer_jumps ctx operand _)) fun _ handled => handled
    | minus => exact .rebuild (.conclude (infer_jumps ctx operand _)) fun _ handled => handled
    | not => exact .rebuild (agreeing_jumps (infer_jumps ctx operand _)) fun _ handled => handled
    | addressOf => exact .rebuild (.mapResult (infer_jumps ctx operand _)) fun _ handled => handled
    | deref => exact .rebuild (.conclude (infer_jumps ctx operand _)) fun _ handled => handled
  | .index left index, hint => by
    rw [inferForm]
    exact .rebuild (.andThen (.conclude (infer_jumps ctx left _)) (.refl _) fun _ =>
      .mapResult (agreeing_jumps (infer_jumps ctx index _))) fun _ both => both.1.append both.2
  | .selector left field, hint => by
    rw [inferForm]
    exact .rebuild (.conclude (infer_jumps ctx left _)) fun _ handled => handled
  | .call callee args, hint => by
    rw [inferForm]
    refine EnsuresNode.given (conversion?_keeps (N := fun e => Handled table callee.jumpSites
      e.jumpSites) ctx (.refl _) jumpSites_typed fun _ _ _ _ handled => handled) (.refl _)
      fun target converts => ?_
    cases target with
    | some target =>
      have same : Handled table callee.jumpSites target.1.jumpSites := converts target rfl
      match args with
      | [] => exact Gives.pure (same.append (.refl _))
      | [arg] =>
        exact Gives.rebuild (.mapResult (infer_jumps ctx arg _)) fun _ handled =>
          same.append (handled.append (.refl []))
      | _ :: _ :: _ => exact Gives.pure (same.append (.refl _))
    | none =>
      exact Gives.rebuild (.andThen (.conclude (infer_jumps ctx callee _)) (.refl _) fun _ =>
        .mapResult (expectAll_jumps ctx args _)) fun _ both => both.1.append both.2
  | .func func, hint => by
    rw [inferForm]
    refine .given (.refl _) fun found => ?_
    exact .bind (checkBody_jumps ctx func _ _) fun func' handled => Gives.pure handled
  | .ident ident, hint => by
    rw [inferForm]
    exact .rebuild (.trivial _) fun _ _ => .refl []
  | .type spec, hint => Gives.pure (.refl _)

theorem expectAll_jumps (ctx : Context) : ∀ (es : List Expr) (types : List Ty),
    (expectAll ctx es types).Gives table
      fun es' => Handled table (Expr.jumpSitesList es) (Expr.jumpSitesList es')
  | e :: es, type :: types => by
    rw [expectAll]
    exact .rebuild (.andThen (agreeing_jumps (infer_jumps ctx e _)) (.refl _) fun _ =>
      expectAll_jumps ctx es types) fun _ both => both.1.append both.2
  | [], _ => Gives.pure (.refl _)
  | _ :: _, [] => Gives.pure (.refl _)

theorem waitingAll_jumps (ctx : Context) : ∀ es : List Expr, ∀ waiting ∈ waitingAll ctx es,
    ∀ hint, (waiting.infer hint).Gives table
      fun e' => Handled table waiting.expr.jumpSites e'.jumpSites
  | [] => nofun
  | e :: es => by
    rw [waitingAll]
    exact List.forall_mem_cons.mpr ⟨infer_jumps ctx e, waitingAll_jumps ctx es⟩

theorem assignAll_jumps (ctx : Context) : ∀ (targets : List Expr) (values : List Waiting),
    (∀ waiting ∈ values, ∀ hint, (waiting.infer hint).Gives table
      fun e' => Handled table waiting.expr.jumpSites e'.jumpSites) →
      (assignAll ctx targets values).Gives table fun x =>
        Handled table (Expr.jumpSitesList targets) (Expr.jumpSitesList x.1) ∧
          Handled table (Expr.jumpSitesList (values.map (·.expr))) (Expr.jumpSitesList x.2)
  | target :: targets, value :: values, waits => by
    rw [assignAll]
    obtain ⟨here, others⟩ := List.forall_mem_cons.mp waits
    refine .rebuild (.andThen (.andThen (infer_jumps ctx target _) (.refl _) fun _ =>
      agreeing_jumps (here _)) ⟨.refl _, .refl _⟩ fun _ =>
        assignAll_jumps ctx targets values others)
      fun x ⟨⟨onTarget, onValue⟩, onTargets, onValues⟩ => ?_
    exact ⟨onTarget.append onTargets, onValue.append onValues⟩
  | [], _, _ => Gives.pure ⟨.refl _, .refl _⟩
  | _ :: _, [], _ => Gives.pure ⟨.refl _, .refl _⟩

theorem checkKey_jumps (ctx : Context) (layout : Layout) : ∀ key : Option Expr,
    (checkKey ctx layout key).Gives table
      fun key' => Handled table (Expr.jumpSitesOption key) (Expr.jumpSitesOption key')
  | none => Gives.pure (.refl _)
  | some key => by
    rw [checkKey]
    split
    · exact Gives.pure (layout.typeKey_keeps (.refl _) jumpSites_typed)
    · exact .rebuild (.mapResult (agreeing_jumps (infer_jumps ctx key _))) fun _ handled => handled

theorem checkElements_jumps (ctx : Context) : ∀ (elements : List Element) (layout : Layout),
    (checkElements ctx elements layout).Gives table fun elements' =>
      Handled table (Element.jumpSitesList elements) (Element.jumpSitesList elements')
  | [], layout => Gives.pure (.refl _)
  | ⟨key, value⟩ :: rest, layout => by
    rw [checkElements]
    refine .bind (checkKey_jumps ctx layout key) fun (key', result) ⟨onKey, _⟩ => ?_
    refine Gives.rebuild (.given ⟨.refl _, .refl _⟩ fun (type, layout) => .andThen
      (agreeing_jumps (infer_jumps ctx value type)) (.refl _) fun _ =>
        checkElements_jumps ctx rest layout) fun x both => ?_
    exact onKey.append (both.1.append both.2)

theorem checkBody_jumps (ctx : Context) : ∀ (func : Func) (signature : Signature)
    (receiver : Option Ty), (checkBody ctx func signature receiver).Ensures table
      fun func' => Handled table func.jumpSites func'.jumpSites
  | ⟨name, receiver, params, results, body⟩, signature, receiverType => by
    rw [checkBody]
    refine .withScope (.bind (.trivial _) fun receiver' _ => ?_)
    refine .bind (.trivial _) fun params' _ => .bind (.trivial _) fun results' _ => ?_
    exact .bind (checkStatements_jumps (.outermost _ _) body) fun body' handled => .pure handled

theorem checkMethods_jumps (ctx : Context) (this : Ty) : ∀ (methods : List Func)
    (signatures : List Signature), (checkMethods ctx this methods signatures).Gives table
      fun methods' => Handled table (Func.jumpSitesList methods) (Func.jumpSitesList methods')
  | method :: methods, signature :: signatures => by
    rw [checkMethods]
    refine .given (.refl _) fun receiver => ?_
    refine .bind (checkBody_jumps ctx method _ _) fun method' first => ?_
    refine .bind (checkMethods_jumps ctx this methods signatures) fun checked others => ?_
    exact Gives.pure (first.append others.1)
  | [], _ => Gives.pure (.refl _)
  | _ :: _, [] => Gives.pure (.refl _)

theorem checkStatements_jumps {ctx : Context} {around : Surroundings}
    (mirrors : ctx.Mirrors table around) : ∀ block : Block,
    (checkStatements ctx block).Ensures table
      fun block' => Handled table (block.jumpSites around) (block'.jumpSites around)
  | ⟨statements, labels⟩ => by
    rw [checkStatements]
    refine .bind (.and (declareLabels_shows ctx .empty statements)
      (declareLabels_labels statements .empty)) fun (labels', annotated) ⟨named, shown⟩ => ?_
    have length : annotated.length = statements.length := by
      simpa using congrArg List.length named
    refine .bind (.and (checkEach_jumps (mirrors.inBlock shown) statements annotated named)
      (.and (@checkEach_shows table id _ statements annotated named)
        (labels_checkEach statements annotated length)))
      fun statements' ⟨handled, same, labelled⟩ => .pure ?_
    -- what the context shows is what can be seen of the checked statements
    rw [Block.jumpSites, Block.jumpSites,
      labelled_of_relabelled (labelSites_of_erase same) labelled]
    exact handled.of_jumps (Stmt.jumps_jumpSitesList _ _ statements)

theorem checkEach_jumps {ctx : Context} {around : Surroundings}
    (mirrors : ctx.Mirrors table around) : ∀ (statements : List Stmt)
    (labels : List (Option StmtLabel)),
      labels.map (·.map StmtLabel.erase) = statements.map (·.label.map StmtLabel.erase) →
        (checkEach ctx statements labels).Ensures table fun statements' =>
          Handled table (Stmt.jumpSitesList around statements)
            (Stmt.jumpSitesList around statements')
  | s :: rest, label :: labels, named => by
    rw [checkEach]
    obtain ⟨here, others⟩ := List.cons.inj named
    refine .bind (.and (checkStmt_jumps mirrors s).recorded
      (@checkStmt_shows table id ctx s).recorded) fun s' ⟨first, same⟩ => ?_
    refine .bind (checkEach_jumps mirrors rest labels others) fun rest' behind => .pure ?_
    -- the label that is put in has the same name
    have relabelled : Stmt.jumpSites around { s' with label := label } = s'.jumpSites around := by
      have name := StmtLabel.names_of_erase (here.trans (label_of_erase same).symm)
      obtain ⟨id, _, label', form⟩ := s'
      exact congrArg (form.jumpSites around id) name
    rw [Stmt.jumpSitesList, Stmt.jumpSitesList, relabelled]
    exact first.append behind
  | [], _, _ => .pure (.refl _)
  | _ :: _, [], _ => .pure (.refl _)

theorem checkStmt_jumps {ctx : Context} {around : Surroundings}
    (mirrors : ctx.Mirrors table around) : ∀ s : Stmt,
    (checkStmt ctx s).Gives table
      fun s' => Handled table (s.jumpSites around) (s'.jumpSites around)
  | ⟨id, position, label, form⟩ => by
    rw [checkStmt]
    exact .bind (checkForm_jumps mirrors id position _ form) fun checked handled =>
      Gives.pure handled.1

theorem checkForm_jumps {ctx : Context} {around : Surroundings}
    (mirrors : ctx.Mirrors table around) (id : StmtId) (position : Position)
    (label : Option String) : ∀ form : StmtForm,
      (checkForm ctx id position label form).Gives table fun form' =>
        Handled table (form.jumpSites around id label) (form'.jumpSites around id label)
  | .assign lhs rhs op => by
    rw [checkForm]
    split
    · exact Gives.pure (.refl _)
    · split
      · match lhs, rhs with
        | [target], [value] =>
          refine .rebuild (.conclude (.andThen (infer_jumps ctx target _) (.refl _) fun _ =>
            agreeing_jumps (infer_jumps ctx value _))) fun x both => ?_
          exact (both.1.append (.refl [])).append (both.2.append (.refl []))
        | [], _ => exact Gives.pure (.refl _)
        | _ :: _ :: _, _ => exact Gives.pure (.refl _)
        | [_], [] => exact Gives.pure (.refl _)
        | [_], _ :: _ :: _ => exact Gives.pure (.refl _)
      · dsimp only
        split
        · refine .rebuild (assignAll_jumps ctx lhs (waitingAll ctx rhs) (waitingAll_jumps ctx rhs))
            fun x both => ?_
          rw [waitingAll_exprs] at both
          exact both.1.append both.2
        · match rhs with
          | [] => exact Gives.pure (.refl _)
          | [value] =>
            refine .rebuild (.andThen (M := fun es => Handled table (Expr.jumpSitesList lhs)
              (Expr.jumpSitesList es)) (infer_jumps ctx value _) (.refl _) fun type => ?_)
              fun x both => both.2.append (both.1.append (.refl []))
            cases type with
            | tuple members =>
              dsimp only
              split
              · exact expectAll_jumps ctx lhs _
              · exact Gives.pure (.refl _)
            | _ => exact Gives.pure (.refl _)
          | _ :: _ :: _ => exact Gives.pure (.refl _)
  | .struct ⟨name, fields, methods, symbol⟩ => by
    rw [checkForm]
    exact .rebuild (.declareType (.refl _) fun struct signatures =>
      checkMethods_jumps ctx (.custom name struct) methods signatures) fun _ handled => handled
  | .typeAlias decl => by
    rw [checkForm]
    exact .rebuild (.trivial _) fun _ _ => .refl []
  | .var vars => by
    rw [checkForm]
    exact .rebuild (checkVars_jumps ctx id vars) fun _ handled => handled
  | .pass => Gives.pure (.refl _)
  | .cond branches => by
    rw [checkForm]
    exact .bind (checkBranches_jumps mirrors id branches) fun _ handled => Gives.pure handled
  | .loop ⟨header, condition, step, body⟩ => by
    rw [checkForm]
    refine Ensures.withScope (.bind (checkHeader_jumps ctx id header) fun header' first => ?_)
    refine .bind (checkCondition_jumps ctx condition) fun condition' second => ?_
    refine .bind (checkStep_jumps mirrors step) fun step' third => ?_
    -- only the body is inside the loop
    refine .bind (.withScope (checkStatements_jumps (mirrors.inLoop id label) body))
      fun body' fourth => ?_
    exact Gives.pure (first.append (second.append (third.append fourth)))
  | .expr e => by
    rw [checkForm]
    exact .rebuild (.mapResult (infer_jumps ctx e _)) fun _ handled => handled
  | .jump jump => by
    rw [checkForm, resolveJump_eq mirrors]
    cases resolved : around.resolve jump with
    | some jump' => exact Gives.pure (.cons (Or.inr ⟨resolved, mirrors.declared⟩) .nil)
    | none => exact Gives.pure (.refl _)
  | .ret values => by
    rw [checkForm]
    exact .rebuild (.given (.refl _) fun types => expectAll_jumps ctx values types)
      fun _ handled => handled

theorem checkVars_jumps (ctx : Context) (id : StmtId) : ∀ vars : VarForm,
    (checkVars ctx id vars).Gives table
      fun vars' => Handled table vars.jumpSites vars'.jumpSites
  | ⟨vars, isFunc⟩ => by
    rw [checkVars]
    refine .bind (.trivial _) fun s _ => ?_
    refine .bind (checkVarList_jumps ctx id isFunc vars) fun checked handled => ?_
    exact .bind (.trivial _) fun _ _ => Gives.pure handled.1

theorem checkVarList_jumps (ctx : Context) (id : StmtId) (isFunc : Bool) :
    ∀ vars : List VarDecl, (checkVarList ctx id isFunc vars).Gives table
      fun vars' => Handled table (VarDecl.jumpSitesList vars) (VarDecl.jumpSitesList vars')
  | [] => Gives.pure (.refl _)
  | decl :: rest => by
    rw [checkVarList]
    have first : (if isFunc then checkFuncVar ctx id decl else checkPlainVar ctx id decl).Gives
        table fun decl' => Handled table (Expr.jumpSitesOption decl.value)
          (Expr.jumpSitesOption decl'.value) := by
      split
      · exact checkFuncVar_jumps ctx id decl
      · exact checkPlainVar_jumps ctx id decl
    refine .rebuild (.alongside first.noted (checkVarList_jumps ctx id isFunc rest))
      fun (decl', rest') both => ?_
    rw [VarDecl.jumpSitesList_cons, VarDecl.jumpSitesList_cons]
    exact both.1.append both.2

theorem checkPlainVar_jumps (ctx : Context) (id : StmtId) : ∀ decl : VarDecl,
    (checkPlainVar ctx id decl).Gives table fun decl' =>
      Handled table (Expr.jumpSitesOption decl.value) (Expr.jumpSitesOption decl'.value)
  | ⟨name, position, spec, value, symbol⟩ => by
    rw [checkPlainVar]
    refine .bind (.trivial _) fun result _ => ?_
    cases result with
    | error err => exact declareVar_jumps ctx (.refl _)
    | ok declared =>
      refine .bind (checkInit_jumps ctx name position declared value)
        fun (value', found) ⟨handled, _⟩ => ?_
      cases found with
      | ok type => exact declareVar_jumps ctx handled
      | error err => exact declareVar_jumps ctx handled

theorem checkInit_jumps (ctx : Context) (name : String) (position : Position) (declared : Ty) :
    ∀ value : Option Expr, (checkInit ctx name position declared value).Gives table
      fun value' => Handled table (Expr.jumpSitesOption value) (Expr.jumpSitesOption value')
  | none => Gives.pure (.refl _)
  | some e => .rebuild (agreeing_jumps (infer_jumps ctx e _)) fun _ handled => handled

theorem checkFuncVar_jumps (ctx : Context) (id : StmtId) : ∀ decl : VarDecl,
    (checkFuncVar ctx id decl).Gives table fun decl' =>
      Handled table (Expr.jumpSitesOption decl.value) (Expr.jumpSitesOption decl'.value)
  | ⟨_, _, _, none, _⟩ => Gives.pure (.refl _)
  | ⟨name, position, spec, some ⟨valuePosition, form, type⟩, symbol⟩ => by
    cases form with
    | func func =>
      rw [checkFuncVar]
      refine .bind (.trivial _) fun result _ => ?_
      cases result with
      | error err => exact declareVar_jumps ctx (.refl _)
      | ok found =>
        refine .bind (declareVar_jumps ctx (.refl _)) fun (decl, result) ⟨declared, _⟩ => ?_
        cases result with
        | error err => exact Gives.pure declared
        | ok _ => exact .bind (checkBody_jumps ctx func _ _) fun _ handled => Gives.pure handled
    | _ => exact Gives.pure (.refl _)

theorem checkHeader_jumps (ctx : Context) (id : StmtId) : ∀ header : Option VarForm,
    (checkHeader ctx id header).Ensures table fun header' =>
      Handled table (VarForm.jumpSitesOption header) (VarForm.jumpSitesOption header')
  | none => .pure (.refl _)
  | some vars => .bind (checkVars_jumps ctx id vars).recorded fun _ handled => .pure handled

theorem checkCondition_jumps (ctx : Context) : ∀ condition : Option Expr,
    (checkCondition ctx condition).Ensures table fun condition' =>
      Handled table (Expr.jumpSitesOption condition) (Expr.jumpSitesOption condition')
  | none => .pure (.refl _)
  | some e => .bind (agreeing_jumps (infer_jumps ctx e _)).recorded fun _ handled => .pure handled

theorem checkStep_jumps {ctx : Context} {around : Surroundings}
    (mirrors : ctx.Mirrors table around) : ∀ step : Option Stmt,
    (checkStep ctx step).Ensures table fun step' =>
      Handled table (Stmt.jumpSitesOption around step) (Stmt.jumpSitesOption around step')
  | none => .pure (.refl _)
  | some s => .bind (checkStmt_jumps mirrors s).recorded fun _ handled => .pure handled

theorem checkBranches_jumps {ctx : Context} {around : Surroundings}
    (mirrors : ctx.Mirrors table around) (id : StmtId) : ∀ branches : List Branch,
    (checkBranches ctx id branches).Ensures table fun branches' =>
      Handled table (Branch.jumpSitesList around branches) (Branch.jumpSitesList around branches')
  | [] => .pure (.refl _)
  | ⟨header, condition, body⟩ :: rest => by
    rw [checkBranches]
    refine .bind (Q := fun branch => Handled table
      (Branch.jumpSitesList around [⟨header, condition, body⟩])
      (Branch.jumpSitesList around [branch])) ?_ fun branch first => ?_
    · refine .withScope (.bind (checkHeader_jumps ctx id header) fun header' first => ?_)
      refine .bind (checkCondition_jumps ctx condition) fun condition' second => ?_
      refine .bind (.withScope (checkStatements_jumps mirrors body)) fun body' third => .pure ?_
      exact first.append (second.append (third.append (.refl [])))
    · refine .bind (checkBranches_jumps mirrors id rest) fun rest' others => .pure ?_
      rw [Branch.jumpSitesList_cons, Branch.jumpSitesList_cons around branch]
      exact first.append others

end

end PackageCheck.Typing
