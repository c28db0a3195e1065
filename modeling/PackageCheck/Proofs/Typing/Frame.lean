import PackageCheck.Proofs.Tree.Erasure
import PackageCheck.Proofs.Typing.Outcome

/-! # What a check leaves alone

A check only annotates. Whether a node checks or not, and wherever its check stops, the node that
is given back is the one that was given, up to its annotations. -/

namespace PackageCheck.Typing

open Check

variable {table : SymbolTable} {renumber : StmtId → StmtId}

/-- Whether a check gives back a node that looks like another one. -/
abbrev Check.Shows (table : SymbolTable) (check : Check (Checked ν τ)) (view : ν → μ)
    (seen : μ) : Prop :=
  check.EnsuresNode table (fun node => view node = seen) fun _ _ => True

namespace Check.Shows

variable {V : ν → μ} {S : μ}

theorem pure {node : ν} {result : Except Diagnostic τ} (same : V node = S) :
    Shows table (Pure.pure (node, result) : Check (Checked ν τ)) V S :=
  Gives.pure same

theorem given {attempt : Attempt α} {node : ν} {next : α → Check (Checked ν τ)}
    (same : V node = S) (tail : ∀ a, (next a).Shows table V S) :
    (Typing.given attempt node next).Shows table V S :=
  Gives.given same tail

theorem mapResult {check : Check (Checked ν σ)} {f : σ → τ} (inside : check.Shows table V S) :
    (check.mapResult f).Shows table V S :=
  Gives.mapResult inside

theorem conclude {check : Check (Checked ν σ)} {rule : σ → Attempt τ}
    (inside : check.Shows table V S) : (check.conclude rule).Shows table V S :=
  Gives.conclude inside

theorem rebuild {check : Check (Checked ν τ)} {f : ν → ν'} {W : ν' → μ'} {T : μ'}
    (inside : check.Shows table V S) (both : ∀ x, V x = S → W (f x) = T) :
    (check.rebuild f).Shows table W T :=
  Gives.rebuild inside both

theorem andThen {check : Check (Checked ν σ)} {node : ν'} {next : σ → Check (Checked ν' τ)}
    {W : ν' → μ'} {T : μ'} (head : check.Shows table V S) (same : W node = T)
    (tail : ∀ a, (next a).Shows table W T) :
    (check.andThen node next).Shows table (fun x => (V x.1, W x.2)) (S, T) :=
  (Gives.andThen head same tail).imp fun _ ⟨first, second⟩ => Prod.ext first second

theorem alongside {check : Check (Checked ν σ)} {other : Check (Checked ν' τ)}
    {W : ν' → μ'} {T : μ'} (head : check.Shows table V S)
    (tail : other.Shows table W T) :
    (check.alongside other).Shows table (fun x => (V x.1, W x.2)) (S, T) :=
  (Gives.alongside head tail).imp fun _ ⟨first, second⟩ => Prod.ext first second

theorem declareType {ctx : Context} {name : String} {position : Position} {node : ν}
    {define : Attempt (Ty × α)} {next : SymbolId → α → Check (Checked ν Unit)}
    (same : V node = S) (tail : ∀ id a, (next id a).Shows table V S) :
    (Typing.declareType ctx name position node define next).Shows table (fun x => V x.2) S :=
  Gives.declareType same tail

end Check.Shows

/-! ## Expressions -/

theorem erase_typed {seen : Expr} (e : Expr) (type : Ty) (same : e.erase renumber = seen) :
    Expr.erase renumber { e with type := type } = seen := by
  obtain ⟨position, form, _⟩ := e
  exact same

theorem agreeing_shows {what : String} {site : Expr → Site} {expected : Ty} {e : Expr}
    {check : Check (Checked Expr Ty)}
    (inside : check.Shows table (Expr.erase renumber) (e.erase renumber)) :
    (agreeing what site expected check).Shows table (Expr.erase renumber) (e.erase renumber) :=
  Gives.agreeing erase_typed inside

theorem inferIdent_shows (ctx : Context) (ident : Ident) (position : Position) :
    (inferIdent ctx ident position).Shows table (·.name) ident.name := by
  refine Ensures.bind (.trivial _) fun s _ => ?_
  split
  · exact Shows.pure rfl
  · exact Ensures.bind (.trivial _) fun _ _ => Shows.pure rfl

/-- The callee of a conversion is annotated and nothing else. -/
theorem erase_conversion? (ctx : Context) (callee : Expr) :
    (conversion? ctx callee).run.Ensures table (Passing fun target =>
      ∀ found, target = some found → found.1.erase renumber = callee.erase renumber) :=
  conversion?_keeps (N := fun e => e.erase renumber = callee.erase renumber) ctx rfl erase_typed
    fun _ _ _ _ same => same

theorem Layout.erase_typeKey (layout : Layout) (key : Expr) :
    (layout.typeKey key).erase renumber = key.erase renumber :=
  layout.typeKey_keeps (N := fun e => e.erase renumber = key.erase renumber) rfl erase_typed

theorem erase_resolveJump (ctx : Context) (jump : Jump) (position : Position) :
    (resolveJump ctx jump position).1.erase = jump.erase := by
  unfold resolveJump
  dsimp only
  split
  · split
    · rfl
    · rfl
  · split
    · rfl
    · rfl

/-! ## Declarations -/

theorem declareParam_shows (ctx : Context) (param : Param) (type : Ty) :
    (declareParam ctx param type).Shows table Param.erase param.erase := by
  unfold declareParam
  split
  · exact .pure rfl
  · exact .given rfl fun id => .pure rfl

theorem declareParams_shows (ctx : Context) (params : List Param) (types : List Ty) :
    (declareParams ctx params types).Ensures table
      fun params' => params'.map Param.erase = params.map Param.erase := by
  induction params generalizing types with
  | nil => exact .pure rfl
  | cons param params hypothesis =>
    cases types with
    | nil => exact .pure rfl
    | cons type types =>
      refine .bind (declareParam_shows ctx param type).recorded fun param' same => ?_
      refine .bind (hypothesis types) fun params' others => ?_
      exact .pure (by simp only [List.map_cons, same, others])

theorem declareReceiver_shows (ctx : Context) (receiver : Option Param) (type : Option Ty) :
    (declareReceiver ctx receiver type).Ensures table
      fun receiver' => receiver'.map Param.erase = receiver.map Param.erase := by
  unfold declareReceiver
  split
  · refine .bind (declareParam_shows ctx _ _).recorded fun param' same => ?_
    exact .pure (congrArg some same)
  · exact .pure rfl

theorem declareVar_shows (ctx : Context) (decl : VarDecl) (type : Ty) (init : Option StmtId)
    (result : Except Diagnostic Unit) :
    (declareVar ctx decl type init result).Shows table (fun decl' => { decl' with symbol := none })
      { decl with symbol := none } :=
  .given rfl fun _ => .pure rfl

/-- Only the symbol of a declared variable is new. -/
theorem declared_shows {check : Check (Checked VarDecl Unit)} {decl : VarDecl}
    {seen : List VarDecl} (inside : check.Shows table (fun decl' => { decl' with symbol := none })
      { decl with symbol := none }) (same : VarDecl.eraseList renumber [decl] = seen) :
    check.Shows table (fun decl' => VarDecl.eraseList renumber [decl']) seen := by
  refine inside.imp (fun decl' sames => ?_) fun _ _ _ _ => True.intro
  obtain ⟨_, _, _, _, _⟩ := decl
  obtain ⟨_, _, _, _, _⟩ := decl'
  simp only [VarDecl.mk.injEq, and_true] at sames
  obtain ⟨rfl, rfl, rfl, rfl⟩ := sames
  exact same

theorem checkAlias_shows (ctx : Context) (decl : AliasDecl) (position : Position) :
    (checkAlias ctx decl position).Shows table AliasDecl.erase decl.erase :=
  .rebuild (V := fun _ => ()) (.imp (.trivial _) (fun _ _ => rfl) fun _ _ _ _ => True.intro)
    fun _ _ => rfl

/-- Each statement gets its own label back. -/
theorem declareLabels_shows (ctx : Context) (labels : NameMap SymbolId) (statements : List Stmt) :
    (declareLabels ctx labels statements).Ensures table fun declared =>
      declared.2.map (·.map StmtLabel.erase) = statements.map (·.label.map StmtLabel.erase) := by
  induction statements generalizing labels with
  | nil => exact .pure rfl
  | cons s rest hypothesis =>
    rw [declareLabels]
    cases named : s.label with
    | none =>
      refine .bind (hypothesis labels) fun declared others => .pure ?_
      simp only [List.map_cons, others, named, Option.map_none]
    | some label =>
      refine .bind (.trivial _) fun id _ => ?_
      dsimp only
      split
      · refine .bind (hypothesis _) fun declared others => .pure ?_
        simp only [List.map_cons, others, named]
        rfl
      · refine .bind (.trivial _) fun _ _ => .bind (.trivial _) fun _ _ => ?_
        refine .bind (hypothesis _) fun declared others => .pure ?_
        simp only [List.map_cons, others, named]

/-! ## Trees -/

mutual

theorem infer_shows (ctx : Context) : ∀ (e : Expr) (hint : Ty),
    (infer ctx e hint).Shows table (Expr.erase renumber) (e.erase renumber)
  | ⟨position, form, type⟩, hint => by
    rw [infer]
    refine .bind (inferForm_shows ctx position form hint) fun checked holds => ?_
    obtain ⟨form', result⟩ := checked
    have same : form'.erase renumber = form.erase renumber := holds.1
    cases result with
    | ok found => exact Shows.pure (by rw [Expr.erase, Expr.erase, same])
    | error err => exact Shows.pure (by rw [Expr.erase, Expr.erase, same])

theorem inferForm_shows (ctx : Context) (position : Position) : ∀ (form : ExprForm) (hint : Ty),
    (inferForm ctx position form hint).Shows table (ExprForm.erase renumber) (form.erase renumber)
  | .literal literal, hint => Shows.pure rfl
  | .blank, hint => Shows.pure rfl
  | .compound spec shape elements, hint => by
    rw [inferForm]
    refine .given rfl fun type => ?_
    split
    · exact Shows.pure rfl
    · refine .given rfl fun layout => ?_
      have inside := checkElements_shows ctx elements layout
      refine .rebuild (.mapResult inside) fun elements' same => ?_
      rw [ExprForm.erase, ExprForm.erase, same]
  | .binary op left right, hint => by
    rw [inferForm]
    have both : ∀ x : Expr × Expr,
        (x.1.erase renumber, x.2.erase renumber) = (left.erase renumber, right.erase renumber) →
          (ExprForm.binary op x.1 x.2).erase renumber =
            (ExprForm.binary op left right).erase renumber := by
      intro x same
      obtain ⟨first, second⟩ := Prod.mk.inj same
      rw [ExprForm.erase, ExprForm.erase, first, second]
    split
    · refine .rebuild (.mapResult (.andThen (agreeing_shows (infer_shows ctx left _)) rfl ?_)) both
      exact fun _ => agreeing_shows (infer_shows ctx right _)
    · refine .rebuild (.conclude (.andThen (infer_shows ctx left _) rfl fun _ => ?_)) both
      exact agreeing_shows (infer_shows ctx right _)
  | .unary op operand, hint => by
    have part : ∀ x : Expr, x.erase renumber = operand.erase renumber →
        (ExprForm.unary op x).erase renumber = (ExprForm.unary op operand).erase renumber := by
      intro x same
      rw [ExprForm.erase, ExprForm.erase, same]
    cases op with
    | plus => exact .rebuild (.conclude (infer_shows ctx operand _)) part
    | minus => exact .rebuild (.conclude (infer_shows ctx operand _)) part
    | not => exact .rebuild (agreeing_shows (infer_shows ctx operand _)) part
    | addressOf => exact .rebuild (.mapResult (infer_shows ctx operand _)) part
    | deref => exact .rebuild (.conclude (infer_shows ctx operand _)) part
  | .index left index, hint => by
    rw [inferForm]
    refine .rebuild (.andThen (.conclude (infer_shows ctx left _)) rfl fun _ =>
      .mapResult (agreeing_shows (infer_shows ctx index _))) fun x same => ?_
    obtain ⟨first, second⟩ := Prod.mk.inj same
    rw [ExprForm.erase, ExprForm.erase, first, second]
  | .selector left field, hint => by
    rw [inferForm]
    refine .rebuild (.conclude (infer_shows ctx left _)) fun x same => ?_
    rw [ExprForm.erase, ExprForm.erase, same]
  | .call callee args, hint => by
    rw [inferForm]
    refine EnsuresNode.given (Q := fun found => ∀ target, found = some target →
      target.1.erase renumber = callee.erase renumber) (erase_conversion? ctx callee) rfl
      fun target converts => ?_
    cases target with
    | some target =>
      -- the callee is given back with its type, also if the arguments do not fit
      have same : target.1.erase renumber = callee.erase renumber := converts target rfl
      match args with
      | [] => exact Shows.pure (by rw [ExprForm.erase, ExprForm.erase, same])
      | [arg] =>
        refine Shows.rebuild (.mapResult (infer_shows ctx arg _)) fun x part => ?_
        simp only [ExprForm.erase, Expr.eraseList, same, part]
      | _ :: _ :: _ => exact Shows.pure (by rw [ExprForm.erase, ExprForm.erase, same])
    | none =>
      refine Shows.rebuild (.andThen (.conclude (infer_shows ctx callee _)) rfl fun _ =>
        .mapResult (expectAll_shows ctx args _)) fun x same => ?_
      obtain ⟨first, second⟩ := Prod.mk.inj same
      rw [ExprForm.erase, ExprForm.erase, first, second]
  | .func func, hint => by
    rw [inferForm]
    refine .given rfl fun found => ?_
    refine .bind (checkBody_shows ctx func _ _) fun func' same => Shows.pure ?_
    rw [ExprForm.erase, ExprForm.erase, same]
  | .ident ident, hint => by
    rw [inferForm]
    refine .rebuild (inferIdent_shows ctx ident position) fun x same => ?_
    rw [ExprForm.erase, ExprForm.erase, same]
  | .type spec, hint => Shows.pure rfl

theorem expectAll_shows (ctx : Context) : ∀ (es : List Expr) (types : List Ty),
    (expectAll ctx es types).Shows table (Expr.eraseList renumber) (Expr.eraseList renumber es)
  | e :: es, type :: types => by
    rw [expectAll]
    refine .rebuild (.andThen (agreeing_shows (infer_shows ctx e _)) rfl fun _ =>
      expectAll_shows ctx es types) fun x same => ?_
    obtain ⟨first, rest⟩ := Prod.mk.inj same
    rw [Expr.eraseList, Expr.eraseList, first, rest]
  | [], _ => Shows.pure rfl
  | _ :: _, [] => Shows.pure rfl

theorem waitingAll_shows (ctx : Context) : ∀ es : List Expr, ∀ waiting ∈ waitingAll ctx es,
    ∀ hint, (waiting.infer hint).Shows table (Expr.erase renumber) (waiting.expr.erase renumber)
  | [] => nofun
  | e :: es => by
    rw [waitingAll]
    exact List.forall_mem_cons.mpr ⟨infer_shows ctx e, waitingAll_shows ctx es⟩

theorem assignAll_shows (ctx : Context) : ∀ (targets : List Expr) (values : List Waiting),
    (∀ waiting ∈ values, ∀ hint,
      (waiting.infer hint).Shows table (Expr.erase renumber) (waiting.expr.erase renumber)) →
      (assignAll ctx targets values).Shows table
        (fun x => (Expr.eraseList renumber x.1, Expr.eraseList renumber x.2))
        (Expr.eraseList renumber targets, Expr.eraseList renumber (values.map (·.expr)))
  | target :: targets, value :: values, waits => by
    rw [assignAll]
    obtain ⟨here, others⟩ := List.forall_mem_cons.mp waits
    refine .rebuild (.andThen (.andThen (infer_shows ctx target _) rfl fun _ =>
      agreeing_shows (here _)) rfl fun _ => assignAll_shows ctx targets values others)
      fun x same => ?_
    obtain ⟨⟨⟩, ⟨⟩⟩ := x
    simp only [Prod.mk.injEq] at same
    simp only [List.map_cons, Expr.eraseList, same]
  | [], _, _ => Shows.pure rfl
  | _ :: _, [], _ => Shows.pure rfl

theorem checkKey_shows (ctx : Context) (layout : Layout) : ∀ key : Option Expr,
    (checkKey ctx layout key).Shows table (Expr.eraseOption renumber)
      (Expr.eraseOption renumber key)
  | none => Shows.pure rfl
  | some key => by
    rw [checkKey]
    split
    · exact Shows.pure (congrArg some (layout.erase_typeKey key))
    · refine .rebuild (.mapResult (agreeing_shows (infer_shows ctx key _))) fun x same => ?_
      exact congrArg some same

theorem checkElements_shows (ctx : Context) : ∀ (elements : List Element) (layout : Layout),
    (checkElements ctx elements layout).Shows table (Element.eraseList renumber)
      (Element.eraseList renumber elements)
  | [], layout => Shows.pure rfl
  | ⟨key, value⟩ :: rest, layout => by
    rw [checkElements]
    refine .bind (checkKey_shows ctx layout key) fun checked holds => ?_
    obtain ⟨key', result⟩ := checked
    have keys : Expr.eraseOption renumber key' = Expr.eraseOption renumber key := holds.1
    refine Shows.rebuild (V := fun x => (x.1.erase renumber, Element.eraseList renumber x.2))
      (S := (value.erase renumber, Element.eraseList renumber rest)) ?_ fun x same => ?_
    · refine .given rfl fun (type, layout) => ?_
      exact .andThen (agreeing_shows (infer_shows ctx value type)) rfl fun _ =>
        checkElements_shows ctx rest layout
    · obtain ⟨first, others⟩ := Prod.mk.inj same
      rw [Element.eraseList, Element.eraseList, keys, first, others]

theorem checkBody_shows (ctx : Context) : ∀ (func : Func) (signature : Signature)
    (receiver : Option Ty), (checkBody ctx func signature receiver).Ensures table
      fun func' => func'.erase renumber = func.erase renumber
  | ⟨name, receiver, params, results, body⟩, signature, receiverType => by
    rw [checkBody]
    refine .withScope (.bind (declareReceiver_shows ctx receiver _) fun receiver' first => ?_)
    refine .bind (declareParams_shows ctx params _) fun params' second => ?_
    refine .bind (declareParams_shows ctx results _) fun results' third => ?_
    refine .bind (checkStatements_shows _ body) fun body' fourth => .pure ?_
    rw [Func.erase, Func.erase, first, second, third, fourth]

theorem checkMethods_shows (ctx : Context) (this : Ty) : ∀ (methods : List Func)
    (signatures : List Signature), (checkMethods ctx this methods signatures).Shows table
      (Func.eraseList renumber) (Func.eraseList renumber methods)
  | method :: methods, signature :: signatures => by
    rw [checkMethods]
    refine .given rfl fun receiver => ?_
    refine .bind (checkBody_shows ctx method _ _) fun method' first => ?_
    refine .bind (checkMethods_shows ctx this methods signatures) fun checked others => ?_
    exact Shows.pure (by rw [Func.eraseList, Func.eraseList, first, others.1])
  | [], _ => Shows.pure rfl
  | _ :: _, [] => Shows.pure rfl

theorem checkStatements_shows (ctx : Context) : ∀ block : Block,
    (checkStatements ctx block).Ensures table
      fun block' => block'.erase renumber = block.erase renumber
  | ⟨statements, labels⟩ => by
    rw [checkStatements]
    refine .bind (declareLabels_shows ctx .empty statements) fun declared named => ?_
    refine .bind (checkEach_shows _ statements declared.2 named) fun statements' same => .pure ?_
    rw [Block.erase, Block.erase, same]

theorem checkEach_shows (ctx : Context) : ∀ (statements : List Stmt)
    (labels : List (Option StmtLabel)),
      labels.map (·.map StmtLabel.erase) = statements.map (·.label.map StmtLabel.erase) →
        (checkEach ctx statements labels).Ensures table fun statements' =>
          Stmt.eraseList renumber statements' = Stmt.eraseList renumber statements
  | s :: rest, label :: labels, named => by
    rw [checkEach]
    obtain ⟨here, others⟩ := List.cons.inj named
    refine .bind (checkStmt_shows ctx s).recorded fun s' same => ?_
    refine .bind (checkEach_shows ctx rest labels others) fun rest' sames => .pure ?_
    -- the label is put in behind the check of the statement
    obtain ⟨id, position, _, form⟩ := s
    obtain ⟨id', position', _, form'⟩ := s'
    simp only [Stmt.erase, Stmt.mk.injEq] at same
    simp only [Stmt.eraseList, Stmt.erase, same, sames, here]
  | [], _, _ => .pure rfl
  | _ :: _, [], _ => .pure rfl

theorem checkStmt_shows (ctx : Context) : ∀ s : Stmt,
    (checkStmt ctx s).Shows table (Stmt.erase renumber) (s.erase renumber)
  | ⟨id, position, label, form⟩ => by
    rw [checkStmt]
    refine .bind (checkForm_shows ctx id position _ form) fun checked holds => Shows.pure ?_
    rw [Stmt.erase, Stmt.erase, holds.1]

theorem checkForm_shows (ctx : Context) (id : StmtId) (position : Position)
    (label : Option String) : ∀ form : StmtForm,
      (checkForm ctx id position label form).Shows table (StmtForm.erase renumber)
        (form.erase renumber)
  | .assign lhs rhs op => by
    rw [checkForm]
    split
    · exact Shows.pure rfl
    · split
      · match lhs, rhs with
        | [target], [value] =>
          refine .rebuild (.conclude (.andThen (infer_shows ctx target _) rfl fun _ =>
            agreeing_shows (infer_shows ctx value _))) fun x same => ?_
          obtain ⟨first, second⟩ := Prod.mk.inj same
          simp only [StmtForm.erase, Expr.eraseList, first, second]
        | [], _ => exact Shows.pure rfl
        | _ :: _ :: _, _ => exact Shows.pure rfl
        | [_], [] => exact Shows.pure rfl
        | [_], _ :: _ :: _ => exact Shows.pure rfl
      · dsimp only
        split
        · refine .rebuild (assignAll_shows ctx lhs (waitingAll ctx rhs) (waitingAll_shows ctx rhs))
            fun x same => ?_
          rw [waitingAll_exprs] at same
          obtain ⟨first, second⟩ := Prod.mk.inj same
          rw [StmtForm.erase, StmtForm.erase, first, second]
        · match rhs with
          | [] => exact Shows.pure rfl
          | [value] =>
            refine .rebuild (.andThen (W := Expr.eraseList renumber) (infer_shows ctx value _)
              rfl fun type => ?_) fun x same => ?_
            · cases type with
              | tuple members =>
                dsimp only
                split
                · exact expectAll_shows ctx lhs _
                · exact Shows.pure rfl
              | _ => exact Shows.pure rfl
            · obtain ⟨first, second⟩ := Prod.mk.inj same
              simp only [StmtForm.erase, Expr.eraseList, first, second]
          | _ :: _ :: _ => exact Shows.pure rfl
  | .struct ⟨name, fields, methods, symbol⟩ => by
    rw [checkForm]
    refine .rebuild (V := fun x => Func.eraseList renumber x.2) (.declareType rfl
      fun struct signatures => checkMethods_shows ctx (.custom name struct) methods signatures)
      fun x same => ?_
    obtain ⟨symbol', methods'⟩ := x
    simp only [StmtForm.erase]
    rw [same]
  | .typeAlias decl => by
    rw [checkForm]
    refine .rebuild (checkAlias_shows ctx decl position) fun x same => ?_
    rw [StmtForm.erase, StmtForm.erase, same]
  | .var vars => by
    rw [checkForm]
    refine .rebuild (checkVars_shows ctx id vars) fun x same => ?_
    rw [StmtForm.erase, StmtForm.erase, same]
  | .pass => Shows.pure rfl
  | .cond branches => by
    rw [checkForm]
    refine .bind (checkBranches_shows ctx id branches) fun branches' same => Shows.pure ?_
    rw [StmtForm.erase, StmtForm.erase, same]
  | .loop ⟨header, condition, step, body⟩ => by
    rw [checkForm]
    refine Ensures.withScope (.bind (checkHeader_shows ctx id header) fun header' first => ?_)
    refine .bind (checkCondition_shows ctx condition) fun condition' second => ?_
    refine .bind (checkStep_shows ctx step) fun step' third => ?_
    refine .bind (.withScope (checkStatements_shows _ body)) fun body' fourth => Shows.pure ?_
    simp only [StmtForm.erase]
    rw [first, second, third, fourth]
  | .expr e => by
    rw [checkForm]
    refine .rebuild (.mapResult (infer_shows ctx e _)) fun x same => ?_
    rw [StmtForm.erase, StmtForm.erase, same]
  | .jump jump => by
    rw [checkForm]
    exact Shows.pure (congrArg StmtForm.jump (erase_resolveJump ctx jump position))
  | .ret values => by
    rw [checkForm]
    refine .rebuild (.given rfl fun types => expectAll_shows ctx values types) fun x same => ?_
    rw [StmtForm.erase, StmtForm.erase, same]

theorem checkVars_shows (ctx : Context) (id : StmtId) : ∀ vars : VarForm,
    (checkVars ctx id vars).Shows table (VarForm.erase renumber) (vars.erase renumber)
  | ⟨vars, isFunc⟩ => by
    rw [checkVars]
    refine .bind (.trivial _) fun s _ => ?_
    refine .bind (checkVarList_shows ctx id isFunc vars) fun checked holds => ?_
    refine .bind (.trivial _) fun _ _ => Shows.pure ?_
    rw [VarForm.erase, VarForm.erase, holds.1]

theorem checkVarList_shows (ctx : Context) (id : StmtId) (isFunc : Bool) :
    ∀ vars : List VarDecl, (checkVarList ctx id isFunc vars).Shows table
      (VarDecl.eraseList renumber) (VarDecl.eraseList renumber vars)
  | [] => Shows.pure rfl
  | decl :: rest => by
    rw [checkVarList]
    have first : (if isFunc then checkFuncVar ctx id decl else checkPlainVar ctx id decl).Shows
        table (fun decl' => VarDecl.eraseList renumber [decl'])
        (VarDecl.eraseList renumber [decl]) := by
      split
      · exact checkFuncVar_shows ctx id decl
      · exact checkPlainVar_shows ctx id decl
    have others := checkVarList_shows ctx id isFunc rest
    refine .rebuild (.alongside first.noted others) fun x same => ?_
    obtain ⟨here, others⟩ := Prod.mk.inj same
    rw [VarDecl.eraseList_cons, here, others, ← VarDecl.eraseList_cons]

theorem checkPlainVar_shows (ctx : Context) (id : StmtId) : ∀ decl : VarDecl,
    (checkPlainVar ctx id decl).Shows table (fun decl' => VarDecl.eraseList renumber [decl'])
      (VarDecl.eraseList renumber [decl])
  | ⟨name, position, spec, value, symbol⟩ => by
    rw [checkPlainVar]
    refine .bind (.trivial _) fun result _ => ?_
    cases result with
    | error err => exact declared_shows (declareVar_shows _ _ _ _ _) rfl
    | ok declared =>
      refine .bind (checkInit_shows ctx name position declared value) fun checked holds => ?_
      obtain ⟨value', found⟩ := checked
      have same : Expr.eraseOption renumber value' = Expr.eraseOption renumber value := holds.1
      have asBefore : VarDecl.eraseList renumber [⟨name, position, spec, value', symbol⟩] =
          VarDecl.eraseList renumber [⟨name, position, spec, value, symbol⟩] := by
        simp only [VarDecl.eraseList, same]
      cases found with
      | ok type => exact declared_shows (declareVar_shows _ _ _ _ _) asBefore
      | error err => exact declared_shows (declareVar_shows _ _ _ _ _) asBefore

theorem checkInit_shows (ctx : Context) (name : String) (position : Position) (declared : Ty) :
    ∀ value : Option Expr, (checkInit ctx name position declared value).Shows table
      (Expr.eraseOption renumber) (Expr.eraseOption renumber value)
  | none => Shows.pure rfl
  | some e => .rebuild (agreeing_shows (infer_shows ctx e _)) fun _ same => congrArg some same

theorem checkFuncVar_shows (ctx : Context) (id : StmtId) : ∀ decl : VarDecl,
    (checkFuncVar ctx id decl).Shows table (fun decl' => VarDecl.eraseList renumber [decl'])
      (VarDecl.eraseList renumber [decl])
  | ⟨_, _, _, none, _⟩ => Shows.pure rfl
  | ⟨name, position, spec, some ⟨valuePosition, form, type⟩, symbol⟩ => by
    cases form with
    | func func =>
      rw [checkFuncVar]
      refine .bind (.trivial _) fun result _ => ?_
      cases result with
      | error err => exact declared_shows (declareVar_shows _ _ _ _ _) rfl
      | ok found =>
        refine .bind (declareVar_shows _ _ _ _ _) fun checked holds => ?_
        -- the variable that was declared is the written one, so its value is the function
        obtain ⟨⟨_, _, _, _, _⟩, result⟩ := checked
        have same := holds.1
        simp only [VarDecl.mk.injEq] at same
        obtain ⟨rfl, rfl, rfl, rfl, -⟩ := same
        cases result with
        | error err => exact Shows.pure rfl
        | ok _ =>
          refine .bind (checkBody_shows ctx func _ _) fun func' body => Shows.pure ?_
          simp only [VarDecl.eraseList, Expr.eraseOption, Expr.erase, ExprForm.erase, body]
    | _ => exact Shows.pure rfl

theorem checkHeader_shows (ctx : Context) (id : StmtId) : ∀ header : Option VarForm,
    (checkHeader ctx id header).Ensures table
      fun header' => VarForm.eraseOption renumber header' = VarForm.eraseOption renumber header
  | none => .pure rfl
  | some vars =>
    .bind (checkVars_shows ctx id vars).recorded fun _ same => .pure (congrArg some same)

theorem checkCondition_shows (ctx : Context) : ∀ condition : Option Expr,
    (checkCondition ctx condition).Ensures table
      fun condition' => Expr.eraseOption renumber condition' = Expr.eraseOption renumber condition
  | none => .pure rfl
  | some e => by
    rw [checkCondition]
    refine .bind (agreeing_shows (infer_shows ctx e _)).recorded fun _ same => .pure ?_
    exact congrArg some same

theorem checkStep_shows (ctx : Context) : ∀ step : Option Stmt,
    (checkStep ctx step).Ensures table
      fun step' => Stmt.eraseOption renumber step' = Stmt.eraseOption renumber step
  | none => .pure rfl
  | some s => .bind (checkStmt_shows ctx s).recorded fun _ same => .pure (congrArg some same)

theorem checkBranches_shows (ctx : Context) (id : StmtId) : ∀ branches : List Branch,
    (checkBranches ctx id branches).Ensures table
      fun branches' => Branch.eraseList renumber branches' = Branch.eraseList renumber branches
  | [] => .pure rfl
  | ⟨header, condition, body⟩ :: rest => by
    rw [checkBranches]
    refine .bind (Q := fun branch => Branch.eraseList renumber [branch] =
      Branch.eraseList renumber [⟨header, condition, body⟩]) ?_ fun branch first => ?_
    · refine .withScope (.bind (checkHeader_shows ctx id header) fun header' first => ?_)
      refine .bind (checkCondition_shows ctx condition) fun condition' second => ?_
      refine .bind (.withScope (checkStatements_shows _ body)) fun body' third => .pure ?_
      simp only [Branch.eraseList, first, second, third]
    · refine .bind (checkBranches_shows ctx id rest) fun rest' others => .pure ?_
      rw [Branch.eraseList_cons, first, others, ← Branch.eraseList_cons]

end

end PackageCheck.Typing
