import PackageCheck.Proofs.Ty.Place
import PackageCheck.Proofs.Typing.FollowedRules

/-! # Numbers decide nothing

The check of a tree follows that of the same tree under other numbers: the two come to the same
results, and leave the same state behind and the same tree but for the numbers. So a number is only
put away, where a variable is initialised, a label stands in front of a loop or a jump leads to one,
and no check ever asks for it. -/

namespace PackageCheck.Typing

open Check

variable {move : StmtId → StmtId}

/-! ## Lists -/

/-- Whether an expression that waits for its type follows another one. -/
structure Waiting.Follows (move : StmtId → StmtId) (value value' : Waiting) : Prop where
  expr : Expr.Moved move value.expr value'.expr
  infer : ∀ type, (value.infer type).FollowsNode move (value'.infer type) (Expr.Moved move)

theorem Waiting.Follows.exprs {values values' : List Waiting}
    (follow : List.Forall₂ (Waiting.Follows move) values values') :
    List.Forall₂ (Expr.Moved move) (values.map (·.expr)) (values'.map (·.expr)) := by
  induction follow with
  | nil => exact .nil
  | cons first _ hypothesis => exact .cons first.expr hypothesis

/-- Whether two pairs of lists of expressions are the same but for the numbers of statements. -/
def PairsMoved (move : StmtId → StmtId) (both both' : List Expr × List Expr) : Prop :=
  List.Forall₂ (Expr.Moved move) both.1 both'.1 ∧ List.Forall₂ (Expr.Moved move) both.2 both'.2

/-! ## Trees -/

mutual

theorem infer_follows (ctx : Context) : ∀ {e e' : Expr}, Expr.Moved move e e' → ∀ hint : Ty,
    (infer ctx e hint).FollowsNode move (infer (ctx.renumber move) e' hint) (Expr.Moved move)
  | ⟨position, form, type⟩, ⟨_, form', _⟩, .mk moved, hint => by
    rw [infer, infer]
    refine (inferForm_follows ctx position moved hint).bind fun form form' result moved => ?_
    cases result with
    | ok found => exact FollowsNode.pure (.mk moved)
    | error err => exact FollowsNode.pure (.mk moved)
termination_by structural e => e

theorem inferForm_follows (ctx : Context) (position : Position) : ∀ {form form' : ExprForm},
    ExprForm.Moved move form form' → ∀ hint : Ty,
      (inferForm ctx position form hint).FollowsNode move
        (inferForm (ctx.renumber move) position form' hint) (ExprForm.Moved move)
  | .literal _, _, .literal, _ => .pure .literal
  | .blank, _, .blank, _ => .pure .blank
  | .compound spec shape elements, .compound _ _ elements', .compound moved, hint => by
    rw [inferForm, inferForm]
    refine .given (.compoundType spec hint position) (.compound moved) ?_
    rintro type _ rfl
    have empty : elements'.isEmpty = elements.isEmpty := by cases moved <;> rfl
    rw [empty]
    split
    · exact .pure (.compound moved)
    · refine .given (.layoutOf moved) (.compound moved) ?_
      rintro layout _ rfl
      exact (checkElements_follows ctx moved layout).mapResult.rebuild fun _ _ => .compound
  | .binary op left right, .binary _ _ _, .binary first second, _ => by
    rw [inferForm, inferForm]
    split
    · have operands := ((infer_follows ctx first .bool).expecting ctx).andThen second fun _ =>
        (infer_follows ctx second .bool).expecting ctx
      exact operands.mapResult.rebuild fun _ _ moved => .binary moved.1 moved.2
    · have operands := (infer_follows ctx first .unknown).andThen second fun type =>
        (infer_follows ctx second type).expecting ctx
      exact (operands.conclude fun type => .binaryType op type position).rebuild fun _ _ moved =>
        .binary moved.1 moved.2
  | .unary op operand, .unary _ _, .unary moved, hint => by
    cases op with
    | plus | minus =>
      exact .rebuild (.conclude (infer_follows ctx moved hint) fun type =>
        .signType _ type position) fun _ _ => .unary
    | not => exact .rebuild (.expecting ctx (infer_follows ctx moved .bool)) fun _ _ => .unary
    | addressOf => exact .rebuild (.mapResult (infer_follows ctx moved _)) fun _ _ => .unary
    | deref =>
      exact .rebuild (.conclude (infer_follows ctx moved .unknown) fun type =>
        .derefType type position) fun _ _ => .unary
  | .index left index, .index _ _, .index first second, _ => by
    rw [inferForm, inferForm]
    refine .rebuild (.andThen (M := Expr.Moved move) (.conclude (infer_follows ctx first .unknown)
      fun type => .indexTypes type position) second fun types => ?_)
        fun _ _ moved => .index moved.1 moved.2
    exact ((infer_follows ctx second types.1).expecting ctx).mapResult
  | .selector left field, .selector _ _, .selector moved, _ => by
    rw [inferForm, inferForm]
    exact ((infer_follows ctx moved .unknown).conclude
      fun type => .selectorType type field position).rebuild fun _ _ => .selector
  | .call callee args, .call callee' args', .call first others, _ => by
    rw [inferForm, inferForm]
    have counts : args'.length = args.length := others.length_eq.symm
    refine .given (.conversion? first) (.call first others) fun found found' converted => ?_
    cases converted with
    | some converted =>
      rename_i target target'
      obtain ⟨callee, type⟩ := target
      obtain ⟨callee', type'⟩ := target'
      obtain ⟨same, moved⟩ := converted
      obtain rfl : type' = type := same
      dsimp only
      cases others with
      | nil => exact .pure (.call moved .nil)
      | cons only others =>
        cases others with
        | nil =>
          exact (infer_follows ctx only _).mapResult.rebuild fun _ _ arg =>
            .call moved (.cons arg .nil)
        | cons second others =>
          dsimp only
          rw [counts]
          exact .pure (.call moved (.cons only (.cons second others)))
    | none =>
      dsimp only
      rw [counts]
      refine .rebuild (.andThen (M := List.Forall₂ (Expr.Moved move)) (.conclude
        (infer_follows ctx first .unknown) fun type => .callSignature type args.length position)
          others fun signature => ?_) fun _ _ moved => .call moved.1 moved.2
      exact (expectAll_follows ctx others signature.args).mapResult
  | .func func, .func func', .func moved, _ => by
    rw [inferForm, inferForm]
    refine .given (.funcType moved) (.func moved) ?_
    rintro ⟨receiver, signature⟩ _ rfl
    exact (checkBody_follows ctx moved signature receiver).bind fun _ _ moved =>
      FollowsNode.pure (.func moved)
  | .ident ident, _, .ident, _ => by
    rw [inferForm, inferForm]
    refine (inferIdent_follows ident position).rebuild ?_
    rintro ident _ rfl
    exact .ident
  | .type spec, _, .type, _ => .pure .type
termination_by structural form => form

theorem expectAll_follows (ctx : Context) : ∀ {es es' : List Expr},
    List.Forall₂ (Expr.Moved move) es es' → ∀ types : List Ty, (expectAll ctx es types).FollowsNode
      move (expectAll (ctx.renumber move) es' types) (List.Forall₂ (Expr.Moved move))
  | [], _, .nil, _ => .pure .nil
  | _ :: _, _ :: _, .cons first others, [] => .pure (.cons first others)
  | _ :: _, _ :: _, .cons first others, type :: types => by
    rw [expectAll, expectAll]
    exact (((infer_follows ctx first type).expecting ctx).andThen others fun _ =>
      expectAll_follows ctx others types).rebuild fun _ _ moved => .cons moved.1 moved.2
termination_by structural es => es

theorem waitingAll_follows (ctx : Context) : ∀ {es es' : List Expr},
    List.Forall₂ (Expr.Moved move) es es' → List.Forall₂ (Waiting.Follows move) (waitingAll ctx es)
      (waitingAll (ctx.renumber move) es')
  | [], _, .nil => by
    rw [waitingAll, waitingAll]
    exact .nil
  | _ :: _, _ :: _, .cons first others => by
    rw [waitingAll, waitingAll]
    exact .cons ⟨first, infer_follows ctx first⟩ (waitingAll_follows ctx others)
termination_by structural es => es

theorem assignAll_follows (ctx : Context) : ∀ {targets targets' : List Expr},
    List.Forall₂ (Expr.Moved move) targets targets' → ∀ {values values' : List Waiting},
      List.Forall₂ (Waiting.Follows move) values values' →
        (assignAll ctx targets values).FollowsNode move
          (assignAll (ctx.renumber move) targets' values') (PairsMoved move)
  | [], _, .nil, _, _, values => by
    cases values with
    | nil => exact .pure ⟨.nil, .nil⟩
    | cons value values => exact .pure ⟨.nil, Waiting.Follows.exprs (.cons value values)⟩
  | _ :: _, _ :: _, .cons first others, _, _, .nil => .pure ⟨.cons first others, .nil⟩
  | _ :: _, _ :: _, .cons first others, _, _, .cons value values => by
    rw [assignAll, assignAll]
    refine .rebuild (.andThen (M := PairsMoved move) (.andThen (M := Expr.Moved move)
      (infer_follows ctx first .unknown) value.expr fun type => (value.infer type).expecting ctx)
        ⟨others, Waiting.Follows.exprs values⟩ fun _ => assignAll_follows ctx others values)
          fun _ _ moved => ?_
    exact ⟨.cons moved.1.1 moved.2.1, .cons moved.1.2 moved.2.2⟩
termination_by structural targets => targets

theorem checkKey_follows (ctx : Context) (layout : Layout) : ∀ {key key' : Option Expr},
    Option.Rel (Expr.Moved move) key key' → (checkKey ctx layout key).FollowsNode move
      (checkKey (ctx.renumber move) layout key') (Option.Rel (Expr.Moved move))
  | none, _, .none => .pure .none
  | some _, some _, .some moved => by
    rw [checkKey, checkKey]
    split
    · exact .pure (.some (layout.typeKey_moved moved))
    · exact ((infer_follows ctx moved _).expecting ctx).mapResult.rebuild fun _ _ => .some
termination_by structural key => key

theorem checkElements_follows (ctx : Context) : ∀ {elements elements' : List Element},
    List.Forall₂ (Element.Moved move) elements elements' → ∀ layout : Layout,
      (checkElements ctx elements layout).FollowsNode move
        (checkElements (ctx.renumber move) elements' layout) (List.Forall₂ (Element.Moved move))
  | [], _, .nil, _ => .pure .nil
  | ⟨_, value⟩ :: _, ⟨_, value'⟩ :: _, .cons (.mk key first) others, layout => by
    rw [checkElements, checkElements]
    refine (checkKey_follows ctx layout key).bind fun key key' result moved => ?_
    dsimp only
    rw [first.alike.position, Layout.next_renumber moved]
    refine FollowsNode.rebuild (N := fun both both' => Expr.Moved move both.1 both'.1 ∧
      List.Forall₂ (Element.Moved move) both.2 both'.2) ?_ fun _ _ parts =>
        .cons (.mk moved parts.1) parts.2
    refine .given (.ofExcept _) ⟨first, others⟩ ?_
    rintro ⟨type, layout⟩ _ rfl
    exact ((infer_follows ctx first type).expecting ctx).andThen others fun _ =>
      checkElements_follows ctx others layout
termination_by structural elements => elements

theorem checkBody_follows (ctx : Context) : ∀ {func func' : Func}, Func.Moved move func func' →
    ∀ (signature : Signature) (receiver : Option Ty),
      (checkBody ctx func signature receiver).Follows move
        (checkBody (ctx.renumber move) func' signature receiver) (Func.Moved move)
  | ⟨name, receiver, params, results, body⟩, ⟨_, _, _, _, _⟩, .mk moved, signature, type => by
    rw [checkBody, checkBody]
    refine .withScope (.bind (declareReceiver_follows receiver type) ?_)
    rintro receiver _ rfl
    refine .bind (declareParams_follows params signature.args) ?_
    rintro params _ rfl
    refine .bind (declareParams_follows results signature.results) ?_
    rintro results' _ rfl
    exact (checkStatements_follows (ctx.ofBody results signature) moved).bind fun _ _ moved =>
      .pure (.mk moved)
termination_by structural func => func

theorem checkMethods_follows (ctx : Context) (this : Ty) : ∀ {methods methods' : List Func},
    List.Forall₂ (Func.Moved move) methods methods' → ∀ signatures : List Signature,
      (checkMethods ctx this methods signatures).FollowsNode move
        (checkMethods (ctx.renumber move) this methods' signatures) (List.Forall₂ (Func.Moved move))
  | [], _, .nil, _ => .pure .nil
  | _ :: _, _ :: _, .cons first others, [] => .pure (.cons first others)
  | ⟨name, receiver, params, results, body⟩ :: _, ⟨_, _, _, _, _⟩ :: _, .cons (.mk first) others,
      signature :: signatures => by
    rw [checkMethods, checkMethods]
    refine .given (.receiverType receiver) (.cons (.mk first) others) ?_
    rintro receiver _ rfl
    refine Follows.bind (checkBody_follows ctx (.mk first) signature _) fun _ _ moved => ?_
    exact (checkMethods_follows ctx this others signatures).bind fun _ _ _ behind =>
      FollowsNode.pure (.cons moved behind)
termination_by structural methods => methods

theorem checkStatements_follows (ctx : Context) : ∀ {block block' : Block},
    Block.Moved move block block' → (checkStatements ctx block).Follows move
      (checkStatements (ctx.renumber move) block') (Block.Moved move)
  | ⟨statements, _⟩, ⟨_, _⟩, .mk moved => by
    rw [checkStatements, checkStatements]
    refine .bind (declareLabels_follows moved .empty) ?_
    rintro ⟨labels, annotated⟩ _ rfl
    -- labels are symbols, so those in reach are the same
    exact (checkEach_follows { ctx with labels := labels :: ctx.labels } moved annotated).bind
      fun _ _ moved => .pure (.mk moved)
termination_by structural block => block

theorem checkEach_follows (ctx : Context) : ∀ {statements statements' : List Stmt},
    List.Forall₂ (Stmt.Moved move) statements statements' → ∀ labels : List (Option StmtLabel),
      (checkEach ctx statements labels).Follows move
        (checkEach (ctx.renumber move) statements' labels) (List.Forall₂ (Stmt.Moved move))
  | [], _, .nil, _ => .pure .nil
  | _ :: _, _ :: _, .cons first others, [] => .pure (.cons first others)
  | _ :: _, _ :: _, .cons first others, label :: labels => by
    rw [checkEach, checkEach]
    refine (checkStmt_follows ctx first).recorded.bind fun s s' moved => ?_
    refine (checkEach_follows ctx others labels).bind fun rest rest' behind => .pure ?_
    obtain ⟨moved⟩ := moved
    exact .cons (.mk moved) behind
termination_by structural statements => statements

theorem checkStmt_follows (ctx : Context) : ∀ {s s' : Stmt}, Stmt.Moved move s s' →
    (checkStmt ctx s).FollowsNode move (checkStmt (ctx.renumber move) s') (Stmt.Moved move)
  | ⟨own, position, label, form⟩, ⟨_, _, _, _⟩, .mk moved => by
    rw [checkStmt, checkStmt]
    exact (checkForm_follows ctx own position (label.map (·.name)) moved).rebuild fun _ _ moved =>
      Stmt.Moved.mk moved
termination_by structural s => s

theorem checkForm_follows (ctx : Context) (own : StmtId) (position : Position)
    (label : Option String) : ∀ {form form' : StmtForm}, StmtForm.Moved move form form' →
      (checkForm ctx own position label form).FollowsNode move
        (checkForm (ctx.renumber move) (move own) position label form') (StmtForm.Moved move)
  | .assign lhs rhs op, .assign lhs' rhs' _, .assign targets values => by
    have blind : ∀ e e' : Expr, Expr.Moved move e e' → (!e'.isAssignable) = !e.isAssignable :=
      fun e e' moved => congrArg not moved.isAssignable
    have found := rel_find? blind targets
    rw [checkForm, checkForm]
    generalize lhs.find? (!·.isAssignable) = e, lhs'.find? (!·.isAssignable) = e' at found ⊢
    cases found with
    | some moved =>
      dsimp only
      rw [moved.alike.position]
      exact .pure (.assign targets values)
    | none =>
    cases op.binary? with
    | some binary =>
      -- only one target with one value is checked, all other numbers of them are an error
      cases targets with
      | nil => exact .pure (.assign .nil values)
      | cons target targets =>
        cases targets with
        | cons second targets => exact .pure (.assign (.cons target (.cons second targets)) values)
        | nil =>
          cases values with
          | nil => exact .pure (.assign (.cons target .nil) .nil)
          | cons value values =>
            cases values with
            | cons second values =>
              exact .pure (.assign (.cons target .nil) (.cons value (.cons second values)))
            | nil =>
              refine .rebuild (.conclude (.andThen (M := Expr.Moved move)
                (infer_follows ctx target .unknown) value fun type =>
                  (infer_follows ctx value type).expecting ctx) fun operand =>
                    .checkOperand _ _ operand position) fun _ _ moved => ?_
              exact .assign (.cons moved.1 .nil) (.cons moved.2 .nil)
    | none =>
    -- as many values as targets, or one value for all of them
    dsimp only
    rw [← targets.length_eq, ← values.length_eq]
    by_cases pairs : lhs.length = rhs.length
    · rw [if_pos pairs, if_pos pairs]
      exact .rebuild (assignAll_follows ctx targets (waitingAll_follows ctx values))
        fun _ _ moved => .assign moved.1 moved.2
    · rw [if_neg pairs, if_neg pairs]
      cases values with
      | nil => exact .pure (.assign targets .nil)
      | cons value values =>
        cases values with
        | cons second values => exact .pure (.assign targets (.cons value (.cons second values)))
        | nil =>
          refine .rebuild (.andThen (M := List.Forall₂ (Expr.Moved move))
            (infer_follows ctx value .unknown) targets fun type => ?_)
              fun _ _ moved => .assign moved.2 (.cons moved.1 .nil)
          cases type with
          | tuple members =>
            dsimp only
            split
            · exact expectAll_follows ctx targets members
            · exact .pure targets
          | _ => exact .pure targets
  | .struct ⟨name, fields, methods, symbol⟩, .struct ⟨_, _, _, _⟩, .struct moved => by
    rw [checkForm, checkForm]
    refine (declareType_follows (.structTarget moved) moved fun struct signatures =>
      checkMethods_follows ctx (.custom name struct) moved signatures).rebuild ?_
    rintro ⟨struct, methods⟩ ⟨_, methods'⟩ ⟨same, moved⟩
    obtain rfl := same
    exact .struct moved
  | .typeAlias decl, _, .typeAlias => by
    rw [checkForm, checkForm]
    refine (checkAlias_follows decl position).rebuild ?_
    rintro decl _ rfl
    exact .typeAlias
  | .var vars, .var _, .var moved => by
    rw [checkForm, checkForm]
    exact (checkVars_follows ctx own moved).rebuild fun _ _ => .var
  | .pass, _, .pass => .pure .pass
  | .cond branches, .cond _, .cond moved => by
    rw [checkForm, checkForm]
    exact (checkBranches_follows ctx own moved).bind fun _ _ moved => FollowsNode.pure (.cond moved)
  | .loop ⟨header, condition, step, body⟩, .loop ⟨_, _, _, _⟩, .loop first second third fourth => by
    rw [checkForm, checkForm]
    refine .withScope ?_
    refine (checkHeader_follows ctx own first).bind fun _ _ first => ?_
    refine (checkCondition_follows ctx second).bind fun _ _ second => ?_
    refine (checkStep_follows ctx third).bind fun _ _ third => ?_
    -- here a number comes into the surroundings
    refine (checkStatements_follows { ctx with loops := (own, label) :: ctx.loops }
      fourth).withScope.bind fun _ _ fourth => ?_
    exact FollowsNode.pure (.loop first second third fourth)
  | .expr e, .expr _, .expr moved => by
    rw [checkForm, checkForm]
    exact (infer_follows ctx moved .unknown).mapResult.rebuild fun _ _ => .expr
  | .jump ⟨kind, label, symbol, target⟩, .jump ⟨_, _, _, target'⟩, .jump => by
    rw [checkForm, checkForm]
    exact Follows.pure (resolveJump_moved kind label symbol target target' position)
  | .ret values, .ret values', .ret moved => by
    rw [checkForm, checkForm, ← moved.length_eq]
    refine (FollowsNode.given (.ofExcept _) moved ?_).rebuild fun _ _ => .ret
    rintro types _ rfl
    exact expectAll_follows ctx moved types
termination_by structural form => form

theorem checkVars_follows (ctx : Context) (own : StmtId) : ∀ {vars vars' : VarForm},
    VarForm.Moved move vars vars' → (checkVars ctx own vars).FollowsNode move
      (checkVars (ctx.renumber move) (move own) vars') (VarForm.Moved move)
  | ⟨vars, isFunc⟩, ⟨_, _⟩, .mk moved => by
    rw [checkVars, checkVars]
    refine Follows.reads fun s => ?_
    refine (checkVarList_follows ctx own isFunc moved).bind fun vars vars' result moved => ?_
    refine Follows.bind (.change fun s => s.noteForm_renumber move _ result) fun _ _ _ => ?_
    exact FollowsNode.pure (.mk moved)
termination_by structural vars => vars

theorem checkVarList_follows (ctx : Context) (own : StmtId) (isFunc : Bool) :
    ∀ {vars vars' : List VarDecl}, List.Forall₂ (VarDecl.Moved move) vars vars' →
      (checkVarList ctx own isFunc vars).FollowsNode move
        (checkVarList (ctx.renumber move) (move own) isFunc vars')
          (List.Forall₂ (VarDecl.Moved move))
  | [], _, .nil => .pure .nil
  | _ :: _, _ :: _, .cons first others => by
    rw [checkVarList, checkVarList]
    refine (FollowsNode.alongside (.noted (N := VarDecl.Moved move) ?_)
      (checkVarList_follows ctx own isFunc others)).rebuild fun _ _ moved => .cons moved.1 moved.2
    cases isFunc with
    | true => exact checkFuncVar_follows ctx own first
    | false => exact checkPlainVar_follows ctx own first
termination_by structural vars => vars

theorem checkPlainVar_follows (ctx : Context) (own : StmtId) : ∀ {decl decl' : VarDecl},
    VarDecl.Moved move decl decl' → (checkPlainVar ctx own decl).FollowsNode move
      (checkPlainVar (ctx.renumber move) (move own) decl') (VarDecl.Moved move)
  | ⟨name, position, spec, value, symbol⟩, ⟨_, _, _, value', _⟩, .mk moved => by
    have init : value'.map (fun _ => move own) = (value.map fun _ => own).map move := by
      cases moved <;> rfl
    rw [checkPlainVar, checkPlainVar, init]
    refine Follows.bind (FollowsAttempt.resolveOr .unknown spec) fun _ resolved results => ?_
    obtain rfl := results.same
    cases resolved with
    | error err => exact declareVar_follows (.mk moved) .unknown _ (.error err)
    | ok declared =>
      refine (checkInit_follows ctx name position declared moved).bind
        fun value value' result moved => ?_
      cases result with
      | ok type => exact declareVar_follows (.mk moved) type _ (.ok ())
      | error err => exact declareVar_follows (.mk moved) declared _ (.error err)
termination_by structural decl => decl

theorem checkInit_follows (ctx : Context) (name : String) (position : Position) (declared : Ty) :
    ∀ {value value' : Option Expr}, Option.Rel (Expr.Moved move) value value' →
      (checkInit ctx name position declared value).FollowsNode move
        (checkInit (ctx.renumber move) name position declared value') (Option.Rel (Expr.Moved move))
  | none, _, .none => .pure .none
  | some _, some _, .some moved => by
    rw [checkInit, checkInit]
    exact ((infer_follows ctx moved declared).agreeing fun _ _ _ => rfl).rebuild fun _ _ => .some
termination_by structural value => value

theorem checkFuncVar_follows (ctx : Context) (own : StmtId) : ∀ {decl decl' : VarDecl},
    VarDecl.Moved move decl decl' → (checkFuncVar ctx own decl).FollowsNode move
      (checkFuncVar (ctx.renumber move) (move own) decl') (VarDecl.Moved move)
  | ⟨_, _, _, none, _⟩, ⟨_, _, _, _, _⟩, .mk .none => .pure (.mk .none)
  | ⟨name, position, spec, some ⟨valuePosition, form, type⟩, symbol⟩,
      ⟨_, _, _, some ⟨_, form', _⟩, _⟩, .mk (.some (.mk moved)) => by
    have untouched : VarDecl.Moved move
        ⟨name, position, spec, some ⟨valuePosition, form, type⟩, symbol⟩
        ⟨name, position, spec, some ⟨valuePosition, form', type⟩, symbol⟩ :=
      .mk (.some (.mk moved))
    cases moved with
    | func inside =>
      rw [checkFuncVar, checkFuncVar]
      refine Follows.bind (FollowsAttempt.funcType inside) fun _ typed results => ?_
      obtain rfl := results.same
      cases typed with
      | error err => exact declareVar_follows untouched .unknown (some own) (.error err)
      | ok found =>
        obtain ⟨receiver, signature⟩ := found
        refine (declareVar_follows untouched (.func signature) (some own) (.ok ())).bind
          fun decl decl' result moved => ?_
        cases result with
        | error err => exact FollowsNode.pure moved
        | ok _ =>
          refine (checkBody_follows ctx inside signature receiver).bind fun func func' body => ?_
          obtain ⟨_⟩ := moved
          exact FollowsNode.pure (.mk (.some (.mk (.func body))))
    | _ => exact .pure untouched
termination_by structural decl => decl

theorem checkHeader_follows (ctx : Context) (own : StmtId) : ∀ {header header' : Option VarForm},
    Option.Rel (VarForm.Moved move) header header' → (checkHeader ctx own header).Follows move
      (checkHeader (ctx.renumber move) (move own) header') (Option.Rel (VarForm.Moved move))
  | none, _, .none => .pure .none
  | some _, some _, .some moved => by
    rw [checkHeader, checkHeader]
    exact (checkVars_follows ctx own moved).recorded.bind fun _ _ moved => .pure (.some moved)
termination_by structural header => header

theorem checkCondition_follows (ctx : Context) : ∀ {condition condition' : Option Expr},
    Option.Rel (Expr.Moved move) condition condition' → (checkCondition ctx condition).Follows move
      (checkCondition (ctx.renumber move) condition') (Option.Rel (Expr.Moved move))
  | none, _, .none => .pure .none
  | some _, some _, .some moved => by
    rw [checkCondition, checkCondition]
    exact ((infer_follows ctx moved .bool).expecting ctx).recorded.bind fun _ _ moved =>
      .pure (.some moved)
termination_by structural condition => condition

theorem checkStep_follows (ctx : Context) : ∀ {step step' : Option Stmt},
    Option.Rel (Stmt.Moved move) step step' → (checkStep ctx step).Follows move
      (checkStep (ctx.renumber move) step') (Option.Rel (Stmt.Moved move))
  | none, _, .none => .pure .none
  | some _, some _, .some moved => by
    rw [checkStep, checkStep]
    exact (checkStmt_follows ctx moved).recorded.bind fun _ _ moved => .pure (.some moved)
termination_by structural step => step

theorem checkBranches_follows (ctx : Context) (own : StmtId) : ∀ {branches branches' : List Branch},
    List.Forall₂ (Branch.Moved move) branches branches' →
      (checkBranches ctx own branches).Follows move
        (checkBranches (ctx.renumber move) (move own) branches') (List.Forall₂ (Branch.Moved move))
  | [], _, .nil => .pure .nil
  | ⟨header, condition, body⟩ :: rest, ⟨_, _, _⟩ :: _, .cons (.mk first second third) others => by
    rw [checkBranches, checkBranches]
    refine Follows.bind (R := Branch.Moved move) (.withScope ?_) fun branch branch' moved => ?_
    · refine (checkHeader_follows ctx own first).bind fun _ _ first => ?_
      refine (checkCondition_follows ctx second).bind fun _ _ second => ?_
      exact (checkStatements_follows ctx third).withScope.bind fun _ _ third =>
        .pure (.mk first second third)
    · exact (checkBranches_follows ctx own others).bind fun _ _ others => .pure (.cons moved others)
termination_by structural branches => branches

end

end PackageCheck.Typing
