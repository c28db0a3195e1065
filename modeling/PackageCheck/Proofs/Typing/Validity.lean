import PackageCheck.Proofs.Typing.RuleValidity

/-! # What a check leaves in a tree is valid

The check of a node whose findings are valid, in valid surroundings, comes to a node whose findings
are valid again. It does so whether the node checks or not, because what an early end leaves alone
was valid before. -/

namespace PackageCheck.Typing

open Check

variable {world : World}

mutual

theorem infer_valid (ctx : Context) (around : ctx.ValidIn world) : ∀ (e : Expr) (hint : Ty),
    world.Allows e.findings → hint.ValidIn world → (infer ctx e hint).UpholdsExpr world
  | ⟨position, form, type⟩, hint, listed, wanted => by
    have ⟨own, inside⟩ := World.allows_cons.mp listed
    rw [infer]
    refine .bind (inferForm_valid ctx around position form hint inside wanted)
      fun (form', result) ⟨checked, value⟩ => ?_
    cases result with
    | ok found => exact UpholdsNode.pure (World.allows_cons.mpr ⟨value, checked⟩) value
    -- the expression keeps the type it came with, and its parts what they have got by then
    | error err => exact UpholdsNode.pure (World.allows_cons.mpr ⟨own, checked⟩) True.intro

theorem inferForm_valid (ctx : Context) (around : ctx.ValidIn world) (position : Position) :
    ∀ (form : ExprForm) (hint : Ty), world.Allows form.findings → hint.ValidIn world →
      (inferForm ctx position form hint).UpholdsNode world
        (fun form => world.Allows form.findings) (Ty.ValidIn world)
  | .literal literal, hint, listed, wanted => by
    rw [inferForm]
    refine UpholdsNode.pure listed ?_
    cases literal.kind <;> exact True.intro
  | .blank, hint, listed, wanted => UpholdsNode.pure listed True.intro
  | .compound spec shape elements, hint, listed, wanted => by
    rw [inferForm]
    refine .given (compoundType_valid spec position wanted) listed fun type own => ?_
    split
    · exact UpholdsNode.pure listed own
    · refine .given (layoutOf_valid elements position own) listed fun layout laidOut => ?_
      refine .rebuild (.mapResult (checkElements_valid ctx around elements layout listed laidOut)
        fun _ _ => own) fun elements checked => checked
  | .binary op left right, hint, listed, wanted => by
    have ⟨onLeft, onRight⟩ := World.allows_append.mp listed
    rw [inferForm]
    split
    · refine .rebuild (.mapResult (W := Ty.ValidIn world) (.andThen
        (M := fun e => world.Allows e.findings) (expecting_valid True.intro
        (infer_valid ctx around left _ onLeft True.intro)) onRight fun _ _ => ?_)
        fun _ _ => True.intro) ?_
      · exact expecting_valid True.intro (infer_valid ctx around right _ onRight True.intro)
      · exact fun (left, right) both => World.allows_append.mpr both
    · refine .rebuild (.conclude (W := Ty.ValidIn world) (.andThen
        (M := fun e => world.Allows e.findings) (infer_valid ctx around left _ onLeft True.intro)
        onRight fun type own => ?_) fun operand valid => ?_) ?_
      · exact expecting_valid own (infer_valid ctx around right _ onRight own)
      · exact binaryType_valid op position valid
      · exact fun (left, right) both => World.allows_append.mpr both
  | .unary op operand, hint, listed, wanted => by
    cases op with
    | plus =>
      exact .rebuild (.conclude (infer_valid ctx around operand hint listed wanted)
        fun _ own => signType_valid _ position own) fun _ checked => checked
    | minus =>
      exact .rebuild (.conclude (infer_valid ctx around operand hint listed wanted)
        fun _ own => signType_valid _ position own) fun _ checked => checked
    | not =>
      exact .rebuild (expecting_valid True.intro
        (infer_valid ctx around operand _ listed True.intro)) fun _ checked => checked
    | addressOf =>
      exact .rebuild (.mapResult (infer_valid ctx around operand _ listed
        (pointeeHint_valid wanted)) fun _ own => own) fun _ checked => checked
    | deref =>
      exact .rebuild (.conclude (infer_valid ctx around operand _ listed True.intro)
        fun _ own => derefType_valid position own) fun _ checked => checked
  | .index left index, hint, listed, wanted => by
    have ⟨onLeft, onIndex⟩ := World.allows_append.mp listed
    rw [inferForm]
    refine .rebuild (.andThen (M := fun e => world.Allows e.findings)
      (.conclude (infer_valid ctx around left _ onLeft True.intro) fun _ own =>
        indexTypes_valid position own) onIndex fun (indexType, elementType) both => ?_) ?_
    · exact .mapResult (expecting_valid both.1 (infer_valid ctx around index _ onIndex both.1))
        fun _ _ => both.2
    · exact fun (left, index) both => World.allows_append.mpr both
  | .selector left field, hint, listed, wanted => by
    rw [inferForm]
    exact .rebuild (.conclude (infer_valid ctx around left _ listed True.intro)
      fun _ own => selectorType_valid field position own) fun _ checked => checked
  | .call callee args, hint, listed, wanted => by
    have ⟨onCallee, onArgs⟩ := World.allows_append.mp listed
    rw [inferForm]
    refine .given (conversion?_valid onCallee) listed fun target converts => ?_
    cases target with
    | some target =>
      have ⟨callee', own⟩ := converts target rfl
      match args with
      | [] => exact UpholdsNode.pure (World.allows_append.mpr ⟨callee', onArgs⟩) True.intro
      | [arg] =>
        have onArg := World.allows_exprs.mp onArgs arg List.mem_cons_self
        refine .rebuild (.mapResult (infer_valid ctx around arg _ onArg own) fun _ _ => own)
          fun arg checked => World.allows_append.mpr ⟨callee', World.allows_exprs.mpr ?_⟩
        exact List.forall_mem_singleton.mpr checked
      | _ :: _ :: _ => exact UpholdsNode.pure (World.allows_append.mpr ⟨callee', onArgs⟩) True.intro
    | none =>
      refine .rebuild (.andThen (M := fun es => world.Allows (Expr.findingsList es))
        (.conclude (infer_valid ctx around callee _ onCallee True.intro) fun _ own =>
          callSignature_valid args.length position own) onArgs fun signature own => ?_) ?_
      · obtain ⟨types, results⟩ := signature
        exact .mapResult (expectAll_valid ctx around args types onArgs own.1)
          fun _ _ => own.resultType
      · exact fun (callee, args) both => World.allows_append.mpr both
  | .func func, hint, listed, wanted => by
    rw [inferForm]
    refine .given (funcType_valid func) listed fun (receiver, signature) ⟨receives, own⟩ => ?_
    exact .bind (checkBody_valid ctx func signature receiver listed own receives)
      fun func checked => UpholdsNode.pure checked own
  | .ident ident, hint, listed, wanted => by
    rw [inferForm]
    exact .rebuild (inferIdent_valid position (World.allows_cons.mp listed).1)
      fun ident bound => World.allows_cons.mpr ⟨bound, World.allows_nil⟩
  | .type spec, hint, listed, wanted => UpholdsNode.pure listed True.intro

theorem expectAll_valid (ctx : Context) (around : ctx.ValidIn world) :
    ∀ (es : List Expr) (types : List Ty), world.Allows (Expr.findingsList es) →
      Ty.AllValidIn world types →
        (expectAll ctx es types).UpholdsNode world
          (fun es => world.Allows (Expr.findingsList es)) fun _ => True
  | e :: es, type :: types, listed, typed => by
    have ⟨first, others⟩ := World.allows_append.mp listed
    rw [expectAll]
    refine .rebuild (.andThen (M := fun es => world.Allows (Expr.findingsList es))
      (expecting_valid typed.1 (infer_valid ctx around e _ first typed.1)) others
      fun _ _ => ?_) ?_
    · exact expectAll_valid ctx around es types others typed.2
    · exact fun (e, es) both => World.allows_append.mpr both
  | [], _, listed, _ => UpholdsNode.pure listed True.intro
  | _ :: _, [], listed, _ => UpholdsNode.pure listed True.intro

theorem waitingAll_valid (ctx : Context) (around : ctx.ValidIn world) : ∀ es : List Expr,
    world.Allows (Expr.findingsList es) → ∀ waiting ∈ waitingAll ctx es, ∀ hint : Ty,
      hint.ValidIn world → (waiting.infer hint).UpholdsExpr world
  | [], _ => nofun
  | e :: es, listed => by
    have ⟨first, others⟩ := World.allows_append.mp listed
    rw [waitingAll]
    intro waiting member hint wanted
    rcases List.mem_cons.mp member with rfl | member
    · exact infer_valid ctx around e hint first wanted
    · exact waitingAll_valid ctx around es others waiting member hint wanted

theorem assignAll_valid (ctx : Context) (around : ctx.ValidIn world) :
    ∀ (targets : List Expr) (values : List Waiting),
      world.Allows (Expr.findingsList targets) →
      world.Allows (Expr.findingsList (values.map (·.expr))) →
      (∀ waiting ∈ values, ∀ hint : Ty, hint.ValidIn world →
        (waiting.infer hint).UpholdsExpr world) →
        (assignAll ctx targets values).UpholdsNode world (fun x =>
          world.Allows (Expr.findingsList x.1) ∧ world.Allows (Expr.findingsList x.2))
          fun _ => True
  | target :: targets, value :: values, onTargets, onValues, waits => by
    have ⟨onTarget, otherTargets⟩ := World.allows_append.mp onTargets
    have ⟨onValue, otherValues⟩ := World.allows_append.mp onValues
    have ⟨wait, otherWaits⟩ := List.forall_mem_cons.mp waits
    rw [assignAll]
    refine .rebuild (.andThen (.andThen (infer_valid ctx around target _ onTarget True.intro)
      onValue fun type own => expecting_valid own (wait type own)) ⟨otherTargets, otherValues⟩
      fun _ _ => assignAll_valid ctx around targets values otherTargets otherValues otherWaits) ?_
    intro ((target, value), targets, values) ⟨⟨first, second⟩, others, others'⟩
    exact ⟨World.allows_append.mpr ⟨first, others⟩, World.allows_append.mpr ⟨second, others'⟩⟩
  | [], _, onTargets, onValues, _ => UpholdsNode.pure ⟨onTargets, onValues⟩ True.intro
  | _ :: _, [], onTargets, onValues, _ => UpholdsNode.pure ⟨onTargets, onValues⟩ True.intro

theorem checkKey_valid (ctx : Context) (around : ctx.ValidIn world) (layout : Layout)
    (laidOut : layout.ValidIn world) : ∀ key : Option Expr,
      world.Allows (Expr.findingsOption key) →
        (checkKey ctx layout key).UpholdsNode world
          (fun key => world.Allows (Expr.findingsOption key)) fun _ => True
  | none, listed => UpholdsNode.pure listed True.intro
  | some key, listed => by
    rw [checkKey]
    split
    case h_1 => exact UpholdsNode.pure (laidOut.typeKey listed) True.intro
    case h_2 type keyed =>
      have own := laidOut.keyType? keyed
      exact .rebuild (.mapResult (expecting_valid own
        (infer_valid ctx around key _ listed own)) fun _ _ => True.intro) fun _ checked => checked

theorem checkElements_valid (ctx : Context) (around : ctx.ValidIn world) :
    ∀ (elements : List Element) (layout : Layout),
      world.Allows (Element.findingsList elements) → layout.ValidIn world →
        (checkElements ctx elements layout).UpholdsNode world
          (fun elements => world.Allows (Element.findingsList elements)) fun _ => True
  | [], layout, listed, _ => UpholdsNode.pure listed True.intro
  | ⟨key, value⟩ :: rest, layout, listed, laidOut => by
    have ⟨onKey, behind⟩ := World.allows_append.mp listed
    have ⟨onValue, others⟩ := World.allows_append.mp behind
    rw [checkElements]
    refine .bind (checkKey_valid ctx around layout laidOut key onKey)
      fun (key, result) ⟨keyed, _⟩ => ?_
    have step : Succeeding (fun found => found.1.ValidIn world ∧ found.2.ValidIn world)
        (result.bind fun _ => layout.next ctx key value.position) := by
      cases result with
      | ok _ => exact laidOut.next key value.position
      | error err => exact True.intro
    refine .rebuild (.given (.ofExcept step) ⟨onValue, others⟩
      fun (type, layout) ⟨own, laidOut⟩ => .andThen (expecting_valid own
        (infer_valid ctx around value _ onValue own)) others fun _ _ =>
          checkElements_valid ctx around rest layout others laidOut) ?_
    intro (value, rest) both
    exact World.allows_append.mpr ⟨keyed, World.allows_append.mpr both⟩

theorem checkBody_valid (ctx : Context) : ∀ (func : Func) (signature : Signature)
    (receiver : Option Ty), world.Allows func.findings → signature.ValidIn world →
      (∀ type, receiver = some type → type.ValidIn world) →
        (checkBody ctx func signature receiver).Upholds world
          fun func => world.Allows func.findings
  | ⟨name, receiver, params, results, body⟩, ⟨args, types⟩, receiverType, listed, own,
      receives => by
    have ⟨leaves, inside⟩ := World.allows_append.mp listed
    simp only [World.allows_map, List.forall_mem_append] at leaves
    obtain ⟨⟨onReceiver, onParams⟩, onResults⟩ := leaves
    rw [checkBody]
    refine .withScope (.bind (declareReceiver_valid ctx onReceiver receives)
      fun receiver received => ?_)
    refine .bind (declareParams_valid ctx params _ onParams own.1) fun params declared => ?_
    refine .bind (declareParams_valid ctx results _ onResults own.2) fun results returned => ?_
    refine .bind (checkStatements_valid _ (.ofBody own.2) body inside) fun body checked => ?_
    refine .pure (World.allows_append.mpr ⟨?_, checked⟩)
    simp only [World.allows_map, List.forall_mem_append]
    exact ⟨⟨received, declared⟩, returned⟩

theorem checkMethods_valid (ctx : Context) (this : Ty) (own : this.ValidIn world) :
    ∀ (methods : List Func) (signatures : List Signature),
      world.Allows (Func.findingsList methods) →
      (∀ signature ∈ signatures, signature.ValidIn world) →
        (checkMethods ctx this methods signatures).UpholdsNode world
          (fun methods => world.Allows (Func.findingsList methods)) fun _ => True
  | method :: methods, signature :: signatures, listed, typed => by
    have ⟨first, others⟩ := World.allows_append.mp listed
    have ⟨type, types⟩ := List.forall_mem_cons.mp typed
    rw [checkMethods]
    refine .given (receiverType_valid _) listed fun receiver received => ?_
    refine .bind (checkBody_valid ctx method signature _ first type ?_) fun method checked => ?_
    · intro found same
      obtain ⟨written, rfl, rfl⟩ := Option.map_eq_some_iff.mp same
      split
      -- a receiver of no known type points to the struct
      · exact own
      · exact received written rfl
    · refine .bind (checkMethods_valid ctx this own methods signatures others types)
        fun (methods, result) ⟨behind, _⟩ => ?_
      exact UpholdsNode.pure (World.allows_append.mpr ⟨checked, behind⟩) (succeeding_true _)
  | [], _, listed, _ => UpholdsNode.pure listed True.intro
  | _ :: _, [], listed, _ => UpholdsNode.pure listed True.intro

theorem checkStatements_valid (ctx : Context) (around : ctx.ValidIn world) : ∀ block : Block,
    world.Allows block.findings →
      (checkStatements ctx block).Upholds world fun block => world.Allows block.findings
  | ⟨statements, labels⟩, listed => by
    have ⟨_, inside⟩ := World.allows_cons.mp listed
    rw [checkStatements]
    refine .bind (declareLabels_valid ctx statements .empty inside nofun)
      fun (labels, annotated) ⟨found, labelled⟩ => ?_
    refine .bind (checkEach_valid _ (around.addLabels found) statements annotated inside labelled)
      fun statements checked => ?_
    exact .pure (World.allows_cons.mpr ⟨found, checked⟩)

theorem checkEach_valid (ctx : Context) (around : ctx.ValidIn world) :
    ∀ (statements : List Stmt) (labels : List (Option StmtLabel)),
      world.Allows (Stmt.findingsList statements) →
      (∀ label, some label ∈ labels → (Finding.label label).ValidIn world) →
        (checkEach ctx statements labels).Upholds world
          fun statements => world.Allows (Stmt.findingsList statements)
  | s :: rest, label :: labels, listed, labelled => by
    have ⟨first, others⟩ := World.allows_append.mp listed
    rw [checkEach]
    refine .bind (checkStmt_valid ctx around s first).recorded fun s checked => ?_
    refine .bind (checkEach_valid ctx around rest labels others
      fun other member => labelled other (List.mem_cons_of_mem _ member)) fun rest behind => ?_
    exact .pure (World.allows_append.mpr ⟨World.allows_relabel checked fun other same =>
      labelled other (same ▸ List.mem_cons_self), behind⟩)
  | [], _, listed, _ => .pure listed
  | _ :: _, [], listed, _ => .pure listed

theorem checkStmt_valid (ctx : Context) (around : ctx.ValidIn world) : ∀ s : Stmt,
    world.Allows s.findings →
      (checkStmt ctx s).UpholdsNode world (fun s => world.Allows s.findings) fun _ => True
  | ⟨id, position, label, form⟩, listed => by
    have ⟨number, behind⟩ := World.allows_cons.mp listed
    have ⟨labelled, inside⟩ := World.allows_append.mp behind
    rw [checkStmt]
    refine .bind (checkForm_valid ctx around id position _ form
      (World.allows_form.mpr ⟨number, inside⟩)) fun (form, result) ⟨checked, _⟩ => ?_
    have ⟨number', inside'⟩ := World.allows_form.mp checked
    refine UpholdsNode.pure (World.allows_cons.mpr ⟨number', ?_⟩) (succeeding_true _)
    exact World.allows_append.mpr ⟨labelled, inside'⟩

theorem checkForm_valid (ctx : Context) (around : ctx.ValidIn world) (id : StmtId)
    (position : Position) (label : Option String) : ∀ form : StmtForm,
      world.Allows (Stmt.findings ⟨id, position, none, form⟩) →
        (checkForm ctx id position label form).UpholdsNode world
          (fun form => world.Allows (Stmt.findings ⟨id, position, none, form⟩)) fun _ => True
  | .assign lhs rhs op, listed => by
    have ⟨own, inside⟩ := World.allows_form.mp listed
    have ⟨onLeft, onRight⟩ := World.allows_append.mp inside
    rw [checkForm]
    split
    · exact UpholdsNode.pure listed True.intro
    · split
      · match lhs, rhs with
        | [target], [value] =>
          have onTarget := World.allows_exprs.mp onLeft target List.mem_cons_self
          have onValue := World.allows_exprs.mp onRight value List.mem_cons_self
          refine .rebuild (.conclude (W := Ty.ValidIn world) (.andThen
            (M := fun e => world.Allows e.findings) (infer_valid ctx around target _ onTarget
            True.intro) onValue fun type typed => ?_) fun operand typed => ?_)
            fun (target, value) ⟨first, second⟩ => ?_
          · exact expecting_valid typed (infer_valid ctx around value _ onValue typed)
          · exact checkOperand_valid _ _ position typed
          · refine World.allows_form.mpr ⟨own, World.allows_append.mpr ⟨?_, ?_⟩⟩
            · exact World.allows_exprs.mpr (List.forall_mem_singleton.mpr first)
            · exact World.allows_exprs.mpr (List.forall_mem_singleton.mpr second)
        | [], _ => exact UpholdsNode.pure listed True.intro
        | _ :: _ :: _, _ => exact UpholdsNode.pure listed True.intro
        | [_], [] => exact UpholdsNode.pure listed True.intro
        | [_], _ :: _ :: _ => exact UpholdsNode.pure listed True.intro
      · split
        · refine .rebuild (assignAll_valid ctx around lhs _ onLeft ?_
            (waitingAll_valid ctx around rhs onRight)) fun (lhs, rhs) both => ?_
          · rw [waitingAll_exprs]
            exact onRight
          · exact World.allows_form.mpr ⟨own, World.allows_append.mpr both⟩
        · match rhs with
          | [] => exact UpholdsNode.pure listed True.intro
          | [value] =>
            have onValue := World.allows_exprs.mp onRight value List.mem_cons_self
            refine .rebuild (.andThen (M := fun es => world.Allows (Expr.findingsList es))
              (infer_valid ctx around value _ onValue True.intro) onLeft fun type typed => ?_)
              fun (value, lhs) ⟨first, second⟩ => ?_
            · cases type with
              | tuple members =>
                dsimp only
                split
                · exact expectAll_valid ctx around lhs members onLeft typed
                · exact UpholdsNode.pure onLeft True.intro
              | _ => exact UpholdsNode.pure onLeft True.intro
            · refine World.allows_form.mpr ⟨own, World.allows_append.mpr ⟨second, ?_⟩⟩
              exact World.allows_exprs.mpr (List.forall_mem_singleton.mpr first)
          | _ :: _ :: _ => exact UpholdsNode.pure listed True.intro
  | .struct ⟨name, fields, methods, symbol⟩, listed => by
    have ⟨own, inside⟩ := World.allows_form.mp listed
    have ⟨declares, onMethods⟩ := World.allows_cons.mp inside
    rw [checkForm]
    refine .rebuild (.declareType (N := fun methods => world.Allows (Func.findingsList methods))
      (W := fun signatures => ∀ signature ∈ signatures, signature.ValidIn world) onMethods
      (structTarget_valid name position fields methods) fun struct signatures there typed => ?_)
      fun (struct, methods) ⟨named, checked⟩ => ?_
    · exact checkMethods_valid ctx (.custom name struct) there methods signatures onMethods typed
    · refine World.allows_form.mpr ⟨own, World.allows_cons.mpr ⟨fun id found => ?_, checked⟩⟩
      -- a struct that could not be declared keeps the handle it came with
      rcases Option.or_eq_some_iff.mp found with new | ⟨-, old⟩
      · exact named id new
      · exact declares id old
  | .typeAlias decl, listed => by
    have ⟨own, inside⟩ := World.allows_form.mp listed
    rw [checkForm]
    have listed := (World.allows_cons.mp inside).1
    refine .rebuild (checkAlias_valid position listed) fun decl checked => ?_
    exact World.allows_form.mpr ⟨own, World.allows_cons.mpr ⟨checked, World.allows_nil⟩⟩
  | .var vars, listed => by
    have ⟨own, inside⟩ := World.allows_form.mp listed
    rw [checkForm]
    exact .rebuild (checkVars_valid ctx around id own.1 vars inside) fun vars checked =>
      World.allows_form.mpr ⟨own, checked⟩
  | .pass, listed => UpholdsNode.pure listed True.intro
  | .cond branches, listed => by
    have ⟨own, inside⟩ := World.allows_form.mp listed
    rw [checkForm]
    exact .bind (checkBranches_valid ctx around id own.1 branches inside) fun branches checked =>
      UpholdsNode.pure (World.allows_form.mpr ⟨own, checked⟩) True.intro
  | .loop ⟨header, condition, step, body⟩, listed => by
    have ⟨own, inside⟩ := World.allows_form.mp listed
    have ⟨onHeader, behind⟩ := World.allows_append.mp inside
    have ⟨onCondition, behind⟩ := World.allows_append.mp behind
    have ⟨onStep, onBody⟩ := World.allows_append.mp behind
    rw [checkForm]
    refine Upholds.withScope (.bind (checkHeader_valid ctx around id own.1 header onHeader)
      fun header first => ?_)
    refine .bind (checkCondition_valid ctx around condition onCondition)
      fun condition second => ?_
    refine .bind (checkStep_valid ctx around step onStep) fun step third => ?_
    -- jumps lead to this loop from its body only
    refine .bind (.withScope (checkStatements_valid _ (around.addLoop label (own.2 rfl)) body
      onBody)) fun body fourth => ?_
    refine .pure ⟨World.allows_form.mpr ⟨own, ?_⟩, True.intro⟩
    exact World.allows_append.mpr ⟨first, World.allows_append.mpr ⟨second,
      World.allows_append.mpr ⟨third, fourth⟩⟩⟩
  | .expr e, listed => by
    have ⟨own, inside⟩ := World.allows_form.mp listed
    rw [checkForm]
    exact .rebuild (.mapResult (infer_valid ctx around e _ inside True.intro)
      fun _ _ => True.intro) fun e checked => World.allows_form.mpr ⟨own, checked⟩
  | .jump jump, listed => by
    have ⟨own, inside⟩ := World.allows_form.mp listed
    rw [checkForm]
    have resolved := resolveJump_valid around position (World.allows_cons.mp inside).1
    refine UpholdsNode.pure (World.allows_form.mpr ⟨own, ?_⟩) (succeeding_true _)
    exact World.allows_cons.mpr ⟨resolved, World.allows_nil⟩
  | .ret values, listed => by
    have ⟨own, inside⟩ := World.allows_form.mp listed
    rw [checkForm]
    refine .rebuild (.given (.ofExcept (returnTypes_valid around _ position)) inside
      fun types typed => expectAll_valid ctx around values types inside typed) ?_
    exact fun values checked => World.allows_form.mpr ⟨own, checked⟩

theorem checkVars_valid (ctx : Context) (around : ctx.ValidIn world) (id : StmtId)
    (number : world.IsStmt id) : ∀ vars : VarForm, world.Allows vars.findings →
      (checkVars ctx id vars).UpholdsNode world (fun vars => world.Allows vars.findings)
        fun _ => True
  | ⟨vars, isFunc⟩, listed => by
    rw [checkVars]
    refine .bind .state fun before _ => ?_
    refine .bind (checkVarList_valid ctx around id number isFunc vars listed)
      fun (vars, result) ⟨checked, value⟩ => ?_
    exact .bind (.noteForm _ _) fun _ _ => UpholdsNode.pure checked value

theorem checkVarList_valid (ctx : Context) (around : ctx.ValidIn world) (id : StmtId)
    (number : world.IsStmt id) (isFunc : Bool) : ∀ vars : List VarDecl,
      world.Allows (VarDecl.findingsList vars) →
        (checkVarList ctx id isFunc vars).UpholdsNode world
          (fun vars => world.Allows (VarDecl.findingsList vars)) fun _ => True
  | [], listed => UpholdsNode.pure listed True.intro
  | decl :: rest, listed => by
    have ⟨first, others⟩ := World.allows_vars.mp listed
    rw [checkVarList]
    refine .rebuild (.alongside (W := fun _ => True) (.noted ?_)
      (checkVarList_valid ctx around id number isFunc rest others)) fun (decl, rest) both =>
        World.allows_vars.mpr both
    split
    · exact checkFuncVar_valid ctx id number decl first
    · exact checkPlainVar_valid ctx around id number decl first

theorem checkPlainVar_valid (ctx : Context) (around : ctx.ValidIn world) (id : StmtId)
    (number : world.IsStmt id) : ∀ decl : VarDecl, world.AllowsVar decl →
      (checkPlainVar ctx id decl).UpholdsNode world world.AllowsVar fun _ => True
  | ⟨name, position, spec, value, symbol⟩, ⟨_, onValue⟩ => by
    have init : ∀ found, value.map (fun _ => id) = some found → world.IsStmt found := by
      intro found same
      obtain ⟨_, _, rfl⟩ := Option.map_eq_some_iff.mp same
      exact number
    rw [checkPlainVar]
    refine .bind (resolveOr_valid spec True.intro) fun result resolved => ?_
    cases result with
    | error err => exact declareVar_valid ctx _ ⟨nofun, onValue⟩ True.intro init
    | ok declared =>
      refine .bind (checkInit_valid ctx around name position declared resolved value onValue)
        fun (value, found) ⟨checked, typed⟩ => ?_
      cases found with
      | ok type => exact declareVar_valid ctx _ ⟨nofun, checked⟩ typed init
      | error err => exact declareVar_valid ctx _ ⟨nofun, checked⟩ resolved init

theorem checkInit_valid (ctx : Context) (around : ctx.ValidIn world) (name : String)
    (position : Position) (declared : Ty) (own : declared.ValidIn world) :
    ∀ value : Option Expr, world.Allows (Expr.findingsOption value) →
      (checkInit ctx name position declared value).UpholdsNode world
        (fun value => world.Allows (Expr.findingsOption value)) (Ty.ValidIn world)
  | none, listed => by
    rw [checkInit]
    refine UpholdsNode.pure listed ?_
    split
    · exact own
    · exact True.intro
  | some e, listed => by
    rw [checkInit]
    exact .rebuild (agreeing_valid _ _ own (infer_valid ctx around e _ listed own))
      fun _ checked => checked

theorem checkFuncVar_valid (ctx : Context) (id : StmtId) (number : world.IsStmt id) :
    ∀ decl : VarDecl, world.AllowsVar decl →
      (checkFuncVar ctx id decl).UpholdsNode world world.AllowsVar fun _ => True
  | ⟨_, _, _, none, _⟩, listed => UpholdsNode.pure listed True.intro
  | ⟨name, position, spec, some ⟨valuePosition, form, type⟩, symbol⟩, listed => by
    cases form with
    | func func =>
      have init : ∀ found, some id = some found → world.IsStmt found :=
        fun found same => Option.some.inj same ▸ number
      rw [checkFuncVar]
      refine .bind (funcType_valid func) fun result own => ?_
      cases result with
      | error err => exact declareVar_valid ctx _ listed True.intro init
      | ok found =>
        obtain ⟨receiver, signature⟩ := found
        obtain ⟨receives, typed⟩ := own
        -- the function is declared in front of its body, which may call it
        refine .bind (declareVar_valid ctx _ listed typed init)
          fun (decl, result) ⟨declared, _⟩ => ?_
        cases result with
        | error err => exact UpholdsNode.pure declared True.intro
        | ok _ =>
          have inside : world.Allows func.findings := (World.allows_cons.mp listed.2).2
          refine .bind (checkBody_valid ctx func signature receiver inside typed receives)
            fun func checked => UpholdsNode.pure ⟨declared.1, ?_⟩ True.intro
          exact World.allows_cons.mpr ⟨typed, checked⟩
    | _ => exact UpholdsNode.pure listed True.intro

theorem checkHeader_valid (ctx : Context) (around : ctx.ValidIn world) (id : StmtId)
    (number : world.IsStmt id) : ∀ header : Option VarForm,
      world.Allows (VarForm.findingsOption header) →
        (checkHeader ctx id header).Upholds world
          fun header => world.Allows (VarForm.findingsOption header)
  | none, listed => .pure listed
  | some vars, listed => by
    rw [checkHeader]
    exact .bind (checkVars_valid ctx around id number vars listed).recorded fun vars checked =>
      .pure checked

theorem checkCondition_valid (ctx : Context) (around : ctx.ValidIn world) :
    ∀ condition : Option Expr, world.Allows (Expr.findingsOption condition) →
      (checkCondition ctx condition).Upholds world
        fun condition => world.Allows (Expr.findingsOption condition)
  | none, listed => .pure listed
  | some e, listed => by
    rw [checkCondition]
    have own : Ty.ValidIn world .bool := True.intro
    exact .bind (expecting_valid own (infer_valid ctx around e _ listed own)).recorded
      fun e checked => .pure checked

theorem checkStep_valid (ctx : Context) (around : ctx.ValidIn world) : ∀ step : Option Stmt,
    world.Allows (Stmt.findingsOption step) →
      (checkStep ctx step).Upholds world fun step => world.Allows (Stmt.findingsOption step)
  | none, listed => .pure listed
  | some s, listed => by
    rw [checkStep]
    exact .bind (checkStmt_valid ctx around s listed).recorded fun s checked => .pure checked

theorem checkBranches_valid (ctx : Context) (around : ctx.ValidIn world) (id : StmtId)
    (number : world.IsStmt id) : ∀ branches : List Branch,
      world.Allows (Branch.findingsList branches) →
        (checkBranches ctx id branches).Upholds world
          fun branches => world.Allows (Branch.findingsList branches)
  | [], listed => .pure listed
  | ⟨header, condition, body⟩ :: rest, listed => by
    have ⟨onHeader, behind⟩ := World.allows_append.mp listed
    have ⟨onCondition, behind⟩ := World.allows_append.mp behind
    have ⟨onBody, others⟩ := World.allows_append.mp behind
    rw [checkBranches]
    refine .bind (Q := fun branch => world.Allows (Branch.findingsList [branch]))
      (.withScope ?_) fun (branch : Branch) checked => ?_
    · refine .bind (checkHeader_valid ctx around id number header onHeader) fun header first => ?_
      refine .bind (checkCondition_valid ctx around condition onCondition)
        fun condition second => ?_
      refine .bind (.withScope (checkStatements_valid ctx around body onBody)) fun body third => ?_
      refine .pure (World.allows_append.mpr ⟨first, World.allows_append.mpr ⟨second, ?_⟩⟩)
      exact World.allows_append.mpr ⟨third, World.allows_nil⟩
    · refine .bind (checkBranches_valid ctx around id number rest others) fun rest behind => ?_
      exact .pure (World.allows_branches.mpr ⟨checked, behind⟩)

end

end PackageCheck.Typing
