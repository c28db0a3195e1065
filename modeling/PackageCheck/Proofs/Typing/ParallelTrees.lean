import PackageCheck.Proofs.Typing.ParallelRules

/-! # Trees in parallel

The same tree is checked by two runs. If the first one is quiet, looks up nothing but shared names outside
and declares no more symbols than there are pairs for, the second one is quiet as well, and nothing more
is left over of the tree that it comes to. -/

namespace PackageCheck.Typing

open Check

variable {w : Parallel}

/-! ## Surroundings -/

/-- Whether the names that a statement declares are shared, unless they are its own. -/
def Parallel.Sees (w : Parallel) (nested : Bool) (names : List String) : Prop :=
  nested = true ∨ ∀ name ∈ names, w.shared name

namespace Parallel.Around

variable {ctx ctx' : Context} (around : w.Around ctx ctx')

include around

theorem withLabels {labels labels' : NameMap SymbolId}
    (same : ∀ name, Option.Rel w.pairs (labels.find? name) (labels'.find? name)) :
    w.Around { ctx with labels := labels :: ctx.labels } { ctx' with labels := labels' :: ctx'.labels } :=
  ⟨around.frame, around.loops, .cons same around.labels⟩

theorem withLoop (own : StmtId) (label : Option String) :
    w.Around { ctx with loops := (own, label) :: ctx.loops }
      { ctx' with loops := (own, label) :: ctx'.loops } :=
  ⟨around.frame, congrArg ((own, label) :: ·) around.loops, around.labels⟩

omit around in
theorem ofBody (results : List Param) {signature signature' : Signature}
    (same : Signature.Matches w.pairs signature signature') :
    w.Around (ctx.ofBody results signature) (ctx'.ofBody results signature') := by
  obtain ⟨-, given⟩ := same
  exact ⟨.some ⟨given, rfl⟩, rfl, .nil⟩

end Parallel.Around

/-! ## Lists -/

/-- Whether an expression that waits for its type is checked in parallel with another one. -/
structure Waiting.Parallels (w : Parallel) (nested : Bool) (value value' : Waiting) : Prop where
  expr : Expr.NoWorse value.expr value'.expr
  infer : ∀ type type', Ty.Matches w.pairs type type' →
    (value.infer type).ParallelsNode w nested (value'.infer type') Expr.NoWorse (Ty.Matches w.pairs)

/-- Whether nothing more is left over of two lists of expressions. -/
def PairNoMoreLeft (both both' : List Expr × List Expr) : Prop :=
  NoMoreLeft Expr.walkList both.1 both'.1 ∧ NoMoreLeft Expr.walkList both.2 both'.2

/-- The walk of the parts of a branch. -/
def walkBranch (branch : Branch) : List Event :=
  VarForm.walkOption branch.header ++ Expr.walkOption branch.condition ++ branch.body.walk

theorem Waiting.Parallels.exprs {nested : Bool} {values values' : List Waiting}
    (parallel : List.Forall₂ (Waiting.Parallels w nested) values values') :
    NoMoreLeft Expr.walkList (values.map (·.expr)) (values'.map (·.expr)) := by
  induction parallel with
  | nil => exact .refl []
  | cons first _ hypothesis => exact .append first.expr.walk hypothesis

/-- Names of fields are passed over on both sides or on none. -/
theorem noMoreLeft_walkKey (valueKeys : Bool) {key key' : Option Expr}
    (same : Option.Rel Expr.NoWorse key key') :
    NoMoreLeft (Expr.walkKey valueKeys) key key' := by
  cases same with
  | none => exact .refl []
  | @some key key' same =>
    have named : key'.ident?.isNone = key.ident?.isNone := by
      have same := congrArg Option.isNone same.alike.ident?
      rwa [Option.isNone_map, Option.isNone_map] at same
    rw [NoMoreLeft, Expr.walkKey, Expr.walkKey, named]
    split
    · exact same.walk
    · exact .refl []

/-- A callee that is a name and no type must be found. -/
theorem callee_found {ctx : Context} {position : Position} {callee : Expr} {args : List Expr}
    {hint type : Ty} {s t : State} {form : ExprForm}
    (quiet : (inferForm ctx position (.call callee args) hint).Passes s form type t) {ident : Ident}
    (named : callee.form = .ident ident) : (s.scopes.find? ident.name).isSome := by
  obtain ⟨place, _, old⟩ := callee
  obtain rfl : _ = ExprForm.ident ident := named
  rw [inferForm] at quiet
  obtain ⟨found, s₁, converted, rest⟩ := quiet.given_inv
  rcases converted.conversion?_inv with ⟨spec, _, absurdity, -⟩ | ⟨_, id, same, held, -⟩ | ⟨rfl, rfl⟩
  · cases absurdity
  · cases same
    rw [held]
    rfl
  · -- it is inferred, so it stands for a variable
    obtain ⟨⟨_, _⟩, called, -⟩ := rest.rebuild_inv
    obtain ⟨_, _, concluded, -⟩ := called.andThen_inv
    obtain ⟨_, _, inferred, -⟩ := concluded.conclude_inv
    rw [infer, inferForm] at inferred
    obtain ⟨⟨bound, result⟩, s₂, within, last⟩ := inferred.bind_inv
    cases result with
    | error err => cases (last.pure_inv).1
    | ok found =>
      obtain ⟨_, within, -⟩ := within.rebuild_inv
      obtain ⟨id, v, held, -⟩ := within.inferIdent_inv
      rw [held]
      rfl

/-! ## Trees -/

mutual

theorem infer_parallels {nested : Bool} {ctx ctx' : Context} (around : w.Around ctx ctx') :
    ∀ (e : Expr) {hint hint' : Ty}, Ty.Matches w.pairs hint hint' →
      (infer ctx e hint).ParallelsNode w nested (infer ctx' e hint') Expr.NoWorse (Ty.Matches w.pairs)
  | ⟨position, form, type⟩, hint, hint', wanted => by
    rw [infer, infer]
    refine (inferForm_parallels around position form wanted).bind
      (fun _ _ _ _ _ _ passes => nomatch passes.pure_inv.1) fun _ _ _ _ same typed => ?_
    exact .pure (.mk_form same fun known => typed.known.trans known) typed
termination_by structural e => e

theorem inferForm_parallels {nested : Bool} {ctx ctx' : Context} (around : w.Around ctx ctx')
    (position : Position) : ∀ (form : ExprForm) {hint hint' : Ty}, Ty.Matches w.pairs hint hint' →
      (inferForm ctx position form hint).ParallelsNode w nested (inferForm ctx' position form hint')
        (ExprForm.NoWorse position) (Ty.Matches w.pairs)
  | .literal ⟨kind, _⟩, _, _, _ => by
    refine .pure ⟨rfl, .refl _⟩ ?_
    cases kind <;> exact .simple _
  | .blank, _, _, _ => .pure ⟨rfl, .refl _⟩ .unknown
  | .compound spec shape elements, hint, hint', wanted => by
    rw [inferForm, inferForm]
    refine .given (.compoundType wanted spec) fun type type' typed => ?_
    split
    · exact .pure ⟨rfl, .refl _⟩ typed
    · refine .given (.layoutOf typed elements) fun layout layout' laidOut => ?_
      rw [laidOut.shape]
      exact ((checkElements_parallels around (TypeSpec.hasValueKeys spec) elements laidOut).mapResult
        fun _ _ _ => typed).rebuild fun _ _ inside => ⟨rfl, .append (.refl _) inside⟩
  | .binary op left right, _, _, _ => by
    rw [inferForm, inferForm]
    split
    · refine .rebuild (.mapResult (.andThen (M := Expr.NoWorse) (.expecting (.simple .bool)
        (infer_parallels around left (.simple .bool))) fun _ _ _ => .expecting (.simple .bool)
          (infer_parallels around right (.simple .bool))) fun _ _ _ => .simple .bool) fun _ _ same => ?_
      exact ⟨rfl, .append same.1.walk same.2.walk⟩
    · refine .rebuild (.conclude (.andThen (M := Expr.NoWorse) (infer_parallels around left .unknown)
        fun _ _ typed => .expecting typed (infer_parallels around right typed)) fun _ _ typed =>
          .binaryType typed op) fun _ _ same => ?_
      exact ⟨rfl, .append same.1.walk same.2.walk⟩
  | .unary op operand, hint, hint', wanted => by
    have built : ∀ e e' : Expr, Expr.NoWorse e e' →
        ExprForm.NoWorse position (.unary op e) (.unary op e') := fun _ _ same => ⟨rfl, same.walk⟩
    cases op with
    | plus =>
      exact ((infer_parallels around operand wanted).conclude fun _ _ typed =>
        .signType typed _).rebuild built
    | minus =>
      exact ((infer_parallels around operand wanted).conclude fun _ _ typed =>
        .signType typed _).rebuild built
    | not =>
      exact ((infer_parallels around operand (.simple .bool)).expecting (.simple .bool)).rebuild built
    | addressOf =>
      have pointee : Ty.Matches w.pairs (pointeeHint hint) (pointeeHint hint') := by
        cases wanted with
        | pointer inside => exact inside
        | _ => exact .unknown
      exact ((infer_parallels around operand pointee).mapResult fun _ _ typed =>
        .pointer typed).rebuild built
    | deref =>
      exact ((infer_parallels around operand .unknown).conclude fun _ _ typed =>
        .derefType typed).rebuild built
  | .index left index, _, _, _ => by
    rw [inferForm, inferForm]
    refine .rebuild (.andThen (M := Expr.NoWorse) ((infer_parallels around left .unknown).conclude
      fun _ _ typed => .indexTypes typed) fun types types' typed => ?_) fun _ _ same =>
        ⟨rfl, .append same.1.walk same.2.walk⟩
    exact ((infer_parallels around index typed.1).expecting typed.1).mapResult fun _ _ _ => typed.2
  | .selector left field, _, _, _ => by
    rw [inferForm, inferForm]
    exact ((infer_parallels around left .unknown).conclude fun _ _ typed =>
      .selectorType typed field).rebuild fun _ _ same => ⟨rfl, same.walk⟩
  | .call callee args, hint, _, _ => by
    intro s s' states form type t quiet covers
    have defined : ∀ ident, callee.form = .ident ident → (s.scopes.find? ident.name).isSome :=
      fun _ => callee_found quiet
    rw [inferForm] at quiet ⊢
    obtain ⟨found, s₁, converted, rest⟩ := quiet.given_inv
    obtain ⟨found', s₁', converted', states, same⟩ :=
      conversion?_parallels states converted (covers.of_grows rest.grows) defined
    suffices behind : ParallelsNode w nested _ _ _ _ by
      obtain ⟨form', type', t', rest', after⟩ := behind s₁ s₁' states form type t rest covers
      exact ⟨form', type', t', Quiet.given converted' rest', after⟩
    cases same with
    | @some target target' same =>
      obtain ⟨callee, target⟩ := target
      obtain ⟨callee', target'⟩ := target'
      obtain ⟨same, typed⟩ := same
      dsimp only
      cases args with
      | nil => exact .fail
      | cons arg args =>
        cases args with
        | cons _ _ => exact .fail
        | nil =>
          exact ((infer_parallels around arg typed).mapResult fun _ _ _ => typed).rebuild
            fun _ _ arg => ⟨rfl, .append same.walk (.append arg.walk (.refl _))⟩
    | none =>
      refine ParallelsNode.rebuild (((infer_parallels around callee .unknown).conclude fun _ _ typed =>
        .callSignature typed args.length).andThen (M := NoMoreLeft Expr.walkList) fun _ _ signed => ?_)
          fun _ _ same => ⟨rfl, .append same.1.walk same.2⟩
      obtain ⟨taken, given⟩ := signed
      exact (expectAll_parallels around args taken).mapResult fun _ _ _ =>
        (Signature.Matches.mk taken given).resultType
  | .func func, _, _, _ => by
    rw [inferForm, inferForm]
    refine .given (.funcType func) ?_
    rintro ⟨receiver, signature⟩ ⟨receiver', signature'⟩ ⟨received, signed⟩
    exact .after (checkBody_parallels func signed received) fun _ _ same =>
      .pure ⟨rfl, Func.noMoreLeft_walk same⟩ (.func signed)
  | .ident ident, _, _, _ => by
    rw [inferForm, inferForm]
    exact (inferIdent_parallels ident).rebuild fun _ _ same => .ident same.1 same.2
  | .type spec, _, _, _ => .fail
termination_by structural form => form

theorem expectAll_parallels {nested : Bool} {ctx ctx' : Context} (around : w.Around ctx ctx') :
    ∀ (es : List Expr) {types types' : List Ty}, List.Forall₂ (Ty.Matches w.pairs) types types' →
      (expectAll ctx es types).ParallelsNode w nested (expectAll ctx' es types')
        (NoMoreLeft Expr.walkList) fun _ _ => True
  | [], _, _, _ => .pure (.refl _) True.intro
  | e :: es, _, _, .nil => .pure (.refl _) True.intro
  | e :: es, _, _, .cons first others => by
    rw [expectAll, expectAll]
    exact (((infer_parallels around e first).expecting first).andThen fun _ _ _ =>
      expectAll_parallels around es others).rebuild fun _ _ same => .append same.1.walk same.2
termination_by structural es => es

theorem waitingAll_parallels {nested : Bool} {ctx ctx' : Context} (around : w.Around ctx ctx') :
    ∀ es : List Expr, List.Forall₂ (Waiting.Parallels w nested) (waitingAll ctx es) (waitingAll ctx' es)
  | [] => by
    rw [waitingAll, waitingAll]
    exact .nil
  | e :: es => by
    rw [waitingAll, waitingAll]
    exact .cons ⟨.refl e, fun _ _ => infer_parallels around e⟩ (waitingAll_parallels around es)
termination_by structural es => es

theorem assignAll_parallels {nested : Bool} {ctx ctx' : Context} (around : w.Around ctx ctx') :
    ∀ (targets : List Expr) {values values' : List Waiting},
      List.Forall₂ (Waiting.Parallels w nested) values values' →
        (assignAll ctx targets values).ParallelsNode w nested (assignAll ctx' targets values')
          PairNoMoreLeft fun _ _ => True
  | [], _, _, values => by
    cases values with
    | nil => exact .pure ⟨.refl _, .refl _⟩ True.intro
    | cons value values =>
      exact .pure ⟨.refl _, Waiting.Parallels.exprs (.cons value values)⟩ True.intro
  | target :: targets, _, _, .nil => .pure ⟨.refl _, .refl _⟩ True.intro
  | target :: targets, _, _, .cons value values => by
    rw [assignAll, assignAll]
    refine ParallelsNode.rebuild (((infer_parallels around target .unknown).andThen fun _ _ typed =>
      (value.infer _ _ typed).expecting typed).andThen fun _ _ _ =>
        assignAll_parallels around targets values) ?_
    rintro ⟨⟨_, _⟩, _, _⟩ ⟨⟨_, _⟩, _, _⟩ ⟨⟨target, value⟩, targets, values⟩
    exact ⟨.append target.walk targets, .append value.walk values⟩
termination_by structural targets => targets

theorem checkKey_parallels {nested : Bool} {ctx ctx' : Context} (around : w.Around ctx ctx')
    {layout layout' : Layout} (same : Layout.Matches w layout layout') : ∀ key : Option Expr,
      (checkKey ctx layout key).ParallelsNode w nested (checkKey ctx' layout' key)
        (Option.Rel Expr.NoWorse) fun _ _ => True
  | none => .pure .none True.intro
  | some key => by
    have asked := same.keyType?
    rw [checkKey, checkKey]
    generalize layout.keyType? = type, layout'.keyType? = type' at asked ⊢
    cases asked with
    | none => exact .pure (.some (same.typeKey key)) True.intro
    | some typed =>
      exact (((infer_parallels around key typed).expecting typed).mapResult
        fun _ _ _ => True.intro).rebuild fun _ _ same => .some same
termination_by structural key => key

theorem checkElements_parallels {nested : Bool} {ctx ctx' : Context} (around : w.Around ctx ctx')
    (valueKeys : Bool) : ∀ (elements : List Element) {layout layout' : Layout},
      Layout.Matches w layout layout' → (checkElements ctx elements layout).ParallelsNode w nested
        (checkElements ctx' elements layout') (NoMoreLeft (Element.walkList valueKeys)) fun _ _ => True
  | [], _, _, _ => .pure (.refl _) True.intro
  | ⟨key, value⟩ :: rest, layout, layout', same => by
    rw [checkElements, checkElements]
    refine (checkKey_parallels around same key).bind (fun _ _ _ _ _ _ passes => ?_)
      fun found found' _ _ keys _ => ?_
    · obtain ⟨_, passes, -⟩ := passes.rebuild_inv
      obtain ⟨_, _, laidOut, -⟩ := passes.given_inv
      cases laidOut.ofExcept_inv.1
    · have alike : Option.Rel (Expr.Alike false) found found' := by
        cases keys with
        | none => exact .none
        | some key => exact .some key.alike
      refine ParallelsNode.rebuild (N := fun both both' => Expr.NoWorse both.1 both'.1 ∧
        NoMoreLeft (Element.walkList valueKeys) both.2 both'.2)
          (.given (.ofExcept fun _ laidOut => same.next alike laidOut) ?_) fun _ _ parts => ?_
      · rintro ⟨type, layout⟩ ⟨type', layout'⟩ ⟨typed, behind⟩
        exact ((infer_parallels around value typed).expecting typed).andThen fun _ _ _ =>
          checkElements_parallels around valueKeys rest behind
      · exact .append (.append (noMoreLeft_walkKey valueKeys keys) parts.1.walk) parts.2
termination_by structural elements => elements

theorem checkBody_parallels {nested : Bool} {ctx ctx' : Context} : ∀ (func : Func)
    {signature signature' : Signature}, Signature.Matches w.pairs signature signature' →
      ∀ {receiver receiver' : Option Ty}, Option.Rel (Ty.Matches w.pairs) receiver receiver' →
        (checkBody ctx func signature receiver).Parallels w nested
          (checkBody ctx' func signature' receiver')
            (NoMoreLeft fun func => Stmt.walkList func.body.statements)
  | ⟨name, receiver, params, results, body⟩, signature, signature', signed, _, _, received => by
    have around : w.Around (ctx.ofBody results signature) (ctx'.ofBody results signature') :=
      .ofBody results signed
    obtain ⟨taken, given⟩ := signed
    rw [checkBody, checkBody]
    refine .withScope (.bind (declareReceiver_parallels receiver received) fun _ _ _ => ?_)
    refine .bind (declareParams_parallels params taken) fun _ _ _ => ?_
    refine .bind (declareParams_parallels results given) fun _ _ _ => ?_
    exact .bind (checkStatements_parallels around body) fun _ _ same => .pure same
termination_by structural func => func

theorem checkMethods_parallels {nested : Bool} {ctx ctx' : Context} {this this' : Ty}
    (same : Ty.Matches w.pairs this this') : ∀ (methods : List Func)
      {signatures signatures' : List Signature},
        List.Forall₂ (Signature.Matches w.pairs) signatures signatures' →
          (checkMethods ctx this methods signatures).ParallelsNode w nested
            (checkMethods ctx' this' methods signatures') (NoMoreLeft Func.walkList) fun _ _ => True
  | [], _, _, _ => .pure (.refl _) True.intro
  | method :: methods, _, _, .nil => .pure (.refl _) True.intro
  | method :: methods, _, _, .cons first others => by
    rw [checkMethods, checkMethods]
    refine .given (.receiverType method.receiver) fun receiver receiver' received => ?_
    have typed : Option.Rel (Ty.Matches w.pairs)
        (receiver.map fun type => if type.isUnknown then .pointer this else type)
          (receiver'.map fun type => if type.isUnknown then .pointer this' else type) := by
      cases received with
      | none => exact .none
      | some received =>
        refine .some ?_
        dsimp only
        rw [received.isUnknown]
        split
        · exact .pointer same
        · exact received
    refine .after (checkBody_parallels method first typed) fun _ _ body => ?_
    exact (checkMethods_parallels same methods others).bind
      (fun _ _ _ _ _ _ passes => nomatch passes.pure_inv.1) fun _ _ _ _ behind _ =>
        .pure (.append (Func.noMoreLeft_walk body) behind) True.intro
termination_by structural methods => methods

theorem checkStatements_parallels {ctx ctx' : Context} (around : w.Around ctx ctx') :
    ∀ block : Block, (checkStatements ctx block).Parallels w true (checkStatements ctx' block)
      (NoMoreLeft fun block => Stmt.walkList block.statements)
  | ⟨statements, _⟩ => by
    rw [checkStatements, checkStatements]
    refine .bind (declareLabels_parallels statements fun _ => .none) ?_
    rintro ⟨labels, annotated⟩ ⟨labels', annotated'⟩ ⟨same, length⟩
    exact .bind (checkEach_parallels (around.withLabels same) statements length) fun _ _ same =>
      .pure same
termination_by structural block => block

theorem checkEach_parallels {ctx ctx' : Context} (around : w.Around ctx ctx') :
    ∀ (statements : List Stmt) {labels labels' : List (Option StmtLabel)},
      labels'.length = labels.length → (checkEach ctx statements labels).Parallels w true
        (checkEach ctx' statements labels') (NoMoreLeft Stmt.walkList)
  | [], _, _, _ => .pure (.refl _)
  | s :: rest, [], [], _ => .pure (.refl _)
  | s :: rest, [], _ :: _, length => nomatch length
  | s :: rest, _ :: _, [], length => nomatch length
  | s :: rest, label :: labels, label' :: labels', length => by
    rw [checkEach, checkEach]
    refine .bind (checkStmt_parallels around s (Or.inl rfl)).recorded fun _ _ first => ?_
    refine .bind (checkEach_parallels around rest (Nat.succ.inj length)) fun _ _ others => .pure ?_
    exact .append (Stmt.noMoreLeft_walk first) others
termination_by structural statements => statements

theorem checkStmt_parallels {nested : Bool} {ctx ctx' : Context} (around : w.Around ctx ctx') :
    ∀ s : Stmt, w.Sees nested s.declaredNames →
      (checkStmt ctx s).ParallelsNode w nested (checkStmt ctx' s) (NoMoreLeft (·.form.walk))
        fun _ _ => True
  | ⟨own, position, label, form⟩, sees => by
    rw [checkStmt, checkStmt]
    have inside := checkForm_parallels around own position (label.map (·.name)) form sees
    exact ParallelsNode.rebuild (M := NoMoreLeft fun s : Stmt => s.form.walk) inside
      fun _ _ same => same
termination_by structural s => s

theorem checkForm_parallels {nested : Bool} {ctx ctx' : Context} (around : w.Around ctx ctx')
    (own : StmtId) (position : Position) (label : Option String) : ∀ form : StmtForm,
      w.Sees nested (Stmt.declaredNames ⟨own, position, none, form⟩) →
        (checkForm ctx own position label form).ParallelsNode w nested
          (checkForm ctx' own position label form) (NoMoreLeft StmtForm.walk) fun _ _ => True
  | .assign lhs rhs op, _ => by
    rw [checkForm, checkForm]
    cases lhs.find? (!·.isAssignable) with
    | some e => exact .fail
    | none =>
    cases op.binary? with
    | some binary =>
      -- only one target with one value is checked, all other numbers of them are an error
      match lhs, rhs with
      | [target], [value] =>
        refine .rebuild (.conclude (.andThen (M := Expr.NoWorse) (infer_parallels around target .unknown)
          fun _ _ typed => .expecting typed (infer_parallels around value typed)) fun _ _ typed =>
            .checkOperand typed _ _ _) fun _ _ same => ?_
        exact .append (.append same.2.walk (.refl _)) (.append same.1.walk (.refl _))
      | [], rhs => exact .fail
      | target :: second :: lhs, rhs => exact .fail
      | [target], [] => exact .fail
      | [target], value :: second :: rhs => exact .fail
    | none =>
    dsimp only
    by_cases pairs : lhs.length = rhs.length
    · rw [if_pos pairs, if_pos pairs]
      exact (assignAll_parallels around lhs (waitingAll_parallels around rhs)).rebuild
        fun _ _ same => .append same.2 same.1
    · rw [if_neg pairs, if_neg pairs]
      match rhs with
      | [value] =>
        refine .rebuild (.andThen (M := NoMoreLeft Expr.walkList) (infer_parallels around value .unknown)
          fun _ _ typed => ?_) fun _ _ same => .append (.append same.1.walk (.refl _)) same.2
        cases typed with
        | @tuple members members' inside =>
          dsimp only
          rw [← inside.length_eq]
          by_cases length : members.length = lhs.length
          · rw [if_pos length, if_pos length]
            exact expectAll_parallels around lhs inside
          · rw [if_neg length, if_neg length]
            exact .fail
        | _ => exact .fail
      | [] => exact .fail
      | value :: second :: rhs => exact .fail
  | .struct ⟨name, fields, methods, symbol⟩, sees => by
    rw [checkForm, checkForm]
    refine ParallelsNode.rebuild (declareType_parallels (sees.imp_right fun shared =>
      shared name List.mem_cons_self) (.structTarget name fields methods)
        fun _ _ _ _ paired signed => checkMethods_parallels (.custom name paired) methods signed)
          fun _ _ same => ?_
    exact .pass rfl rfl (.append (.refl _) same)
  | .typeAlias decl, sees => by
    rw [checkForm, checkForm]
    exact (checkAlias_parallels decl (sees.imp_right fun shared =>
      shared decl.name List.mem_cons_self)).rebuild fun decl decl' _ =>
        .of_unread (StmtForm.unread_typeAlias decl) (StmtForm.unread_typeAlias decl')
  | .var vars, sees => by
    rw [checkForm, checkForm]
    exact (checkVars_parallels around own vars sees).rebuild fun _ _ same => same
  | .pass, _ => .pure (.refl _) True.intro
  | .cond branches, _ => by
    rw [checkForm, checkForm]
    exact .after (checkBranches_parallels around own branches) fun _ _ same => .pure same True.intro
  | .loop ⟨header, condition, step, body⟩, _ => by
    rw [checkForm, checkForm]
    refine .withScope (.after (checkHeader_parallels around own header) fun _ _ first => ?_)
    refine .after (checkCondition_parallels around condition) fun _ _ second => ?_
    refine .after (checkStep_parallels around step) fun _ _ third => ?_
    refine .after (.withScope (checkStatements_parallels (around.withLoop own label) body))
      fun _ _ fourth => .pure ?_ True.intro
    have parts := ((first.append second).append third).append (Block.noMoreLeft_walk fourth)
    exact .append (.pass rfl rfl parts) (.pass rfl rfl (.refl _))
  | .expr e, _ => by
    rw [checkForm, checkForm]
    exact ((infer_parallels around e .unknown).mapResult fun _ _ _ => True.intro).rebuild
      fun _ _ same => same.walk
  | .jump jump, _ => by
    rw [checkForm, checkForm]
    have resolved : ∀ a, (resolveJump ctx jump position).2 = .ok a →
        (resolveJump ctx' jump position).2 = .ok () := resolveJump_parallels around
    generalize resolveJump ctx jump position = found, resolveJump ctx' jump position = found'
      at resolved ⊢
    obtain ⟨jump, result⟩ := found
    obtain ⟨jump', result'⟩ := found'
    cases result with
    | error err => exact .fail
    | ok a =>
      obtain rfl : result' = .ok () := resolved a rfl
      exact .pure (.refl []) True.intro
  | .ret values, _ => by
    rw [checkForm, checkForm]
    exact (ParallelsNode.given (.ofExcept fun _ => returnTypes_parallels around) fun _ _ typed =>
      expectAll_parallels around values typed).rebuild fun _ _ same => same
termination_by structural form => form

theorem checkVars_parallels {nested : Bool} {ctx ctx' : Context} (around : w.Around ctx ctx')
    (own : StmtId) : ∀ vars : VarForm, w.Sees nested (vars.vars.map (·.name)) →
      (checkVars ctx own vars).ParallelsNode w nested (checkVars ctx' own vars)
        (NoMoreLeft VarForm.walk) fun _ _ => True
  | ⟨vars, isFunc⟩, sees => by
    rw [checkVars, checkVars]
    refine .after .state fun _ _ _ => ?_
    refine (checkVarList_parallels around own isFunc vars sees).bind
      (fun _ _ _ _ _ _ passes => ?_) fun vars vars' _ _ same _ => ?_
    · obtain ⟨_, _, noted, -⟩ := passes.bind_inv
      cases noted.noteForm_inv.1.choose_spec
    · exact .after (.noteForm ()) fun _ _ _ => .pure (VarForm.noMoreLeft_walk same) True.intro
termination_by structural vars => vars

theorem checkVarList_parallels {nested : Bool} {ctx ctx' : Context} (around : w.Around ctx ctx')
    (own : StmtId) (isFunc : Bool) : ∀ vars : List VarDecl, w.Sees nested (vars.map (·.name)) →
      (checkVarList ctx own isFunc vars).ParallelsNode w nested (checkVarList ctx' own isFunc vars)
        (NoMoreLeft VarDecl.walkList) fun _ _ => True
  | [], _ => .pure (.refl _) True.intro
  | decl :: rest, sees => by
    have here : nested = true ∨ w.shared decl.name :=
      sees.imp_right fun shared => shared decl.name List.mem_cons_self
    have behind : w.Sees nested (rest.map (·.name)) :=
      sees.imp_right fun shared name member => shared name (List.mem_cons_of_mem _ member)
    rw [checkVarList, checkVarList]
    refine .rebuild (.alongside (.noted (N := VarDecl.NoWorse) (V := fun _ _ => True) ?_)
      (checkVarList_parallels around own isFunc rest behind)) ?_
    · cases isFunc with
      | true => exact checkFuncVar_parallels own decl here
      | false => exact checkPlainVar_parallels around own decl here
    · rintro ⟨⟨_, _, spec, value, _⟩, rest⟩ ⟨⟨_, _, spec', value', _⟩, rest'⟩ ⟨first, others⟩
      have specs : LeavesNoMore (TypeSpec.walkOption spec) (TypeSpec.walkOption spec') :=
        .of_unread (TypeSpec.unread_walkOption spec) (TypeSpec.unread_walkOption spec')
      exact .append (.append specs first.2) others
termination_by structural vars => vars

theorem checkPlainVar_parallels {nested : Bool} {ctx ctx' : Context} (around : w.Around ctx ctx')
    (own : StmtId) : ∀ decl : VarDecl, nested = true ∨ w.shared decl.name →
      (checkPlainVar ctx own decl).ParallelsNode w nested (checkPlainVar ctx' own decl)
        VarDecl.NoWorse fun _ _ => True
  | ⟨name, position, spec, value, symbol⟩, seen => by
    rw [checkPlainVar, checkPlainVar]
    refine .attempted (.resolveOr .unknown spec) (fun _ _ _ _ _ passes =>
      nomatch passes.declareVar_inv.1) fun declared declared' same => ?_
    exact (checkInit_parallels around name position same value).bind (fun _ _ _ _ _ _ passes =>
      nomatch passes.declareVar_inv.1) fun _ _ _ _ left typed =>
        declareVar_parallels ⟨rfl, left⟩ typed seen
termination_by structural decl => decl

theorem checkInit_parallels {nested : Bool} {ctx ctx' : Context} (around : w.Around ctx ctx')
    (name : String) (position : Position) {declared declared' : Ty}
    (same : Ty.Matches w.pairs declared declared') : ∀ value : Option Expr,
      (checkInit ctx name position declared value).ParallelsNode w nested
        (checkInit ctx' name position declared' value) (NoMoreLeft Expr.walkOption)
          (Ty.Matches w.pairs)
  | none => by
    rw [checkInit, checkInit, same.known]
    split
    · exact .pure (.refl _) same
    · exact .fail
  | some e => by
    rw [checkInit, checkInit]
    exact ((infer_parallels around e same).agreeing same).rebuild fun _ _ same => same.walk
termination_by structural value => value

theorem checkFuncVar_parallels {nested : Bool} {ctx ctx' : Context} (own : StmtId) :
    ∀ decl : VarDecl, nested = true ∨ w.shared decl.name →
      (checkFuncVar ctx own decl).ParallelsNode w nested (checkFuncVar ctx' own decl)
        VarDecl.NoWorse fun _ _ => True
  | ⟨_, _, _, none, _⟩, _ => .fail
  | ⟨name, position, spec, some ⟨valuePosition, form, type⟩, symbol⟩, seen => by
    cases form with
    | func func =>
      rw [checkFuncVar, checkFuncVar]
      refine .attempted (.funcType func) (fun _ _ _ _ _ passes =>
        nomatch passes.declareVar_inv.1) ?_
      rintro ⟨receiver, signature⟩ ⟨receiver', signature'⟩ ⟨received, signed⟩
      refine (declareVar_parallels ⟨rfl, .refl _⟩ (.func signed) seen).bind
        (fun _ _ _ _ _ _ passes => nomatch passes.pure_inv.1) fun decl decl' _ _ same _ => ?_
      refine .after (checkBody_parallels func signed received) fun func func' body =>
        .pure ⟨same.1, ?_⟩ True.intro
      have inside : ExprForm.NoWorse valuePosition (.func func) (.func func') :=
        ⟨rfl, Func.noMoreLeft_walk body⟩
      exact (Expr.NoWorse.mk_form inside fun known => (Ty.Matches.func signed).known.trans known).walk
    | _ => exact .fail
termination_by structural decl => decl

theorem checkHeader_parallels {ctx ctx' : Context} (around : w.Around ctx ctx') (own : StmtId) :
    ∀ header : Option VarForm, (checkHeader ctx own header).Parallels w true
      (checkHeader ctx' own header) (NoMoreLeft VarForm.walkOption)
  | none => .pure (.refl _)
  | some vars => by
    rw [checkHeader, checkHeader]
    exact .bind (checkVars_parallels around own vars (Or.inl rfl)).recorded fun _ _ same => .pure same
termination_by structural header => header

theorem checkCondition_parallels {ctx ctx' : Context} (around : w.Around ctx ctx') :
    ∀ condition : Option Expr, (checkCondition ctx condition).Parallels w true
      (checkCondition ctx' condition) (NoMoreLeft Expr.walkOption)
  | none => .pure (.refl _)
  | some e => by
    rw [checkCondition, checkCondition]
    exact .bind ((infer_parallels around e (.simple .bool)).expecting (.simple .bool)).recorded
      fun _ _ same => .pure same.walk
termination_by structural condition => condition

theorem checkStep_parallels {ctx ctx' : Context} (around : w.Around ctx ctx') :
    ∀ step : Option Stmt, (checkStep ctx step).Parallels w true (checkStep ctx' step)
      (NoMoreLeft Stmt.walkOption)
  | none => .pure (.refl _)
  | some s => by
    rw [checkStep, checkStep]
    exact .bind (checkStmt_parallels around s (Or.inl rfl)).recorded fun _ _ same =>
      .pure (Stmt.noMoreLeft_walk same)
termination_by structural step => step

theorem checkBranches_parallels {nested : Bool} {ctx ctx' : Context} (around : w.Around ctx ctx')
    (own : StmtId) : ∀ branches : List Branch, (checkBranches ctx own branches).Parallels w nested
      (checkBranches ctx' own branches) (NoMoreLeft Branch.walkList)
  | [] => .pure (.refl _)
  | ⟨header, condition, body⟩ :: rest => by
    rw [checkBranches, checkBranches]
    refine Parallels.bind (V := NoMoreLeft walkBranch) (.withScope ?_) ?_
    · refine .bind (checkHeader_parallels around own header) fun _ _ first => ?_
      refine .bind (checkCondition_parallels around condition) fun _ _ second => ?_
      refine .bind (.withScope (checkStatements_parallels around body)) fun _ _ third => .pure ?_
      exact (first.append second).append (Block.noMoreLeft_walk third)
    · rintro ⟨header, condition, body⟩ ⟨header', condition', body'⟩ first
      exact .bind (checkBranches_parallels around own rest) fun _ _ others => .pure
        (.append (.pass rfl rfl first) (.pass rfl rfl others))
termination_by structural branches => branches

end

end PackageCheck.Typing
