import PackageCheck.Proofs.Typing.Annotations
import PackageCheck.Proofs.Typing.Following

/-! # Rules under a renumbering

No rule reads the number of a statement to decide anything. So each one follows itself under a
renumbering, and what it makes of nodes that are the same but for the numbers is the same but for
the numbers. -/

namespace PackageCheck.Typing

open Check

variable {move : StmtId → StmtId} {ctx : Context}

namespace FollowsAttempt

/-! ## Types -/

theorem resolveName (name : String) (position : Position) :
    FollowsAttempt move (Typing.resolveName ctx name position)
      (Typing.resolveName (ctx.renumber move) name position) Eq := by
  refine reads fun s => ?_
  simp only [State.renumber, SymbolTable.findType?_renumber, SymbolTable.declaredType?_renumber]
  split
  · refine attempt (lift (.touch _ _)) fun _ => ?_
    split
    · exact succeed rfl
    · exact fail
  · exact branch fail fail

mutual

theorem resolve : ∀ spec : TypeSpec, FollowsAttempt move (Typing.resolve ctx spec)
    (Typing.resolve (ctx.renumber move) spec) Eq
  | .named name position => by
    rw [Typing.resolve, Typing.resolve]
    exact resolveName name position
  | .array size of => by
    rw [Typing.resolve, Typing.resolve]
    exact attempt (resolve of) fun _ => succeed rfl
  | .slice of => by
    rw [Typing.resolve, Typing.resolve]
    exact attempt (resolve of) fun _ => succeed rfl
  | .map key value => by
    rw [Typing.resolve, Typing.resolve]
    exact attempt (resolve key) fun _ => attempt (resolve value) fun _ => succeed rfl
  | .pointer pointee => by
    rw [Typing.resolve, Typing.resolve]
    exact attempt (resolve pointee) fun _ => succeed rfl
  | .tuple members => by
    rw [Typing.resolve, Typing.resolve]
    exact attempt (resolveList members) fun _ => succeed rfl
  | .func args results => by
    rw [Typing.resolve, Typing.resolve]
    exact attempt (resolveList args) fun _ => attempt (resolveList results) fun _ => succeed rfl
  | .blank => by
    rw [Typing.resolve, Typing.resolve]
    exact succeed rfl

theorem resolveList : ∀ specs : List TypeSpec, FollowsAttempt move (Typing.resolveList ctx specs)
    (Typing.resolveList (ctx.renumber move) specs) Eq
  | [] => by
    rw [Typing.resolveList, Typing.resolveList]
    exact succeed rfl
  | spec :: rest => by
    rw [Typing.resolveList, Typing.resolveList]
    exact attempt (resolve spec) fun _ => attempt (resolveList rest) fun _ => succeed rfl

end

section Types

theorem resolveOr (absent : Ty) (spec : Option TypeSpec) :
    FollowsAttempt move (Typing.resolveOr ctx absent spec)
      (Typing.resolveOr (ctx.renumber move) absent spec) Eq := by
  cases spec with
  | none => exact succeed rfl
  | some spec => exact resolve spec

theorem receiverType (receiver : Option Param) :
    FollowsAttempt move (Typing.receiverType ctx receiver)
      (Typing.receiverType (ctx.renumber move) receiver) Eq := by
  cases receiver with
  | none => exact succeed rfl
  | some receiver => exact attempt (resolve _) fun _ => succeed rfl

theorem signature (params results : List Param) :
    FollowsAttempt move (Typing.signature ctx params results)
      (Typing.signature (ctx.renumber move) params results) Eq :=
  attempt (resolveList _) fun _ => attempt (resolveList _) fun _ => succeed rfl

/-- The type of a function is written in front of its body. -/
theorem funcType {func func' : Func} (moved : Func.Moved move func func') :
    FollowsAttempt move (Typing.funcType ctx func) (Typing.funcType (ctx.renumber move) func')
      Eq := by
  cases moved
  exact attempt (receiverType _) fun _ => attempt (signature _ _) fun _ => succeed rfl

theorem fieldTypes (fields : List FieldDecl) : ∀ before : List FieldTy,
    FollowsAttempt move (Typing.fieldTypes ctx before fields)
      (Typing.fieldTypes (ctx.renumber move) before fields) Eq := by
  induction fields with
  | nil => exact fun before => succeed rfl
  | cons field rest hypothesis =>
    intro before
    rw [Typing.fieldTypes, Typing.fieldTypes]
    refine branch (attempt fail fun _ => ?_) ?_
    · exact attempt (resolve _) fun _ => hypothesis _
    · exact attempt (resolve _) fun _ => hypothesis _

theorem methodTypes {position : Position} {fields : List FieldTy} {methods methods' : List Func}
    (moved : List.Forall₂ (Func.Moved move) methods methods') : ∀ before : List MethodTy,
      FollowsAttempt move (Typing.methodTypes ctx position fields before methods)
        (Typing.methodTypes (ctx.renumber move) position fields before methods') Eq := by
  induction moved with
  | nil => exact fun before => succeed rfl
  | cons first _ hypothesis =>
    intro before
    cases first
    rw [Typing.methodTypes, Typing.methodTypes]
    refine branch (attempt fail fun _ => ?_) ?_
    · exact attempt (signature _ _) fun _ => hypothesis _
    · exact attempt (signature _ _) fun _ => hypothesis _

theorem structTarget {name : String} {position : Position} {fields : List FieldDecl}
    {methods methods' : List Func} (moved : List.Forall₂ (Func.Moved move) methods methods') :
    FollowsAttempt move (Typing.structTarget ctx name position fields methods)
      (Typing.structTarget (ctx.renumber move) name position fields methods') Eq :=
  attempt (fieldTypes _ _) fun _ => attempt (methodTypes moved _) fun _ => succeed rfl

theorem aliasTarget (name : String) (position : Position) (target : TypeSpec) :
    FollowsAttempt move (Typing.aliasTarget ctx name position target)
      (Typing.aliasTarget (ctx.renumber move) name position target) Eq := by
  refine attempt (resolve _) fun type => branch (attempt fail fun _ => ?_) ?_
  · exact succeed rfl
  · exact succeed rfl

theorem compoundType (spec : Option TypeSpec) (hint : Ty) (position : Position) :
    FollowsAttempt move (Typing.compoundType ctx spec hint position)
      (Typing.compoundType (ctx.renumber move) spec hint position) Eq :=
  attempt (resolveOr _ _) fun _ => branch (succeed rfl) fail

end Types

/-! ## Operands -/

section Operands

theorem underlying (type : Ty) (position : Position) :
    FollowsAttempt move (Typing.underlying ctx type position)
      (Typing.underlying (ctx.renumber move) type position) Eq := by
  refine reads fun s => ?_
  simp only [State.renumber, SymbolTable.underlying_renumber]
  split
  · exact succeed rfl
  · exact fail

theorem aliasRoot (id : SymbolId) (name : String) (position : Position) :
    FollowsAttempt move (Typing.aliasRoot ctx id name position)
      (Typing.aliasRoot (ctx.renumber move) id name position) Eq := by
  refine reads fun s => ?_
  simp only [State.renumber, SymbolTable.rootType_renumber]
  split
  · exact succeed rfl
  · exact fail

theorem checkOperand (op : String) (allowString : Bool) (type : Ty) (position : Position) :
    FollowsAttempt move (Typing.checkOperand ctx op allowString type position)
      (Typing.checkOperand (ctx.renumber move) op allowString type position) Eq :=
  attempt (underlying _ _) fun _ => branch fail (succeed rfl)

theorem binaryType (op : BinaryOp) (operand : Ty) (position : Position) :
    FollowsAttempt move (Typing.binaryType ctx op operand position)
      (Typing.binaryType (ctx.renumber move) op operand position) Eq :=
  branch (succeed rfl) (attempt (checkOperand _ _ _ _) fun _ => succeed rfl)

theorem signType (op : UnaryOp) (operand : Ty) (position : Position) :
    FollowsAttempt move (Typing.signType ctx op operand position)
      (Typing.signType (ctx.renumber move) op operand position) Eq :=
  attempt (checkOperand _ _ _ _) fun _ => succeed rfl

theorem derefType (operand : Ty) (position : Position) :
    FollowsAttempt move (Typing.derefType ctx operand position)
      (Typing.derefType (ctx.renumber move) operand position) Eq := by
  refine attempt (underlying _ _) fun root => ?_
  split
  · exact succeed rfl
  · exact fail

theorem indexTypes (left : Ty) (position : Position) :
    FollowsAttempt move (Typing.indexTypes ctx left position)
      (Typing.indexTypes (ctx.renumber move) left position) Eq := by
  refine attempt (underlying _ _) fun root => ?_
  split
  all_goals first | exact succeed rfl | exact fail

theorem memberBase (left : Ty) (position : Position) :
    FollowsAttempt move (Typing.memberBase ctx left position)
      (Typing.memberBase (ctx.renumber move) left position) Eq := by
  refine reads fun s => ?_
  simp only [State.renumber, SymbolTable.memberBase_renumber]
  split
  · exact succeed rfl
  · exact fail

theorem selectorType (left : Ty) (member : String) (position : Position) :
    FollowsAttempt move (Typing.selectorType ctx left member position)
      (Typing.selectorType (ctx.renumber move) left member position) Eq := by
  refine attempt (memberBase _ _) fun base => ?_
  split
  · exact succeed rfl
  · exact fail

theorem callSignature (callee : Ty) (count : Nat) (position : Position) :
    FollowsAttempt move (Typing.callSignature ctx callee count position)
      (Typing.callSignature (ctx.renumber move) callee count position) Eq := by
  refine attempt (underlying _ _) fun root => ?_
  split
  · exact branch (succeed rfl) fail
  · exact fail

/-- A callee that is a type or a name holds no statement. -/
theorem conversion? {callee callee' : Expr} (moved : Expr.Moved move callee callee') :
    FollowsAttempt move (Typing.conversion? ctx callee)
      (Typing.conversion? (ctx.renumber move) callee')
        (Option.Rel fun found found' => found'.2 = found.2 ∧ Expr.Moved move found.1 found'.1) := by
  obtain ⟨moved⟩ := moved
  cases moved with
  | type => exact attempt (resolve _) fun _ => succeed (.some ⟨rfl, .mk .type⟩)
  | ident =>
    refine reads fun s => ?_
    simp only [State.renumber, SymbolTable.declaredType?_renumber]
    split
    · exact succeed .none
    · refine attempt (lift (.touch _ _)) fun _ => ?_
      split
      · exact succeed .none
      · exact succeed (.some ⟨rfl, .mk .ident⟩)
  | _ => exact succeed .none

end Operands

/-! ## Composite literals -/

/-- A layout looks at the keys and counts the elements. -/
theorem layoutOf {type : Ty} {elements elements' : List Element} {position : Position}
    (moved : List.Forall₂ (Element.Moved move) elements elements') :
    FollowsAttempt move (Typing.layoutOf ctx type elements position)
      (Typing.layoutOf (ctx.renumber move) type elements' position) Eq := by
  have keyed : (elements'.filter (·.key.isSome)).length =
      (elements.filter (·.key.isSome)).length := by
    induction moved with
    | nil => rfl
    | cons first _ hypothesis =>
      obtain ⟨key, value⟩ := first
      cases key with
      | none => simpa using hypothesis
      | some key => simpa using hypothesis
  have same : ∀ struct, structLayout (ctx.renumber move) struct elements' position =
      structLayout ctx struct elements position := by
    intro struct
    simp only [structLayout, keyed, moved.length_eq]
    rfl
  refine attempt (underlying _ _) fun root => ?_
  split
  case h_4 struct =>
    simp only [same]
    exact ofExcept _
  all_goals first | exact succeed rfl | exact fail

end FollowsAttempt

/-- A layout asks no more of a key than its outline. -/
theorem Layout.next_renumber {layout : Layout} {key key' : Option Expr} {position : Position}
    (moved : Option.Rel (Expr.Moved move) key key') :
    layout.next (ctx.renumber move) key' position = layout.next ctx key position := by
  have alike : Option.Rel (Expr.Alike false) key key' := by
    cases moved with
    | none => exact .none
    | some moved => exact .some moved.alike
  exact (Layout.next_alike alike).trans rfl

theorem Layout.typeKey_moved (layout : Layout) {key key' : Expr}
    (moved : Expr.Moved move key key') : Expr.Moved move (layout.typeKey key) (layout.typeKey key') := by
  obtain ⟨moved⟩ := moved
  cases layout with
  | keyed fields =>
    cases moved with
    | @ident ident =>
      simp only [Layout.typeKey, Expr.ident?, Option.bind_some]
      split
      · exact .mk .ident
      · exact .mk .ident
    | _ => exact .mk (by constructor <;> assumption)
  | _ => exact .mk moved

/-! ## Names and jumps -/

theorem inferIdent_follows (ident : Ident) (position : Position) :
    (inferIdent ctx ident position).FollowsNode move (inferIdent (ctx.renumber move) ident position)
      Eq := by
  refine Follows.reads fun s => ?_
  simp only [State.renumber]
  split
  · exact .pure ⟨rfl, rfl⟩
  · refine .bind (.touch _ _) fun _ _ _ => .pure ⟨?_, rfl⟩
    rw [SymbolTable.get?_renumber]
    cases s.symbols.get? _ with
    | none => rfl
    | some symbol => cases symbol <;> rfl

theorem Context.loop?_renumber (label : Option String) :
    (ctx.renumber move).loop? label = (ctx.loop? label).map move := by
  cases label with
  | none => simp [Context.loop?, Context.renumber, Function.comp_def]
  | some name => simp [Context.loop?, Context.renumber, List.find?_map, Function.comp_def]

/-- A jump finds a loop wherever it finds one under other numbers. -/
theorem resolveJump_moved (kind : JumpKind) (label : Option String) (symbol : Option SymbolId)
    (target target' : Option StmtId) (position : Position) :
    (resolveJump (ctx.renumber move) ⟨kind, label, symbol, target'⟩ position).2 =
        (resolveJump ctx ⟨kind, label, symbol, target⟩ position).2 ∧
      StmtForm.Moved move (.jump (resolveJump ctx ⟨kind, label, symbol, target⟩ position).1)
        (.jump (resolveJump (ctx.renumber move) ⟨kind, label, symbol, target'⟩ position).1) := by
  have labels : label.bind (ctx.renumber move).label? = label.bind ctx.label? := rfl
  simp only [resolveJump, labels, Context.loop?_renumber]
  cases kind with
  | goto => cases label.bind ctx.label? <;> exact ⟨rfl, .jump⟩
  | _ => cases ctx.loop? label <;> exact ⟨rfl, .jump⟩

/-! ## Declarations -/

theorem FollowsAttempt.declare (symbol : Symbol) (position : Position)
    (result : Except Diagnostic Unit) :
    FollowsAttempt move (Typing.declare ctx symbol position result)
      (Typing.declare (ctx.renumber move) (symbol.renumber move) position result) Eq := by
  intro s
  have clashes : (s.renumber move).clash? (symbol.renumber move).name = s.clash? symbol.name := by
    rw [Symbol.name_renumber]
    rfl
  cases clash : s.clash? symbol.name with
  | some previous =>
    rw [run_declare_of_clash clash, run_declare_of_clash (clashes.trans clash),
      Symbol.name_renumber, State.redeclaration_renumber]
    exact ⟨rfl, .error⟩
  | none =>
    have next : (s.renumber move).symbols.nextId = s.symbols.nextId :=
      s.symbols.nextId_renumber move
    rw [run_declare_of_free clash, run_declare_of_free (clashes.trans clash), next,
      State.insertNamed_renumber, State.markIfFailed_renumber]
    exact ⟨rfl, .ok rfl⟩

/-- A definition that follows another one, and what is left to check behind it. -/
theorem declareType_follows {name : String} {position : Position} {node node' : ν}
    {define define' : Attempt (Ty × α)} {next next' : SymbolId → α → Check (Checked ν Unit)}
    {N : ν → ν → Prop} (definition : FollowsAttempt move define define' Eq)
    (untouched : N node node') (rest : ∀ id a, (next id a).FollowsNode move (next' id a) N) :
    (declareType ctx name position node define next).FollowsNode move
      (declareType (ctx.renumber move) name position node' define' next')
        fun x y => y.1 = x.1 ∧ N x.2 y.2 := by
  intro s
  have clashes : (s.renumber move).clash? name = s.clash? name := rfl
  cases clash : s.clash? name with
  | some previous =>
    rw [run_declareType_of_clash clash, run_declareType_of_clash (clashes.trans clash),
      State.redeclaration_renumber]
    exact ⟨rfl, rfl, rfl, untouched⟩
  | none =>
    have id : (s.renumber move).symbols.nextId = s.symbols.nextId := s.symbols.nextId_renumber move
    have declaring : (s.renumber move).declaring (ctx.renumber move) name position =
        (s.declaring ctx name position).renumber move :=
      s.insertNamed_renumber move (.type ⟨name, some .unknown, some (ctx.site position)⟩)
    -- the definition is looked at in the same state, so it comes to the same
    obtain ⟨same, results⟩ := definition (s.declaring ctx name position)
    rw [← declaring] at same results
    cases defined : (define.run.run (s.declaring ctx name position)).1 with
    | error err =>
      have defined' := results.same.trans defined
      rw [run_declareType_of_error clash defined,
        run_declareType_of_error (clashes.trans clash) defined', same, id,
        State.markIfFailed_renumber]
      exact ⟨rfl, rfl, rfl, untouched⟩
    | ok found =>
      obtain ⟨target, a⟩ := found
      have defined' := results.same.trans defined
      obtain ⟨behind, result, related⟩ := rest s.symbols.nextId a
        ((define.run.run (s.declaring ctx name position)).2.setAliased s.symbols.nextId target)
      rw [run_declareType_of_ok clash defined,
        run_declareType_of_ok (clashes.trans clash) defined', same, id, State.setAliased_renumber]
      refine ⟨?_, result, rfl, related⟩
      change State.markIfFailed _ _ _ = _
      rw [behind, result, State.markIfFailed_renumber]

theorem checkAlias_follows (decl : AliasDecl) (position : Position) :
    (checkAlias ctx decl position).FollowsNode move (checkAlias (ctx.renumber move) decl position)
      Eq := by
  refine FollowsNode.rebuild (declareType_follows (N := Eq) (.aliasTarget _ _ _) rfl
    fun id _ => ?_) ?_
  · refine Follows.bind (FollowsAttempt.aliasRoot id decl.name position) fun _ _ results => ?_
    exact Follows.pure ⟨results.same, rfl⟩
  · rintro ⟨id, node⟩ ⟨id', node'⟩ ⟨same, -⟩
    obtain rfl : id' = id := same
    rfl

theorem declareParam_follows (param : Param) (type : Ty) :
    (declareParam ctx param type).FollowsNode move (declareParam (ctx.renumber move) param type)
      Eq := by
  unfold declareParam
  split
  · exact .pure rfl
  · refine .given (.declare _ _ _) rfl ?_
    rintro id _ rfl
    exact .pure rfl

theorem declareParams_follows (params : List Param) : ∀ types : List Ty,
    (declareParams ctx params types).Follows move (declareParams (ctx.renumber move) params types)
      Eq := by
  induction params with
  | nil => exact fun types => .pure rfl
  | cons param params hypothesis =>
    intro types
    cases types with
    | nil => exact .pure rfl
    | cons type types =>
      refine .bind (declareParam_follows param type).recorded ?_
      rintro param _ rfl
      refine .bind (hypothesis types) ?_
      rintro params _ rfl
      exact .pure rfl

theorem declareReceiver_follows (receiver : Option Param) (type : Option Ty) :
    (declareReceiver ctx receiver type).Follows move
      (declareReceiver (ctx.renumber move) receiver type) Eq := by
  cases receiver with
  | none => exact .pure rfl
  | some param =>
    cases type with
    | none => exact .pure rfl
    | some type =>
      refine .bind (declareParam_follows param type).recorded ?_
      rintro param _ rfl
      exact .pure rfl

/-- The number of the statement with the initial value goes into the symbol. -/
theorem declareVar_follows {decl decl' : VarDecl} (moved : VarDecl.Moved move decl decl')
    (type : Ty) (init : Option StmtId) (result : Except Diagnostic Unit) :
    (declareVar ctx decl type init result).FollowsNode move
      (declareVar (ctx.renumber move) decl' type (init.map move) result) (VarDecl.Moved move) := by
  obtain ⟨value⟩ := moved
  refine .given (.declare _ _ _) (.mk value) ?_
  rintro id _ rfl
  exact .pure (.mk value)

/-- The number of a loop goes into the symbol of its label. -/
theorem declareLabels_follows {statements statements' : List Stmt}
    (moved : List.Forall₂ (Stmt.Moved move) statements statements') : ∀ labels : NameMap SymbolId,
      (declareLabels ctx labels statements).Follows move
        (declareLabels (ctx.renumber move) labels statements') Eq := by
  induction moved with
  | nil => exact fun labels => .pure rfl
  | cons first _ hypothesis =>
    intro labels
    obtain ⟨moved⟩ := first
    rename_i form form' own position label
    rw [declareLabels, declareLabels]
    cases label with
    | none =>
      refine .bind (hypothesis labels) ?_
      rintro found _ rfl
      exact .pure rfl
    | some label =>
      have loops : Stmt.isLoop ⟨move own, position, some label, form'⟩ =
          Stmt.isLoop ⟨own, position, some label, form⟩ := by cases moved <;> rfl
      have inserted : (if Stmt.isLoop ⟨move own, position, some label, form'⟩ then some (move own)
          else none) = (if Stmt.isLoop ⟨own, position, some label, form⟩ then some own
            else none).map move := by
        rw [loops]
        split <;> rfl
      dsimp only
      rw [inserted]
      refine .bind (.insertSymbol (.label _)) ?_
      rintro id _ rfl
      cases labels.find? label.name with
      | none =>
        refine .bind (hypothesis _) ?_
        rintro found _ rfl
        exact .pure rfl
      | some previous =>
        refine Follows.reads fun s => ?_
        rw [State.redeclaration_renumber]
        refine .bind (.change fun _ => rfl) fun _ _ _ => .bind (hypothesis labels) ?_
        rintro found _ rfl
        exact .pure rfl

end PackageCheck.Typing
