import PackageCheck.Proofs.Typing.Agreement
import PackageCheck.Proofs.Typing.Definitions
import PackageCheck.Proofs.Typing.Elements
import PackageCheck.Proofs.Typing.Soundness

/-! # Annotations decide nothing

A check of a tree and a check of the tree as it was written agree: from every state they come to
the same results and leave the same state behind, so no annotation that was there before is read.
Where a run goes well the two annotated trees are the same to validation too. -/

namespace PackageCheck.Typing

open Check

variable {well : Bool} {ctx : Context}

/-! ## Parts that are not annotated -/

theorem map_spec_erase (params : List Param) :
    (params.map Param.erase).map (·.spec) = params.map (·.spec) := by
  rw [List.map_map]
  rfl

theorem receiverType_erase (receiver : Option Param) :
    receiverType ctx (receiver.map Param.erase) = receiverType ctx receiver := by
  cases receiver <;> rfl

theorem signature_erase (params results : List Param) :
    signature ctx (params.map Param.erase) (results.map Param.erase) =
      signature ctx params results := by
  rw [signature, map_spec_erase, map_spec_erase]
  rfl

theorem funcType_erase (func : Func) : funcType ctx (func.erase id) = funcType ctx func := by
  obtain ⟨name, receiver, params, results, body⟩ := func
  rw [Func.erase, funcType, receiverType_erase, signature_erase]
  rfl

theorem methodTypes_erase {position : Position} {fields : List FieldTy} (methods : List Func) :
    ∀ before : List MethodTy, methodTypes ctx position fields before (Func.eraseList id methods) =
      methodTypes ctx position fields before methods := by
  induction methods with
  | nil => intro before; rfl
  | cons method rest ih =>
    intro before
    obtain ⟨name, receiver, params, results, body⟩ := method
    simp only [Func.eraseList, Func.erase, methodTypes, signature_erase, ih]

theorem structTarget_erase (name : String) (position : Position) (fields : List FieldDecl)
    (methods : List Func) : structTarget ctx name position fields (Func.eraseList id methods) =
      structTarget ctx name position fields methods := by
  simp only [structTarget, methodTypes_erase]

theorem layoutOf_erase (type : Ty) (elements : List Element) (position : Position) :
    layoutOf ctx type (Element.eraseList id elements) position =
      layoutOf ctx type elements position := by
  have keyed : ((Element.eraseList id elements).filter (·.key.isSome)).length =
      (elements.filter (·.key.isSome)).length := by
    induction elements with
    | nil => rfl
    | cons element rest ih =>
      obtain ⟨key, value⟩ := element
      cases key with
      | none => simpa [Element.eraseList, Expr.eraseOption] using ih
      | some key => simpa [Element.eraseList, Expr.eraseOption] using ih
  simp only [layoutOf, structLayout, keyed, Element.length_eraseList]

/-- A layout asks no more of a key than its outline. -/
theorem Layout.next_alike {layout : Layout} {w : Bool} {key key' : Option Expr} {position : Position}
    (alike : Option.Rel (Expr.Alike w) key key') :
    layout.next ctx key' position = layout.next ctx key position := by
  cases alike with
  | none => rfl
  | some alike =>
    rename_i key key'
    have index : constantIndex? key' = constantIndex? key := by
      have outline := alike.outline
      obtain ⟨_, form, _⟩ := key
      obtain ⟨_, form', _⟩ := key'
      cases form <;> cases form' <;> simp_all [constantIndex?, ExprForm.outline]
    have named := alike.ident?
    cases layout with
    | keyed struct =>
      simp only [Layout.next, alike.position]
      cases ident : key.ident? <;> cases ident' : key'.ident? <;> simp_all
    | positional fields => cases fields <;> rfl
    | array size of i => simp only [Layout.next, Option.bind_some, index]
    | slice of => rfl
    | map keyType valueType => rfl

/-! ## Declarations -/

theorem declareParam_agrees (param : Param) (type : Ty) :
    (declareParam ctx param type).AgreesNode well (declareParam ctx param.erase type)
      fun _ _ _ => True := by
  obtain ⟨name, position, spec, symbol⟩ := param
  cases name with
  | none => exact AgreesNode.pure fun _ => True.intro
  | some name => exact .given True.intro fun id => .pure fun _ => True.intro

theorem declareParams_agrees : ∀ (params : List Param) (types : List Ty),
    (declareParams ctx params types).Agrees well (declareParams ctx (params.map Param.erase) types)
      fun _ _ => True
  | param :: params, type :: types => by
    rw [List.map_cons, declareParams, declareParams]
    refine Agrees.bind (declareParam_agrees param type).recorded fun _ _ _ => ?_
    exact (declareParams_agrees params types).bind fun _ _ _ => .pure True.intro
  | [], _ => .pure True.intro
  | _ :: _, [] => .pure True.intro

theorem declareReceiver_agrees (receiver : Option Param) (type : Option Ty) :
    (declareReceiver ctx receiver type).Agrees well
      (declareReceiver ctx (receiver.map Param.erase) type) fun _ _ => True := by
  cases receiver with
  | none => exact .pure True.intro
  | some param =>
    cases type with
    | none => exact .pure True.intro
    | some type =>
      exact (declareParam_agrees param type).recorded.bind fun _ _ _ => .pure True.intro

theorem declareVar_agrees {N : Bool → VarDecl → VarDecl → Prop} {name : String}
    {position : Position} {spec : Option TypeSpec} {value value' : Option Expr}
    {symbol symbol' : Option SymbolId} (type : Ty) (init : Option StmtId)
    (result : Except Diagnostic Unit)
    (related : ∀ w, (w = true → well = true ∧ ∃ a, result = .ok a) → ∀ symbol symbol',
      N w ⟨name, position, spec, value, symbol⟩ ⟨name, position, spec, value', symbol'⟩) :
    (declareVar ctx ⟨name, position, spec, value, symbol⟩ type init result).AgreesNode well
      (declareVar ctx ⟨name, position, spec, value', symbol'⟩ type init result) N := by
  refine .given (related false nofun _ _) fun id => Agrees.pure ⟨rfl, fun w went => ?_⟩
  exact related w went _ _

theorem State.failures_markIfFailed (s : State) (id : SymbolId) (result : Except Diagnostic α) :
    (s.markIfFailed id result).failures = s.failures := by
  cases result <;> rfl

/-- A definition that is the same and what is left to check behind it. -/
theorem declareType_agrees {Q : α → Prop} {name : String} {position : Position} {node node' : ν}
    {define : Attempt (Ty × α)} {next next' : SymbolId → α → Check (Checked ν Unit)}
    {N : Bool → ν → ν → Prop} (known : ∀ s s' found, Succeeds define s found s' → Q found.2)
    (untouched : N false node node')
    (rest : ∀ id a, (well = true → Q a) → (next id a).AgreesNode well (next' id a) N) :
    (declareType ctx name position node define next).AgreesNode well
      (declareType ctx name position node' define next') fun w x y => y.1 = x.1 ∧ N w x.2 y.2 := by
  intro s went
  cases clash : s.clash? name with
  | some previous =>
    rw [run_declareType_of_clash clash, run_declareType_of_clash clash]
    exact ⟨rfl, .error ⟨rfl, untouched⟩⟩
  | none =>
    cases defined : (define.run.run (s.declaring ctx name position)).1 with
    | error err =>
      rw [run_declareType_of_error clash defined, run_declareType_of_error clash defined]
      exact ⟨rfl, .error ⟨rfl, untouched⟩⟩
    | ok found =>
      obtain ⟨target, a⟩ := found
      rw [run_declareType_of_ok clash defined] at went ⊢
      rw [run_declareType_of_ok clash defined]
      generalize ended : define.run.run (s.declaring ctx name position) = defining at *
      obtain ⟨_, s₁⟩ := defining
      obtain rfl := defined
      have first : s.failures <+: s₁.failures := by
        have grows := define.run.grows (s.declaring ctx name position)
        rw [ended] at grows
        exact grows.failures
      have behind := ((next s.symbols.nextId a).grows (s₁.setAliased s.symbols.nextId target)).failures
      have unchanged : well = true → s₁.failures = s.failures := fun quiet => by
        have whole := went quiet
        rw [State.failures_markIfFailed] at whole
        exact (first.eq_of_length_le (whole ▸ behind.length_le)).symm
      have inside : well = true →
          ((next s.symbols.nextId a).run (s₁.setAliased s.symbols.nextId target)).2.failures =
            (s₁.setAliased s.symbols.nextId target).failures := by
        intro quiet
        have whole := went quiet
        rw [State.failures_markIfFailed] at whole
        exact whole.trans (unchanged quiet).symm
      have fact : well = true → Q a := fun quiet => known _ s₁ (target, a) ⟨ended, unchanged quiet⟩
      obtain ⟨same, result, related⟩ := rest s.symbols.nextId a fact _ inside
      refine ⟨?_, result, fun w quiet => ⟨rfl, related w quiet⟩⟩
      change ((next' s.symbols.nextId a).run _).2.markIfFailed _ _ = _
      rw [same, result]

/-- Labels are the same symbols in both runs, and each statement has its own. -/
theorem declareLabels_agrees : ∀ (labels : NameMap SymbolId) (statements : List Stmt),
    (declareLabels ctx labels statements).Agrees well
      (declareLabels ctx labels (Stmt.eraseList id statements)) fun found found' =>
        found'.1 = found.1 ∧ found'.2.length = found.2.length ∧
          statements.length = found.2.length
  | labels, [] => .pure ⟨rfl, rfl, rfl⟩
  | labels, ⟨sid, position, label, form⟩ :: rest => by
    rw [Stmt.eraseList, Stmt.erase, declareLabels, declareLabels]
    cases label with
    | none =>
      refine (declareLabels_agrees labels rest).bind fun found found' same => .pure ?_
      obtain ⟨labels, length, all⟩ := same
      exact ⟨labels, congrArg (· + 1) length, congrArg (· + 1) all⟩
    | some label =>
      have inserted : (insertSymbol (.label ⟨label.name,
            if Stmt.isLoop ⟨sid, position, some label, form⟩ then some sid else none,
            some (ctx.site position)⟩)).Agrees well
          (insertSymbol (.label ⟨label.name,
            if (Stmt.erase id ⟨sid, position, some label, form⟩).isLoop then some sid else none,
            some (ctx.site position)⟩)) Eq := by
        rw [Stmt.isLoop_erase]
        exact .refl _
      apply inserted.bind
      rintro symbol _ rfl
      simp only [StmtLabel.erase]
      cases labels.find? label.name with
      | none =>
        refine (declareLabels_agrees _ rest).bind fun found found' same => .pure ?_
        obtain ⟨labels, length, all⟩ := same
        exact ⟨labels, congrArg (· + 1) length, congrArg (· + 1) all⟩
      | some previous =>
        refine Agrees.bind (.refl _) ?_
        rintro s _ rfl
        refine Agrees.bind (.refl _) fun _ _ _ => ?_
        refine (declareLabels_agrees labels rest).bind fun found found' same => .pure ?_
        obtain ⟨labels, length, all⟩ := same
        exact ⟨labels, congrArg (· + 1) length, congrArg (· + 1) all⟩

/-! ## Single rules -/

theorem conversion?_erase (callee : Expr) :
    conversion? ctx (callee.erase id) = conversion? ctx callee := by
  obtain ⟨position, form, type⟩ := callee
  cases form with
  | ident ident => rfl
  | type spec => rfl
  | _ => simp [Expr.erase, ExprForm.erase, conversion?]

theorem inferIdent_agrees (ident : Ident) (position : Position) :
    (inferIdent ctx ident position).AgreesNode well
      (inferIdent ctx { name := ident.name } position) fun w ident ident' =>
        ident'.name = ident.name ∧ (w = true → ident' = ident ∧ ident.isBound) := by
  refine Agrees.bind (.refl state) ?_
  rintro s _ rfl
  dsimp only
  cases s.scopes.find? ident.name with
  | none => exact AgreesNode.error ⟨rfl, nofun⟩
  | some id =>
    refine Agrees.bind (.refl (touch ident.name id)) fun _ _ _ => ?_
    exact AgreesNode.pure fun _ => ⟨rfl, fun _ => ⟨rfl, rfl⟩⟩

/-- The callee of a conversion is a type, or the name of one, which has been bound. -/
theorem sameLeft_conversion {callee : Expr} {target : Expr × Ty} {s s' : State}
    (quiet : Succeeds (conversion? ctx callee) s (some target) s') :
    SameLeft target.1.walk target.1.walk := by
  rcases Quiet.conversion?_inv quiet with ⟨spec, type, form, -, found⟩ |
    ⟨ident, id, -, -, -, found⟩ | ⟨absent, -⟩
  · obtain rfl := Option.some.inj found
    have alike : Expr.Alike true { callee with type := type } { callee with type := type } := by
      refine ⟨rfl, rfl, fun _ => rfl, fun _ => ?_⟩
      rw [form]
      exact .of_unread spec.unread_walk spec.unread_walk
    exact alike.walk rfl
  · cases declared : s.symbols.declaredType? id with
    | none => rw [declared] at found; cases found
    | some type =>
      rw [declared] at found
      obtain rfl := Option.some.inj found
      have alike : Expr.Alike true ⟨callee.position, .ident (ident.bind id), type⟩
          ⟨callee.position, .ident (ident.bind id), type⟩ :=
        ⟨rfl, rfl, fun _ => rfl, fun _ => .used rfl⟩
      exact alike.walk rfl
  · cases absent

/-- A jump is resolved by its label. -/
theorem resolveJump_erase (jump : Jump) (position : Position) :
    (resolveJump ctx jump.erase position).2 = (resolveJump ctx jump position).2 := by
  obtain ⟨kind, label, symbol, target⟩ := jump
  simp only [resolveJump, Jump.erase]
  cases kind with
  | goto => cases label.bind ctx.label? <;> rfl
  | _ => cases ctx.loop? label <;> rfl

theorem Context.ofBody_erase (results : List Param) (signature : Signature) :
    ctx.ofBody (results.map Param.erase) signature = ctx.ofBody results signature := by
  have named : (results.map Param.erase).all (·.name.isSome) = results.all (·.name.isSome) := by
    rw [List.all_map]
    rfl
  rw [Context.ofBody, Context.ofBody, named, List.isEmpty_map]

/-! ## Keys -/

/-- A walk passes over the name of a field, and every other key has been checked. -/
theorem sameLeft_walkKey {layout layout' : Layout} {valueKeys : Bool} {key key' : Option Expr}
    {type : Ty} {position : Position}
    (alike : Option.Rel (Expr.Alike layout.keyType?.isSome) key key')
    (keyed : valueKeys = true → layout.keyType?.isSome = true)
    (keyless : ∀ fields, layout = .positional fields → key = none)
    (next : layout.next ctx key position = .ok (type, layout')) :
    SameLeft (Expr.walkKey valueKeys key) (Expr.walkKey valueKeys key') := by
  cases alike with
  | none => exact .nil
  | some alike =>
    rename_i key key'
    have named : key'.ident?.isNone = key.ident?.isNone := by
      have same := congrArg Option.isNone alike.ident?
      rwa [Option.isNone_map, Option.isNone_map] at same
    rw [Expr.walkKey, Expr.walkKey, named]
    by_cases typed : layout.keyType?.isSome = true
    · split
      · exact alike.walk typed
      · exact .nil
    · have unread : (valueKeys || key.ident?.isNone) = false := by
        rcases Layout.next_inv next with ⟨_, _, _, rfl, -⟩ | ⟨rfl, -⟩ | ⟨_, rfl, -⟩ |
          ⟨field, rest, rfl, -⟩ | ⟨_, ident, -, found, -⟩
        · exact absurd rfl typed
        · exact absurd rfl typed
        · exact absurd rfl typed
        · cases keyless _ rfl
        · have isIdent : key.ident? = some ident := found
          rw [isIdent, Bool.or_eq_false_iff]
          exact ⟨by simpa using fun written => typed (keyed written), rfl⟩
      rw [unread]
      exact .nil

/-- A key takes the type of its field. -/
theorem Layout.alike_typeKey (layout : Layout) {key key' : Expr}
    (alike : Expr.Alike false key key') :
    Expr.Alike false (layout.typeKey key) (layout.typeKey key') := by
  have same : ∀ key : Expr, (layout.typeKey key).position = key.position ∧
      (layout.typeKey key).form = key.form := by
    intro key
    unfold Layout.typeKey
    split
    · split <;> exact ⟨rfl, rfl⟩
    · exact ⟨rfl, rfl⟩
  obtain ⟨position, form⟩ := same key
  obtain ⟨position', form'⟩ := same key'
  refine ⟨?_, ?_, nofun, nofun⟩
  · rw [position, position', alike.position]
  · rw [form, form', alike.outline]

/-! ## Trees -/

/-- Whether two expressions that wait for the types they must have agree. -/
structure Waiting.Agrees (well : Bool) (value value' : Waiting) : Prop where
  expr : Expr.Alike false value.expr value'.expr
  infer : ∀ type, (value.infer type).AgreesNode well (value'.infer type) Expr.Alike

mutual

theorem infer_agrees (ctx : Context) : ∀ (e : Expr) (hint : Ty),
    (infer ctx e hint).AgreesNode well (infer ctx (e.erase id) hint) Expr.Alike
  | ⟨position, form, type⟩, hint => by
    rw [Expr.erase, infer, infer]
    refine (inferForm_agrees ctx position form hint).bind fun node node' result related => ?_
    cases result with
    | error err => exact AgreesNode.error ⟨rfl, (related false nofun).outline, nofun, nofun⟩
    | ok found =>
      refine Agrees.pure ⟨rfl, fun w went => ?_⟩
      have alike := related w fun quiet => ⟨(went quiet).1, found, rfl⟩
      exact ⟨rfl, alike.outline, fun _ => rfl, alike.inside⟩

theorem inferForm_agrees (ctx : Context) (position : Position) : ∀ (form : ExprForm) (hint : Ty),
    (inferForm ctx position form hint).AgreesNode well (inferForm ctx position (form.erase id) hint)
      fun w => ExprForm.Alike w position
  | .literal literal, hint => .pure fun _ => ⟨rfl, fun _ => .nil⟩
  | .blank, hint => .pure fun _ => ⟨rfl, fun _ => .nil⟩
  | .compound spec shape elements, hint => by
    rw [ExprForm.erase, inferForm, inferForm]
    have untouched : ExprForm.Alike false position (.compound spec shape elements)
        (.compound spec .undecided (Element.eraseList id elements)) := ⟨rfl, nofun⟩
    have specs : SameLeft (TypeSpec.walkOption spec) (TypeSpec.walkOption spec) :=
      .of_unread (TypeSpec.unread_walkOption spec) (TypeSpec.unread_walkOption spec)
    refine .givenKnown (Q := fun type => TypeSpec.hasValueKeys spec = true → type.isIndexed = true)
      (fun _ _ type quiet written => compoundType_isIndexed written quiet) untouched
        fun type indexed => ?_
    rw [Element.isEmpty_eraseList]
    by_cases empty : elements.isEmpty = true
    · obtain rfl := List.isEmpty_iff.mp empty
      exact .pure fun _ => ⟨rfl, fun _ => .append specs .nil⟩
    · rw [if_neg empty, if_neg empty, layoutOf_erase]
      refine .givenKnown (Q := fun layout : Layout => layout.Keyless elements ∧
        (type.isIndexed = true → layout.keyType?.isSome = true))
          (fun _ _ layout quiet => ⟨layoutOf_keyless quiet, fun indexed =>
            layoutOf_keyType? indexed quiet⟩) untouched fun layout laidOut => ?_
      have inside := checkElements_agrees ctx (TypeSpec.hasValueKeys spec) elements layout
        fun quiet => ⟨fun written => (laidOut quiet).2 (indexed quiet written), (laidOut quiet).1⟩
      exact inside.mapResult.rebuild fun w a b went same =>
        ⟨rfl, fun quiet => .append specs (same quiet)⟩
  | .binary op left right, hint => by
    rw [ExprForm.erase, inferForm, inferForm]
    have untouched : Expr.Alike false right (right.erase id) := .erase right
    by_cases logical : op.isLogical = true
    · rw [if_pos logical, if_pos logical]
      have operands := ((infer_agrees ctx left .bool).expecting ctx).andThen untouched fun _ =>
        (infer_agrees ctx right .bool).expecting ctx
      refine operands.mapResult.rebuild fun w a b went same => ?_
      exact ⟨rfl, fun quiet => .append (same.1.walk quiet) (same.2.walk quiet)⟩
    · rw [if_neg logical, if_neg logical]
      have operands := (infer_agrees ctx left .unknown).andThen untouched fun type =>
        (infer_agrees ctx right type).expecting ctx
      refine (operands.conclude fun type => binaryType ctx op type position).rebuild fun w a b went same => ?_
      exact ⟨rfl, fun quiet => .append (same.1.walk quiet) (same.2.walk quiet)⟩
  | .unary op operand, hint => by
    have built : ∀ w (e e' : Expr), (w = true → well = true) → Expr.Alike w e e' →
        ExprForm.Alike w position (.unary op e) (.unary op e') := fun w e e' _ alike =>
      ⟨rfl, fun quiet => alike.walk quiet⟩
    cases op with
    | plus =>
      have signed := (infer_agrees ctx operand hint).conclude
        fun type => signType ctx .plus type position
      exact signed.rebuild built
    | minus =>
      have signed := (infer_agrees ctx operand hint).conclude
        fun type => signType ctx .minus type position
      exact signed.rebuild built
    | not => exact ((infer_agrees ctx operand .bool).expecting ctx).rebuild built
    | addressOf => exact (infer_agrees ctx operand _).mapResult.rebuild built
    | deref =>
      have pointed := (infer_agrees ctx operand .unknown).conclude
        fun type => derefType ctx type position
      exact pointed.rebuild built
  | .index left index, hint => by
    rw [ExprForm.erase, inferForm, inferForm]
    have untouched : Expr.Alike false index (index.erase id) := .erase index
    have indexed := (infer_agrees ctx left .unknown).conclude
      fun type => indexTypes ctx type position
    refine (indexed.andThen untouched fun types =>
      ((infer_agrees ctx index types.1).expecting ctx).mapResult).rebuild fun w a b went same => ?_
    exact ⟨rfl, fun quiet => .append (same.1.walk quiet) (same.2.walk quiet)⟩
  | .selector left field, hint => by
    rw [ExprForm.erase, inferForm, inferForm]
    have selected := (infer_agrees ctx left .unknown).conclude
      fun type => selectorType ctx type field position
    refine selected.rebuild fun w a b went alike => ?_
    exact ⟨rfl, fun quiet => alike.walk quiet⟩
  | .call callee args, hint => by
    rw [ExprForm.erase, inferForm, inferForm, conversion?_erase]
    have untouched : ExprForm.Alike false position (.call callee args)
      (.call (callee.erase id) (Expr.eraseList id args)) := ⟨rfl, nofun⟩
    refine .givenKnown (Q := fun found => ∀ conversion, found = some conversion →
      SameLeft conversion.1.walk conversion.1.walk) (fun s s' found quiet conversion same =>
        sameLeft_conversion (same ▸ quiet)) untouched fun found converted => ?_
    cases found with
    | some conversion =>
      obtain ⟨callee', target⟩ := conversion
      match args with
      | [arg] =>
        exact (infer_agrees ctx arg target).mapResult.rebuild fun w a b went alike =>
          ⟨rfl, fun quiet => .append (converted (went quiet) _ rfl) (.append (alike.walk quiet) .nil)⟩
      | [] => exact AgreesNode.error ⟨rfl, nofun⟩
      | first :: second :: rest =>
        simp only [Expr.eraseList, List.length_cons, Expr.length_eraseList]
        exact AgreesNode.error ⟨rfl, nofun⟩
    | none =>
      have called := (infer_agrees ctx callee .unknown).conclude
        fun type => callSignature ctx type args.length position
      rw [Expr.length_eraseList]
      refine (called.andThenKnown (Q := fun signature => args.length = signature.args.length)
        (M := LeftAlike Expr.walkList) (fun s s' part signature quiet => ?_) nofun
          fun signature length => (expectAll_agrees ctx args _ length).mapResult).rebuild
            fun w a b went same => ⟨rfl, fun quiet => .append (same.1.walk quiet) (same.2 quiet)⟩
      obtain ⟨type, s₁, -, signed⟩ := Quiet.conclude_inv quiet
      exact (Quiet.callSignature_inv signed).2.1.symm
  | .func func, hint => by
    rw [ExprForm.erase, inferForm, inferForm, funcType_erase]
    refine .given ⟨rfl, nofun⟩ fun found => ?_
    refine (checkBody_agrees ctx func found.2 found.1).bind fun func func' same => ?_
    exact Agrees.pure ⟨rfl, fun w went => ⟨rfl, fun quiet => Func.sameLeft_walk (same (went quiet).1)⟩⟩
  | .ident ident, hint => by
    rw [ExprForm.erase, inferForm, inferForm]
    refine (inferIdent_agrees ident position).rebuild fun w ident ident' went alike => ?_
    refine ⟨congrArg (fun name => ExprForm.ident { name := name }) alike.1, fun quiet => ?_⟩
    obtain ⟨rfl, bound⟩ := alike.2 quiet
    exact .used bound
  | .type spec, hint => .error ⟨rfl, nofun⟩

theorem expectAll_agrees (ctx : Context) : ∀ (es : List Expr) (types : List Ty),
    (well = true → es.length = types.length) → (expectAll ctx es types).AgreesNode well
      (expectAll ctx (Expr.eraseList id es) types) (LeftAlike Expr.walkList)
  | e :: es, type :: types, length => by
    rw [Expr.eraseList, expectAll, expectAll]
    have first := (infer_agrees ctx e type).expecting ctx
    have others := expectAll_agrees ctx es types fun quiet => Nat.succ.inj (length quiet)
    exact (first.andThen nofun fun _ => others).rebuild fun w a b went same quiet =>
      .append (same.1.walk quiet) (same.2 quiet)
  | [], types, _ => .pure fun _ _ => .nil
  | e :: es, [], length => by
    refine Agrees.pure ⟨rfl, fun w went quiet => ?_⟩
    cases length (went quiet).1

theorem waitingAll_agrees (ctx : Context) : ∀ es : List Expr,
    List.Forall₂ (Waiting.Agrees well) (waitingAll ctx es) (waitingAll ctx (Expr.eraseList id es))
  | [] => by
    rw [Expr.eraseList, waitingAll]
    exact .nil
  | e :: es => by
    rw [Expr.eraseList, waitingAll, waitingAll]
    exact .cons ⟨.erase e, infer_agrees ctx e⟩ (waitingAll_agrees ctx es)

theorem assignAll_agrees (ctx : Context) : ∀ (targets : List Expr) (values values' : List Waiting),
    (well = true → targets.length = values.length) →
      List.Forall₂ (Waiting.Agrees well) values values' →
        (assignAll ctx targets values).AgreesNode well
          (assignAll ctx (Expr.eraseList id targets) values') fun w both both' =>
            LeftAlike Expr.walkList w both.1 both'.1 ∧ LeftAlike Expr.walkList w both.2 both'.2
  | target :: targets, _, _, length, .cons first others => by
    rw [Expr.eraseList, assignAll, assignAll]
    have pair := (infer_agrees ctx target .unknown).andThen first.expr fun type =>
      (first.infer type).expecting ctx
    have rest := assignAll_agrees ctx targets _ _ (fun quiet => Nat.succ.inj (length quiet)) others
    refine (pair.andThen ⟨nofun, nofun⟩ fun _ => rest).rebuild fun w a b went same => ?_
    obtain ⟨⟨target, value⟩, targets, values⟩ := same
    exact ⟨fun quiet => .append (target.walk quiet) (targets quiet),
      fun quiet => .append (value.walk quiet) (values quiet)⟩
  | [], _, _, _, .nil => .pure fun _ => ⟨fun _ => .nil, fun _ => .nil⟩
  | [], _, _, length, .cons first others => by
    refine Agrees.pure ⟨rfl, fun w went => ⟨fun _ => .nil, fun quiet => ?_⟩⟩
    cases length (went quiet).1
  | target :: targets, _, _, length, .nil => by
    refine Agrees.pure ⟨rfl, fun w went => ⟨fun quiet => ?_, fun _ => .nil⟩⟩
    cases length (went quiet).1

/-- A key that has a type is checked, and another one is not. -/
theorem checkKey_agrees (ctx : Context) (layout : Layout) : ∀ key : Option Expr,
    (checkKey ctx layout key).AgreesNode well (checkKey ctx layout (Expr.eraseOption id key))
      fun w found found' => Option.Rel (Expr.Alike (w && layout.keyType?.isSome)) found found' ∧
        (key = none → found = none)
  | none => .pure fun _ => ⟨.none, fun _ => rfl⟩
  | some key => by
    rw [Expr.eraseOption, checkKey, checkKey]
    cases typed : layout.keyType? with
    | none =>
      refine .pure fun w => ⟨.some ?_, nofun⟩
      rw [Option.isSome_none, Bool.and_false]
      exact Layout.alike_typeKey layout (.erase key)
    | some type =>
      refine ((infer_agrees ctx key type).expecting ctx).mapResult.rebuild fun w a b went alike => ?_
      rw [Option.isSome_some, Bool.and_true]
      exact ⟨.some alike, nofun⟩

theorem checkElements_agrees (ctx : Context) (valueKeys : Bool) : ∀ (elements : List Element)
    (layout : Layout), (well = true → (valueKeys = true → layout.keyType?.isSome = true) ∧
      layout.Keyless elements) → (checkElements ctx elements layout).AgreesNode well
        (checkElements ctx (Element.eraseList id elements) layout)
          (LeftAlike (Element.walkList valueKeys))
  | [], layout, _ => .pure fun _ _ => .nil
  | ⟨key, value⟩ :: rest, layout, known => by
    rw [Element.eraseList, checkElements, checkElements]
    refine (checkKey_agrees ctx layout key).bind fun found found' result related => ?_
    have untouched : Option.Rel (Expr.Alike false) found found' := (related false nofun).1
    have position : (value.erase id).position = value.position := (Expr.Alike.erase value).position
    dsimp only
    rw [position, Layout.next_alike untouched]
    cases result with
    | error err => exact AgreesNode.error nofun
    | ok _ =>
      cases next : layout.next ctx found value.position with
      | error err => exact AgreesNode.error nofun
      | ok laidOut =>
        obtain ⟨type, layout'⟩ := laidOut
        have others := checkElements_agrees ctx valueKeys rest layout' fun quiet =>
          ⟨fun written => Layout.keyType?_next next ▸ (known quiet).1 written,
            (known quiet).2.next next⟩
        have left : LeftAlike (Element.walkList valueKeys) false rest (Element.eraseList id rest) :=
          nofun
        have checked := ((infer_agrees ctx value type).expecting ctx).andThen left fun _ => others
        refine checked.rebuild fun w a b went same quiet => ?_
        obtain ⟨alike, absent⟩ := related true fun _ => ⟨went quiet, (), rfl⟩
        obtain ⟨written, keyless⟩ := known (went quiet)
        have keys : SameLeft (Expr.walkKey valueKeys found) (Expr.walkKey valueKeys found') :=
          sameLeft_walkKey alike written
            (fun fields positional => absent (keyless fields positional _ List.mem_cons_self)) next
        exact .append (.append keys (same.1.walk quiet)) (same.2 quiet)

theorem checkBody_agrees (ctx : Context) : ∀ (func : Func) (signature : Signature)
    (receiver : Option Ty), (checkBody ctx func signature receiver).Agrees well
      (checkBody ctx (func.erase id) signature receiver)
        (LeftAlike (fun func => Stmt.walkList func.body.statements) well)
  | ⟨name, receiver, params, results, body⟩, signature, receiverType => by
    rw [Func.erase, checkBody, checkBody, Context.ofBody_erase]
    refine Agrees.withScope ?_
    refine (declareReceiver_agrees receiver receiverType).bind fun _ _ _ => ?_
    refine (declareParams_agrees params signature.args).bind fun _ _ _ => ?_
    refine (declareParams_agrees results signature.results).bind fun _ _ _ => ?_
    exact (checkStatements_agrees _ body).bind fun _ _ same => .pure same

theorem checkMethods_agrees (ctx : Context) (this : Ty) : ∀ (methods : List Func)
    (signatures : List Signature), (well = true → methods.length = signatures.length) →
      (checkMethods ctx this methods signatures).AgreesNode well
        (checkMethods ctx this (Func.eraseList id methods) signatures) (LeftAlike Func.walkList)
  | method :: methods, signature :: signatures, length => by
    rw [Func.eraseList, checkMethods, checkMethods]
    obtain ⟨name, receiver, params, results, body⟩ := method
    rw [Func.erase, receiverType_erase]
    refine .given nofun fun type => ?_
    refine (checkBody_agrees ctx ⟨name, receiver, params, results, body⟩ signature _).bind
      fun method method' same => ?_
    have others := checkMethods_agrees ctx this methods signatures
      fun quiet => Nat.succ.inj (length quiet)
    refine AgreesNode.rebuild others fun w rest rest' went behind quiet => ?_
    exact .append (Func.sameLeft_walk (same (went quiet))) (behind quiet)
  | [], signatures, _ => .pure fun _ _ => .nil
  | method :: methods, [], length => by
    refine Agrees.pure ⟨rfl, fun w went quiet => ?_⟩
    cases length (went quiet).1

theorem checkStatements_agrees (ctx : Context) : ∀ block : Block,
    (checkStatements ctx block).Agrees well (checkStatements ctx (block.erase id))
      (LeftAlike (fun block => Stmt.walkList block.statements) well)
  | ⟨statements, _⟩ => by
    rw [Block.erase, checkStatements, checkStatements]
    refine (declareLabels_agrees .empty statements).bind fun found found' declared => ?_
    obtain ⟨labels, annotated⟩ := found
    obtain ⟨labels', annotated'⟩ := found'
    obtain ⟨rfl, same, length⟩ := declared
    exact (checkEach_agrees _ statements annotated annotated' same length).bind
      fun _ _ same => .pure same

theorem checkEach_agrees (ctx : Context) : ∀ (statements : List Stmt)
    (labels labels' : List (Option StmtLabel)), labels'.length = labels.length →
      statements.length = labels.length → (checkEach ctx statements labels).Agrees well
        (checkEach ctx (Stmt.eraseList id statements) labels') (LeftAlike Stmt.walkList well)
  | s :: rest, label :: labels, label' :: labels', same, length => by
    rw [Stmt.eraseList, checkEach, checkEach]
    refine (checkStmt_agrees ctx s).recorded.bind fun s s' first => ?_
    have others := checkEach_agrees ctx rest labels labels' (Nat.succ.inj same)
      (Nat.succ.inj length)
    refine others.bind fun rest rest' behind => .pure fun quiet => ?_
    exact .append (Stmt.sameLeft_walk (first quiet)) (behind quiet)
  | [], _, _, _, _ => .pure fun _ => .nil
  | _ :: _, [], _, _, length => nomatch length
  | _ :: _, _ :: _, [], same, _ => nomatch same

theorem checkStmt_agrees (ctx : Context) : ∀ s : Stmt,
    (checkStmt ctx s).AgreesNode well (checkStmt ctx (s.erase id))
      (LeftAlike fun s => s.form.walk)
  | ⟨sid, position, label, form⟩ => by
    have named : (label.map StmtLabel.erase).map (·.name) = label.map (·.name) := by
      cases label <;> rfl
    rw [Stmt.erase, checkStmt, checkStmt, named]
    exact (checkForm_agrees ctx sid position (label.map (·.name)) form).rebuild
      fun w form form' went same => same

theorem checkForm_agrees (ctx : Context) (sid : StmtId) (position : Position)
    (label : Option String) : ∀ form : StmtForm,
      (checkForm ctx sid position label form).AgreesNode well
        (checkForm ctx sid position label (form.erase id)) (LeftAlike StmtForm.walk)
  | .assign lhs rhs op => by
    rw [StmtForm.erase, checkForm, checkForm, Expr.find?_eraseList]
    have untouched : LeftAlike StmtForm.walk false (.assign lhs rhs op)
        (.assign (Expr.eraseList id lhs) (Expr.eraseList id rhs) op) := nofun
    cases lhs.find? (!·.isAssignable) with
    | some e =>
      rw [Option.map_some]
      have same : (e.erase id).position = e.position := (Expr.Alike.erase e).position
      dsimp only
      rw [same]
      exact AgreesNode.error untouched
    | none =>
    cases op.binary? with
    | some binary =>
      match lhs, rhs with
      | [target], [value] =>
        have second : Expr.Alike false value (value.erase id) := .erase value
        have pair := (infer_agrees ctx target .unknown).andThen second fun type =>
          (infer_agrees ctx value type).expecting ctx
        have operands := pair.conclude fun operand =>
          checkOperand ctx binary.render (binary == .add) operand position
        refine operands.rebuild fun w a b went same quiet => ?_
        exact .append (.append (same.2.walk quiet) .nil) (.append (same.1.walk quiet) .nil)
      | [], rhs => exact AgreesNode.error untouched
      | target :: second :: lhs, rhs => exact AgreesNode.error untouched
      | [target], [] => exact AgreesNode.error untouched
      | [target], value :: second :: rhs => exact AgreesNode.error untouched
    | none =>
    dsimp only
    rw [Expr.length_eraseList, Expr.length_eraseList]
    by_cases pairs : lhs.length = rhs.length
    · rw [if_pos pairs, if_pos pairs]
      have waiting := congrArg List.length (waitingAll_exprs ctx rhs)
      rw [List.length_map] at waiting
      have checked := assignAll_agrees ctx lhs _ _ (fun _ => pairs.trans waiting.symm)
        (waitingAll_agrees ctx rhs)
      refine checked.rebuild fun w a b went same quiet => ?_
      exact .append (same.2 quiet) (same.1 quiet)
    · rw [if_neg pairs, if_neg pairs]
      match rhs with
      | [value] =>
        refine AgreesNode.rebuild (.andThen (M := LeftAlike Expr.walkList)
          (infer_agrees ctx value .unknown) nofun fun type => ?_) fun w a b went same quiet => ?_
        · cases type with
          | tuple members =>
            dsimp only
            by_cases length : members.length = lhs.length
            · rw [if_pos length, if_pos length]
              exact expectAll_agrees ctx lhs members fun _ => length.symm
            · rw [if_neg length, if_neg length]
              exact AgreesNode.error nofun
          | _ => exact AgreesNode.error nofun
        · exact .append (.append (same.1.walk quiet) .nil) (same.2 quiet)
      | [] => exact AgreesNode.error nofun
      | value :: second :: rhs =>
        rw [Expr.eraseList, Expr.eraseList]
        exact AgreesNode.error nofun
  | .struct ⟨name, fields, methods, symbol⟩ => by
    rw [StmtForm.erase, checkForm, checkForm, structTarget_erase]
    have untouched : LeftAlike Func.walkList false methods (Func.eraseList id methods) := nofun
    refine AgreesNode.rebuild (declareType_agrees (Q := fun signatures : List Signature =>
      methods.length = signatures.length) (fun s s' found quiet => ?_) untouched
        fun struct signatures length =>
          checkMethods_agrees ctx (.custom name struct) methods signatures length)
            fun w a b went same quiet => ?_
    · obtain ⟨-, -, -, -, length⟩ := structTarget_filled symbol quiet
      exact length.symm
    · have unread : Unread (fields.flatMap (·.spec.walk)) := by
        intro event member
        obtain ⟨field, -, inside⟩ := List.mem_flatMap.mp member
        exact field.spec.unread_walk event inside
      exact .append (.pass rfl rfl (.of_unread unread unread)) (same.2 quiet)
  | .typeAlias decl => by
    have unread : ∀ decl : AliasDecl, Unread (.declare decl.name :: decl.target.walk) := by
      intro decl event member
      rcases List.mem_cons.mp member with rfl | member
      · rfl
      · exact decl.target.unread_walk event member
    rw [StmtForm.erase, checkForm, checkForm, checkAlias, checkAlias]
    refine AgreesNode.rebuild (N := fun _ _ _ => True) ?_ fun w decl decl' _ _ quiet =>
      .of_unread (unread decl) (unread decl')
    have root : ∀ symbol, Check.AgreesNode well
        (do return ((), ← (aliasRoot ctx symbol decl.name position).run))
        (do return ((), ← (aliasRoot ctx symbol decl.name position).run)) fun _ _ _ => True := by
      intro symbol
      refine Agrees.bind (.refl (aliasRoot ctx symbol decl.name position).run) ?_
      rintro result _ rfl
      exact Agrees.pure ⟨rfl, fun _ _ => True.intro⟩
    exact (declareType_agrees (Q := fun _ => True) (fun _ _ _ _ => True.intro) True.intro
      fun symbol _ _ => root symbol).rebuild fun _ _ _ _ _ => True.intro
  | .var vars => by
    rw [StmtForm.erase, checkForm, checkForm]
    exact (checkVars_agrees ctx sid vars).rebuild fun w vars vars' went same => same
  | .pass => .pure fun _ _ => .nil
  | .cond branches => by
    rw [StmtForm.erase, checkForm, checkForm]
    refine (checkBranches_agrees ctx sid branches).bind fun branches branches' same => ?_
    exact Agrees.pure ⟨rfl, fun w went quiet => same (went quiet).1⟩
  | .loop ⟨header, condition, step, body⟩ => by
    rw [StmtForm.erase, checkForm, checkForm]
    refine Agrees.withScope ?_
    refine (checkHeader_agrees ctx sid header).bind fun header header' first => ?_
    refine (checkCondition_agrees ctx condition).bind fun condition condition' second => ?_
    refine (checkStep_agrees ctx step).bind fun step step' third => ?_
    refine (checkStatements_agrees _ body).withScope.bind fun body body' fourth => ?_
    refine Agrees.pure ⟨rfl, fun w went quiet => ?_⟩
    obtain ⟨went, -⟩ := went quiet
    have parts := ((first went).append (second went)).append (third went)
    have inside := parts.append (Block.sameLeft_walk (fourth went))
    exact .append (.pass rfl rfl inside) (.pass rfl rfl .nil)
  | .expr e => by
    rw [StmtForm.erase, checkForm, checkForm]
    exact (infer_agrees ctx e .unknown).mapResult.rebuild fun w e e' went alike => alike.walk
  | .jump jump => by
    rw [StmtForm.erase, checkForm, checkForm]
    exact Agrees.pure ⟨resolveJump_erase jump position, fun _ _ _ => .nil⟩
  | .ret values => by
    rw [StmtForm.erase, checkForm, checkForm, Expr.length_eraseList]
    refine AgreesNode.rebuild (N := LeftAlike Expr.walkList)
      (.givenKnown (Q := fun types : List Ty => values.length = types.length)
        (fun s s' types quiet => Quiet.length_returnTypes (Quiet.ofExcept_inv quiet).1) nofun
          fun types length => expectAll_agrees ctx values types length)
            fun w values values' went same => same

theorem checkVars_agrees (ctx : Context) (sid : StmtId) : ∀ vars : VarForm,
    (checkVars ctx sid vars).AgreesNode well (checkVars ctx sid (vars.erase id))
      (LeftAlike VarForm.walk)
  | ⟨vars, isFunc⟩ => by
    rw [VarForm.erase, checkVars, checkVars]
    refine Agrees.bind (.refl state) ?_
    rintro s _ rfl
    refine (checkVarList_agrees ctx sid isFunc vars).bind fun vars vars' result related => ?_
    refine Agrees.bind (.refl (noteForm _ result)) fun _ _ _ => ?_
    exact Agrees.pure ⟨rfl, fun w went quiet => VarForm.sameLeft_walk (related w went quiet)⟩

theorem checkVarList_agrees (ctx : Context) (sid : StmtId) (isFunc : Bool) :
    ∀ vars : List VarDecl, (checkVarList ctx sid isFunc vars).AgreesNode well
      (checkVarList ctx sid isFunc (VarDecl.eraseList id vars)) (LeftAlike VarDecl.walkList)
  | [] => .pure fun _ _ => .nil
  | ⟨name, position, spec, value, symbol⟩ :: rest => by
    rw [VarDecl.eraseList, checkVarList, checkVarList]
    have others := checkVarList_agrees ctx sid isFunc rest
    have built : ∀ w (both both' : VarDecl × List VarDecl), (w = true → well = true) →
        LeftAlike (fun decl : VarDecl => Expr.walkOption decl.value) w both.1 both'.1 ∧
          LeftAlike VarDecl.walkList w both.2 both'.2 →
        LeftAlike VarDecl.walkList w (both.1 :: both.2) (both'.1 :: both'.2) := by
      intro w both both' went same quiet
      obtain ⟨⟨_, _, spec, value, _⟩, rest⟩ := both
      obtain ⟨⟨_, _, spec', value', _⟩, rest'⟩ := both'
      have specs : SameLeft (TypeSpec.walkOption spec) (TypeSpec.walkOption spec') :=
        .of_unread (TypeSpec.unread_walkOption spec) (TypeSpec.unread_walkOption spec')
      exact .append (.append specs (same.1 quiet)) (same.2 quiet)
    cases isFunc with
    | true => exact ((checkFuncVar_agrees ctx sid _).noted.alongside others).rebuild built
    | false => exact ((checkPlainVar_agrees ctx sid _).noted.alongside others).rebuild built

theorem checkPlainVar_agrees (ctx : Context) (sid : StmtId) : ∀ decl : VarDecl,
    (checkPlainVar ctx sid decl).AgreesNode well
      (checkPlainVar ctx sid { decl with value := Expr.eraseOption id decl.value, symbol := none })
        (LeftAlike fun decl : VarDecl => Expr.walkOption decl.value)
  | ⟨name, position, spec, value, symbol⟩ => by
    have init : (Expr.eraseOption id value).map (fun _ => sid) = value.map fun _ => sid := by
      cases value <;> rfl
    rw [checkPlainVar, checkPlainVar, init]
    refine Agrees.bind (.refl (resolveOr ctx .unknown spec).run) ?_
    rintro resolved _ rfl
    cases resolved with
    | error err =>
      refine declareVar_agrees .unknown _ (.error err) fun w went _ _ quiet => ?_
      obtain ⟨-, _, impossible⟩ := went quiet
      cases impossible
    | ok declared =>
      refine (checkInit_agrees ctx name position declared value).bind
        fun value value' result related => ?_
      cases result with
      | error err =>
        refine declareVar_agrees declared _ (.error err) fun w went _ _ quiet => ?_
        obtain ⟨-, _, impossible⟩ := went quiet
        cases impossible
      | ok type =>
        exact declareVar_agrees type _ (.ok ()) fun w went _ _ =>
          related w fun quiet => ⟨(went quiet).1, type, rfl⟩

theorem checkInit_agrees (ctx : Context) (name : String) (position : Position) (declared : Ty) :
    ∀ value : Option Expr, (checkInit ctx name position declared value).AgreesNode well
      (checkInit ctx name position declared (Expr.eraseOption id value)) (LeftAlike Expr.walkOption)
  | none => .pure fun _ _ => .nil
  | some e => by
    rw [Expr.eraseOption, checkInit, checkInit]
    refine AgreesNode.rebuild (N := Expr.Alike) ?_ fun w e e' went alike => alike.walk
    exact (infer_agrees ctx e declared).agreeing fun _ _ _ => rfl

theorem checkFuncVar_agrees (ctx : Context) (sid : StmtId) : ∀ decl : VarDecl,
    (checkFuncVar ctx sid decl).AgreesNode well
      (checkFuncVar ctx sid { decl with value := Expr.eraseOption id decl.value, symbol := none })
        (LeftAlike fun decl : VarDecl => Expr.walkOption decl.value)
  | ⟨name, position, spec, none, symbol⟩ => .error nofun
  | ⟨name, position, spec, some ⟨valuePosition, form, type⟩, symbol⟩ => by
    cases form with
    | func func =>
      rw [Expr.eraseOption, Expr.erase, ExprForm.erase, checkFuncVar, checkFuncVar, funcType_erase]
      refine Agrees.bind (.refl (funcType ctx func).run) ?_
      rintro typed _ rfl
      cases typed with
      | error err =>
        refine declareVar_agrees .unknown _ (.error err) fun w went _ _ quiet => ?_
        obtain ⟨-, _, impossible⟩ := went quiet
        cases impossible
      | ok found =>
        obtain ⟨receiver, signature⟩ := found
        -- the body is checked behind the declaration, which reads nothing of it
        refine Agrees.bind (declareVar_agrees (N := fun _ _ _ => True) (.func signature) (some sid)
          (.ok ()) fun _ _ _ _ => True.intro) fun x y alike => ?_
        obtain ⟨decl, result⟩ := x
        obtain ⟨decl', result'⟩ := y
        obtain ⟨same, -⟩ := alike
        obtain rfl : result' = result := same
        cases result' with
        | error err => exact AgreesNode.error nofun
        | ok _ =>
          refine (checkBody_agrees ctx func signature receiver).bind fun func func' same => ?_
          refine Agrees.pure ⟨rfl, fun w went quiet => ?_⟩
          have alike : Expr.Alike true ⟨valuePosition, .func func, .func signature⟩
              ⟨valuePosition, .func func', .func signature⟩ :=
            ⟨rfl, rfl, fun _ => rfl, fun _ => Func.sameLeft_walk (same (went quiet).1)⟩
          exact alike.walk rfl
    | _ => exact AgreesNode.error nofun

theorem checkHeader_agrees (ctx : Context) (sid : StmtId) : ∀ header : Option VarForm,
    (checkHeader ctx sid header).Agrees well (checkHeader ctx sid (VarForm.eraseOption id header))
      (LeftAlike VarForm.walkOption well)
  | none => .pure fun _ => .nil
  | some vars => by
    rw [VarForm.eraseOption, checkHeader, checkHeader]
    exact (checkVars_agrees ctx sid vars).recorded.bind fun _ _ same => .pure same

theorem checkCondition_agrees (ctx : Context) : ∀ condition : Option Expr,
    (checkCondition ctx condition).Agrees well
      (checkCondition ctx (Expr.eraseOption id condition)) (LeftAlike Expr.walkOption well)
  | none => .pure fun _ => .nil
  | some e => by
    rw [Expr.eraseOption, checkCondition, checkCondition]
    exact ((infer_agrees ctx e .bool).expecting ctx).recorded.bind fun _ _ alike =>
      .pure alike.walk

theorem checkStep_agrees (ctx : Context) : ∀ step : Option Stmt,
    (checkStep ctx step).Agrees well (checkStep ctx (Stmt.eraseOption id step))
      (LeftAlike Stmt.walkOption well)
  | none => .pure fun _ => .nil
  | some s => by
    rw [Stmt.eraseOption, checkStep, checkStep]
    exact (checkStmt_agrees ctx s).recorded.bind fun _ _ same =>
      .pure fun quiet => Stmt.sameLeft_walk (same quiet)

theorem checkBranches_agrees (ctx : Context) (sid : StmtId) : ∀ branches : List Branch,
    (checkBranches ctx sid branches).Agrees well
      (checkBranches ctx sid (Branch.eraseList id branches)) (LeftAlike Branch.walkList well)
  | [] => .pure fun _ => .nil
  | ⟨header, condition, body⟩ :: rest => by
    rw [Branch.eraseList, checkBranches, checkBranches]
    refine Agrees.bind (R := LeftAlike (fun branch => Branch.walkList [branch]) well)
      (.withScope ?_) fun branch branch' first => ?_
    · refine (checkHeader_agrees ctx sid header).bind fun header header' first => ?_
      refine (checkCondition_agrees ctx condition).bind fun condition condition' second => ?_
      refine (checkStatements_agrees ctx body).withScope.bind fun body body' third => ?_
      refine .pure fun quiet => ?_
      have parts := ((first quiet).append (second quiet)).append (Block.sameLeft_walk (third quiet))
      exact .append (.pass rfl rfl parts) (.pass rfl rfl .nil)
    · refine (checkBranches_agrees ctx sid rest).bind fun rest rest' behind => .pure fun quiet => ?_
      rw [Branch.walkList_cons, Branch.walkList_cons branch']
      exact .append (first quiet) (behind quiet)

end

end PackageCheck.Typing
