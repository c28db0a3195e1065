import Mathlib.Data.List.Forall2
import Mathlib.Tactic.Tauto
import PackageCheck.Proofs.Typing.Elements
import PackageCheck.Proofs.Typing.Lookup
import PackageCheck.Proofs.Typing.Soundness

/-! # What a check looks up

In a quiet run through a tree a name is looked up where the tree uses it. So what the run uses the
name for outside of the tree are the free uses in the tree. -/

namespace PackageCheck.Typing

open Check

variable {base : SymbolTable} {n : String} {most : Bool} {ctx : Context}

/-- Whether the quiet runs in which a node checks look a name up as a mention says. -/
abbrev Check.LooksUp (base : SymbolTable) (n : String) (most : Bool)
    (check : Check (Checked ν τ)) (mention : Mention) : Prop :=
  check.HasNode (lookups base n most) mention fun _ => True

/-- Whether the quiet runs of a computation look a name up as a mention says. -/
abbrev Check.LooksUpAll (base : SymbolTable) (n : String) (most : Bool) (check : Check α)
    (mention : Mention) : Prop :=
  check.Has (lookups base n most) mention fun _ => True

/-! ## Types -/

section Types

mutual

theorem resolve_looksUp : ∀ spec : TypeSpec, HasAttempt (lookups base n most) (resolve ctx spec)
    (spec.mention (.checker most) n) fun _ => True
  | .named name position => by
    intro s s' type behind quiet
    have after := behind.grows quiet.grows
    rw [resolve] at quiet
    obtain ⟨id, found, -, rfl⟩ := Quiet.resolveName_inv quiet
    exact ⟨after, .touchType position found, True.intro⟩
  | .array _ of => by
    rw [resolve]
    exact .of_eq (.bind (resolve_looksUp of) fun _ _ => .pure True.intro)
      (Mention.append_empty _)
  | .slice of => by
    rw [resolve]
    exact .of_eq (.bind (resolve_looksUp of) fun _ _ => .pure True.intro)
      (Mention.append_empty _)
  | .map key value => by
    rw [resolve]
    refine .of_eq (.bind (resolve_looksUp key) fun _ _ => .bind (resolve_looksUp value) fun _ _ =>
      .pure True.intro) ?_
    simp [lookups, TypeSpec.mention]
  | .pointer pointee => by
    rw [resolve]
    exact .of_eq (.bind (resolve_looksUp pointee) fun _ _ => .pure True.intro)
      (Mention.append_empty _)
  | .tuple members => by
    rw [resolve]
    exact .of_eq (.bind (resolveList_looksUp members) fun _ _ => .pure True.intro)
      (Mention.append_empty _)
  | .func args results => by
    rw [resolve]
    refine .of_eq (.bind (resolveList_looksUp args) fun _ _ =>
      .bind (resolveList_looksUp results) fun _ _ => .pure True.intro) ?_
    simp [lookups, TypeSpec.mention]
  | .blank => by
    rw [resolve]
    exact .pure True.intro

theorem resolveList_looksUp : ∀ specs : List TypeSpec,
    HasAttempt (lookups base n most) (resolveList ctx specs)
      (TypeSpec.mentionList (.checker most) n specs) fun types => types.length = specs.length
  | [] => by
    rw [resolveList]
    exact .pure rfl
  | spec :: rest => by
    rw [resolveList]
    refine .of_eq (.bind (resolve_looksUp spec) fun _ _ => .bind (resolveList_looksUp rest)
      fun _ length => .pure (congrArg (· + 1) length)) ?_
    simp [lookups, TypeSpec.mentionList]

end

theorem resolveOr_looksUp (absent : Ty) : ∀ spec : Option TypeSpec,
    HasAttempt (lookups base n most) (resolveOr ctx absent spec)
      (TypeSpec.mentionOption (.checker most) n spec) fun _ => True
  | none => .pure True.intro
  | some spec => resolve_looksUp spec

/-- Whether there is a type for each parameter and each result of a function. -/
structure Fits (func : Func) (signature : Signature) : Prop where
  args : func.params.length = signature.args.length
  results : func.results.length = signature.results.length

theorem receiverType_looksUp : ∀ receiver : Option Param,
    HasAttempt (lookups base n most) (receiverType ctx receiver)
      (Param.mentionTypes (.checker most) n receiver.toList) fun type =>
        type.isSome = receiver.isSome
  | none => .pure rfl
  | some param => by
    refine .of_eq (.bind (resolve_looksUp param.spec) fun _ _ => .pure rfl) ?_
    simp [lookups, Param.mentionTypes, TypeSpec.mentionList]

theorem signature_looksUp (params results : List Param) :
    HasAttempt (lookups base n most) (signature ctx params results)
      (Param.mentionTypes (.checker most) n (params ++ results)) fun found =>
        params.length = found.args.length ∧ results.length = found.results.length := by
  refine .of_eq (.bind (resolveList_looksUp _) fun _ args => .bind (resolveList_looksUp _)
    fun _ results => .pure ⟨?_, ?_⟩) ?_
  · simp [args]
  · simp [results]
  · simp [lookups, Param.mentionTypes, TypeSpec.mentionList_append]

theorem funcType_looksUp (func : Func) :
    HasAttempt (lookups base n most) (funcType ctx func)
      (Param.mentionTypes (.checker most) n (func.receiver.toList ++ func.params ++ func.results))
      fun found => found.1.isSome = func.receiver.isSome ∧ Fits func found.2 := by
  refine .of_eq (.bind (receiverType_looksUp _) fun _ received =>
    .bind (signature_looksUp _ _) fun _ signed => .pure ⟨received, signed.1, signed.2⟩) ?_
  simp [lookups, Param.mentionTypes_append]

theorem fieldTypes_looksUp (fields : List FieldDecl) : ∀ before : List FieldTy,
    HasAttempt (lookups base n most) (fieldTypes ctx before fields)
      (TypeSpec.mentionList (.checker most) n (fields.map (·.spec))) fun _ => True := by
  induction fields with
  | nil => exact fun before => .pure True.intro
  | cons field fields ih =>
    intro before
    rw [fieldTypes]
    split
    case isTrue =>
      intro s s' found behind quiet
      obtain ⟨_, _, failed, -⟩ := Quiet.attempt_inv quiet
      exact absurd failed Quiet.not_fail
    case isFalse => exact .bind (resolve_looksUp field.spec) fun type _ => ih _

theorem methodTypes_looksUp {position : Position} {fields : List FieldTy} (methods : List Func) :
    ∀ before : List MethodTy,
      HasAttempt (lookups base n most) (methodTypes ctx position fields before methods)
        (Param.mentionTypes (.checker most) n
          (methods.flatMap fun method => method.params ++ method.results)) fun found =>
          ∃ signatures, found.map (·.signature) = before.map (·.signature) ++ signatures ∧
            List.Forall₂ Fits methods signatures := by
  induction methods with
  | nil => exact fun before => .pure ⟨[], by simp, .nil⟩
  | cons method methods ih =>
    intro before
    rw [methodTypes]
    dsimp only
    split
    case isTrue =>
      intro s s' found behind quiet
      obtain ⟨_, _, failed, -⟩ := Quiet.attempt_inv quiet
      exact absurd failed Quiet.not_fail
    case isFalse =>
      intro s s' found behind quiet
      obtain ⟨signature, s₁, signed, rest⟩ := Quiet.attempt_inv quiet
      obtain ⟨between, first, fits⟩ := signature_looksUp _ _ s s₁ signature behind signed
      obtain ⟨after, others, signatures, same, all⟩ := ih _ s₁ s' found between rest
      refine ⟨after, ?_, signature :: signatures, ?_, .cons ⟨fits.1, fits.2⟩ all⟩
      · rw [List.flatMap_cons, Param.mentionTypes_append]
        exact first.trans others
      · simpa using same

theorem structTarget_looksUp {name : String} {position : Position} (fields : List FieldDecl)
    (methods : List Func) :
    HasAttempt (lookups base n most) (structTarget ctx name position fields methods)
      (TypeSpec.mentionList (.checker most) n (fields.map (·.spec)) ++
        Param.mentionTypes (.checker most) n
          (methods.flatMap fun method => method.params ++ method.results))
      fun found => List.Forall₂ Fits methods found.2 := by
  refine .of_eq (.bind (fieldTypes_looksUp fields []) fun _ _ =>
    .bind (methodTypes_looksUp methods []) fun found fits => .pure ?_) ?_
  · obtain ⟨signatures, same, all⟩ := fits
    rw [List.map_nil, List.nil_append] at same
    rw [same]
    exact all
  · simp [lookups]

theorem aliasTarget_looksUp {name : String} {position : Position} (target : TypeSpec) :
    HasAttempt (lookups base n most) (aliasTarget ctx name position target)
      (target.mention (.checker most) n) fun _ => True := by
  intro s s' found behind quiet
  obtain ⟨after, reads, -⟩ :=
    resolve_looksUp target s s' found.1 behind (Quiet.aliasTarget_inv quiet)
  exact ⟨after, reads, True.intro⟩

end Types

/-! ## Declarations -/

section Declarations

theorem withScope_looksUp {check : Check α} {mention : Mention} {V : α → Prop}
    (inside : check.Has (lookups base n most) mention V) :
    (withScope check).Has (lookups base n most) mention.enclosed V := by
  intro s s' a behind quiet
  have after := behind.grows quiet.grows
  obtain ⟨s₁, inner, rfl⟩ := quiet.withScope_inv
  obtain ⟨-, reads, value⟩ := inside s.pushScope s₁ a behind.pushScope inner
  exact ⟨after, .popScope behind inner.grows reads, value⟩

theorem withScope_looksUp_node {check : Check (Checked ν τ)} {mention : Mention}
    (inside : check.LooksUp base n most mention) :
    (withScope check).LooksUp base n most mention.enclosed := by
  intro s s' node a behind quiet
  have after := behind.grows quiet.grows
  obtain ⟨s₁, inner, rfl⟩ := quiet.withScope_inv
  obtain ⟨-, reads, value⟩ := inside s.pushScope s₁ node a behind.pushScope inner
  exact ⟨after, .popScope behind inner.grows reads, value⟩

theorem declareVar_looksUp {decl : VarDecl} {type : Ty} {init : Option StmtId}
    {result : Except Diagnostic Unit} :
    (declareVar ctx decl type init result).LooksUp base n most (.ofNames n [decl.name]) := by
  intro s s' decl' a behind quiet
  have after := behind.grows quiet.grows
  obtain ⟨-, -, free, rfl⟩ := Quiet.declareVar_inv quiet
  exact ⟨after, Reads.insertVar
    (v := ⟨decl.name, type, init, some (ctx.site decl.position)⟩) behind free, True.intro⟩

theorem declareParam_looksUp {param : Param} {type : Ty} :
    (declareParam ctx param type).LooksUp base n most (Param.mentionNames n [param]) := by
  intro s s' param' a behind quiet
  have after := behind.grows quiet.grows
  rcases Quiet.declareParam_inv quiet with ⟨unnamed, rfl⟩ | ⟨name, named, free, rfl⟩
  · refine ⟨after, Reads.of_getsOut_iff (.refl s') ?_ ?_ ?_, True.intro⟩
    all_goals simp [Param.mentionNames, unnamed, Mention.ofNames, Mention.GetsOut]
  · have reads : Reads base n most _ s _ := Reads.insertVar
      (v := ⟨name, type, none, some (ctx.site param.position)⟩) behind free
    refine ⟨after, ?_, True.intro⟩
    simpa [Param.mentionNames, named, lookups] using reads

theorem declareParams_looksUp : ∀ (params : List Param) (types : List Ty),
    params.length = types.length →
      (declareParams ctx params types).LooksUpAll base n most (Param.mentionNames n params)
  | param :: params, type :: types, length => by
    rw [declareParams]
    refine .of_eq (.bind declareParam_looksUp.recorded fun _ _ =>
      .bind (declareParams_looksUp params types (Nat.succ.inj length)) fun _ _ =>
        .pure True.intro) ?_
    simp [lookups, ← Param.mentionNames_append]
  | [], _, _ => .pure True.intro
  | _ :: _, [], length => nomatch length

theorem declareReceiver_looksUp {receiver : Option Param} {type : Option Ty}
    (typed : type.isSome = receiver.isSome) :
    (declareReceiver ctx receiver type).LooksUpAll base n most
      (Param.mentionNames n receiver.toList) := by
  cases receiver with
  | none =>
    cases type with
    | none => exact .pure True.intro
    | some type => cases typed
  | some param =>
    cases type with
    | none => cases typed
    | some type =>
      exact .of_eq (.bind declareParam_looksUp.recorded fun _ _ => .pure True.intro)
        (Mention.append_empty _)

theorem declareLabels_looksUp {statements : List Stmt} :
    (declareLabels ctx .empty statements).Has (lookups base n most) {} fun found =>
      found.2.length = statements.length := by
  intro s s' found behind quiet
  obtain ⟨length, labelled⟩ := Quiet.declareLabels_inv quiet
  exact ⟨behind.grows quiet.grows, .labelled behind labelled quiet.grows, length⟩

/-- A type is declared in front of its definition, and what is left to check comes behind it. -/
theorem declareType_looksUp {name : String} {position : Position} {node : ν}
    {define : Attempt (Ty × α)} {next : SymbolId → α → Check (Checked ν Unit)} {Q : α → Prop}
    {mention mention' : Mention}
    (definition : HasAttempt (lookups base n most) define mention fun found => Q found.2)
    (rest : ∀ id a, Q a → (next id a).LooksUp base n most mention') :
    (declareType ctx name position node define next).LooksUp base n most
      (.ofTypeName n name ++ mention ++ mention') := by
  intro s s' declared b behind quiet
  obtain ⟨-, free, target, a, s₁, defined, inside⟩ := Quiet.declareType_inv quiet
  have declaring : s.Grows (s.declaring ctx name position) := State.grows_insertNamed free
  obtain ⟨-, defines, value⟩ := definition _ s₁ (target, a) (behind.grows declaring) defined
  have aliased : s.Grows (s₁.setAliased s.symbols.nextId target) :=
    (declaring.trans defined.grows).setAliased s.symbols.get?_nextId target
  obtain ⟨after, checks, -⟩ := rest _ a value _ s' declared.2 b (behind.grows aliased) inside
  have first : Reads base n most _ s s₁ := (Reads.declaring behind free).trans defines
  have both := (first.trans (.setAliased target)).trans checks
  rw [Mention.append_empty] at both
  exact ⟨after, both, True.intro⟩

end Declarations

/-! ## Other orders -/

section Orders

variable {hidden hiddenType : Bool}

/-- What methods do with a name when all signatures are in front of the bodies: first the types of
    parameters and results, then the rest of each method. -/
def mentionMethods (reading : Reading) (n : String) : List Func → Mention
  | [] => {}
  | method :: rest => Param.mentionTypes reading n method.receiver.toList ++
      method.mentionBody reading n ++ mentionMethods reading n rest

theorem mentionMethods_closed {reading : Reading} (methods : List Func) :
    (mentionMethods reading n methods).Closed := by
  induction methods with
  | nil => exact .empty
  | cons method rest ih => exact ((Param.mentionTypes_closed _).append (.enclosed _)).append ih

theorem getsOut_methods {reading : Reading} (methods : List Func) :
    (Func.mentionList reading n methods).GetsOut hidden hiddenType ↔
      (Param.mentionTypes reading n (methods.flatMap fun method => method.params ++ method.results)
        ++ mentionMethods reading n methods).GetsOut hidden hiddenType := by
  induction methods with
  | nil => rfl
  | cons method rest ih =>
    rw [(Param.mentionTypes_closed _).getsOut_append] at ih
    rw [Func.mentionList, Func.mention_eq, mentionMethods, List.flatMap_cons]
    simp only [Param.mentionTypes_append, Mention.append_assoc, Mention.Closed.getsOut_append,
      Param.mentionTypes_closed, Func.mentionBody, Mention.Closed.enclosed, ih]
    tauto

/-- The signatures of the methods are resolved in front of all bodies. -/
theorem getsOut_struct {reading : Reading} {name fields : Mention} (methods : List Func)
    (closed : fields.Closed) :
    (name ++ fields ++ Func.mentionList reading n methods).GetsOut hidden hiddenType ↔
      (name ++ (fields ++ Param.mentionTypes reading n
        (methods.flatMap fun method => method.params ++ method.results)) ++
          mentionMethods reading n methods).GetsOut hidden hiddenType := by
  have members : ∀ {hidden hiddenType},
      (fields ++ Func.mentionList reading n methods).GetsOut hidden hiddenType ↔
        (fields ++ (Param.mentionTypes reading n
          (methods.flatMap fun method => method.params ++ method.results) ++
            mentionMethods reading n methods)).GetsOut hidden hiddenType := by
    intro hidden hiddenType
    rw [closed.getsOut_append, closed.getsOut_append, getsOut_methods]
  simp only [Mention.append_assoc]
  rw [Mention.getsOut_append, members, ← Mention.getsOut_append]

/-- The signature of a named function is resolved in front of its declaration. No function hides
    the name of a type. -/
theorem getsOut_funcVar {name : String} {params : List Param} {body : Mention} {bareKeys : Bool} :
    (.ofNames n [name] ++ (Param.mentionTypes (.checker bareKeys) n params ++ body)).GetsOut hidden
        hiddenType ↔
      (Param.mentionTypes (.checker bareKeys) n params ++ .ofNames n [name] ++ body).GetsOut hidden
        hiddenType := by
  have closed : (Param.mentionTypes (.checker bareKeys) n params).Closed :=
    Param.mentionTypes_closed params
  have typed : (Param.mentionTypes (.checker bareKeys) n params).uses = [] :=
    TypeSpec.uses_mentionList _
  simp [closed.declares, closed.declaresType, Mention.ofNames, Mention.GetsOut, typed]

end Orders

/-! ## Nodes -/

section Nodes

variable {mention : Mention}

theorem Check.LooksUp.agreeing {what : String} {site : Expr → Site} {expected : Ty}
    {check : Check (Checked Expr Ty)} (looksUp : check.LooksUp base n most mention) :
    (agreeing what site expected check).LooksUp base n most mention :=
  HasNode.agreeing looksUp fun _ _ _ _ => True.intro

theorem Check.LooksUp.expecting {expected : Ty} {infer : Ty → Check (Checked Expr Ty)}
    (looksUp : (infer expected).LooksUp base n most mention) :
    (expecting ctx expected infer).LooksUp base n most mention :=
  looksUp.agreeing

/-- The callee of a conversion is a type, or it is looked up. A name that is no type is looked up
    once more as a value. -/
theorem conversion?_looksUp {callee : Expr} {node : ν}
    {next : Option (Expr × Ty) → Check (Checked ν τ)}
    (asType : ∀ converted, (next (some converted)).LooksUp base n most mention)
    (asValue : (next none).LooksUp base n most (callee.mention (.checker most) n ++ mention)) :
    (given (conversion? ctx callee) node next).LooksUp base n most
      (callee.mention (.checker most) n ++ mention) := by
  intro s s' node' b behind quiet
  obtain ⟨found, s₁, converted, rest⟩ := Quiet.given_inv quiet
  have between := behind.grows converted.grows
  obtain ⟨position, form, type⟩ := callee
  rcases Quiet.conversion?_inv converted with ⟨spec, target, rfl, resolved, rfl⟩ |
    ⟨ident, id, rfl, held, rfl, rfl⟩ | ⟨rfl, rfl⟩
  · obtain ⟨-, first, -⟩ := resolve_looksUp spec s s₁ target behind resolved
    obtain ⟨after, reads, -⟩ := asType _ s₁ s' node' b between rest
    exact ⟨after, first.trans reads, True.intro⟩
  · have first : Reads base n most _ s (s.touch ident.name id) := .touch position held
    cases declared : s.symbols.declaredType? id with
    | some target =>
      rw [declared] at rest
      obtain ⟨after, reads, -⟩ := asType _ _ s' node' b between rest
      exact ⟨after, first.trans reads, True.intro⟩
    | none =>
      rw [declared] at rest
      obtain ⟨after, reads, -⟩ := asValue _ s' node' b between rest
      refine ⟨after, (first.trans reads).of_getsOut_iff ?_ ?_ ?_, True.intro⟩
      · simp [Expr.mention, ExprForm.mention]
      · simp [Expr.mention, ExprForm.mention]
      · simp [Expr.mention, ExprForm.mention, (Mention.Closed.ofUse _ _ _).getsOut_append]
  · exact asValue _ s' node' b behind rest

/-- A literal that is written as an array, a slice or a map is one. -/
theorem compoundType_looksUp (spec : Option TypeSpec) (hint : Ty) (position : Position) :
    HasAttempt (lookups base n most) (compoundType ctx spec hint position)
      (TypeSpec.mentionOption (.checker most) n spec) fun type =>
        TypeSpec.hasValueKeys spec = true → type.isIndexed = true := by
  intro s s' type behind quiet
  obtain ⟨after, reads, -⟩ :=
    resolveOr_looksUp hint spec s s' type behind (Quiet.compoundType_inv quiet)
  exact ⟨after, reads, fun written => compoundType_isIndexed written quiet⟩

theorem Layout.next_keyType? {layout layout' : Layout} {key : Option Expr} {type : Ty}
    {position : Position} (next : layout.next ctx key position = .ok (type, layout')) :
    layout'.keyType?.isSome = layout.keyType?.isSome := by
  rcases Layout.next_inv next with ⟨_, _, _, rfl, rfl⟩ | ⟨rfl, rfl⟩ | ⟨_, rfl, rfl⟩ |
    ⟨_, _, rfl, -, rfl⟩ | ⟨_, _, rfl, -, -, rfl⟩
  all_goals rfl

/-- The name of a field is no value, and may be read as one. -/
theorem Reads.fieldKey {key : Expr} {s : State} (named : key.ident?.isSome = true) :
    Reads base n most (Expr.mentionKey (.checker most) n most (some key)) s s := by
  have closed : (Expr.mentionKey (.checker most) n most (some key)).Closed :=
    Expr.mentionKey_closed (some key)
  refine (Reads.refl s).imp closed.declares closed.declaresType (fun least _ _ out => ?_)
    fun _ _ _ out => absurd out Mention.not_getsOut_empty
  have field : Expr.mentionKey (.checker most) n most (some key) = {} := by
    simp [Expr.mentionKey, least, Option.isSome_iff_ne_none.mp named]
  rw [field] at out
  exact absurd out Mention.not_getsOut_empty

/-- A value that is a bare name may be read as the name of a field. -/
theorem Reads.valueKey {written : Bool} {key : Expr} {s s' : State}
    (reads : Reads base n most (key.mention (.checker most) n) s s') :
    Reads base n most (Expr.mentionKey (.checker most) n (written || most) (some key)) s s' := by
  rw [Expr.mentionKey]
  split
  case isTrue => exact reads
  case isFalse bare =>
    have closed : (key.mention (.checker most) n).Closed := key.mention_closed
    refine reads.imp closed.declares.symm closed.declaresType.symm
      (fun _ _ _ out => absurd out Mention.not_getsOut_empty) fun most _ _ _ => ?_
    simp [most] at bare

/-- Whether what waits for a type looks up what its expression mentions. -/
def Waiting.LooksUp (base : SymbolTable) (n : String) (most : Bool) (value : Waiting) : Prop :=
  ∀ hint : Ty, (value.infer hint).LooksUp base n most (value.expr.mention (.checker most) n)

end Nodes

/-! ## Trees -/

mutual

theorem infer_looksUp (ctx : Context) : ∀ (e : Expr) (hint : Ty),
    (infer ctx e hint).LooksUp base n most (e.mention (.checker most) n)
  | ⟨position, form, type⟩, hint => by
    intro s s' e' found behind quiet
    rw [infer] at quiet
    obtain ⟨⟨form', result⟩, s₁, inside, rest⟩ := quiet.bind_inv
    cases result with
    | error err => cases rest.pure_inv.1
    | ok found' =>
      obtain ⟨same, rfl⟩ := rest.pure_inv
      cases same
      exact inferForm_looksUp ctx position form hint s s' form' found behind inside

theorem inferForm_looksUp (ctx : Context) (position : Position) : ∀ (form : ExprForm) (hint : Ty),
    (inferForm ctx position form hint).LooksUp base n most
      (form.mention (.checker most) n position)
  | .literal literal, hint => HasNode.ok True.intro
  | .blank, hint => HasNode.ok True.intro
  | .compound spec shape elements, hint => by
    rw [inferForm]
    refine HasNode.given (compoundType_looksUp spec hint position) fun type indexed => ?_
    split
    case isTrue empty =>
      obtain rfl := List.isEmpty_iff.mp empty
      exact HasNode.ok True.intro
    case isFalse =>
      refine HasNode.givenUnchanged (Q := fun layout => layout.Keyless elements ∧
        (TypeSpec.hasValueKeys spec = true → layout.keyType?.isSome = true))
        (fun s s' layout behind quiet => ?_) fun layout laidOut => ?_
      · exact ⟨(Quiet.layoutOf_inv quiet).2, layoutOf_keyless quiet,
          fun written => layoutOf_keyType? (indexed written) quiet⟩
      · exact .rebuild (.mapResult (checkElements_looksUp ctx (TypeSpec.hasValueKeys spec) elements
          layout laidOut.1 laidOut.2) fun _ _ => True.intro)
  | .binary op left right, hint => by
    rw [inferForm]
    split
    case isTrue =>
      exact .rebuild (.mapResult (.andThen (infer_looksUp ctx left .bool).expecting fun _ _ =>
        (infer_looksUp ctx right .bool).expecting) fun _ _ => True.intro)
    case isFalse =>
      exact .rebuild (.conclude (.andThen (infer_looksUp ctx left .unknown) fun type _ =>
        (infer_looksUp ctx right type).expecting) fun operand s s' type _ _ quiet =>
          ⟨(Quiet.binaryType_inv quiet).2, True.intro⟩)
  | .unary op operand, hint => by
    cases op with
    | plus | minus =>
      exact .rebuild (.conclude (infer_looksUp ctx operand hint) fun operand s s' type _ _ quiet =>
        ⟨(Quiet.signType_inv quiet).2, True.intro⟩)
    | not => exact .rebuild (infer_looksUp ctx operand .bool).expecting
    | addressOf => exact .rebuild (.mapResult (infer_looksUp ctx operand _) fun _ _ => True.intro)
    | deref =>
      exact .rebuild (.conclude (infer_looksUp ctx operand .unknown)
        fun operand s s' type _ _ quiet => ⟨(Quiet.derefType_inv quiet).2, True.intro⟩)
  | .index left index, hint => by
    rw [inferForm]
    exact .rebuild (.andThen (.conclude (V := fun _ => True) (infer_looksUp ctx left .unknown)
      fun left s s' types _ _ quiet => ⟨(Quiet.indexTypes_inv quiet).2, True.intro⟩)
        fun types _ => .mapResult (infer_looksUp ctx index types.1).expecting fun _ _ => True.intro)
  | .selector left field, hint => by
    rw [inferForm]
    exact .rebuild (.conclude (infer_looksUp ctx left .unknown)
      fun left s s' type _ _ quiet => ⟨(Quiet.selectorType_inv quiet).2, True.intro⟩)
  | .call callee args, hint => by
    rw [inferForm]
    refine conversion?_looksUp (fun converted => ?_) ?_
    · match args with
      | [arg] =>
        refine .of_eq (.rebuild (.mapResult (infer_looksUp ctx arg converted.2) fun _ _ =>
          True.intro)) ?_
        simp [Expr.mentionList]
      | [] => exact HasNode.error
      | _ :: _ :: _ => exact HasNode.error
    · exact .rebuild (.andThen (.conclude (V := fun signature : Signature =>
        args.length = signature.args.length) (infer_looksUp ctx callee .unknown)
          fun callee s s' signature _ _ quiet =>
            ⟨(Quiet.callSignature_inv quiet).2.2, (Quiet.callSignature_inv quiet).2.1.symm⟩)
              fun signature length => .mapResult (expectAll_looksUp ctx args signature.args length)
                fun _ _ => True.intro)
  | .func func, hint => by
    rw [inferForm]
    refine .of_eq (HasNode.given (funcType_looksUp func) fun found fits =>
      HasNode.bind (checkBody_looksUp ctx func found.2 found.1 fits.2 fits.1) fun _ _ =>
        HasNode.ok True.intro) ?_
    rw [ExprForm.mention, Func.mention_eq]
    simp [lookups]
  | .ident ident, hint => by
    rw [inferForm]
    refine .rebuild fun s s' ident' type behind quiet => ?_
    have after := behind.grows quiet.grows
    obtain ⟨id, v, found, -, -, -, rfl⟩ := Quiet.inferIdent_inv quiet
    exact ⟨after, .touch position found, True.intro⟩
  | .type spec, hint => by
    rw [inferForm]
    exact HasNode.error

theorem expectAll_looksUp (ctx : Context) : ∀ (es : List Expr) (types : List Ty),
    es.length = types.length →
      (expectAll ctx es types).LooksUp base n most (Expr.mentionList (.checker most) n es)
  | e :: es, type :: types, length => by
    rw [expectAll]
    exact .rebuild (.andThen (infer_looksUp ctx e type).expecting fun _ _ =>
      expectAll_looksUp ctx es types (Nat.succ.inj length))
  | [], types, _ => HasNode.ok True.intro
  | _ :: _, [], length => nomatch length

theorem waitingAll_looksUp (ctx : Context) : ∀ es : List Expr,
    ∀ value ∈ waitingAll ctx es, value.LooksUp base n most
  | [] => by
    rw [waitingAll]
    exact fun _ member => nomatch member
  | e :: es => by
    rw [waitingAll]
    exact List.forall_mem_cons.mpr ⟨infer_looksUp ctx e, waitingAll_looksUp ctx es⟩

theorem assignAll_looksUp (ctx : Context) : ∀ (targets : List Expr) (values : List Waiting),
    targets.length = values.length → (∀ value ∈ values, value.LooksUp base n most) →
      (assignAll ctx targets values).LooksUp base n most
        (Expr.mentionList (.checker most) n (values.map (·.expr)) ++
          Expr.mentionList (.checker most) n targets)
  | target :: targets, value :: values, length, looksUp => by
    rw [assignAll]
    obtain ⟨first, others⟩ := List.forall_mem_cons.mp looksUp
    -- targets and values are checked in pairs, and read one after the other
    refine HasNode.mono (.rebuild (.andThen (.andThen (infer_looksUp ctx target .unknown)
      fun type _ => Check.LooksUp.expecting (first type)) fun _ _ =>
        assignAll_looksUp ctx targets values (Nat.succ.inj length) others))
          fun reads => Reads.of_closed reads ?_ ?_ ?_
    · exact ((target.mention_closed.append value.expr.mention_closed).append
        ((Expr.mentionList_closed _).append (Expr.mentionList_closed _)))
    · exact (Expr.mentionList_closed _).append (Expr.mentionList_closed _)
    · simp only [lookups, Expr.mentionList, List.map_cons, Mention.append_assoc,
        Mention.Closed.getsOut_append, Expr.mention_closed, Expr.mentionList_closed]
      tauto
  | [], [], _, _ => HasNode.ok True.intro
  | [], _ :: _, length, _ => nomatch length
  | _ :: _, [], length, _ => nomatch length

theorem checkElements_looksUp (ctx : Context) (written : Bool) :
    ∀ (elements : List Element) (layout : Layout), layout.Keyless elements →
      (written = true → layout.keyType?.isSome = true) →
        (checkElements ctx elements layout).LooksUp base n most
          (Element.mentionList (.checker most) n (written || most) elements)
  | [], layout, _, _ => HasNode.ok True.intro
  | ⟨key, value⟩ :: rest, layout, keyless, typed => by
    intro s s' node a behind quiet
    rw [checkElements] at quiet
    obtain ⟨⟨key', result⟩, _, keyed, behindKey⟩ := quiet.bind_inv
    obtain ⟨parts, values, -⟩ := Quiet.rebuild_inv behindKey
    obtain ⟨⟨type, layout'⟩, s₁, asked, checked⟩ := Quiet.given_inv values
    obtain ⟨found, rfl⟩ := Quiet.ofExcept_inv asked
    obtain ⟨_, rfl, next⟩ := Except.bind_eq_ok found
    have between := behind.grows keyed.grows
    have first : Reads base n most (Expr.mentionKey (.checker most) n (written || most) key) s
        s₁ := by
      cases key with
      | none =>
        obtain ⟨-, rfl⟩ := Quiet.pure_inv keyed
        exact .refl _
      | some key =>
        rw [checkKey] at keyed
        split at keyed
        case h_1 untyped =>
          obtain ⟨same, rfl⟩ := Quiet.pure_inv keyed
          obtain ⟨rfl, -⟩ := Prod.mk.inj same
          have unkeyed : ∀ fields, layout ≠ .positional fields := fun fields same =>
            nomatch keyless fields same _ List.mem_cons_self
          have named := Layout.next_ident? untyped unkeyed next
          -- a literal that shows that its keys are values has a type for them
          cases written with
          | false => exact .fieldKey named
          | true => simp [untyped] at typed
        case h_2 keyType asks =>
          obtain ⟨part, inside, -⟩ := Quiet.rebuild_inv keyed
          obtain ⟨_, inside, -⟩ := Quiet.mapResult_inv inside
          have looksUp : (expecting ctx keyType (infer ctx key)).LooksUp base n most
              (key.mention (.checker most) n) := (infer_looksUp ctx key keyType).expecting
          obtain ⟨-, reads, -⟩ := looksUp s s₁ part _ behind inside
          exact .valueKey reads
    have others : ((expecting ctx type (infer ctx value)).andThen rest fun _ =>
        checkElements ctx rest layout').HasNode (lookups base n most) _ fun _ => True :=
      .andThen (infer_looksUp ctx value type).expecting fun _ _ =>
        checkElements_looksUp ctx written rest layout' (keyless.next next)
          fun written => (Layout.next_keyType? next).trans (typed written)
    obtain ⟨after, reads, -⟩ := others s₁ s' parts a between checked
    refine ⟨after, ?_, True.intro⟩
    rw [Element.mentionList, Mention.append_assoc]
    exact first.trans reads

theorem checkBody_looksUp (ctx : Context) : ∀ (func : Func) (signature : Signature)
    (receiver : Option Ty), Fits func signature → receiver.isSome = func.receiver.isSome →
      (checkBody ctx func signature receiver).LooksUpAll base n most
        (func.mentionBody (.checker most) n)
  | ⟨name, receiver, params, results, body⟩, ⟨args, types⟩, receiverType, fits, received => by
    rw [checkBody]
    refine .of_eq (withScope_looksUp (.bind (declareReceiver_looksUp received) fun _ _ =>
      .bind (declareParams_looksUp params args fits.args) fun _ _ =>
        .bind (declareParams_looksUp results types fits.results) fun _ _ =>
          .bind (checkStatements_looksUp _ body) fun _ _ => .pure True.intro)) ?_
    simp [lookups, Func.mentionBody, Param.mentionNames_append, Mention.append_assoc]

theorem checkMethods_looksUp (ctx : Context) (this : Ty) : ∀ (methods : List Func)
    (signatures : List Signature), List.Forall₂ Fits methods signatures →
      (checkMethods ctx this methods signatures).LooksUp base n most
        (mentionMethods (.checker most) n methods)
  | method :: methods, signature :: signatures, fits => by
    obtain ⟨first, others⟩ := List.forall₂_cons.mp fits
    rw [checkMethods]
    refine .of_eq (HasNode.given (receiverType_looksUp method.receiver) fun receiver received =>
      HasNode.bind (checkBody_looksUp ctx method signature _ first (by simpa using received))
        fun _ _ => HasNode.rebuild (checkMethods_looksUp ctx this methods signatures others)) ?_
    simp [lookups, mentionMethods, Mention.append_assoc]
  | [], _, _ => HasNode.ok True.intro
  | _ :: _, [], fits => nomatch fits

theorem checkStatements_looksUp (ctx : Context) : ∀ block : Block,
    (checkStatements ctx block).LooksUpAll base n most
      (Stmt.mentionList (.checker most) n block.statements)
  | ⟨statements, _⟩ => by
    rw [checkStatements]
    refine .of_eq (Has.bind declareLabels_looksUp fun found length =>
      Has.bind (checkEach_looksUp { ctx with labels := found.1 :: ctx.labels } statements found.2
        length.symm) fun _ _ => Has.pure True.intro) ?_
    simp [lookups]

theorem checkEach_looksUp (ctx : Context) : ∀ (statements : List Stmt)
    (labels : List (Option StmtLabel)), statements.length = labels.length →
      (checkEach ctx statements labels).LooksUpAll base n most
        (Stmt.mentionList (.checker most) n statements)
  | s :: rest, label :: labels, length => by
    rw [checkEach]
    refine .of_eq (Has.bind (checkStmt_looksUp ctx s).recorded fun _ _ =>
      Has.bind (checkEach_looksUp ctx rest labels (Nat.succ.inj length)) fun _ _ =>
        Has.pure True.intro) ?_
    simp [lookups, Stmt.mentionList]
  | [], _, _ => Has.pure True.intro
  | _ :: _, [], length => nomatch length

theorem checkStmt_looksUp (ctx : Context) : ∀ s : Stmt,
    (checkStmt ctx s).LooksUp base n most (s.mention (.checker most) n)
  | ⟨id, position, label, form⟩ => by
    rw [checkStmt]
    intro s s' node a behind quiet
    obtain ⟨⟨form', result⟩, s₁, inside, rest⟩ := quiet.bind_inv
    obtain ⟨same, rfl⟩ := rest.pure_inv
    cases same
    exact checkForm_looksUp ctx id position _ form s s' form' a behind inside

theorem checkForm_looksUp (ctx : Context) (id : StmtId) (position : Position)
    (label : Option String) : ∀ form : StmtForm,
      (checkForm ctx id position label form).LooksUp base n most (form.mention (.checker most) n)
  | .assign lhs rhs op => by
    rw [checkForm]
    split
    case h_1 => exact HasNode.error
    case h_2 =>
    split
    case h_1 binary _ =>
      match lhs, rhs with
      | [target], [value] =>
        refine HasNode.mono (.rebuild (.conclude (.andThen (infer_looksUp ctx target .unknown)
          fun type _ => (infer_looksUp ctx value type).expecting) fun operand s s' _ _ _ quiet =>
            ⟨Quiet.checkOperand_inv quiet, True.intro⟩)) fun reads => Reads.of_closed reads ?_ ?_ ?_
        · exact target.mention_closed.append value.mention_closed
        · exact (Expr.mentionList_closed _).append (Expr.mentionList_closed _)
        · simp only [lookups, StmtForm.mention, Expr.mentionList, Mention.append_empty,
            Mention.Closed.getsOut_append, Expr.mention_closed]
          exact or_comm
      | [], rhs => exact HasNode.error
      | target :: second :: lhs, rhs => exact HasNode.error
      | [target], [] => exact HasNode.error
      | [target], value :: second :: rhs => exact HasNode.error
    case h_2 =>
    dsimp only
    split
    case isTrue length =>
      have waiting := congrArg List.length (waitingAll_exprs ctx rhs)
      rw [List.length_map] at waiting
      have values : ∀ value ∈ waitingAll ctx rhs, value.LooksUp base n most :=
        waitingAll_looksUp ctx rhs
      have pairs := assignAll_looksUp ctx lhs (waitingAll ctx rhs) (length.trans waiting.symm) values
      rw [waitingAll_exprs] at pairs
      exact .rebuild pairs
    case isFalse =>
    match rhs with
    | [value] =>
      refine HasNode.of_eq (.rebuild (.andThen (infer_looksUp ctx value .unknown)
        fun type _ => ?_)) (w := value.mention (.checker most) n ++
          Expr.mentionList (.checker most) n lhs) ?_
      · cases type with
        | tuple members =>
          dsimp only
          split
          case isTrue length => exact expectAll_looksUp ctx lhs members length.symm
          case isFalse => exact HasNode.error
        | _ => exact HasNode.error
      · simp only [StmtForm.mention, Expr.mentionList, Mention.append_empty]
    | [] => exact HasNode.error
    | value :: second :: rhs => exact HasNode.error
  | .struct ⟨name, fields, methods, symbol⟩ => by
    rw [checkForm]
    refine HasNode.mono (.rebuild (declareType_looksUp (structTarget_looksUp fields methods)
      fun id signatures fits => checkMethods_looksUp ctx (.custom name id) methods signatures fits))
        fun reads => Reads.of_getsOut_iff reads ?_ ?_ ?_
    · simp [StmtForm.mention, (mentionMethods_closed methods).declares,
        (Func.mentionList_closed methods).declares, (Param.mentionTypes_closed _).declares]
    · simp [StmtForm.mention, (mentionMethods_closed methods).declaresType,
        (Func.mentionList_closed methods).declaresType, (Param.mentionTypes_closed _).declaresType]
    · exact getsOut_struct methods (TypeSpec.mentionList_closed _)
  | .typeAlias decl => by
    rw [checkForm, checkAlias]
    have rooted : ∀ (id : SymbolId) (a : Unit), True →
        Check.LooksUp base n most
          (do return ((), ← (aliasRoot ctx id decl.name position).run)) {} := by
      intro id _ _ s s' node a behind quiet
      obtain ⟨result, s₁, leads, rest⟩ := quiet.bind_inv
      obtain ⟨same, rfl⟩ := rest.pure_inv
      cases same
      obtain rfl := Quiet.aliasRoot_inv leads
      exact ⟨behind, .refl _, True.intro⟩
    exact .of_eq (.rebuild (.rebuild (declareType_looksUp (aliasTarget_looksUp decl.target) rooted)))
      (Mention.append_empty _)
  | .var vars => by
    rw [checkForm]
    exact .rebuild (checkVars_looksUp ctx id vars)
  | .pass => HasNode.ok True.intro
  | .cond branches => by
    rw [checkForm]
    exact .of_eq (HasNode.bind (checkBranches_looksUp ctx id branches) fun _ _ =>
      HasNode.ok True.intro) (Mention.append_empty _)
  | .loop ⟨header, condition, step, body⟩ => by
    rw [checkForm]
    refine .of_eq (withScope_looksUp_node (HasNode.bind (checkHeader_looksUp ctx id header)
      fun _ _ => HasNode.bind (checkCondition_looksUp ctx condition) fun _ _ =>
        HasNode.bind (checkStep_looksUp ctx step) fun _ _ =>
          HasNode.bind (withScope_looksUp (checkStatements_looksUp
            { ctx with loops := (id, label) :: ctx.loops } body)) fun _ _ =>
              HasNode.ok True.intro)) ?_
    simp [lookups, StmtForm.mention, Block.mention_eq, Mention.append_assoc]
  | .expr e => by
    rw [checkForm]
    exact .rebuild (.mapResult (infer_looksUp ctx e .unknown) fun _ _ => True.intro)
  | .jump jump => by
    rw [checkForm]
    intro s s' node a behind quiet
    obtain ⟨-, rfl⟩ := quiet.pure_inv
    exact ⟨behind, .refl _, True.intro⟩
  | .ret values => by
    rw [checkForm]
    refine .rebuild (HasNode.givenUnchanged (Q := fun types => values.length = types.length)
      (fun s s' types _ quiet => ?_) fun types length => expectAll_looksUp ctx values types length)
    obtain ⟨returned, rfl⟩ := Quiet.ofExcept_inv quiet
    exact ⟨rfl, Quiet.length_returnTypes returned⟩

theorem checkVars_looksUp (ctx : Context) (id : StmtId) : ∀ vars : VarForm,
    (checkVars ctx id vars).LooksUp base n most (vars.mention (.checker most) n)
  | ⟨vars, isFunc⟩ => by
    rw [checkVars]
    intro s s' node a behind quiet
    obtain ⟨read, s₁, state, rest⟩ := quiet.bind_inv
    obtain ⟨-, rfl⟩ := Quiet.state_inv state
    obtain ⟨⟨vars', result⟩, s₂, inside, after⟩ := rest.bind_inv
    obtain ⟨_, s₃, noting, last⟩ := after.bind_inv
    obtain ⟨-, rfl⟩ := last.pure_inv
    obtain ⟨⟨b, rfl⟩, rfl⟩ := Quiet.noteForm_inv noting
    cases isFunc with
    | true => exact checkFuncs_looksUp ctx id vars s₁ s' vars' b behind inside
    | false => exact checkPlain_looksUp ctx id vars s₁ s' vars' b behind inside

theorem checkPlain_looksUp (ctx : Context) (id : StmtId) : ∀ vars : List VarDecl,
    (checkVarList ctx id false vars).LooksUp base n most (VarDecl.mentionEach (.checker most) n vars)
  | [] => HasNode.ok True.intro
  | ⟨name, position, spec, value, symbol⟩ :: rest => by
    rw [checkVarList]
    have first := checkPlainVar_looksUp ctx id ⟨name, position, spec, value, symbol⟩
    exact .rebuild (.alongside (.noted first) (checkPlain_looksUp ctx id rest))

theorem checkPlainVar_looksUp (ctx : Context) (id : StmtId) : ∀ decl : VarDecl,
    (checkPlainVar ctx id decl).LooksUp base n most
      (TypeSpec.mentionOption (.checker most) n decl.spec ++
        Expr.mentionOption (.checker most) n decl.value ++ .ofNames n [decl.name])
  | ⟨name, position, spec, value, symbol⟩ => by
    rw [checkPlainVar]
    intro s s' node a behind quiet
    obtain ⟨result, s₁, resolved, rest⟩ := quiet.bind_inv
    cases result with
    | error err => cases (Quiet.declareVar_inv rest).1
    | ok declared =>
      obtain ⟨between, first, -⟩ := resolveOr_looksUp .unknown spec s s₁ declared behind resolved
      obtain ⟨⟨value', found⟩, s₂, inside, last⟩ := rest.bind_inv
      cases found with
      | error err => cases (Quiet.declareVar_inv last).1
      | ok type =>
        obtain ⟨between', second, -⟩ :=
          checkInit_looksUp ctx name position declared value s₁ s₂ value' type between inside
        obtain ⟨after, third, -⟩ := declareVar_looksUp s₂ s' node a between' last
        exact ⟨after, (first.trans second).trans third, True.intro⟩

theorem checkInit_looksUp (ctx : Context) (name : String) (position : Position) (declared : Ty) :
    ∀ value : Option Expr, (checkInit ctx name position declared value).LooksUp base n most
      (Expr.mentionOption (.checker most) n value)
  | none => by
    rw [checkInit]
    split
    · exact HasNode.ok True.intro
    · exact HasNode.error
  | some e => by
    rw [checkInit]
    exact .rebuild (infer_looksUp ctx e declared).agreeing

theorem checkFuncs_looksUp (ctx : Context) (id : StmtId) : ∀ vars : List VarDecl,
    (checkVarList ctx id true vars).LooksUp base n most (VarDecl.mentionFuncs (.checker most) n vars)
  | [] => HasNode.ok True.intro
  | ⟨name, position, spec, value, symbol⟩ :: rest => by
    rw [checkVarList]
    have first := checkFuncVar_looksUp ctx id ⟨name, position, spec, value, symbol⟩
    exact .rebuild (.alongside (.noted first) (checkFuncs_looksUp ctx id rest))

theorem checkFuncVar_looksUp (ctx : Context) (id : StmtId) : ∀ decl : VarDecl,
    (checkFuncVar ctx id decl).LooksUp base n most
      (.ofNames n [decl.name] ++ Expr.mentionOption (.checker most) n decl.value)
  | ⟨name, position, spec, none, symbol⟩ => HasNode.error
  | ⟨name, position, spec, some ⟨valuePosition, form, type⟩, symbol⟩ => by
    cases form with
    | func func =>
      rw [checkFuncVar]
      intro s s' node a behind quiet
      obtain ⟨result, s₁, resolved, rest⟩ := quiet.bind_inv
      cases result with
      | error err => cases (Quiet.declareVar_inv rest).1
      | ok found =>
        obtain ⟨between, first, received, fits⟩ := funcType_looksUp func s s₁ found behind resolved
        obtain ⟨⟨decl', declared⟩, s₂, declaring, checking⟩ := rest.bind_inv
        cases declared with
        | error err => cases checking.pure_inv.1
        | ok declared =>
          obtain ⟨between', second, -⟩ := declareVar_looksUp s₁ s₂ decl' declared between declaring
          obtain ⟨func', s₃, inside, last⟩ := checking.bind_inv
          obtain ⟨-, rfl⟩ := last.pure_inv
          obtain ⟨after, third, -⟩ :=
            checkBody_looksUp ctx func found.2 found.1 fits received s₂ s' func' between' inside
          -- the name is declared between the signature and the body
          refine ⟨after, ((first.trans second).trans third).of_getsOut_iff ?_ ?_ ?_, True.intro⟩
          · simp [Expr.mentionOption, Expr.mention, ExprForm.mention, func.mention_closed.declares,
              (Param.mentionTypes_closed _).declares, Func.mentionBody]
          · simp [Expr.mentionOption, Expr.mention, ExprForm.mention,
              func.mention_closed.declaresType, (Param.mentionTypes_closed _).declaresType,
              Func.mentionBody]
          · rw [Expr.mentionOption, Expr.mention, ExprForm.mention, Func.mention_eq]
            exact getsOut_funcVar
    | _ => exact HasNode.error

theorem checkHeader_looksUp (ctx : Context) (id : StmtId) : ∀ header : Option VarForm,
    (checkHeader ctx id header).LooksUpAll base n most
      (VarForm.mentionOption (.checker most) n header)
  | none => Has.pure True.intro
  | some vars => by
    rw [checkHeader]
    exact .of_eq (Has.bind (checkVars_looksUp ctx id vars).recorded fun _ _ => Has.pure True.intro)
      (Mention.append_empty _)

theorem checkCondition_looksUp (ctx : Context) : ∀ condition : Option Expr,
    (checkCondition ctx condition).LooksUpAll base n most
      (Expr.mentionOption (.checker most) n condition)
  | none => Has.pure True.intro
  | some e => by
    rw [checkCondition]
    exact .of_eq (Has.bind (infer_looksUp ctx e .bool).expecting.recorded fun _ _ =>
      Has.pure True.intro) (Mention.append_empty _)

theorem checkStep_looksUp (ctx : Context) : ∀ step : Option Stmt,
    (checkStep ctx step).LooksUpAll base n most (Stmt.mentionOption (.checker most) n step)
  | none => Has.pure True.intro
  | some s => by
    rw [checkStep]
    exact .of_eq (Has.bind (checkStmt_looksUp ctx s).recorded fun _ _ => Has.pure True.intro)
      (Mention.append_empty _)

theorem checkBranches_looksUp (ctx : Context) (id : StmtId) : ∀ branches : List Branch,
    (checkBranches ctx id branches).LooksUpAll base n most
      (Branch.mentionList (.checker most) n branches)
  | [] => Has.pure True.intro
  | ⟨header, condition, body⟩ :: rest => by
    rw [checkBranches]
    refine .of_eq (Has.bind (withScope_looksUp (V := fun _ => True)
      (Has.bind (checkHeader_looksUp ctx id header) fun _ _ =>
        Has.bind (checkCondition_looksUp ctx condition) fun _ _ =>
          Has.bind (withScope_looksUp (checkStatements_looksUp ctx body)) fun _ _ =>
            Has.pure True.intro)) fun _ _ =>
              Has.bind (checkBranches_looksUp ctx id rest) fun _ _ => Has.pure True.intro) ?_
    simp [lookups, Branch.mentionList, Block.mention_eq, Mention.append_assoc]

end

end PackageCheck.Typing
