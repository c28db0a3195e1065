import PackageCheck.Proofs.Typing.Outlook

/-! # Rules that come to the same twice

No rule of a single expression comes to anything but what the outlook says of the names it looks up and
of the types it is given. -/

namespace PackageCheck.Typing

open Check

variable {outlook : Outlook} {ctx : Context}

/-! ## Specifications -/

theorem resolveName_fixed (name : String) (position : Position) :
    FixedAttempt outlook (resolveName ctx name position) (Ty.ValidIn outlook.world) := by
  refine .reads (fun s shares => ?_) ?_
  · rw [shares.findType?_eq, shares.scopes]
    cases found : outlook.scopes.findType? outlook.world.symbols name with
    | none =>
      simp only [Outlook.state, found]
      rfl
    | some id =>
      have declared := shares.declaredType?_eq (Outlook.exists_of_findType? found)
      simp only [Outlook.state, found, declared]
  · split
    · refine .touched ?_
      split
      case h_1 type declared =>
        exact .succeed ((SymbolTable.keptIn_symbols _).validIn_declaredType? declared)
      case h_2 => exact .fail
    · split
      · exact .fail
      · exact .fail

mutual

theorem resolve_fixed : ∀ spec : TypeSpec,
    FixedAttempt outlook (resolve ctx spec) (Ty.ValidIn outlook.world)
  | .named name position => by
    rw [resolve]
    exact resolveName_fixed name position
  | .array size of => by
    rw [resolve]
    exact .attempt (resolve_fixed of) fun type valid => .succeed valid
  | .slice of => by
    rw [resolve]
    exact .attempt (resolve_fixed of) fun type valid => .succeed valid
  | .map key value => by
    rw [resolve]
    refine .attempt (resolve_fixed key) fun keyType validKey => ?_
    exact .attempt (resolve_fixed value) fun type valid => .succeed ⟨validKey, valid⟩
  | .pointer pointee => by
    rw [resolve]
    exact .attempt (resolve_fixed pointee) fun type valid => .succeed valid
  | .tuple members => by
    rw [resolve]
    exact .attempt (resolveList_fixed members) fun types valid => .succeed valid
  | .func args results => by
    rw [resolve]
    refine .attempt (resolveList_fixed args) fun argTypes validArgs => ?_
    exact .attempt (resolveList_fixed results) fun types valid => .succeed ⟨validArgs, valid⟩
  | .blank => by
    rw [resolve]
    exact .succeed True.intro

theorem resolveList_fixed : ∀ specs : List TypeSpec,
    FixedAttempt outlook (resolveList ctx specs) (Ty.AllValidIn outlook.world)
  | [] => by
    rw [resolveList]
    exact .succeed True.intro
  | spec :: rest => by
    rw [resolveList]
    refine .attempt (resolve_fixed spec) fun type own => ?_
    exact .attempt (resolveList_fixed rest) fun types others => .succeed ⟨own, others⟩

end

theorem resolveOr_fixed {absent : Ty} (spec : Option TypeSpec) (own : absent.ValidIn outlook.world) :
    FixedAttempt outlook (resolveOr ctx absent spec) (Ty.ValidIn outlook.world) := by
  cases spec with
  | none => exact .succeed own
  | some spec => exact resolve_fixed spec

theorem receiverType_fixed (receiver : Option Param) :
    FixedAttempt outlook (receiverType ctx receiver) fun _ => True := by
  cases receiver with
  | none => exact .succeed True.intro
  | some receiver => exact .attempt (resolve_fixed _) fun _ _ => .succeed True.intro

theorem signature_fixed (params results : List Param) :
    FixedAttempt outlook (signature ctx params results) (Signature.ValidIn outlook.world) := by
  refine .attempt (resolveList_fixed _) fun args validArgs => ?_
  exact .attempt (resolveList_fixed _) fun types valid => .succeed ⟨validArgs, valid⟩

theorem funcType_fixed (func : Func) :
    FixedAttempt outlook (funcType ctx func) fun found => found.2.ValidIn outlook.world := by
  refine .attempt (receiverType_fixed _) fun receiver _ => ?_
  exact .attempt (signature_fixed _ _) fun found valid => .succeed valid

/-! ## Names -/

/-- A name is bound to the same symbol, which is what it was. -/
theorem inferIdent_fixed (ident : Ident) (position : Position) :
    (inferIdent ctx ident position).FixedNode outlook (Ty.ValidIn outlook.world) := by
  refine Fixed.reads (fun s shares => ?_) ?_
  · rw [shares.scopes]
    cases found : outlook.scopes.find? ident.name with
    | none => simp only [Outlook.state, found]
    | some id => simp only [Outlook.state, found, shares.get?_eq found]
  · split
    · exact FixedNode.error
    case h_2 id found =>
      refine Fixed.touched ?_
      split
      case h_1 v held => exact FixedNode.ok (outlook.symbols id _ held).1
      case h_2 => exact FixedNode.error
      case h_3 => exact FixedNode.error

theorem conversion?_fixed (callee : Expr) :
    FixedAttempt outlook (conversion? ctx callee) fun found =>
      ∀ target, found = some target → target.2.ValidIn outlook.world := by
  have unconverted (target : Expr × Ty) (same : none = some target) :
      target.2.ValidIn outlook.world := absurd same.symm (Option.some_ne_none _)
  unfold conversion?
  split
  case h_1 spec written =>
    refine .attempt (resolve_fixed spec) fun type valid => .succeed fun target same => ?_
    cases same
    exact valid
  case h_2 ident written =>
    refine .reads (fun s shares => ?_) ?_
    · rw [shares.scopes]
      cases found : outlook.scopes.find? ident.name with
      | none => simp only [Outlook.state, found]
      | some id =>
        have declared := shares.declaredType?_eq (Outlook.exists_of_find? found)
        simp only [Outlook.state, found, declared]
    · split
      · exact .succeed unconverted
      · refine .touched ?_
        split
        · exact .succeed unconverted
        case h_2 type declared =>
          refine .succeed fun target same => ?_
          cases same
          exact (SymbolTable.keptIn_symbols _).validIn_declaredType? declared
  case h_3 => exact .succeed unconverted

/-! ## Operands -/

/-- The root of a type is the one that it has in the outlook. -/
theorem underlying_yields {type : Ty} (position : Position) (own : type.ValidIn outlook.world) :
    YieldsAttempt outlook (underlying ctx type position)
      (outlook.world.symbols.underlying type).toOption := by
  refine .reads (fun s shares => ?_) ?_
  · simp only [Outlook.state, shares.underlying_eq own]
  · simp only [Outlook.state]
    cases outlook.world.symbols.underlying type with
    | ok root => exact .pure rfl
    | error err => exact .pure rfl

theorem underlying_fixed {type : Ty} (position : Position) (own : type.ValidIn outlook.world) :
    FixedAttempt outlook (underlying ctx type position) (Ty.ValidIn outlook.world) := by
  refine ⟨_, fun root same => ?_, underlying_yields position own⟩
  exact outlook.symbols.underlying own (Except.toOption_eq_some.mp same)

/-- Whether arithmetic is defined on what is behind a type, as an outcome. -/
def Outlook.operand? (outlook : Outlook) (allowString : Bool) (type : Ty) : Option Unit :=
  (outlook.world.symbols.underlying type).toOption.bind fun root =>
    if isArithmetic allowString root then some () else none

theorem checkOperand_yields {type : Ty} (op : String) (allowString : Bool) (position : Position)
    (own : type.ValidIn outlook.world) :
    YieldsAttempt outlook (checkOperand ctx op allowString type position)
      (outlook.operand? allowString type) := by
  refine .attempt (underlying_yields position own) fun root _ => ?_
  cases isArithmetic allowString root with
  | true => exact .pure rfl
  | false => exact .pure rfl

theorem checkOperand_fixed {type : Ty} (op : String) (allowString : Bool) (position : Position)
    (own : type.ValidIn outlook.world) :
    FixedAttempt outlook (checkOperand ctx op allowString type position) fun _ => True :=
  ⟨_, fun _ _ => True.intro, checkOperand_yields op allowString position own⟩

theorem binaryType_fixed {operand : Ty} (op : BinaryOp) (position : Position)
    (own : operand.ValidIn outlook.world) :
    FixedAttempt outlook (binaryType ctx op operand position) (Ty.ValidIn outlook.world) := by
  unfold binaryType
  split
  · exact .succeed True.intro
  · exact .attempt (checkOperand_fixed _ _ _ own) fun _ _ => .succeed own

theorem signType_fixed {operand : Ty} (op : UnaryOp) (position : Position)
    (own : operand.ValidIn outlook.world) :
    FixedAttempt outlook (signType ctx op operand position) (Ty.ValidIn outlook.world) :=
  .attempt (checkOperand_fixed _ _ _ own) fun _ _ => .succeed own

theorem derefType_fixed {operand : Ty} (position : Position) (own : operand.ValidIn outlook.world) :
    FixedAttempt outlook (derefType ctx operand position) (Ty.ValidIn outlook.world) := by
  refine .attempt (underlying_fixed _ own) fun root valid => ?_
  split
  · exact .succeed valid
  · exact .fail

/-! ## Members -/

theorem indexTypes_fixed {left : Ty} (position : Position) (own : left.ValidIn outlook.world) :
    FixedAttempt outlook (indexTypes ctx left position) fun found =>
      found.1.ValidIn outlook.world ∧ found.2.ValidIn outlook.world := by
  refine .attempt (underlying_fixed _ own) fun root valid => ?_
  split
  · exact .succeed ⟨True.intro, valid⟩
  · exact .succeed ⟨True.intro, valid⟩
  · exact .succeed valid
  · exact .succeed ⟨True.intro, True.intro⟩
  · exact .fail

theorem selectorType_fixed {left : Ty} (member : String) (position : Position)
    (own : left.ValidIn outlook.world) :
    FixedAttempt outlook (selectorType ctx left member position) (Ty.ValidIn outlook.world) := by
  have reached : FixedAttempt outlook (memberBase ctx left position)
      (Ty.ValidIn outlook.world) := by
    refine .reads (fun s shares => ?_) ?_
    · simp only [Outlook.state, shares.memberBase_eq own]
    · split
      case h_1 base found => exact .succeed (outlook.symbols.memberBase own found)
      case h_2 => exact .fail
  refine .attempt reached fun base valid => ?_
  split
  case h_1 type typed => exact .succeed (memberType?_valid valid typed)
  case h_2 => exact .fail

theorem callSignature_fixed {callee : Ty} (count : Nat) (position : Position)
    (own : callee.ValidIn outlook.world) :
    FixedAttempt outlook (callSignature ctx callee count position)
      (Signature.ValidIn outlook.world) := by
  refine .attempt (underlying_fixed _ own) fun root valid => ?_
  split
  · split
    · exact .succeed valid
    · exact .fail
  · exact .fail

/-! ## Layouts -/

theorem layoutOf_fixed {type : Ty} (elements : List Element) (position : Position)
    (own : type.ValidIn outlook.world) :
    FixedAttempt outlook (layoutOf ctx type elements position)
      (Layout.ValidIn outlook.world) := by
  refine .attempt (underlying_fixed _ own) fun root valid => ?_
  split
  · exact .succeed valid
  · exact .succeed valid
  · exact .succeed valid
  · exact .ofExcept (structLayout_valid valid _ _)
  · exact .fail

theorem compoundType_fixed {hint : Ty} (spec : Option TypeSpec) (position : Position)
    (own : hint.ValidIn outlook.world) :
    FixedAttempt outlook (compoundType ctx spec hint position) (Ty.ValidIn outlook.world) := by
  refine .attempt (resolveOr_fixed spec own) fun type valid => ?_
  split
  · exact .succeed valid
  · exact .fail

end PackageCheck.Typing
