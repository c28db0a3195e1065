import PackageCheck.Codec.Operator
import PackageCheck.Codec.Ty
import PackageCheck.Codec.TypeSpec

/-! # Stored trees

The stored forms of expressions, statements and files. Every field is written, in a fixed order.
In reading, what the checker would find out may be left out. Reading takes the style in which the
data of cases may be given, and recurs on a bound for the nesting, which the entry points take from
the value itself. -/

namespace PackageCheck

/-! ## Writing leaves -/

/-- The stored form of a literal. -/
def Literal.toJson (literal : Literal) : Json :=
  .obj [("kind", .str literal.kind.tag), ("value", .str literal.text)]

/-- The stored form of a name. -/
def Ident.toJson : Ident → Json
  | ⟨name, none⟩ => .obj [("binding", .tagged "Unbound" (.obj [("name", .str name)]))]
  | ⟨name, some symbol⟩ =>
    .obj [("binding", .tagged "Bound" (.obj [("name", .str name), ("object", symbol.toJson)]))]

/-- The stored form of a parameter. -/
def Param.toJson (param : Param) : Json :=
  .obj [("name", .ofOption .str param.name), ("position", param.position.toJson),
    ("type_spec", param.spec.toJson), ("object", .ofOption SymbolId.toJson param.symbol)]

/-- The stored form of a declared field. -/
def FieldDecl.toJson (field : FieldDecl) : Json :=
  .obj [("name", .str field.name), ("position", field.position.toJson),
    ("type_spec", field.spec.toJson)]

/-- The stored form of the declaration of a name for a type. -/
def AliasDecl.toJson (decl : AliasDecl) : Json :=
  .obj [("name", .str decl.name), ("aliased", decl.target.toJson),
    ("object", .ofOption SymbolId.toJson decl.symbol)]

/-- The stored form of a label. -/
def StmtLabel.toJson (label : StmtLabel) : Json :=
  .obj [("name", .str label.name), ("object", .ofOption SymbolId.toJson label.symbol)]

/-- The stored form of a jump. -/
def Jump.toJson (jump : Jump) : Json :=
  .obj [("kind", .str jump.kind.tag), ("label", .ofOption .str jump.label),
    ("goto_label", .ofOption SymbolId.toJson jump.labelSymbol),
    ("target", .ofOption StmtId.toJson jump.target)]

/-! ## Names of forms -/

/-- The stored name of a form of expressions. -/
def ExprForm.tag : ExprForm → String
  | .literal _ => "Literal"
  | .blank => "Blank"
  | .compound _ _ _ => "Compound"
  | .binary _ _ _ => "Binary"
  | .unary _ _ => "Unary"
  | .index _ _ => "Index"
  | .selector _ _ => "Selector"
  | .call _ _ => "Call"
  | .func _ => "Func"
  | .ident _ => "Ident"
  | .type _ => "Type"

/-- The stored name of a form of statements. -/
def StmtForm.tag : StmtForm → String
  | .assign _ _ _ => "Assign"
  | .struct _ => "Struct"
  | .typeAlias _ => "Type"
  | .var _ => "Var"
  | .pass => "Pass"
  | .cond _ => "If"
  | .loop _ => "For"
  | .expr _ => "Expr"
  | .jump _ => "Branch"
  | .ret _ => "Return"

/-! ## Writing trees -/

mutual

/-- The stored form of an expression. -/
def Expr.toJson : Expr → Json
  | ⟨position, form, type⟩ =>
    .obj [("position", position.toJson), ("kind", form.toJson), ("type", type.toJson)]

/-- The stored form of a form of expressions. -/
def ExprForm.toJson : ExprForm → Json
  | .literal literal => .tagged "Literal" literal.toJson
  | .blank => .str "Blank"
  | .compound spec shape elements =>
    .tagged "Compound" (.obj [("type_spec", .ofOption TypeSpec.toJson spec),
      ("kind", .str shape.tag), ("elements", .arr (Element.toJsonList elements))])
  | .binary op left right =>
    .tagged "Binary" (.obj [("op", .str op.tag), ("left", left.toJson), ("right", right.toJson)])
  | .unary op operand =>
    .tagged "Unary" (.obj [("op", .str op.tag), ("operand", operand.toJson)])
  | .index left index => .tagged "Index" (.obj [("left", left.toJson), ("index", index.toJson)])
  | .selector left field =>
    .tagged "Selector" (.obj [("left", left.toJson), ("field", .str field)])
  | .call callee args =>
    .tagged "Call" (.obj [("callee", callee.toJson), ("args", .arr (Expr.toJsonList args))])
  | .func func => .tagged "Func" func.toJson
  | .ident ident => .tagged "Ident" ident.toJson
  | .type spec => .tagged "Type" spec.toJson

/-- The stored forms of expressions. -/
def Expr.toJsonList : List Expr → List Json
  | [] => []
  | e :: rest => e.toJson :: Expr.toJsonList rest

/-- The stored form of an expression that may be absent. -/
def Expr.toJsonOption : Option Expr → Json
  | none => .null
  | some e => e.toJson

/-- The stored forms of elements. -/
def Element.toJsonList : List Element → List Json
  | [] => []
  | ⟨key, value⟩ :: rest =>
    .obj [("key", Expr.toJsonOption key), ("value", value.toJson)] :: Element.toJsonList rest

/-- The stored form of a function. -/
def Func.toJson : Func → Json
  | ⟨name, receiver, params, results, body⟩ =>
    .obj [("name", .ofOption .str name), ("receiver", .ofOption Param.toJson receiver),
      ("params", .ofList Param.toJson params), ("results", .ofList Param.toJson results),
      ("body", body.toJson)]

/-- The stored forms of functions. -/
def Func.toJsonList : List Func → List Json
  | [] => []
  | func :: rest => func.toJson :: Func.toJsonList rest

/-- The stored form of a block. -/
def Block.toJson : Block → Json
  | ⟨statements, labels⟩ =>
    .obj [("statements", .arr (Stmt.toJsonList statements)),
      ("labels", labels.toJson SymbolId.toJson)]

/-- The stored form of a statement. -/
def Stmt.toJson : Stmt → Json
  | ⟨id, position, label, form⟩ =>
    .obj [("id", id.toJson), ("position", position.toJson),
      ("label", .ofOption StmtLabel.toJson label), ("kind", form.toJson)]

/-- The stored forms of statements. -/
def Stmt.toJsonList : List Stmt → List Json
  | [] => []
  | s :: rest => s.toJson :: Stmt.toJsonList rest

/-- The stored form of a statement that may be absent. -/
def Stmt.toJsonOption : Option Stmt → Json
  | none => .null
  | some s => s.toJson

/-- The stored form of a form of statements. -/
def StmtForm.toJson : StmtForm → Json
  | .assign lhs rhs op =>
    .tagged "Assign" (.obj [("lhs", .arr (Expr.toJsonList lhs)),
      ("rhs", .arr (Expr.toJsonList rhs)), ("op", .str op.tag)])
  | .struct ⟨name, fields, methods, symbol⟩ =>
    .tagged "Struct" (.obj [("name", .str name), ("fields", .ofList FieldDecl.toJson fields),
      ("methods", .arr (Func.toJsonList methods)),
      ("object", .ofOption SymbolId.toJson symbol)])
  | .typeAlias decl => .tagged "Type" decl.toJson
  | .var vars => .tagged "Var" vars.toJson
  | .pass => .str "Pass"
  | .cond branches => .tagged "If" (.obj [("branches", .arr (Branch.toJsonList branches))])
  | .loop ⟨header, condition, step, body⟩ =>
    .tagged "For" (.obj [("scoped_var", VarForm.toJsonOption header),
      ("condition", Expr.toJsonOption condition), ("repeat", Stmt.toJsonOption step),
      ("body", body.toJson)])
  | .expr e => .tagged "Expr" e.toJson
  | .jump jump => .tagged "Branch" jump.toJson
  | .ret values => .tagged "Return" (.arr (Expr.toJsonList values))

/-- The stored form of a form of variables. -/
def VarForm.toJson : VarForm → Json
  | ⟨vars, isFunc⟩ => .obj [("vars", .arr (VarDecl.toJsonList vars)), ("is_func", .bool isFunc)]

/-- The stored form of a form of variables that may be absent. -/
def VarForm.toJsonOption : Option VarForm → Json
  | none => .null
  | some vars => vars.toJson

/-- The stored forms of variables. -/
def VarDecl.toJsonList : List VarDecl → List Json
  | [] => []
  | ⟨name, position, spec, value, symbol⟩ :: rest =>
    .obj [("name", .str name), ("position", position.toJson),
      ("type_spec", .ofOption TypeSpec.toJson spec), ("init", Expr.toJsonOption value),
      ("object", .ofOption SymbolId.toJson symbol)] :: VarDecl.toJsonList rest

/-- The stored forms of the branches of a conditional. -/
def Branch.toJsonList : List Branch → List Json
  | [] => []
  | ⟨header, condition, body⟩ :: rest =>
    .obj [("scoped_var", VarForm.toJsonOption header),
      ("condition", Expr.toJsonOption condition), ("body", body.toJson)] ::
      Branch.toJsonList rest

end

/-- The stored form of a file. -/
def SourceFile.toJson (file : SourceFile) : Json :=
  .obj [("name", .str file.name), ("package", .str file.package),
    ("body", .arr (Stmt.toJsonList file.body))]

/-! ## Reading leaves -/

variable (style : Json.CaseStyle)

/-- Reads a literal. -/
def Literal.ofJson? (json : Json) : Option Literal := do
  let [kind, text] ← json.record? ["kind", "value"] | none
  return ⟨← kind.required LiteralKind.ofJson?, ← text.required Json.string?⟩

/-- Reads what a name is bound to. -/
def Ident.ofBinding? (json : Json) : Option Ident :=
  match json.choice? with
  | some ("Unbound", some body) => do
    let [name] ← body.caseData? style ["name"] | none
    return ⟨← name.required Json.string?, none⟩
  | some ("Bound", some body) => do
    let [name, symbol] ← body.caseData? style ["name", "object"] | none
    return ⟨← name.required Json.string?, some (← symbol.required SymbolId.ofJson?)⟩
  | _ => none

/-- Reads a name. -/
def Ident.ofJson? (json : Json) : Option Ident := do
  let [binding] ← json.record? ["binding"] | none
  binding.required (Ident.ofBinding? style)

/-- Reads a parameter. -/
def Param.ofJson? (json : Json) : Option Param := do
  let [name, position, spec, symbol] ←
    json.record? ["name", "position", "type_spec", "object"] | none
  return ⟨← name.omittable Json.string?, ← position.optional {} Position.ofJson?,
    ← spec.required (TypeSpec.ofJson? style), ← symbol.omittable SymbolId.ofJson?⟩

/-- Reads a declared field. -/
def FieldDecl.ofJson? (json : Json) : Option FieldDecl := do
  let [name, position, spec] ← json.record? ["name", "position", "type_spec"] | none
  return ⟨← name.required Json.string?, ← position.optional {} Position.ofJson?,
    ← spec.required (TypeSpec.ofJson? style)⟩

/-- Reads the declaration of a name for a type. -/
def AliasDecl.ofJson? (json : Json) : Option AliasDecl := do
  let [name, target, symbol] ← json.record? ["name", "aliased", "object"] | none
  return ⟨← name.required Json.string?, ← target.required (TypeSpec.ofJson? style),
    ← symbol.omittable SymbolId.ofJson?⟩

/-- Reads a label. -/
def StmtLabel.ofJson? (json : Json) : Option StmtLabel := do
  let [name, symbol] ← json.record? ["name", "object"] | none
  return ⟨← name.required Json.string?, ← symbol.omittable SymbolId.ofJson?⟩

/-- Reads a jump. -/
def Jump.ofJson? (json : Json) : Option Jump := do
  let [kind, label, labelSymbol, target] ←
    json.record? ["kind", "label", "goto_label", "target"] | none
  return ⟨← kind.required JumpKind.ofJson?, ← label.omittable Json.string?,
    ← labelSymbol.omittable SymbolId.ofJson?, ← target.omittable StmtId.ofJson?⟩

/-! ## Reading trees -/

mutual

/-- Reads an expression, with a bound for its nesting. -/
def Expr.read : Nat → Json → Option Expr
  | 0, _ => none
  | n + 1, json => do
    let [position, form, type] ← json.record? ["position", "kind", "type"] | none
    return ⟨← position.optional {} Position.ofJson?, ← form.required (ExprForm.read n),
      ← type.optional .unknown (Ty.ofJson? style)⟩

/-- Reads a form of expressions. -/
def ExprForm.read : Nat → Json → Option ExprForm
  | 0, _ => none
  | n + 1, json =>
    match json.choice? with
    | some ("Literal", some body) => (Literal.ofJson? body).map .literal
    | some ("Blank", none) | some ("Blank", some .null) => some .blank
    | some ("Compound", some body) => do
      let [spec, shape, elements] ← body.record? ["type_spec", "kind", "elements"] | none
      return .compound (← spec.omittable (TypeSpec.ofJson? style))
        (← shape.optional .undecided CompoundShape.ofJson?)
        (← elements.required (Json.list? (Element.read n)))
    | some ("Binary", some body) => do
      let [op, left, right] ← body.caseData? style ["op", "left", "right"] | none
      return .binary (← op.required BinaryOp.ofJson?) (← left.required (Expr.read n))
        (← right.required (Expr.read n))
    | some ("Unary", some body) => do
      let [op, operand] ← body.caseData? style ["op", "operand"] | none
      return .unary (← op.required UnaryOp.ofJson?) (← operand.required (Expr.read n))
    | some ("Index", some body) => do
      let [left, index] ← body.caseData? style ["left", "index"] | none
      return .index (← left.required (Expr.read n)) (← index.required (Expr.read n))
    | some ("Selector", some body) => do
      let [left, field] ← body.caseData? style ["left", "field"] | none
      return .selector (← left.required (Expr.read n)) (← field.required Json.string?)
    | some ("Call", some body) => do
      let [callee, args] ← body.caseData? style ["callee", "args"] | none
      return .call (← callee.required (Expr.read n)) (← args.required (Json.list? (Expr.read n)))
    | some ("Func", some body) => (Func.read n body).map .func
    | some ("Ident", some body) => (Ident.ofJson? style body).map .ident
    | some ("Type", some body) => (TypeSpec.ofJson? style body).map .type
    | _ => none

/-- Reads an element. -/
def Element.read : Nat → Json → Option Element
  | 0, _ => none
  | n + 1, json => do
    let [key, value] ← json.record? ["key", "value"] | none
    return ⟨← key.omittable (Expr.read n), ← value.required (Expr.read n)⟩

/-- Reads a function. -/
def Func.read : Nat → Json → Option Func
  | 0, _ => none
  | n + 1, json => do
    let [name, receiver, params, results, body] ←
      json.record? ["name", "receiver", "params", "results", "body"] | none
    return ⟨← name.omittable Json.string?, ← receiver.omittable (Param.ofJson? style),
      ← params.required (Json.list? (Param.ofJson? style)),
      ← results.optional [] (Json.list? (Param.ofJson? style)), ← body.required (Block.read n)⟩

/-- Reads a block. -/
def Block.read : Nat → Json → Option Block
  | 0, _ => none
  | n + 1, json => do
    let [statements, labels] ← json.record? ["statements", "labels"] | none
    return ⟨← statements.required (Json.list? (Stmt.read n)),
      ← labels.optional .empty (NameMap.ofJson? SymbolId.ofJson?)⟩

/-- Reads a statement, with a bound for its nesting. -/
def Stmt.read : Nat → Json → Option Stmt
  | 0, _ => none
  | n + 1, json => do
    let [id, position, label, form] ← json.record? ["id", "position", "label", "kind"] | none
    return ⟨← id.optional {} StmtId.ofJson?, ← position.optional {} Position.ofJson?,
      ← label.omittable StmtLabel.ofJson?, ← form.required (StmtForm.read n)⟩

/-- Reads a form of statements. -/
def StmtForm.read : Nat → Json → Option StmtForm
  | 0, _ => none
  | n + 1, json =>
    match json.choice? with
    | some ("Assign", some body) => do
      let [lhs, rhs, op] ← body.record? ["lhs", "rhs", "op"] | none
      return .assign (← lhs.required (Json.list? (Expr.read n)))
        (← rhs.required (Json.list? (Expr.read n))) (← op.required AssignOp.ofJson?)
    | some ("Struct", some body) => do
      let [name, fields, methods, symbol] ←
        body.record? ["name", "fields", "methods", "object"] | none
      return .struct ⟨← name.required Json.string?,
        ← fields.required (Json.list? (FieldDecl.ofJson? style)),
        ← methods.optional [] (Json.list? (Func.read n)), ← symbol.omittable SymbolId.ofJson?⟩
    | some ("Type", some body) => (AliasDecl.ofJson? style body).map .typeAlias
    | some ("Var", some body) => (VarForm.read n body).map .var
    | some ("Pass", none) | some ("Pass", some .null) => some .pass
    | some ("If", some body) => do
      let [branches] ← body.record? ["branches"] | none
      return .cond (← branches.required (Json.list? (Branch.read n)))
    | some ("For", some body) => do
      let [header, condition, step, block] ←
        body.record? ["scoped_var", "condition", "repeat", "body"] | none
      return .loop ⟨← header.omittable (VarForm.read n), ← condition.omittable (Expr.read n),
        ← step.omittable (Stmt.read n), ← block.required (Block.read n)⟩
    | some ("Expr", some body) => (Expr.read n body).map .expr
    | some ("Branch", some body) => (Jump.ofJson? body).map .jump
    | some ("Return", some body) => (body.list? (Expr.read n)).map .ret
    | _ => none

/-- Reads a form of variables, with a bound for its nesting. -/
def VarForm.read : Nat → Json → Option VarForm
  | 0, _ => none
  | n + 1, json => do
    let [vars, isFunc] ← json.record? ["vars", "is_func"] | none
    return ⟨← vars.required (Json.list? (VarDecl.read n)), ← isFunc.optional false Json.bool?⟩

/-- Reads a variable. -/
def VarDecl.read : Nat → Json → Option VarDecl
  | 0, _ => none
  | n + 1, json => do
    let [name, position, spec, value, symbol] ←
      json.record? ["name", "position", "type_spec", "init", "object"] | none
    return ⟨← name.required Json.string?, ← position.optional {} Position.ofJson?,
      ← spec.omittable (TypeSpec.ofJson? style), ← value.omittable (Expr.read n),
      ← symbol.omittable SymbolId.ofJson?⟩

/-- Reads a branch of a conditional. -/
def Branch.read : Nat → Json → Option Branch
  | 0, _ => none
  | n + 1, json => do
    let [header, condition, body] ← json.record? ["scoped_var", "condition", "body"] | none
    return ⟨← header.omittable (VarForm.read n), ← condition.omittable (Expr.read n),
      ← body.required (Block.read n)⟩

end

/-! ## Entry points -/

/-- Reads an expression. -/
def Expr.ofJson? (json : Json) : Option Expr := Expr.read style (json.depth + 1) json

/-- Reads a block. -/
def Block.ofJson? (json : Json) : Option Block := Block.read style (json.depth + 1) json

/-- Reads a statement. -/
def Stmt.ofJson? (json : Json) : Option Stmt := Stmt.read style (json.depth + 1) json

/-- Reads a file. -/
def SourceFile.ofJson? (json : Json) : Option SourceFile := do
  let [name, package, body] ← json.record? ["name", "package", "body"] | none
  return ⟨← name.optional "" Json.string?, ← package.required Json.string?,
    ← body.required (Json.list? (Stmt.ofJson? style))⟩

end PackageCheck
