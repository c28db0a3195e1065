import PackageCheck.Dependency.FreeNames

/-! # Lexical scoping

Whether a name is free in a statement, by recursion on the tree: a use is free if no declaration of
the name is in front of it in a scope that is still open there.

A collector of free names and a checker do not agree on every use. So the recursion can be read as
the one or as the other. -/

namespace PackageCheck

/-! ## Readings -/

/-- A way to read which uses of a name are free. -/
inductive Reading where
  /-- What a collector of free names finds. -/
  | collector
  /-- What a checker looks up outside of the statement. Only the type of a literal shows whether a
      bare name that stands as a key is a value; as long as it is not known, such names are either
      all read as values or none is. -/
  | checker (bareKeys : Bool)
deriving DecidableEq

namespace Reading

/-- Whether the names of a form of variables are declared together, those of a plain form behind
    all values. Otherwise each is declared on its own. -/
def wholeForms : Reading → Bool
  | .collector => true
  | .checker _ => false

/-- Whether the name of a type is hidden by nothing but the declaration of a type. -/
def typesOnly : Reading → Bool
  | .collector => false
  | .checker _ => true

/-- Whether bare names that stand as keys are read as values where the literal does not show it. -/
def bareKeys : Reading → Bool
  | .collector => false
  | .checker bareKeys => bareKeys

end Reading

/-! ## Mentions -/

/-- What a piece of a tree does with a name. -/
@[ext]
structure Mention where
  /-- The free uses that any declaration of the name in front of the piece would hide. -/
  uses : List Position := []
  /-- The free uses that only the declaration of a type would hide. -/
  typeUses : List Position := []
  /-- Whether the scope around the piece holds the name behind the piece because of it. -/
  declares : Bool := false
  declaresType : Bool := false
deriving DecidableEq

namespace Mention

/-- One piece in front of another one. -/
def followedBy (first second : Mention) : Mention where
  uses := first.uses ++ if first.declares then [] else second.uses
  typeUses := first.typeUses ++ if first.declaresType then [] else second.typeUses
  declares := first.declares || second.declares
  declaresType := first.declaresType || second.declaresType

instance : Append Mention := ⟨followedBy⟩

/-- A piece in a scope of its own. -/
def enclosed (mention : Mention) : Mention :=
  { mention with declares := false, declaresType := false }

/-- A use of a name as a value. -/
def ofUse (n name : String) (position : Position) : Mention :=
  if name = n then { uses := [position] } else {}

/-- A use of a name as a type. -/
def ofTypeUse (reading : Reading) (n name : String) (position : Position) : Mention :=
  if name = n then
    if reading.typesOnly then { typeUses := [position] } else { uses := [position] }
  else {}

/-- The declaration of names that are no types. -/
def ofNames (n : String) (names : List String) : Mention :=
  { declares := n ∈ names }

/-- The declaration of a type. -/
def ofTypeName (n name : String) : Mention :=
  { declares := name = n, declaresType := name = n }

/-- Whether there is a free use. -/
def isFree (mention : Mention) : Bool :=
  !mention.uses.isEmpty || !mention.typeUses.isEmpty

variable (first second third : Mention)

@[simp]
theorem uses_append : (first ++ second).uses =
    first.uses ++ if first.declares then [] else second.uses := rfl

@[simp]
theorem typeUses_append : (first ++ second).typeUses =
    first.typeUses ++ if first.declaresType then [] else second.typeUses := rfl

@[simp]
theorem declares_append : (first ++ second).declares = (first.declares || second.declares) := rfl

@[simp]
theorem declaresType_append :
    (first ++ second).declaresType = (first.declaresType || second.declaresType) := rfl

@[simp]
theorem uses_enclosed : first.enclosed.uses = first.uses := rfl

@[simp]
theorem typeUses_enclosed : first.enclosed.typeUses = first.typeUses := rfl

@[simp]
theorem declares_enclosed : first.enclosed.declares = false := rfl

@[simp]
theorem declaresType_enclosed : first.enclosed.declaresType = false := rfl

@[simp]
theorem append_empty : first ++ {} = first := by
  ext1 <;> simp

@[simp]
theorem empty_append : {} ++ first = first := by
  ext1 <;> simp

@[simp]
theorem typeUses_ofUse (n name : String) (position : Position) :
    (ofUse n name position).typeUses = [] := by
  unfold ofUse
  split <;> rfl

@[simp]
theorem declares_ofUse (n name : String) (position : Position) :
    (ofUse n name position).declares = false := by
  unfold ofUse
  split <;> rfl

@[simp]
theorem declaresType_ofUse (n name : String) (position : Position) :
    (ofUse n name position).declaresType = false := by
  unfold ofUse
  split <;> rfl

theorem append_assoc : first ++ second ++ third = first ++ (second ++ third) := by
  ext1
  · cases h : first.declares <;> simp [h]
  · cases h : first.declaresType <;> simp [h]
  · simp [Bool.or_assoc]
  · simp [Bool.or_assoc]

/-- Whether nothing is declared in the scope around the piece. -/
structure Closed (mention : Mention) : Prop where
  declares : mention.declares = false
  declaresType : mention.declaresType = false

namespace Closed

variable {first second}

theorem empty : Closed {} := ⟨rfl, rfl⟩

theorem append (h : first.Closed) (h' : second.Closed) : (first ++ second).Closed :=
  ⟨by simp [h.declares, h'.declares], by simp [h.declaresType, h'.declaresType]⟩

theorem enclosed (mention : Mention) : mention.enclosed.Closed := ⟨rfl, rfl⟩

theorem ofUse (n name : String) (position : Position) : (ofUse n name position).Closed :=
  ⟨declares_ofUse n name position, declaresType_ofUse n name position⟩

theorem ofTypeUse (reading : Reading) (n name : String) (position : Position) :
    (ofTypeUse reading n name position).Closed := by
  unfold Mention.ofTypeUse
  split
  · split <;> exact ⟨rfl, rfl⟩
  · exact .empty

end Closed

end Mention

/-! ## Types -/

variable (reading : Reading) (n : String)

mutual

/-- What a type specification does with a name. -/
def TypeSpec.mention : TypeSpec → Mention
  | .named name position => .ofTypeUse reading n name position
  | .array _ of => of.mention
  | .slice of => of.mention
  | .map key value => key.mention ++ value.mention
  | .pointer pointee => pointee.mention
  | .tuple members => TypeSpec.mentionList members
  | .func args results => TypeSpec.mentionList args ++ TypeSpec.mentionList results
  | .blank => {}

/-- What specifications do with a name, one after the other. -/
def TypeSpec.mentionList : List TypeSpec → Mention
  | [] => {}
  | spec :: rest => spec.mention ++ TypeSpec.mentionList rest

end

/-- What a specification does with a name, if there is one. -/
def TypeSpec.mentionOption : Option TypeSpec → Mention
  | none => {}
  | some spec => spec.mention reading n

/-! ## Functions -/

/-- What the types of parameters do with a name. -/
def Param.mentionTypes (params : List Param) : Mention :=
  TypeSpec.mentionList reading n (params.map (·.spec))

/-- The declaration of parameters that have a name. -/
def Param.mentionNames (params : List Param) : Mention :=
  .ofNames n (params.filterMap (·.name))

/-- The declaration of variables. -/
def VarDecl.mentionNames (vars : List VarDecl) : Mention :=
  .ofNames n (vars.map (·.name))

/-! ## Expressions and statements -/

mutual

/-- What an expression does with a name. -/
def Expr.mention : Expr → Mention
  | ⟨position, form, _⟩ => form.mention position

/-- What the parts of an expression do with a name. -/
def ExprForm.mention (position : Position) : ExprForm → Mention
  | .literal _ => {}
  | .blank => {}
  | .compound spec _ elements =>
    TypeSpec.mentionOption reading n spec ++
      Element.mentionList (TypeSpec.hasValueKeys spec || reading.bareKeys) elements
  | .binary _ left right => left.mention ++ right.mention
  | .unary _ operand => operand.mention
  | .index left index => left.mention ++ index.mention
  | .selector left _ => left.mention
  | .call callee args => callee.mention ++ Expr.mentionList args
  | .func func => func.mention
  | .ident ident => .ofUse n ident.name position
  | .type spec => spec.mention reading n

/-- What expressions do with a name, one after the other. -/
def Expr.mentionList : List Expr → Mention
  | [] => {}
  | e :: rest => e.mention ++ Expr.mentionList rest

/-- What an expression does with a name, if there is one. -/
def Expr.mentionOption : Option Expr → Mention
  | none => {}
  | some e => e.mention

/-- What a key does with a name. -/
def Expr.mentionKey (valueKeys : Bool) : Option Expr → Mention
  | none => {}
  | some key => if valueKeys || key.ident?.isNone then key.mention else {}

/-- What the elements of a composite literal do with a name. -/
def Element.mentionList (valueKeys : Bool) : List Element → Mention
  | [] => {}
  | ⟨key, value⟩ :: rest =>
    Expr.mentionKey valueKeys key ++ value.mention ++ Element.mentionList valueKeys rest

/-- What a function does with a name. Its parameters are in the scope of its body. -/
def Func.mention : Func → Mention
  | ⟨_, receiver, params, results, ⟨statements, _⟩⟩ =>
    Param.mentionTypes reading n (receiver.toList ++ params ++ results) ++
      (Param.mentionNames n (receiver.toList ++ params ++ results) ++
        Stmt.mentionList statements).enclosed

/-- What functions do with a name, one after the other. -/
def Func.mentionList : List Func → Mention
  | [] => {}
  | func :: rest => func.mention ++ Func.mentionList rest

/-- What a block does with a name. -/
def Block.mention : Block → Mention
  | ⟨statements, _⟩ => (Stmt.mentionList statements).enclosed

/-- What a statement does with a name. -/
def Stmt.mention : Stmt → Mention
  | ⟨_, _, _, form⟩ => form.mention

/-- What statements do with a name, one after the other. -/
def Stmt.mentionList : List Stmt → Mention
  | [] => {}
  | s :: rest => s.mention ++ Stmt.mentionList rest

/-- What a statement does with a name, if there is one. -/
def Stmt.mentionOption : Option Stmt → Mention
  | none => {}
  | some s => s.mention

/-- What the parts of a statement do with a name. -/
def StmtForm.mention : StmtForm → Mention
  | .assign lhs rhs _ => Expr.mentionList rhs ++ Expr.mentionList lhs
  | .struct ⟨name, fields, methods, _⟩ =>
    .ofTypeName n name ++ TypeSpec.mentionList reading n (fields.map (·.spec)) ++
      Func.mentionList methods
  | .typeAlias decl => .ofTypeName n decl.name ++ decl.target.mention reading n
  | .var vars => vars.mention
  | .pass => {}
  | .cond branches => Branch.mentionList branches
  | .loop ⟨header, condition, step, body⟩ =>
    (VarForm.mentionOption header ++ Expr.mentionOption condition ++ Stmt.mentionOption step ++
      body.mention).enclosed
  | .expr e => e.mention
  | .jump _ => {}
  | .ret values => Expr.mentionList values

/-- What a form of variables does with a name. -/
def VarForm.mention : VarForm → Mention
  | ⟨vars, true⟩ =>
    if reading.wholeForms then
      VarDecl.mentionNames n vars ++ VarDecl.mentionValues vars
    else VarDecl.mentionFuncs vars
  | ⟨vars, false⟩ =>
    if reading.wholeForms then
      VarDecl.mentionValues vars ++ VarDecl.mentionNames n vars
    else VarDecl.mentionEach vars

/-- What a form of variables does with a name, if there is one. -/
def VarForm.mentionOption : Option VarForm → Mention
  | none => {}
  | some vars => vars.mention

/-- What the types and values of variables do with a name. -/
def VarDecl.mentionValues : List VarDecl → Mention
  | [] => {}
  | ⟨_, _, spec, value, _⟩ :: rest =>
    TypeSpec.mentionOption reading n spec ++ Expr.mentionOption value ++ VarDecl.mentionValues rest

/-- What variables do with a name if each is declared behind its value. -/
def VarDecl.mentionEach : List VarDecl → Mention
  | [] => {}
  | ⟨name, _, spec, value, _⟩ :: rest =>
    TypeSpec.mentionOption reading n spec ++ Expr.mentionOption value ++ .ofNames n [name] ++
      VarDecl.mentionEach rest

/-- What named functions do with a name if each is declared in front of its value. -/
def VarDecl.mentionFuncs : List VarDecl → Mention
  | [] => {}
  | ⟨name, _, _, value, _⟩ :: rest =>
    .ofNames n [name] ++ Expr.mentionOption value ++ VarDecl.mentionFuncs rest

/-- What the branches of a conditional do with a name, each in a scope around its header and its
    block. -/
def Branch.mentionList : List Branch → Mention
  | [] => {}
  | ⟨header, condition, body⟩ :: rest =>
    (VarForm.mentionOption header ++ Expr.mentionOption condition ++ body.mention).enclosed ++
      Branch.mentionList rest

end

/-- What the body of a function does with a name. The receiver, the parameters and the results are
    in its scope. -/
def Func.mentionBody (func : Func) : Mention :=
  (Param.mentionNames n (func.receiver.toList ++ func.params ++ func.results) ++
    Stmt.mentionList reading n func.body.statements).enclosed

theorem Func.mention_eq (func : Func) : func.mention reading n =
    Param.mentionTypes reading n (func.receiver.toList ++ func.params ++ func.results) ++
      func.mentionBody reading n := by
  obtain ⟨_, _, _, _, ⟨_, _⟩⟩ := func
  rfl

theorem Block.mention_eq (block : Block) : block.mention reading n =
    (Stmt.mentionList reading n block.statements).enclosed := by
  obtain ⟨_, _⟩ := block
  rfl

/-! ## Lists -/

theorem Mention.ofNames_append (names names' : List String) :
    Mention.ofNames n (names ++ names') = .ofNames n names ++ .ofNames n names' := by
  ext1 <;> simp [Mention.ofNames]

theorem TypeSpec.mentionList_append (specs specs' : List TypeSpec) :
    TypeSpec.mentionList reading n (specs ++ specs') =
      TypeSpec.mentionList reading n specs ++ TypeSpec.mentionList reading n specs' := by
  induction specs with
  | nil => simp [TypeSpec.mentionList]
  | cons spec rest ih => simp [TypeSpec.mentionList, ih, Mention.append_assoc]

theorem Param.mentionTypes_append (params params' : List Param) :
    Param.mentionTypes reading n (params ++ params') =
      Param.mentionTypes reading n params ++ Param.mentionTypes reading n params' := by
  simp only [Param.mentionTypes, List.map_append, TypeSpec.mentionList_append]

theorem Param.mentionNames_append (params params' : List Param) :
    Param.mentionNames n (params ++ params') =
      Param.mentionNames n params ++ Param.mentionNames n params' := by
  simp only [Param.mentionNames, List.filterMap_append, Mention.ofNames_append]

/-! ## What declares nothing -/

variable {reading n}

mutual

theorem TypeSpec.mention_closed : ∀ spec : TypeSpec, (spec.mention reading n).Closed
  | .named name position => .ofTypeUse reading n name position
  | .array _ of => of.mention_closed
  | .slice of => of.mention_closed
  | .map key value => key.mention_closed.append value.mention_closed
  | .pointer pointee => pointee.mention_closed
  | .tuple members => TypeSpec.mentionList_closed members
  | .func args results =>
    (TypeSpec.mentionList_closed args).append (TypeSpec.mentionList_closed results)
  | .blank => .empty

theorem TypeSpec.mentionList_closed : ∀ specs : List TypeSpec,
    (TypeSpec.mentionList reading n specs).Closed
  | [] => .empty
  | spec :: rest => spec.mention_closed.append (TypeSpec.mentionList_closed rest)

end

mutual

/-- A checker takes the name of a type for nothing else. -/
theorem TypeSpec.uses_mention {bareKeys : Bool} : ∀ spec : TypeSpec,
    (spec.mention (.checker bareKeys) n).uses = []
  | .named name position => by
    simp only [TypeSpec.mention, Mention.ofTypeUse, Reading.typesOnly]
    split <;> rfl
  | .array _ of => of.uses_mention
  | .slice of => of.uses_mention
  | .map key value => by
    simp [TypeSpec.mention, key.uses_mention, value.uses_mention]
  | .pointer pointee => pointee.uses_mention
  | .tuple members => TypeSpec.uses_mentionList members
  | .func args results => by
    simp [TypeSpec.mention, TypeSpec.uses_mentionList args, TypeSpec.uses_mentionList results]
  | .blank => rfl

theorem TypeSpec.uses_mentionList {bareKeys : Bool} : ∀ specs : List TypeSpec,
    (TypeSpec.mentionList (.checker bareKeys) n specs).uses = []
  | [] => rfl
  | spec :: rest => by
    simp [TypeSpec.mentionList, spec.uses_mention, TypeSpec.uses_mentionList rest]

end

theorem TypeSpec.mentionOption_closed : ∀ spec : Option TypeSpec,
    (TypeSpec.mentionOption reading n spec).Closed
  | none => .empty
  | some spec => spec.mention_closed

theorem Func.mention_closed (func : Func) : (func.mention reading n).Closed := by
  rw [Func.mention_eq]
  exact (TypeSpec.mentionList_closed _).append (.enclosed _)

theorem Param.mentionTypes_closed (params : List Param) :
    (Param.mentionTypes reading n params).Closed :=
  TypeSpec.mentionList_closed _

theorem Func.mentionList_closed : ∀ funcs : List Func, (Func.mentionList reading n funcs).Closed
  | [] => .empty
  | func :: rest => func.mention_closed.append (Func.mentionList_closed rest)

mutual

theorem Expr.mention_closed : ∀ e : Expr, (e.mention reading n).Closed
  | ⟨_, form, _⟩ => form.mention_closed

theorem ExprForm.mention_closed {position : Position} : ∀ form : ExprForm,
    (form.mention reading n position).Closed
  | .literal _ => .empty
  | .blank => .empty
  | .compound spec _ elements =>
    (TypeSpec.mentionOption_closed spec).append (Element.mentionList_closed elements)
  | .binary _ left right => left.mention_closed.append right.mention_closed
  | .unary _ operand => operand.mention_closed
  | .index left index => left.mention_closed.append index.mention_closed
  | .selector left _ => left.mention_closed
  | .call callee args => callee.mention_closed.append (Expr.mentionList_closed args)
  | .func func => func.mention_closed
  | .ident ident => .ofUse n ident.name position
  | .type spec => spec.mention_closed

theorem Expr.mentionList_closed : ∀ es : List Expr, (Expr.mentionList reading n es).Closed
  | [] => .empty
  | e :: rest => e.mention_closed.append (Expr.mentionList_closed rest)

theorem Expr.mentionKey_closed {valueKeys : Bool} : ∀ key : Option Expr,
    (Expr.mentionKey reading n valueKeys key).Closed
  | none => .empty
  | some key => by
    rw [Expr.mentionKey]
    split
    · exact key.mention_closed
    · exact .empty

theorem Element.mentionList_closed {valueKeys : Bool} : ∀ elements : List Element,
    (Element.mentionList reading n valueKeys elements).Closed
  | [] => .empty
  | ⟨key, value⟩ :: rest => by
    rw [Element.mentionList]
    exact ((Expr.mentionKey_closed key).append value.mention_closed).append
      (Element.mentionList_closed rest)

end

end PackageCheck
