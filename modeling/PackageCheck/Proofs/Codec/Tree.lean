import PackageCheck.Codec.Tree
import PackageCheck.Proofs.Codec.Ty
import PackageCheck.Proofs.Tree.Finding

/-! # Stored trees read back

A tree is read as what it was stored as, with all that a check has left in it, in both styles of
cases. The induction follows the tree: for each node what is read of its stored form is put together
from what is read of the stored forms of its parts. -/

namespace PackageCheck

/-! ## Handles in trees -/

/-- Whether the handles in a finding can be stored. -/
def Finding.storable : Finding → Bool
  | .type found => found.storable
  | .ident leaf => SymbolId.optionStorable leaf.symbol
  | .param leaf => SymbolId.optionStorable leaf.symbol
  | .variable _ symbol | .typeDecl _ symbol => SymbolId.optionStorable symbol
  | .labels entries => entries.entries.all (·.2.storable)
  | .label leaf => SymbolId.optionStorable leaf.symbol
  | .jump leaf => SymbolId.optionStorable leaf.labelSymbol && leaf.target.all StmtId.storable
  | .stmt id _ => id.storable

/-- Whether the handles in some findings can be stored. -/
def Finding.allStorable (findings : List Finding) : Bool :=
  findings.all Finding.storable

/-- Whether all handles in a file can be stored: its statements have numbers of 32 bits, its symbols
    numbers of 64 bits. -/
def SourceFile.storable (file : SourceFile) : Bool :=
  Finding.allStorable (Stmt.findingsList file.body)

section Findings

variable {finding : Finding} {findings others : List Finding}

theorem Finding.allStorable_cons : Finding.allStorable (finding :: findings) ↔
    finding.storable ∧ Finding.allStorable findings := by
  simp [Finding.allStorable]

theorem Finding.allStorable_append : Finding.allStorable (findings ++ others) ↔
    Finding.allStorable findings ∧ Finding.allStorable others := by
  simp [Finding.allStorable]

end Findings

/-! ## Leaves -/

variable {style : Json.CaseStyle}

theorem stores_optionStr (text : Option String) :
    StoresOption (.ofOption .str text) Json.string? text :=
  .ofOption fun text _ => stores_str text

theorem Literal.stores (literal : Literal) : Stores literal.toJson Literal.ofJson? literal := by
  obtain ⟨kind, text⟩ := literal
  refine ⟨rfl, nofun, ?_⟩
  have parts : Literal.ofJson? (Literal.mk kind text).toJson = (do
    return ⟨← LiteralKind.ofJson? (.str kind.tag), text⟩) := rfl
  rw [parts, kind.stores.read]
  rfl

theorem Ident.stores {ident : Ident} (fits : (Finding.ident ident).storable) :
    Stores ident.toJson (Ident.ofJson? style) ident := by
  obtain ⟨name, symbol⟩ := ident
  cases symbol with
  | none => exact ⟨rfl, nofun, by cases style <;> rfl⟩
  | some symbol =>
    have handle : Stores symbol.toJson SymbolId.ofJson? symbol := SymbolId.stores fits
    refine ⟨?_, nofun, ?_⟩
    · simp [Ident.toJson, Json.tagged, Json.isPlain, Json.entriesPlain, handle.plain]
    · have parts : Ident.ofJson? style (Ident.mk name (some symbol)).toJson = (do
        return ⟨name, some (← SymbolId.ofJson? symbol.toJson)⟩) := by
        cases style <;> rfl
      rw [parts, handle.read]
      rfl

theorem Param.stores {param : Param} (fits : (Finding.param param).storable) :
    Stores param.toJson (Param.ofJson? style) param := by
  obtain ⟨name, position, spec, symbol⟩ := param
  have named := stores_optionStr name
  have place := position.stores
  have written : Stores spec.toJson (TypeSpec.ofJson? style) spec := spec.stores
  have handle : StoresOption (.ofOption SymbolId.toJson symbol) SymbolId.ofJson? symbol :=
    SymbolId.storesOption fits
  refine ⟨?_, nofun, ?_⟩
  · simp [Param.toJson, Json.isPlain, Json.entriesPlain, named.plain, place.plain, written.plain,
      handle.plain]
  · have parts : Param.ofJson? style (Param.mk name position spec symbol).toJson = (do
      return ⟨← (Json.ofOption .str name).nullable? Json.string?,
        ← Position.ofJson? position.toJson, ← TypeSpec.ofJson? style spec.toJson,
        ← (Json.ofOption SymbolId.toJson symbol).nullable? SymbolId.ofJson?⟩) := rfl
    rw [parts, named.read, place.read, written.read, handle.read]
    rfl

theorem FieldDecl.stores (field : FieldDecl) :
    Stores field.toJson (FieldDecl.ofJson? style) field := by
  obtain ⟨name, position, spec⟩ := field
  have place := position.stores
  have written : Stores spec.toJson (TypeSpec.ofJson? style) spec := spec.stores
  refine ⟨?_, nofun, ?_⟩
  · simp [FieldDecl.toJson, Json.isPlain, Json.entriesPlain, place.plain, written.plain]
  · have parts : FieldDecl.ofJson? style (FieldDecl.mk name position spec).toJson = (do
      return ⟨name, ← Position.ofJson? position.toJson,
        ← TypeSpec.ofJson? style spec.toJson⟩) := rfl
    rw [parts, place.read, written.read]
    rfl

theorem AliasDecl.stores {decl : AliasDecl}
    (fits : (Finding.typeDecl decl.name decl.symbol).storable) :
    Stores decl.toJson (AliasDecl.ofJson? style) decl := by
  obtain ⟨name, target, symbol⟩ := decl
  have written : Stores target.toJson (TypeSpec.ofJson? style) target := target.stores
  have handle : StoresOption (.ofOption SymbolId.toJson symbol) SymbolId.ofJson? symbol :=
    SymbolId.storesOption fits
  refine ⟨?_, nofun, ?_⟩
  · simp [AliasDecl.toJson, Json.isPlain, Json.entriesPlain, written.plain, handle.plain]
  · have parts : AliasDecl.ofJson? style (AliasDecl.mk name target symbol).toJson = (do
      return ⟨name, ← TypeSpec.ofJson? style target.toJson,
        ← (Json.ofOption SymbolId.toJson symbol).nullable? SymbolId.ofJson?⟩) := rfl
    rw [parts, written.read, handle.read]
    rfl

theorem StmtLabel.stores {label : StmtLabel} (fits : (Finding.label label).storable) :
    Stores label.toJson StmtLabel.ofJson? label := by
  obtain ⟨name, symbol⟩ := label
  have handle : StoresOption (.ofOption SymbolId.toJson symbol) SymbolId.ofJson? symbol :=
    SymbolId.storesOption fits
  refine ⟨?_, nofun, ?_⟩
  · simp [StmtLabel.toJson, Json.isPlain, Json.entriesPlain, handle.plain]
  · have parts : StmtLabel.ofJson? (StmtLabel.mk name symbol).toJson = (do
      return ⟨name, ← (Json.ofOption SymbolId.toJson symbol).nullable? SymbolId.ofJson?⟩) := rfl
    rw [parts, handle.read]
    rfl

theorem Jump.stores {jump : Jump} (fits : (Finding.jump jump).storable) :
    Stores jump.toJson Jump.ofJson? jump := by
  obtain ⟨kind, label, labelSymbol, target⟩ := jump
  obtain ⟨symbolFits, targetFits⟩ := Bool.and_eq_true_iff.mp fits
  have named := stores_optionStr label
  have handle : StoresOption (.ofOption SymbolId.toJson labelSymbol) SymbolId.ofJson? labelSymbol :=
    SymbolId.storesOption symbolFits
  have aimed : StoresOption (.ofOption StmtId.toJson target) StmtId.ofJson? target := by
    refine .ofOption ?_
    rintro id rfl
    exact StmtId.stores targetFits
  refine ⟨?_, nofun, ?_⟩
  · simp [Jump.toJson, Json.isPlain, Json.entriesPlain, named.plain, handle.plain, aimed.plain]
  · have parts : Jump.ofJson? (Jump.mk kind label labelSymbol target).toJson = (do
      return ⟨← JumpKind.ofJson? (.str kind.tag),
        ← (Json.ofOption .str label).nullable? Json.string?,
        ← (Json.ofOption SymbolId.toJson labelSymbol).nullable? SymbolId.ofJson?,
        ← (Json.ofOption StmtId.toJson target).nullable? StmtId.ofJson?⟩) := rfl
    rw [parts, kind.stores.read, named.read, handle.read, aimed.read]
    rfl

/-! ## Parameters and labels -/

/-- Parameters are read back, one after the other. -/
theorem Param.storesAll {params : List Param}
    (fits : ∀ param ∈ params, (Finding.param param).storable) :
    Stores (.ofList Param.toJson params) (Json.list? (Param.ofJson? style)) params :=
  (StoresAll.ofList fun param member => Param.stores (fits param member)).list

theorem Param.storesOption {param : Option Param}
    (fits : ∀ leaf, param = some leaf → (Finding.param leaf).storable) :
    StoresOption (.ofOption Param.toJson param) (Param.ofJson? style) param :=
  .ofOption fun leaf given => Param.stores (fits leaf given)

theorem stores_labels {labels : NameMap SymbolId} (fits : (Finding.labels labels).storable) :
    Stores (labels.toJson SymbolId.toJson) (NameMap.ofJson? SymbolId.ofJson?) labels :=
  NameMap.stores fun entry member => SymbolId.stores (List.all_eq_true.mp fits entry member)

/-! ## Expressions and statements -/

mutual

/-- An expression is read back. -/
theorem Expr.stores_read (e : Expr) (fits : Finding.allStorable e.findings) {n : Nat}
    (room : e.toJson.depth < n) : Stores e.toJson (Expr.read style n) e := by
  -- reading goes down to a given depth, and the parts of a value are less deep than the value
  obtain ⟨n, rfl⟩ := exists_eq_succ_of_lt room
  obtain ⟨position, form, type⟩ := e
  simp only [Expr.toJson, Json.depth, Json.depthOfEntries] at room
  obtain ⟨typeFits, formFits⟩ := Finding.allStorable_cons.mp fits
  have place := position.stores
  have inner : Stores form.toJson (ExprForm.read style n) form :=
    ExprForm.stores_read form formFits (by omega)
  have typed : Stores type.toJson (Ty.ofJson? style) type := Ty.stores typeFits
  refine ⟨?_, nofun, ?_⟩
  · simp [Expr.toJson, Json.isPlain, Json.entriesPlain, place.plain, inner.plain, typed.plain]
  · have parts : Expr.read style (n + 1) (Expr.mk position form type).toJson = (do
      return ⟨← Position.ofJson? position.toJson, ← ExprForm.read style n form.toJson,
        ← Ty.ofJson? style type.toJson⟩) := rfl
    rw [parts, place.read, inner.read, typed.read]
    rfl

/-- A form of expression is read back. -/
theorem ExprForm.stores_read (form : ExprForm) (fits : Finding.allStorable form.findings) {n : Nat}
    (room : form.toJson.depth < n) : Stores form.toJson (ExprForm.read style n) form := by
  obtain ⟨n, rfl⟩ := exists_eq_succ_of_lt room
  cases form with
  | literal literal => exact literal.stores.tagged rfl
  | blank => exact ⟨rfl, nofun, rfl⟩
  | compound spec shape elements =>
    simp only [ExprForm.toJson, Json.tagged, Json.depth, Json.depthOfEntries] at room
    have written : StoresOption (.ofOption TypeSpec.toJson spec) (TypeSpec.ofJson? style) spec :=
      .ofOption fun spec _ => spec.stores
    have inner : StoresAll (Element.toJsonList elements) (Element.read style n) elements :=
      Element.storesAll_read elements fits (by omega)
    refine ⟨?_, nofun, ?_⟩
    · simp [ExprForm.toJson, Json.tagged, Json.isPlain, Json.entriesPlain, written.plain,
        inner.plain]
    · have parts : ExprForm.read style (n + 1) (ExprForm.compound spec shape elements).toJson =
          (do
        return .compound (← (Json.ofOption TypeSpec.toJson spec).nullable? (TypeSpec.ofJson? style))
          (← CompoundShape.ofJson? (.str shape.tag))
          (← (Element.toJsonList elements).mapM (Element.read style n))) := rfl
      rw [parts, written.read, shape.stores.read, inner.read]
      rfl
  | binary op left right =>
    simp only [ExprForm.toJson, Json.tagged, Json.depth, Json.depthOfEntries] at room
    obtain ⟨leftFits, rightFits⟩ := Finding.allStorable_append.mp fits
    have first : Stores left.toJson (Expr.read style n) left :=
      Expr.stores_read left leftFits (by omega)
    have second : Stores right.toJson (Expr.read style n) right :=
      Expr.stores_read right rightFits (by omega)
    refine ⟨?_, nofun, ?_⟩
    · simp [ExprForm.toJson, Json.tagged, Json.isPlain, Json.entriesPlain, first.plain,
        second.plain]
    · have parts : ExprForm.read style (n + 1) (ExprForm.binary op left right).toJson = (do
        return .binary (← BinaryOp.ofJson? (.str op.tag)) (← Expr.read style n left.toJson)
          (← Expr.read style n right.toJson)) := by
        cases style <;> rfl
      rw [parts, op.stores.read, first.read, second.read]
      rfl
  | unary op operand =>
    simp only [ExprForm.toJson, Json.tagged, Json.depth, Json.depthOfEntries] at room
    have inner : Stores operand.toJson (Expr.read style n) operand :=
      Expr.stores_read operand fits (by omega)
    refine ⟨?_, nofun, ?_⟩
    · simp [ExprForm.toJson, Json.tagged, Json.isPlain, Json.entriesPlain, inner.plain]
    · have parts : ExprForm.read style (n + 1) (ExprForm.unary op operand).toJson = (do
        return .unary (← UnaryOp.ofJson? (.str op.tag)) (← Expr.read style n operand.toJson)) := by
        cases style <;> rfl
      rw [parts, op.stores.read, inner.read]
      rfl
  | index left index =>
    simp only [ExprForm.toJson, Json.tagged, Json.depth, Json.depthOfEntries] at room
    obtain ⟨leftFits, indexFits⟩ := Finding.allStorable_append.mp fits
    have first : Stores left.toJson (Expr.read style n) left :=
      Expr.stores_read left leftFits (by omega)
    have second : Stores index.toJson (Expr.read style n) index :=
      Expr.stores_read index indexFits (by omega)
    refine ⟨?_, nofun, ?_⟩
    · simp [ExprForm.toJson, Json.tagged, Json.isPlain, Json.entriesPlain, first.plain,
        second.plain]
    · have parts : ExprForm.read style (n + 1) (ExprForm.index left index).toJson = (do
        return .index (← Expr.read style n left.toJson) (← Expr.read style n index.toJson)) := by
        cases style <;> rfl
      rw [parts, first.read, second.read]
      rfl
  | selector left field =>
    simp only [ExprForm.toJson, Json.tagged, Json.depth, Json.depthOfEntries] at room
    have inner : Stores left.toJson (Expr.read style n) left :=
      Expr.stores_read left fits (by omega)
    refine ⟨?_, nofun, ?_⟩
    · simp [ExprForm.toJson, Json.tagged, Json.isPlain, Json.entriesPlain, inner.plain]
    · have parts : ExprForm.read style (n + 1) (ExprForm.selector left field).toJson = (do
        return .selector (← Expr.read style n left.toJson) field) := by
        cases style <;> rfl
      rw [parts, inner.read]
      rfl
  | call callee args =>
    simp only [ExprForm.toJson, Json.tagged, Json.depth, Json.depthOfEntries] at room
    obtain ⟨calleeFits, argsFit⟩ := Finding.allStorable_append.mp fits
    have first : Stores callee.toJson (Expr.read style n) callee :=
      Expr.stores_read callee calleeFits (by omega)
    have second : StoresAll (Expr.toJsonList args) (Expr.read style n) args :=
      Expr.storesAll_read args argsFit (by omega)
    refine ⟨?_, nofun, ?_⟩
    · simp [ExprForm.toJson, Json.tagged, Json.isPlain, Json.entriesPlain, first.plain,
        second.plain]
    · have parts : ExprForm.read style (n + 1) (ExprForm.call callee args).toJson = (do
        return .call (← Expr.read style n callee.toJson)
          (← (Expr.toJsonList args).mapM (Expr.read style n))) := by
        cases style <;> rfl
      rw [parts, first.read, second.read]
      rfl
  | func func =>
    simp only [ExprForm.toJson, Json.tagged, Json.depth, Json.depthOfEntries] at room
    have inner : Stores func.toJson (Func.read style n) func :=
      Func.stores_read func fits (by omega)
    exact inner.tagged rfl
  | ident ident =>
    have inner : Stores ident.toJson (Ident.ofJson? style) ident :=
      Ident.stores (Finding.allStorable_cons.mp fits).1
    exact inner.tagged rfl
  | type spec =>
    have inner : Stores spec.toJson (TypeSpec.ofJson? style) spec := spec.stores
    exact inner.tagged rfl

/-- Expressions are read back. -/
theorem Expr.storesAll_read (es : List Expr) (fits : Finding.allStorable (Expr.findingsList es))
    {n : Nat} (room : Json.depthOfItems (Expr.toJsonList es) < n) :
    StoresAll (Expr.toJsonList es) (Expr.read style n) es := by
  cases es with
  | nil => exact .nil
  | cons e rest =>
    simp only [Expr.toJsonList, Json.depthOfItems] at room
    obtain ⟨here, others⟩ := Finding.allStorable_append.mp fits
    exact .cons (Expr.stores_read e here (by omega)) (Expr.storesAll_read rest others (by omega))

/-- An expression that may be absent is read back. -/
theorem Expr.storesOption_read (e : Option Expr)
    (fits : Finding.allStorable (Expr.findingsOption e)) {n : Nat}
    (room : (Expr.toJsonOption e).depth < n) :
    StoresOption (Expr.toJsonOption e) (Expr.read style n) e := by
  cases e with
  | none => exact .absent
  | some e => exact (Expr.stores_read e fits room).toOption

/-- Elements are read back. -/
theorem Element.storesAll_read (elements : List Element)
    (fits : Finding.allStorable (Element.findingsList elements)) {n : Nat}
    (room : Json.depthOfItems (Element.toJsonList elements) < n) :
    StoresAll (Element.toJsonList elements) (Element.read style n) elements := by
  cases elements with
  | nil => exact .nil
  | cons element rest =>
    obtain ⟨key, value⟩ := element
    simp only [Element.toJsonList, Json.depthOfItems, Json.depth, Json.depthOfEntries] at room
    obtain ⟨keyFits, fits⟩ := Finding.allStorable_append.mp fits
    obtain ⟨valueFits, others⟩ := Finding.allStorable_append.mp fits
    obtain ⟨m, rfl⟩ := exists_eq_succ_of_lt room
    have first : StoresOption (Expr.toJsonOption key) (Expr.read style m) key :=
      Expr.storesOption_read key keyFits (by omega)
    have second : Stores value.toJson (Expr.read style m) value :=
      Expr.stores_read value valueFits (by omega)
    refine .cons ⟨?_, nofun, ?_⟩ (Element.storesAll_read rest others (by omega))
    · simp [Json.isPlain, Json.entriesPlain, first.plain, second.plain]
    · have parts : Element.read style (m + 1)
          (.obj [("key", Expr.toJsonOption key), ("value", value.toJson)]) = (do
        return ⟨← (Expr.toJsonOption key).nullable? (Expr.read style m),
          ← Expr.read style m value.toJson⟩) := rfl
      rw [parts, first.read, second.read]
      rfl

/-- A function is read back. -/
theorem Func.stores_read (func : Func) (fits : Finding.allStorable func.findings) {n : Nat}
    (room : func.toJson.depth < n) : Stores func.toJson (Func.read style n) func := by
  obtain ⟨n, rfl⟩ := exists_eq_succ_of_lt room
  obtain ⟨name, receiver, params, results, body⟩ := func
  simp only [Func.toJson, Json.depth, Json.depthOfEntries] at room
  obtain ⟨paramsFit, bodyFits⟩ := Finding.allStorable_append.mp fits
  have paramFits : ∀ param ∈ receiver.toList ++ params ++ results,
      (Finding.param param).storable := fun param member =>
    List.all_eq_true.mp paramsFit _ (List.mem_map_of_mem member)
  have named := stores_optionStr name
  have received : StoresOption (.ofOption Param.toJson receiver) (Param.ofJson? style) receiver :=
    Param.storesOption fun param given => paramFits param (by simp [given])
  have given : Stores (.ofList Param.toJson params) (Json.list? (Param.ofJson? style)) params :=
    Param.storesAll fun param member => paramFits param (by simp [member])
  have returned : Stores (.ofList Param.toJson results) (Json.list? (Param.ofJson? style))
      results := Param.storesAll fun param member => paramFits param (by simp [member])
  have inner : Stores body.toJson (Block.read style n) body :=
    Block.stores_read body bodyFits (by omega)
  refine ⟨?_, nofun, ?_⟩
  · simp [Func.toJson, Json.isPlain, Json.entriesPlain, named.plain, received.plain, given.plain,
      returned.plain, inner.plain]
  · have parts : Func.read style (n + 1) (Func.mk name receiver params results body).toJson = (do
      return ⟨← (Json.ofOption .str name).nullable? Json.string?,
        ← (Json.ofOption Param.toJson receiver).nullable? (Param.ofJson? style),
        ← (Json.ofList Param.toJson params).list? (Param.ofJson? style),
        ← (Json.ofList Param.toJson results).list? (Param.ofJson? style),
        ← Block.read style n body.toJson⟩) := rfl
    rw [parts, named.read, received.read, given.read, returned.read, inner.read]
    rfl

/-- Functions are read back. -/
theorem Func.storesAll_read (funcs : List Func)
    (fits : Finding.allStorable (Func.findingsList funcs)) {n : Nat}
    (room : Json.depthOfItems (Func.toJsonList funcs) < n) :
    StoresAll (Func.toJsonList funcs) (Func.read style n) funcs := by
  cases funcs with
  | nil => exact .nil
  | cons func rest =>
    simp only [Func.toJsonList, Json.depthOfItems] at room
    obtain ⟨here, others⟩ := Finding.allStorable_append.mp fits
    exact .cons (Func.stores_read func here (by omega))
      (Func.storesAll_read rest others (by omega))

/-- A block is read back, with its labels. -/
theorem Block.stores_read (block : Block) (fits : Finding.allStorable block.findings) {n : Nat}
    (room : block.toJson.depth < n) : Stores block.toJson (Block.read style n) block := by
  obtain ⟨n, rfl⟩ := exists_eq_succ_of_lt room
  obtain ⟨statements, labels⟩ := block
  simp only [Block.toJson, Json.depth, Json.depthOfEntries] at room
  obtain ⟨labelsFit, statementsFit⟩ := Finding.allStorable_cons.mp fits
  have inner : StoresAll (Stmt.toJsonList statements) (Stmt.read style n) statements :=
    Stmt.storesAll_read statements statementsFit (by omega)
  have labelled := stores_labels labelsFit
  refine ⟨?_, nofun, ?_⟩
  · simp [Block.toJson, Json.isPlain, Json.entriesPlain, inner.plain, labelled.plain]
  · have parts : Block.read style (n + 1) (Block.mk statements labels).toJson = (do
      return ⟨← (Stmt.toJsonList statements).mapM (Stmt.read style n),
        ← NameMap.ofJson? SymbolId.ofJson? (labels.toJson SymbolId.toJson)⟩) := rfl
    rw [parts, inner.read, labelled.read]
    rfl

/-- A statement is read back. -/
theorem Stmt.stores_read (s : Stmt) (fits : Finding.allStorable s.findings) {n : Nat}
    (room : s.toJson.depth < n) : Stores s.toJson (Stmt.read style n) s := by
  obtain ⟨n, rfl⟩ := exists_eq_succ_of_lt room
  obtain ⟨id, position, label, form⟩ := s
  simp only [Stmt.toJson, Json.depth, Json.depthOfEntries] at room
  obtain ⟨idFits, fits⟩ := Finding.allStorable_cons.mp fits
  obtain ⟨labelFits, formFits⟩ := Finding.allStorable_append.mp fits
  have numbered : Stores id.toJson StmtId.ofJson? id := StmtId.stores idFits
  have place := position.stores
  have labelled : StoresOption (.ofOption StmtLabel.toJson label) StmtLabel.ofJson? label := by
    refine .ofOption ?_
    rintro leaf rfl
    exact StmtLabel.stores (Finding.allStorable_cons.mp labelFits).1
  have inner : Stores form.toJson (StmtForm.read style n) form :=
    StmtForm.stores_read form formFits (by omega)
  refine ⟨?_, nofun, ?_⟩
  · simp [Stmt.toJson, Json.isPlain, Json.entriesPlain, numbered.plain, place.plain,
      labelled.plain, inner.plain]
  · have parts : Stmt.read style (n + 1) (Stmt.mk id position label form).toJson = (do
      return ⟨← StmtId.ofJson? id.toJson, ← Position.ofJson? position.toJson,
        ← (Json.ofOption StmtLabel.toJson label).nullable? StmtLabel.ofJson?,
        ← StmtForm.read style n form.toJson⟩) := rfl
    rw [parts, numbered.read, place.read, labelled.read, inner.read]
    rfl

/-- Statements are read back. -/
theorem Stmt.storesAll_read (statements : List Stmt)
    (fits : Finding.allStorable (Stmt.findingsList statements)) {n : Nat}
    (room : Json.depthOfItems (Stmt.toJsonList statements) < n) :
    StoresAll (Stmt.toJsonList statements) (Stmt.read style n) statements := by
  cases statements with
  | nil => exact .nil
  | cons s rest =>
    simp only [Stmt.toJsonList, Json.depthOfItems] at room
    obtain ⟨here, others⟩ := Finding.allStorable_append.mp fits
    exact .cons (Stmt.stores_read s here (by omega)) (Stmt.storesAll_read rest others (by omega))

/-- A statement that may be absent is read back. -/
theorem Stmt.storesOption_read (s : Option Stmt)
    (fits : Finding.allStorable (Stmt.findingsOption s)) {n : Nat}
    (room : (Stmt.toJsonOption s).depth < n) :
    StoresOption (Stmt.toJsonOption s) (Stmt.read style n) s := by
  cases s with
  | none => exact .absent
  | some s => exact (Stmt.stores_read s fits room).toOption

/-- A form of statement is read back. -/
theorem StmtForm.stores_read (form : StmtForm) (fits : Finding.allStorable form.findings) {n : Nat}
    (room : form.toJson.depth < n) : Stores form.toJson (StmtForm.read style n) form := by
  obtain ⟨n, rfl⟩ := exists_eq_succ_of_lt room
  cases form with
  | assign lhs rhs op =>
    simp only [StmtForm.toJson, Json.tagged, Json.depth, Json.depthOfEntries] at room
    obtain ⟨lhsFit, rhsFit⟩ := Finding.allStorable_append.mp fits
    have first : StoresAll (Expr.toJsonList lhs) (Expr.read style n) lhs :=
      Expr.storesAll_read lhs lhsFit (by omega)
    have second : StoresAll (Expr.toJsonList rhs) (Expr.read style n) rhs :=
      Expr.storesAll_read rhs rhsFit (by omega)
    refine ⟨?_, nofun, ?_⟩
    · simp [StmtForm.toJson, Json.tagged, Json.isPlain, Json.entriesPlain, first.plain,
        second.plain]
    · have parts : StmtForm.read style (n + 1) (StmtForm.assign lhs rhs op).toJson = (do
        return .assign (← (Expr.toJsonList lhs).mapM (Expr.read style n))
          (← (Expr.toJsonList rhs).mapM (Expr.read style n))
          (← AssignOp.ofJson? (.str op.tag))) := rfl
      rw [parts, first.read, second.read, op.stores.read]
      rfl
  | struct decl =>
    -- the bodies of the methods are the only parts with statements in them
    obtain ⟨name, fields, methods, symbol⟩ := decl
    simp only [StmtForm.toJson, Json.tagged, Json.depth, Json.depthOfEntries] at room
    obtain ⟨symbolFits, methodsFit⟩ := Finding.allStorable_cons.mp fits
    have first : Stores (.ofList FieldDecl.toJson fields) (Json.list? (FieldDecl.ofJson? style))
        fields := (StoresAll.ofList fun field _ => field.stores).list
    have second : StoresAll (Func.toJsonList methods) (Func.read style n) methods :=
      Func.storesAll_read methods methodsFit (by omega)
    have handle : StoresOption (.ofOption SymbolId.toJson symbol) SymbolId.ofJson? symbol :=
      SymbolId.storesOption symbolFits
    refine ⟨?_, nofun, ?_⟩
    · simp [StmtForm.toJson, Json.tagged, Json.isPlain, Json.entriesPlain, first.plain,
        second.plain, handle.plain]
    · have parts : StmtForm.read style (n + 1)
          (StmtForm.struct ⟨name, fields, methods, symbol⟩).toJson = (do
        return .struct ⟨name,
          ← (Json.ofList FieldDecl.toJson fields).list? (FieldDecl.ofJson? style),
          ← (Func.toJsonList methods).mapM (Func.read style n),
          ← (Json.ofOption SymbolId.toJson symbol).nullable? SymbolId.ofJson?⟩) := rfl
      rw [parts, first.read, second.read, handle.read]
      rfl
  | typeAlias decl =>
    have inner : Stores decl.toJson (AliasDecl.ofJson? style) decl :=
      AliasDecl.stores (Finding.allStorable_cons.mp fits).1
    exact inner.tagged rfl
  | var vars =>
    simp only [StmtForm.toJson, Json.tagged, Json.depth, Json.depthOfEntries] at room
    have inner : Stores vars.toJson (VarForm.read style n) vars :=
      VarForm.stores_read vars fits (by omega)
    exact inner.tagged rfl
  | pass => exact ⟨rfl, nofun, rfl⟩
  | cond branches =>
    simp only [StmtForm.toJson, Json.tagged, Json.depth, Json.depthOfEntries] at room
    have inner : StoresAll (Branch.toJsonList branches) (Branch.read style n) branches :=
      Branch.storesAll_read branches fits (by omega)
    refine ⟨?_, nofun, ?_⟩
    · simp [StmtForm.toJson, Json.tagged, Json.isPlain, Json.entriesPlain, inner.plain]
    · have parts : StmtForm.read style (n + 1) (StmtForm.cond branches).toJson = (do
        return .cond (← (Branch.toJsonList branches).mapM (Branch.read style n))) := rfl
      rw [parts, inner.read]
      rfl
  | loop loop =>
    obtain ⟨header, condition, step, body⟩ := loop
    simp only [StmtForm.toJson, Json.tagged, Json.depth, Json.depthOfEntries] at room
    obtain ⟨headerFits, fits⟩ := Finding.allStorable_append.mp fits
    obtain ⟨conditionFits, fits⟩ := Finding.allStorable_append.mp fits
    obtain ⟨stepFits, bodyFits⟩ := Finding.allStorable_append.mp fits
    have first : StoresOption (VarForm.toJsonOption header) (VarForm.read style n) header :=
      VarForm.storesOption_read header headerFits (by omega)
    have second : StoresOption (Expr.toJsonOption condition) (Expr.read style n) condition :=
      Expr.storesOption_read condition conditionFits (by omega)
    have third : StoresOption (Stmt.toJsonOption step) (Stmt.read style n) step :=
      Stmt.storesOption_read step stepFits (by omega)
    have inner : Stores body.toJson (Block.read style n) body :=
      Block.stores_read body bodyFits (by omega)
    refine ⟨?_, nofun, ?_⟩
    · simp [StmtForm.toJson, Json.tagged, Json.isPlain, Json.entriesPlain, first.plain,
        second.plain, third.plain, inner.plain]
    · have parts : StmtForm.read style (n + 1)
          (StmtForm.loop ⟨header, condition, step, body⟩).toJson = (do
        return .loop ⟨← (VarForm.toJsonOption header).nullable? (VarForm.read style n),
          ← (Expr.toJsonOption condition).nullable? (Expr.read style n),
          ← (Stmt.toJsonOption step).nullable? (Stmt.read style n),
          ← Block.read style n body.toJson⟩) := rfl
      rw [parts, first.read, second.read, third.read, inner.read]
      rfl
  | expr e =>
    simp only [StmtForm.toJson, Json.tagged, Json.depth, Json.depthOfEntries] at room
    have inner : Stores e.toJson (Expr.read style n) e := Expr.stores_read e fits (by omega)
    exact inner.tagged rfl
  | jump jump =>
    have inner : Stores jump.toJson Jump.ofJson? jump :=
      Jump.stores (Finding.allStorable_cons.mp fits).1
    exact inner.tagged rfl
  | ret values =>
    simp only [StmtForm.toJson, Json.tagged, Json.depth, Json.depthOfEntries] at room
    have inner : StoresAll (Expr.toJsonList values) (Expr.read style n) values :=
      Expr.storesAll_read values fits (by omega)
    exact inner.list.tagged rfl

/-- A form of variables is read back. -/
theorem VarForm.stores_read (vars : VarForm) (fits : Finding.allStorable vars.findings) {n : Nat}
    (room : vars.toJson.depth < n) : Stores vars.toJson (VarForm.read style n) vars := by
  obtain ⟨n, rfl⟩ := exists_eq_succ_of_lt room
  obtain ⟨vars, isFunc⟩ := vars
  simp only [VarForm.toJson, Json.depth, Json.depthOfEntries] at room
  have inner : StoresAll (VarDecl.toJsonList vars) (VarDecl.read style n) vars :=
    VarDecl.storesAll_read vars fits (by omega)
  refine ⟨?_, nofun, ?_⟩
  · simp [VarForm.toJson, Json.isPlain, Json.entriesPlain, inner.plain]
  · have parts : VarForm.read style (n + 1) (VarForm.mk vars isFunc).toJson = (do
      return ⟨← (VarDecl.toJsonList vars).mapM (VarDecl.read style n), isFunc⟩) := rfl
    rw [parts, inner.read]
    rfl

/-- A form of variables that may be absent is read back. -/
theorem VarForm.storesOption_read (vars : Option VarForm)
    (fits : Finding.allStorable (VarForm.findingsOption vars)) {n : Nat}
    (room : (VarForm.toJsonOption vars).depth < n) :
    StoresOption (VarForm.toJsonOption vars) (VarForm.read style n) vars := by
  cases vars with
  | none => exact .absent
  | some vars => exact (VarForm.stores_read vars fits room).toOption

/-- Variables are read back. -/
theorem VarDecl.storesAll_read (vars : List VarDecl)
    (fits : Finding.allStorable (VarDecl.findingsList vars)) {n : Nat}
    (room : Json.depthOfItems (VarDecl.toJsonList vars) < n) :
    StoresAll (VarDecl.toJsonList vars) (VarDecl.read style n) vars := by
  cases vars with
  | nil => exact .nil
  | cons decl rest =>
    obtain ⟨name, position, spec, value, symbol⟩ := decl
    simp only [VarDecl.toJsonList, Json.depthOfItems, Json.depth, Json.depthOfEntries] at room
    obtain ⟨symbolFits, fits⟩ := Finding.allStorable_cons.mp fits
    obtain ⟨valueFits, others⟩ := Finding.allStorable_append.mp fits
    obtain ⟨m, rfl⟩ := exists_eq_succ_of_lt room
    have place := position.stores
    have written : StoresOption (.ofOption TypeSpec.toJson spec) (TypeSpec.ofJson? style) spec :=
      .ofOption fun spec _ => spec.stores
    have inner : StoresOption (Expr.toJsonOption value) (Expr.read style m) value :=
      Expr.storesOption_read value valueFits (by omega)
    have handle : StoresOption (.ofOption SymbolId.toJson symbol) SymbolId.ofJson? symbol :=
      SymbolId.storesOption symbolFits
    refine .cons ⟨?_, nofun, ?_⟩ (VarDecl.storesAll_read rest others (by omega))
    · simp [Json.isPlain, Json.entriesPlain, place.plain, written.plain, inner.plain,
        handle.plain]
    · have parts : VarDecl.read style (m + 1) (.obj [("name", .str name),
          ("position", position.toJson), ("type_spec", .ofOption TypeSpec.toJson spec),
          ("init", Expr.toJsonOption value),
          ("object", .ofOption SymbolId.toJson symbol)]) = (do
        return ⟨name, ← Position.ofJson? position.toJson,
          ← (Json.ofOption TypeSpec.toJson spec).nullable? (TypeSpec.ofJson? style),
          ← (Expr.toJsonOption value).nullable? (Expr.read style m),
          ← (Json.ofOption SymbolId.toJson symbol).nullable? SymbolId.ofJson?⟩) := rfl
      rw [parts, place.read, written.read, inner.read, handle.read]
      rfl

/-- Branches are read back. -/
theorem Branch.storesAll_read (branches : List Branch)
    (fits : Finding.allStorable (Branch.findingsList branches)) {n : Nat}
    (room : Json.depthOfItems (Branch.toJsonList branches) < n) :
    StoresAll (Branch.toJsonList branches) (Branch.read style n) branches := by
  cases branches with
  | nil => exact .nil
  | cons branch rest =>
    obtain ⟨header, condition, body⟩ := branch
    simp only [Branch.toJsonList, Json.depthOfItems, Json.depth, Json.depthOfEntries] at room
    obtain ⟨headerFits, fits⟩ := Finding.allStorable_append.mp fits
    obtain ⟨conditionFits, fits⟩ := Finding.allStorable_append.mp fits
    obtain ⟨bodyFits, others⟩ := Finding.allStorable_append.mp fits
    obtain ⟨m, rfl⟩ := exists_eq_succ_of_lt room
    have first : StoresOption (VarForm.toJsonOption header) (VarForm.read style m) header :=
      VarForm.storesOption_read header headerFits (by omega)
    have second : StoresOption (Expr.toJsonOption condition) (Expr.read style m) condition :=
      Expr.storesOption_read condition conditionFits (by omega)
    have inner : Stores body.toJson (Block.read style m) body :=
      Block.stores_read body bodyFits (by omega)
    refine .cons ⟨?_, nofun, ?_⟩ (Branch.storesAll_read rest others (by omega))
    · simp [Json.isPlain, Json.entriesPlain, first.plain, second.plain, inner.plain]
    · have parts : Branch.read style (m + 1) (.obj [("scoped_var", VarForm.toJsonOption header),
          ("condition", Expr.toJsonOption condition), ("body", body.toJson)]) = (do
        return ⟨← (VarForm.toJsonOption header).nullable? (VarForm.read style m),
          ← (Expr.toJsonOption condition).nullable? (Expr.read style m),
          ← Block.read style m body.toJson⟩) := rfl
      rw [parts, first.read, second.read, inner.read]
      rfl

end

end PackageCheck
