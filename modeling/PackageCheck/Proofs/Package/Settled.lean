import PackageCheck.Proofs.Package.Initialization
import PackageCheck.Proofs.Symbol.Roots
import PackageCheck.Proofs.Typing.Annotations

/-! # Settled states

A state is settled if its handles lead to symbols of its own table: a table only grows, and its symbols
keep their kinds and their names. A check starts in a settled state, and what it does to the scopes and
the symbols, step by step, leads to settled states again. -/

namespace PackageCheck

/-! ## Larger worlds -/

section Larger

variable {world world' : World}

theorem World.HasType.mono {id : SymbolId} {name : String} (kept : world.symbols.KeptIn world')
    (there : world.HasType id name) : world'.HasType id name := by
  obtain ⟨decl, held, rfl⟩ := there
  exact kept id _ held

theorem World.HasNamed.mono {id : SymbolId} {name : String} (kept : world.symbols.KeptIn world')
    (there : world.HasNamed id name) : world'.HasNamed id name := by
  rcases there with ⟨v, held, rfl⟩ | type
  · exact Or.inl (kept id _ held)
  · exact Or.inr (World.HasType.mono kept type)

mutual

theorem Ty.validIn_mono (kept : world.symbols.KeptIn world') : ∀ type : Ty, type.ValidIn world →
    type.ValidIn world'
  | .simple _, _ => True.intro
  | .unknown, _ => True.intro
  | .array _ of, valid => Ty.validIn_mono kept of valid
  | .slice of, valid => Ty.validIn_mono kept of valid
  | .map key value, valid =>
    ⟨Ty.validIn_mono kept key valid.1, Ty.validIn_mono kept value valid.2⟩
  | .pointer pointee, valid => Ty.validIn_mono kept pointee valid
  | .tuple members, valid => Ty.allValidIn_mono kept members valid
  | .struct layout, valid => StructTy.validIn_mono kept layout valid
  | .func signature, valid => Signature.validIn_mono kept signature valid
  | .custom _ _, valid => World.HasType.mono kept valid

theorem Ty.allValidIn_mono (kept : world.symbols.KeptIn world') : ∀ types : List Ty,
    Ty.AllValidIn world types → Ty.AllValidIn world' types
  | [], _ => True.intro
  | type :: rest, valid =>
    ⟨Ty.validIn_mono kept type valid.1, Ty.allValidIn_mono kept rest valid.2⟩

theorem Signature.validIn_mono (kept : world.symbols.KeptIn world') : ∀ signature : Signature,
    signature.ValidIn world → signature.ValidIn world'
  | ⟨args, results⟩, valid =>
    ⟨Ty.allValidIn_mono kept args valid.1, Ty.allValidIn_mono kept results valid.2⟩

theorem StructTy.validIn_mono (kept : world.symbols.KeptIn world') : ∀ layout : StructTy,
    layout.ValidIn world → layout.ValidIn world'
  | ⟨_, fields, methods⟩, valid =>
    ⟨FieldTy.allValidIn_mono kept fields valid.1, MethodTy.allValidIn_mono kept methods valid.2⟩

theorem FieldTy.allValidIn_mono (kept : world.symbols.KeptIn world') : ∀ fields : List FieldTy,
    FieldTy.AllValidIn world fields → FieldTy.AllValidIn world' fields
  | [], _ => True.intro
  | ⟨_, type⟩ :: rest, valid =>
    ⟨Ty.validIn_mono kept type valid.1, FieldTy.allValidIn_mono kept rest valid.2⟩

theorem MethodTy.allValidIn_mono (kept : world.symbols.KeptIn world') : ∀ methods : List MethodTy,
    MethodTy.AllValidIn world methods → MethodTy.AllValidIn world' methods
  | [], _ => True.intro
  | ⟨_, signature⟩ :: rest, valid =>
    ⟨Signature.validIn_mono kept signature valid.1, MethodTy.allValidIn_mono kept rest valid.2⟩

end

end Larger

section Tables

variable {before after : SymbolTable}

/-- What is valid in a table is valid in one that keeps its symbols. -/
theorem Symbol.validIn_mono {symbol : Symbol} (kept : before.KeptIn (.ofTable after))
    (valid : symbol.ValidIn (.ofTable before)) : symbol.ValidIn (.ofTable after) := by
  have larger : (World.ofTable before).symbols.KeptIn (.ofTable after) := kept
  cases symbol with
  | var v => exact ⟨Ty.validIn_mono larger _ valid.1, fun _ _ => True.intro⟩
  | type decl => exact fun target same => Ty.validIn_mono larger _ (valid target same)
  | label label => exact fun _ _ => True.intro
  | package name => exact True.intro

theorem Typing.State.validIn_mono {s : State} (kept : before.KeptIn (.ofTable after))
    (valid : s.ValidIn (.ofTable before)) : s.ValidIn (.ofTable after) where
  symbols id symbol held := Symbol.validIn_mono kept (valid.symbols id symbol held)
  scopes scope member name id found := by
    have larger : (World.ofTable before).symbols.KeptIn (.ofTable after) := kept
    exact World.HasNamed.mono larger (valid.scopes scope member name id found)

end Tables

namespace Typing

variable {s s' : State}

/-- The handles in a settled state lead to symbols of its own table. -/
theorem State.settled_iff : s.Settled ↔ s.ValidIn (.ofTable s.symbols) := by
  constructor
  · exact fun settled => settled _ (.refl _)
  · intro valid table within
    exact State.validIn_mono ((SymbolTable.keptIn_symbols (.ofTable table)).of_within within) valid

/-! ## Steps -/

/-- One step of a check, as far as the scopes and the symbols are concerned. What it puts into the table
    holds no handles but those of symbols that are there. -/
inductive State.Steps (s : State) : State → Prop
  /-- Something is noted. -/
  | notes {s' : State} (symbols : s'.symbols = s.symbols) (scopes : s'.scopes = s.scopes) :
    State.Steps s s'
  | opens : State.Steps s s.pushScope
  | closes : State.Steps s s.popScope
  | inserts {symbol : Symbol} (own : symbol.ValidIn (.ofTable s.symbols)) :
    State.Steps s (s.insertSymbol symbol)
  /-- A variable or a type gets a name. -/
  | declares {symbol : Symbol} (own : symbol.ValidIn (.ofTable s.symbols))
    (named : symbol.var?.isSome = true ∨ symbol.type?.isSome = true) :
    State.Steps s (s.insertNamed symbol)
  /-- A declared type gets a target. -/
  | aliases {id : SymbolId} {target : Ty} (own : target.ValidIn (.ofTable s.symbols)) :
    State.Steps s (s.setAliased id target)
  | fails {id : SymbolId} (err : Diagnostic) :
    State.Steps s (s.markIfFailed id (.error err : Except Diagnostic Unit))

/-- The symbols in front of a step keep their kinds and their names. -/
theorem State.Steps.keptIn (steps : s.Steps s') : s.symbols.KeptIn (.ofTable s'.symbols) := by
  have there := SymbolTable.keptIn_symbols (.ofTable s'.symbols)
  cases steps with
  | notes symbols scopes => exact symbols ▸ there
  | opens => exact there
  | closes => exact there
  | inserts own => exact there.of_within (s.symbols.extends_insert _).toWithin
  | declares own named => exact there.of_within (s.symbols.extends_insert _).toWithin
  | aliases own => exact there.of_setAliased
  | fails err => exact there.of_markIfFailed

theorem State.Settled.step (settled : s.Settled) (steps : s.Steps s') : s'.Settled := by
  rw [State.settled_iff] at settled ⊢
  have kept := steps.keptIn
  have valid := State.validIn_mono kept settled
  cases steps with
  | notes symbols scopes => exact valid.of_eq symbols scopes
  | opens => exact valid.pushScope
  | closes => exact valid.popScope
  | inserts own => exact valid.insertSymbol (Symbol.validIn_mono kept own)
  | @declares symbol own named =>
    refine valid.insertNamed (Symbol.validIn_mono kept own) ?_
    have new := SymbolTable.keptIn_symbols (.ofTable (s.insertNamed symbol).symbols) _ _
      (s.symbols.get?_insert_nextId symbol)
    cases symbol with
    | var v => exact Or.inl new
    | type decl => exact Or.inr new
    | label label => rcases named with impossible | impossible <;> cases impossible
    | package name => rcases named with impossible | impossible <;> cases impossible
  | aliases own =>
    have larger : (World.ofTable s.symbols).symbols.KeptIn (.ofTable _) := kept
    exact valid.setAliased (Ty.validIn_mono larger _ own)
  | fails err => exact valid.markIfFailed _

/-! ## Statements -/

/-- What is around a statement leads to symbols that are still there. -/
theorem Context.ValidIn.mono {ctx : Context} {before after : SymbolTable}
    (within : before.Within after) (around : ctx.ValidIn (.ofTable before)) :
    ctx.ValidIn (.ofTable after) where
  loops _ _ := True.intro
  labels labels member name id found := by
    obtain ⟨label, held, named⟩ := around.labels labels member name id found
    exact ⟨label, within.kept id _ held, named⟩
  frame frame same := by
    have kept := (SymbolTable.keptIn_symbols (.ofTable after)).of_within within
    have larger : (World.ofTable before).symbols.KeptIn (.ofTable after) := kept
    exact Ty.allValidIn_mono larger _ (around.frame frame same)

end Typing

end PackageCheck
