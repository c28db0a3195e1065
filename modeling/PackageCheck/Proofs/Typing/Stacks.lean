import PackageCheck.Typing.Tree

/-! # Stacks

The checks of a tree hand its surroundings down: the results of the function around a node, the
loops and the labels. A checker that goes through a tree in place keeps them on stacks instead. It
pushes what a block, a loop or a function adds, goes through the parts and pops it again.

* `Stacks.context`: the surroundings that some stacks stand for.
* `popBlock_pushBlock`, `popLoop_pushLoop`, `leaveBody_enterBody`: what is pushed can be popped.
* `context_pushBlock`, `context_pushLoop`, `context_enterBody`: what is pushed is what the checks of
  a tree hand down. -/

namespace PackageCheck.Typing

/-- What surrounds a node, on stacks with the innermost in front. -/
structure Stacks where
  /-- The results of the functions around the node. -/
  frames : List Frame := []
  /-- The loops of the function at hand. -/
  loops : List (StmtId × Option String) := []
  /-- The labels of the blocks in all functions around the node. -/
  blocks : List (NameMap SymbolId) := []
  /-- How many of the blocks belong to functions further outside. -/
  base : Nat := 0

namespace Stacks

/-- Whether the function at hand starts at one of the blocks, or behind the last one. -/
def Based (around : Stacks) : Prop :=
  around.base ≤ around.blocks.length

instance (around : Stacks) : Decidable around.Based :=
  inferInstanceAs (Decidable (_ ≤ _))

/-- The surroundings that the stacks stand for. -/
def context (around : Stacks) (file : String) : Context where
  file := file
  frame := around.frames.head?
  loops := around.loops
  labels := around.blocks.take (around.blocks.length - around.base)

/-! ## Pushing and popping -/

/-- Enters a block with the given labels. -/
def pushBlock (labels : NameMap SymbolId) (around : Stacks) : Stacks :=
  { around with blocks := labels :: around.blocks }

/-- Leaves a block. -/
def popBlock (around : Stacks) : Stacks :=
  { around with blocks := around.blocks.tail }

/-- Enters a loop. -/
def pushLoop (loop : StmtId × Option String) (around : Stacks) : Stacks :=
  { around with loops := loop :: around.loops }

/-- Leaves a loop. -/
def popLoop (around : Stacks) : Stacks :=
  { around with loops := around.loops.tail }

/-- Enters the body of a function. Loops and labels outside are out of reach. -/
def enterBody (frame : Frame) (around : Stacks) : Stacks :=
  { around with
    frames := frame :: around.frames
    loops := []
    base := around.blocks.length }

/-- Leaves the body of a function, with the loops and the base from before it was entered. -/
def leaveBody (loops : List (StmtId × Option String)) (base : Nat) (around : Stacks) : Stacks :=
  { around with frames := around.frames.tail, loops := loops, base := base }

section

variable (around : Stacks) (labels : NameMap SymbolId) (loop : StmtId × Option String)
  (frame : Frame)

@[simp]
theorem popBlock_pushBlock : (around.pushBlock labels).popBlock = around := rfl

@[simp]
theorem popLoop_pushLoop : (around.pushLoop loop).popLoop = around := rfl

@[simp]
theorem leaveBody_enterBody :
    (around.enterBody frame).leaveBody around.loops around.base = around := rfl

end

/-! ## Surroundings -/

section

variable {around : Stacks}

theorem Based.pushBlock (based : around.Based) (labels : NameMap SymbolId) :
    (around.pushBlock labels).Based :=
  Nat.le_succ_of_le based

theorem Based.pushLoop (based : around.Based) (loop : StmtId × Option String) :
    (around.pushLoop loop).Based :=
  based

/-- The body of a function starts behind all blocks, wherever the function around it does. -/
theorem based_enterBody (around : Stacks) (frame : Frame) : (around.enterBody frame).Based :=
  Nat.le_refl _

theorem context_pushBlock (based : around.Based) (file : String) (labels : NameMap SymbolId) :
    (around.pushBlock labels).context file =
      { around.context file with labels := labels :: (around.context file).labels } := by
  have deeper : (labels :: around.blocks).length - around.base =
      around.blocks.length - around.base + 1 := by
    rw [List.length_cons]
    exact Nat.sub_add_comm based
  simp only [context, Stacks.pushBlock, deeper, List.take_succ_cons]

theorem context_pushLoop (around : Stacks) (file : String) (loop : StmtId × Option String) :
    (around.pushLoop loop).context file =
      { around.context file with loops := loop :: (around.context file).loops } := rfl

theorem context_enterBody (around : Stacks) (file : String) (results : List Param)
    (signature : Signature) :
    (around.enterBody ⟨signature.results, !results.isEmpty && results.all (·.name.isSome)⟩).context
      file = (around.context file).ofBody results signature := by
  simp only [context, enterBody, Nat.sub_self, List.take_zero, List.head?_cons, Context.ofBody]

end

end Stacks

end PackageCheck.Typing
