import Mathlib.Data.List.Induction
import Mathlib.Logic.ExistsUnique
import PackageCheck.Tree.Walk

/-! # The nesting of walks

A walk opens frames and closes them again: statements and expressions are entered and left, scopes
are opened and closed. `Brackets` reads a walk with a stack of the frames that are open, on which
only the frame opened last can be closed, and by no other event than its own.

The walk of every block, statement and expression gives the stack back as it was, whatever is open
around it (`Stmt.brackets_walk` and its siblings, by recursion on the tree). So it is nested: it
does this if nothing is open around it. Of a nested walk there is more to say
(`Nested.wellBracketed`):

* no beginning of it closes more scopes than it opens;
* each event that opens a frame has exactly one that closes the frame, and the other way round,
  with a nested walk in between. -/

namespace PackageCheck

/-! ## Frames -/

/-- What is open between two events of a walk. Two nodes of a tree that hold the same are not told
    apart, but then neither stands inside of the other, so that they are not open at once. -/
inductive Frame where
  | stmt (stmt : Stmt)
  | expr (expr : Expr)
  | scope

/-- Whether the frame is a scope. -/
def Frame.isScope : Frame → Bool
  | .scope => true
  | _ => false

namespace Event

/-- The frame that an event opens. -/
def opens? : Event → Option Frame
  | .enterStmt s => some (.stmt s)
  | .enterExpr e => some (.expr e)
  | .openScope => some .scope
  | _ => none

/-- The frame that an event closes. -/
def closes? : Event → Option Frame
  | .leaveStmt s => some (.stmt s)
  | .leaveExpr e => some (.expr e)
  | .closeScope => some .scope
  | _ => none

/-- Whether an event opens a scope. -/
def opensScope (event : Event) : Bool :=
  event.opens?.any Frame.isScope

/-- Whether an event closes a scope. -/
def closesScope (event : Event) : Bool :=
  event.closes?.any Frame.isScope

theorem closes?_of_opens? {event : Event} {frame : Frame} (opened : event.opens? = some frame) :
    event.closes? = none := by
  cases event <;> first | rfl | cases opened

theorem opens?_of_closes? {event : Event} {frame : Frame} (closed : event.closes? = some frame) :
    event.opens? = none := by
  cases event <;> first | rfl | cases closed

end Event

/-- How many scopes a walk opens. -/
def scopesOpened (walk : List Event) : Nat :=
  walk.countP Event.opensScope

/-- How many scopes a walk closes. -/
def scopesClosed (walk : List Event) : Nat :=
  walk.countP Event.closesScope

theorem scopesOpened_cons (event : Event) (rest : List Event) : scopesOpened (event :: rest) =
    scopesOpened rest + if event.opens?.any Frame.isScope then 1 else 0 :=
  List.countP_cons

theorem scopesClosed_cons (event : Event) (rest : List Event) : scopesClosed (event :: rest) =
    scopesClosed rest + if event.closes?.any Frame.isScope then 1 else 0 :=
  List.countP_cons

theorem scopesOpened_append (front back : List Event) :
    scopesOpened (front ++ back) = scopesOpened front + scopesOpened back :=
  List.countP_append

theorem scopesClosed_append (front back : List Event) :
    scopesClosed (front ++ back) = scopesClosed front + scopesClosed back :=
  List.countP_append

/-- Whether no beginning of a walk closes more scopes than it opens. Then the scope that is open
    around the walk stays so. -/
def KeepsOpen (walk : List Event) : Prop :=
  ∀ {front back : List Event}, walk = front ++ back → scopesClosed front ≤ scopesOpened front

theorem KeepsOpen.front {front back : List Event} (keeps : KeepsOpen (front ++ back)) :
    KeepsOpen front := by
  rintro first second rfl
  exact keeps (List.append_assoc first second back)

/-- Whether a walk that finds some frames open leaves others open, each of them listed from the
    inside out. An event can close the innermost frame alone. -/
inductive Brackets : List Frame → List Event → List Frame → Prop
  | nil {frames : List Frame} : Brackets frames [] frames
  | opening {event : Event} {frame : Frame} {frames last : List Frame} {rest : List Event} :
      event.opens? = some frame → Brackets (frame :: frames) rest last →
      Brackets frames (event :: rest) last
  | closing {event : Event} {frame : Frame} {frames last : List Frame} {rest : List Event} :
      event.closes? = some frame → Brackets frames rest last →
      Brackets (frame :: frames) (event :: rest) last
  | passing {event : Event} {frames last : List Frame} {rest : List Event} :
      event.opens? = none → event.closes? = none → Brackets frames rest last →
      Brackets frames (event :: rest) last

/-- Whether a walk closes the frames that it opens, each by its own event and the one opened last
    first, and no others. -/
def Nested (walk : List Event) : Prop :=
  Brackets [] walk []

namespace Brackets

variable {frames frames' last : List Frame} {walk front back : List Event}

theorem append (before : Brackets frames front frames') (behind : Brackets frames' back last) :
    Brackets frames (front ++ back) last := by
  induction before with
  | nil => exact behind
  | opening opened _ hypothesis => exact .opening opened (hypothesis behind)
  | closing closed _ hypothesis => exact .closing closed (hypothesis behind)
  | passing opened closed _ hypothesis => exact .passing opened closed (hypothesis behind)

/-- Somewhere on a walk certain frames are open. -/
theorem exists_of_append (both : Brackets frames (front ++ back) last) :
    ∃ middle, Brackets frames front middle ∧ Brackets middle back last := by
  induction front generalizing frames with
  | nil => exact ⟨frames, .nil, both⟩
  | cons event front hypothesis =>
    cases both with
    | opening opened rest =>
      obtain ⟨middle, before, behind⟩ := hypothesis rest
      exact ⟨middle, .opening opened before, behind⟩
    | closing closed rest =>
      obtain ⟨middle, before, behind⟩ := hypothesis rest
      exact ⟨middle, .closing closed before, behind⟩
    | passing opened closed rest =>
      obtain ⟨middle, before, behind⟩ := hypothesis rest
      exact ⟨middle, .passing opened closed before, behind⟩

/-- Behind an event that opens a frame the frame is open. -/
theorem opened {event : Event} {frame : Frame} (read : Brackets frames (event :: back) last)
    (opens : event.opens? = some frame) : Brackets (frame :: frames) back last := by
  cases read with
  | opening opens' rest =>
    obtain rfl := Option.some.inj (opens'.symm.trans opens)
    exact rest
  | closing closes _ => cases (Event.closes?_of_opens? opens).symm.trans closes
  | passing unopened _ _ => cases opens.symm.trans unopened

/-- In front of an event that closes a frame it is the innermost one. -/
theorem closed {event : Event} {frame : Frame} (read : Brackets frames (event :: back) last)
    (closes : event.closes? = some frame) :
    ∃ outer, frames = frame :: outer ∧ Brackets outer back last := by
  cases read with
  | opening opens _ => cases (Event.closes?_of_opens? opens).symm.trans closes
  | closing closes' rest =>
    obtain rfl := Option.some.inj (closes'.symm.trans closes)
    exact ⟨_, rfl, rest⟩
  | passing _ unclosed _ => cases closes.symm.trans unclosed

theorem passed {event : Event} (read : Brackets frames (event :: back) last)
    (unopened : event.opens? = none) (unclosed : event.closes? = none) :
    Brackets frames back last := by
  cases read with
  | opening opens _ => cases opens.symm.trans unopened
  | closing closes _ => cases closes.symm.trans unclosed
  | passing _ _ rest => exact rest

/-- Which frames a walk leaves open is settled by those that it finds open. -/
theorem unique (first : Brackets frames walk last) (second : Brackets frames walk frames') :
    last = frames' := by
  induction first with
  | nil =>
    cases second
    rfl
  | opening opens _ hypothesis => exact hypothesis (second.opened opens)
  | closing closes _ hypothesis =>
    obtain ⟨outer, same, rest⟩ := second.closed closes
    obtain ⟨-, rfl⟩ := List.cons.inj same
    exact hypothesis rest
  | passing unopened unclosed _ hypothesis => exact hypothesis (second.passed unopened unclosed)

/-- A walk that leaves nothing open has closed each frame that it finds open. Up to there it closes
    the frames further inside, and no others. -/
theorem exists_exit {inner : List Frame} {frame : Frame}
    (read : Brackets (inner ++ frame :: frames) walk last) (left : last = []) :
    ∃ inside exit rest, walk = inside ++ exit :: rest ∧ exit.closes? = some frame ∧
      Brackets inner inside [] := by
  -- by induction on the reading: only what lies on top of the frame changes until it is closed
  generalize start : inner ++ frame :: frames = found at read
  induction read generalizing inner with
  | nil => cases (List.append_eq_nil_iff.mp (start.trans left)).2
  | @opening event opener _ _ rest opened _ hypothesis =>
    subst start
    have deeper : (opener :: inner) ++ frame :: frames = opener :: (inner ++ frame :: frames) := rfl
    obtain ⟨inside, exit, rest, rfl, closed, read⟩ := hypothesis left deeper
    exact ⟨event :: inside, exit, rest, rfl, closed, .opening opened read⟩
  | @closing event _ _ _ rest closed _ hypothesis =>
    cases inner with
    | nil =>
      obtain ⟨rfl, rfl⟩ := List.cons.inj start
      exact ⟨[], event, rest, rfl, closed, .nil⟩
    | cons innermost inner =>
      obtain ⟨rfl, rfl⟩ := List.cons.inj start
      obtain ⟨inside, exit, rest, rfl, closed', read⟩ := hypothesis left rfl
      exact ⟨event :: inside, exit, rest, rfl, closed', .closing closed read⟩
  | @passing event _ _ _ unopened unclosed _ hypothesis =>
    obtain ⟨inside, exit, rest, rfl, closed, read⟩ := hypothesis left start
    exact ⟨event :: inside, exit, rest, rfl, closed, .passing unopened unclosed read⟩

/-- A walk that finds nothing open has opened each frame that it leaves open. From there on it opens
    the frames further inside, and no others. -/
theorem exists_entry {inner : List Frame} {frame : Frame}
    (read : Brackets [] walk (inner ++ frame :: frames)) :
    ∃ before entry inside, walk = before ++ entry :: inside ∧ entry.opens? = some frame ∧
      Brackets [] inside inner := by
  -- the event read last is the one that has changed the frame on top
  induction walk using List.reverseRecOn generalizing inner with
  | nil =>
    generalize found : inner ++ frame :: frames = left at read
    cases read
    cases (List.append_eq_nil_iff.mp found).2
  | append_singleton front event hypothesis =>
    obtain ⟨middle, earlier, here⟩ := read.exists_of_append
    generalize found : inner ++ frame :: frames = left at here
    cases here with
    | opening opened rest =>
      cases rest
      cases inner with
      | nil =>
        obtain ⟨rfl, rfl⟩ := List.cons.inj found
        exact ⟨front, event, [], rfl, opened, .nil⟩
      | cons innermost inner =>
        obtain ⟨rfl, rfl⟩ := List.cons.inj found
        obtain ⟨before, entry, inside, rfl, opened', read⟩ := hypothesis earlier
        refine ⟨before, entry, inside ++ [event], by simp, opened', ?_⟩
        exact read.append (.opening opened .nil)
    | @closing _ closer _ _ _ closed rest =>
      cases rest
      subst found
      have deeper : Brackets [] front ((closer :: inner) ++ frame :: frames) := earlier
      obtain ⟨before, entry, inside, rfl, opened, read⟩ := hypothesis deeper
      refine ⟨before, entry, inside ++ [event], by simp, opened, ?_⟩
      exact read.append (.closing closed .nil)
    | passing unopened unclosed rest =>
      cases rest
      subst found
      obtain ⟨before, entry, inside, rfl, opened, read⟩ := hypothesis earlier
      refine ⟨before, entry, inside ++ [event], by simp, opened, ?_⟩
      exact read.append (.passing unopened unclosed .nil)

/-- The scopes that are open in the end are those that were open or have been opened, less those
    that have been closed. -/
theorem countP_scopes (read : Brackets frames walk last) :
    frames.countP Frame.isScope + scopesOpened walk =
      last.countP Frame.isScope + scopesClosed walk := by
  induction read with
  | nil => rfl
  | opening opened _ hypothesis =>
    rw [scopesOpened_cons, scopesClosed_cons, opened, Event.closes?_of_opens? opened]
    simp only [List.countP_cons, Option.any, Bool.false_eq_true, if_false] at hypothesis ⊢
    omega
  | closing closed _ hypothesis =>
    rw [scopesOpened_cons, scopesClosed_cons, closed, Event.opens?_of_closes? closed]
    simp only [List.countP_cons, Option.any, Bool.false_eq_true, if_false]
    omega
  | passing unopened unclosed _ hypothesis =>
    rw [scopesOpened_cons, scopesClosed_cons, unopened, unclosed]
    exact hypothesis

/-- A walk does the same if further frames are open around it. -/
theorem around (read : Brackets frames walk last) (outer : List Frame) :
    Brackets (frames ++ outer) walk (last ++ outer) := by
  induction read with
  | nil => exact .nil
  | opening opened _ hypothesis => exact .opening opened hypothesis
  | closing closed _ hypothesis => exact .closing closed hypothesis
  | passing unopened unclosed _ hypothesis => exact .passing unopened unclosed hypothesis

end Brackets

/-! ## Nested walks -/

namespace Nested

variable {front back inside inside' rest rest' before before' : List Event}
variable {entry entry' exit exit' : Event}
variable {frame : Frame}

theorem keepsOpen {walk : List Event} (nested : Nested walk) : KeepsOpen walk := by
  rintro front back rfl
  obtain ⟨middle, read, -⟩ := nested.exists_of_append
  have count := read.countP_scopes
  rw [List.countP_nil] at count
  omega

/-- What closes a frame does not stand behind a nested beginning of a nested walk. -/
theorem not_closes (nested : Nested inside) (whole : Nested (inside ++ exit :: rest)) :
    exit.closes? ≠ some frame := by
  intro closes
  obtain ⟨middle, read, behind⟩ := whole.exists_of_append
  obtain ⟨outer, rfl, -⟩ := behind.closed closes
  cases nested.unique read

/-- What opens a frame does not stand in front of a nested end of a nested walk. -/
theorem not_opens (nested : Nested inside) (whole : Nested (before ++ entry :: inside)) :
    entry.opens? ≠ some frame := by
  intro opens
  obtain ⟨middle, -, read⟩ := whole.exists_of_append
  -- the end of the walk would leave open what it finds open
  have same : [] = frame :: middle := (read.opened opens).unique (nested.around (frame :: middle))
  cases same

theorem length_le_of_exit (nested : Nested inside) (nested' : Nested inside')
    (closes : exit.closes? = some frame) (same : inside ++ exit :: rest = inside' ++ back) :
    inside'.length ≤ inside.length := by
  rcases List.append_eq_append_iff.mp same with ⟨more, rfl, tail⟩ | ⟨more, rfl, -⟩
  · cases more with
    | nil => simp
    | cons event more =>
      obtain ⟨rfl, -⟩ := List.cons.inj tail
      exact absurd closes (nested.not_closes nested')
  · simp

/-- A nested walk ends at the first event that closes what it has not opened. -/
theorem eq_of_exit (nested : Nested inside) (nested' : Nested inside')
    (closes : exit.closes? = some frame) (closes' : exit'.closes? = some frame)
    (same : inside ++ exit :: rest = inside' ++ exit' :: rest') : inside = inside' := by
  have upTo := nested.length_le_of_exit nested' closes same
  have onwards := nested'.length_le_of_exit nested closes' same.symm
  exact List.append_inj_left same (Nat.le_antisymm onwards upTo)

theorem length_le_of_entry (nested : Nested inside) (nested' : Nested inside')
    (opens : entry.opens? = some frame) (same : before ++ entry :: inside = front ++ inside') :
    inside'.length ≤ inside.length := by
  rcases List.append_eq_append_iff.mp same with ⟨more, -, tail⟩ | ⟨more, -, rfl⟩
  · cases more with
    | nil =>
      have whole : Nested ([] ++ entry :: inside) := tail ▸ nested'
      exact absurd opens (nested.not_opens whole)
    | cons event more =>
      obtain ⟨-, rfl⟩ := List.cons.inj tail
      simp
  · exact absurd opens (nested.not_opens nested')

/-- A nested walk begins behind the last event that opens what it does not close. -/
theorem eq_of_entry (nested : Nested inside) (nested' : Nested inside')
    (opens : entry.opens? = some frame) (opens' : entry'.opens? = some frame)
    (same : before ++ entry :: inside = before' ++ entry' :: inside') : inside = inside' := by
  have upTo := nested.length_le_of_entry nested' opens (same.trans (List.append_cons _ _ _))
  have onwards := nested'.length_le_of_entry nested opens'
    (same.symm.trans (List.append_cons _ _ _))
  rw [List.append_cons before, List.append_cons before'] at same
  exact List.append_inj_right' same (Nat.le_antisymm onwards upTo)

/-- Behind an event that opens a frame there is exactly one that closes it. -/
theorem existsUnique_exit {event : Event} (nested : Nested (front ++ event :: back))
    (opens : event.opens? = some frame) : ∃! inside, Nested inside ∧
      ∃ exit rest, exit.closes? = some frame ∧ back = inside ++ exit :: rest := by
  obtain ⟨middle, -, read⟩ := nested.exists_of_append
  have behind : Brackets ([] ++ frame :: middle) back [] := read.opened opens
  obtain ⟨inside, exit, rest, rfl, closes, own⟩ := behind.exists_exit rfl
  refine ⟨inside, ⟨own, exit, rest, closes, rfl⟩, ?_⟩
  rintro inside' ⟨own', exit', rest', closes', same⟩
  exact own'.eq_of_exit own closes' closes same.symm

/-- In front of an event that closes a frame there is exactly one that opens it. -/
theorem existsUnique_entry {event : Event} (nested : Nested (front ++ event :: back))
    (closes : event.closes? = some frame) : ∃! inside, Nested inside ∧
      ∃ before entry, entry.opens? = some frame ∧ front = before ++ entry :: inside := by
  obtain ⟨middle, read, behind⟩ := nested.exists_of_append
  obtain ⟨outer, rfl, -⟩ := behind.closed closes
  have ahead : Brackets [] front ([] ++ frame :: outer) := read
  obtain ⟨before, entry, inside, rfl, opens, own⟩ := ahead.exists_entry
  refine ⟨inside, ⟨own, before, entry, opens, rfl⟩, ?_⟩
  rintro inside' ⟨own', before', entry', opens', same⟩
  exact own'.eq_of_entry own opens' opens same.symm

end Nested

/-- What it is for the walk of a frame to be well bracketed. -/
structure WellBracketed (frame : Frame) (walk : List Event) : Prop where
  /-- The first event opens the frame and the last one closes it, with a nested walk in between. -/
  whole : ∃ entry inside exit, walk = entry :: inside ++ [exit] ∧ entry.opens? = some frame ∧
    exit.closes? = some frame ∧ Nested inside
  /-- Of the frames that are open the one opened last is closed first, by its own event, and none
      stays open. -/
  nested : Nested walk
  /-- No beginning closes more scopes than it opens. -/
  scopes : KeepsOpen walk
  /-- Each event that opens a frame has exactly one behind it that closes the frame, with a nested
      walk in between. -/
  exits : ∀ {front back : List Event} {event : Event} {frame : Frame},
    walk = front ++ event :: back → event.opens? = some frame → ∃! inside, Nested inside ∧
      ∃ exit rest, exit.closes? = some frame ∧ back = inside ++ exit :: rest
  /-- Each event that closes a frame has exactly one in front of it that opens the frame, with a
      nested walk in between. -/
  entries : ∀ {front back : List Event} {event : Event} {frame : Frame},
    walk = front ++ event :: back → event.closes? = some frame → ∃! inside, Nested inside ∧
      ∃ before entry, entry.opens? = some frame ∧ front = before ++ entry :: inside

/-- A nested walk between an event that opens a frame and one that closes it is well bracketed
    together with these two. -/
theorem Nested.wellBracketed {inside : List Event} {entry exit : Event} {frame : Frame}
    (nested : Nested inside) (opens : entry.opens? = some frame)
    (closes : exit.closes? = some frame) :
    WellBracketed frame (entry :: inside ++ [exit]) := by
  have around : Brackets [frame] inside [frame] := nested.around [frame]
  have whole : Nested (entry :: inside ++ [exit]) :=
    .opening opens (around.append (.closing closes .nil))
  refine ⟨⟨entry, inside, exit, rfl, opens, closes, nested⟩, whole, whole.keepsOpen, ?_, ?_⟩
  · intro front back event frame same opens
    exact existsUnique_exit (same ▸ whole) opens
  · intro front back event frame same closes
    exact existsUnique_entry (same ▸ whole) closes

/-! ## Trees -/

section Names

variable (frames : List Frame)

/-- A walk on which nothing is opened or closed. -/
theorem Brackets.of_passing {walk : List Event}
    (passing : ∀ event ∈ walk, event.opens? = none ∧ event.closes? = none) :
    Brackets frames walk frames := by
  induction walk with
  | nil => exact .nil
  | cons event rest hypothesis =>
    obtain ⟨⟨unopened, unclosed⟩, others⟩ := List.forall_mem_cons.mp passing
    exact .passing unopened unclosed (hypothesis others)

theorem brackets_declare {α : Type} (name : α → String) (items : List α) :
    Brackets frames (items.map fun item => .declare (name item)) frames :=
  .of_passing frames (List.forall_mem_map.mpr fun _ _ => ⟨rfl, rfl⟩)

theorem TypeSpec.brackets_walk (spec : TypeSpec) : Brackets frames spec.walk frames :=
  .of_passing frames (spec.forall_mem_walk fun _ _ => ⟨rfl, rfl⟩)

theorem TypeSpec.brackets_walkOption (spec : Option TypeSpec) :
    Brackets frames (TypeSpec.walkOption spec) frames :=
  .of_passing frames (TypeSpec.forall_mem_walkOption (fun _ _ => ⟨rfl, rfl⟩) spec)

theorem TypeSpec.brackets_flatMap_walk {α : Type} (spec : α → TypeSpec) (items : List α) :
    Brackets frames (items.flatMap fun item => (spec item).walk) frames :=
  .of_passing frames (TypeSpec.forall_mem_flatMap_walk spec (fun _ _ => ⟨rfl, rfl⟩) items)

end Names

mutual

theorem Expr.brackets_walk : ∀ (e : Expr) (frames : List Frame), Brackets frames e.walk frames
  | ⟨position, form, _⟩, _ =>
    .append (.opening rfl (form.brackets_walk position _)) (.closing rfl .nil)

theorem ExprForm.brackets_walk (position : Position) : ∀ (form : ExprForm) (frames : List Frame),
    Brackets frames (form.walk position) frames
  | .literal _, _ => .nil
  | .blank, _ => .nil
  | .compound spec _ elements, frames =>
    (TypeSpec.brackets_walkOption frames spec).append (Element.brackets_walkList _ elements frames)
  | .binary _ left right, frames => (left.brackets_walk frames).append (right.brackets_walk frames)
  | .unary _ operand, frames => operand.brackets_walk frames
  | .index left index, frames => (left.brackets_walk frames).append (index.brackets_walk frames)
  | .selector left _, frames => left.brackets_walk frames
  | .call callee args, frames =>
    (callee.brackets_walk frames).append (Expr.brackets_walkList args frames)
  | .func func, frames => func.brackets_walk frames
  | .ident _, _ => .passing rfl rfl .nil
  | .type spec, frames => spec.brackets_walk frames

theorem Expr.brackets_walkList : ∀ (es : List Expr) (frames : List Frame),
    Brackets frames (Expr.walkList es) frames
  | [], _ => .nil
  | e :: rest, frames => (e.brackets_walk frames).append (Expr.brackets_walkList rest frames)

theorem Expr.brackets_walkOption : ∀ (e : Option Expr) (frames : List Frame),
    Brackets frames (Expr.walkOption e) frames
  | none, _ => .nil
  | some e, frames => e.brackets_walk frames

theorem Expr.brackets_walkKey (valueKeys : Bool) : ∀ (key : Option Expr) (frames : List Frame),
    Brackets frames (Expr.walkKey valueKeys key) frames
  | none, _ => .nil
  | some key, frames => by
    rw [Expr.walkKey]
    split
    · exact key.brackets_walk frames
    · exact .nil

theorem Element.brackets_walkList (valueKeys : Bool) :
    ∀ (elements : List Element) (frames : List Frame),
      Brackets frames (Element.walkList valueKeys elements) frames
  | [], _ => .nil
  | ⟨key, value⟩ :: rest, frames =>
    ((Expr.brackets_walkKey valueKeys key frames).append (value.brackets_walk frames)).append
      (Element.brackets_walkList valueKeys rest frames)

theorem Func.brackets_walk : ∀ (func : Func) (frames : List Frame),
    Brackets frames func.walk frames
  | ⟨_, receiver, params, results, ⟨statements, _⟩⟩, frames => by
    -- the types of the signature are read outside of the scope of the function
    have signature : Brackets frames (Func.walkSignature receiver params results) frames :=
      TypeSpec.brackets_flatMap_walk frames Param.spec _
    have declared : Brackets frames (.openScope :: Func.declareParams receiver params results)
        (.scope :: frames) :=
      .opening rfl (brackets_declare _ (fun name => name) _)
    have body : Brackets (.scope :: frames) _ _ := Stmt.brackets_walkList statements _
    exact ((signature.append declared).append body).append (.closing rfl .nil)

theorem Func.brackets_walkList : ∀ (funcs : List Func) (frames : List Frame),
    Brackets frames (Func.walkList funcs) frames
  | [], _ => .nil
  | func :: rest, frames =>
    (func.brackets_walk frames).append (Func.brackets_walkList rest frames)

theorem Block.brackets_walk : ∀ (block : Block) (frames : List Frame),
    Brackets frames block.walk frames
  | ⟨statements, _⟩, _ =>
    .append (.opening rfl (Stmt.brackets_walkList statements _)) (.closing rfl .nil)

theorem Stmt.brackets_walk : ∀ (s : Stmt) (frames : List Frame), Brackets frames s.walk frames
  | ⟨_, _, _, form⟩, _ => .append (.opening rfl (form.brackets_walk _)) (.closing rfl .nil)

theorem Stmt.brackets_walkList : ∀ (statements : List Stmt) (frames : List Frame),
    Brackets frames (Stmt.walkList statements) frames
  | [], _ => .nil
  | s :: rest, frames => (s.brackets_walk frames).append (Stmt.brackets_walkList rest frames)

theorem Stmt.brackets_walkOption : ∀ (s : Option Stmt) (frames : List Frame),
    Brackets frames (Stmt.walkOption s) frames
  | none, _ => .nil
  | some s, frames => s.brackets_walk frames

theorem StmtForm.brackets_walk : ∀ (form : StmtForm) (frames : List Frame),
    Brackets frames form.walk frames
  | .assign lhs rhs _, frames =>
    (Expr.brackets_walkList rhs frames).append (Expr.brackets_walkList lhs frames)
  | .struct ⟨_, fields, methods, _⟩, frames =>
    .append (.passing rfl rfl (TypeSpec.brackets_flatMap_walk frames FieldDecl.spec fields))
      (Func.brackets_walkList methods frames)
  | .typeAlias decl, frames => .passing rfl rfl (decl.target.brackets_walk frames)
  | .var vars, frames => vars.brackets_walk frames
  | .pass, _ => .nil
  | .cond branches, frames => Branch.brackets_walkList branches frames
  | .loop ⟨header, condition, step, body⟩, frames => by
    -- the scope of the loop is open around all of its parts
    have headed : Brackets frames (.openScope :: VarForm.walkOption header) (.scope :: frames) :=
      .opening rfl (VarForm.brackets_walkOption header _)
    have conditioned := headed.append (Expr.brackets_walkOption condition _)
    have stepped := conditioned.append (Stmt.brackets_walkOption step _)
    exact (stepped.append (body.brackets_walk _)).append (.closing rfl .nil)
  | .expr e, frames => e.brackets_walk frames
  | .jump _, _ => .nil
  | .ret values, frames => Expr.brackets_walkList values frames

theorem VarForm.brackets_walk : ∀ (vars : VarForm) (frames : List Frame),
    Brackets frames vars.walk frames
  | ⟨vars, true⟩, frames =>
    (brackets_declare frames _ vars).append (VarDecl.brackets_walkList vars frames)
  | ⟨vars, false⟩, frames =>
    (VarDecl.brackets_walkList vars frames).append (brackets_declare frames _ vars)

theorem VarForm.brackets_walkOption : ∀ (vars : Option VarForm) (frames : List Frame),
    Brackets frames (VarForm.walkOption vars) frames
  | none, _ => .nil
  | some vars, frames => vars.brackets_walk frames

theorem VarDecl.brackets_walkList : ∀ (vars : List VarDecl) (frames : List Frame),
    Brackets frames (VarDecl.walkList vars) frames
  | [], _ => .nil
  | ⟨_, _, spec, value, _⟩ :: rest, frames =>
    ((TypeSpec.brackets_walkOption frames spec).append
      (Expr.brackets_walkOption value frames)).append (VarDecl.brackets_walkList rest frames)

theorem Branch.brackets_walkList : ∀ (branches : List Branch) (frames : List Frame),
    Brackets frames (Branch.walkList branches) frames
  | [], _ => .nil
  | ⟨header, condition, body⟩ :: rest, frames => by
    -- the scope of a branch is closed before the next branch
    have headed : Brackets frames (.openScope :: VarForm.walkOption header) (.scope :: frames) :=
      .opening rfl (VarForm.brackets_walkOption header _)
    have conditioned := headed.append (Expr.brackets_walkOption condition _)
    have others : Brackets (.scope :: frames) (.closeScope :: Branch.walkList rest) frames :=
      .closing rfl (Branch.brackets_walkList rest frames)
    exact (conditioned.append (body.brackets_walk _)).append others

end

end PackageCheck
