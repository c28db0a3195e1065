/-! # Positions and sites

Where something is written: a position in a file, and a site, which names the file too. Positions
count from zero and are shown counting from one. -/

namespace PackageCheck

/-- A place in a file: a line, and a character on that line, both counted from zero. -/
structure Position where
  line : UInt32 := 0
  character : UInt32 := 0
deriving DecidableEq, Inhabited

/-- A position as shown to a reader: `line:character`, counted from one. -/
def Position.render (p : Position) : String :=
  toString (p.line.toNat + 1) ++ ":" ++ toString (p.character.toNat + 1)

/-- A position in a named file. -/
structure Site where
  file : String
  position : Position
deriving DecidableEq, Inhabited

/-- A site as shown to a reader: the file, then the position. -/
def Site.render (s : Site) : String :=
  s.file ++ ":" ++ s.position.render

end PackageCheck
