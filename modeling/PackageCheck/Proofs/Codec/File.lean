import PackageCheck.Cli.Command
import PackageCheck.Proofs.Codec.Tree

/-! # Stored files read back

Storing a file loses nothing: reading gives the same file again, annotations included. So what the
command prints of the files of a package can be read as these files, if they do not nest deeper
than the reader allows. -/

namespace PackageCheck

variable {style : Json.CaseStyle}

/-! ## Files -/

theorem Stmt.stores {s : Stmt} (fits : Finding.allStorable s.findings) :
    Stores s.toJson (Stmt.ofJson? style) s :=
  have stored : Stores s.toJson (Stmt.read style (s.toJson.depth + 1)) s :=
    Stmt.stores_read s fits (Nat.lt_succ_self _)
  ⟨stored.plain, stored.given, stored.read⟩

theorem Stmt.storesAll {statements : List Stmt}
    (fits : Finding.allStorable (Stmt.findingsList statements)) :
    StoresAll (Stmt.toJsonList statements) (Stmt.ofJson? style) statements := by
  induction statements with
  | nil => exact .nil
  | cons s rest ih =>
    obtain ⟨here, others⟩ := Finding.allStorable_append.mp fits
    exact .cons (Stmt.stores here) (ih others)

theorem SourceFile.stores {file : SourceFile} (fits : file.storable) :
    Stores file.toJson (SourceFile.ofJson? style) file := by
  obtain ⟨name, package, body⟩ := file
  have inner : StoresAll (Stmt.toJsonList body) (Stmt.ofJson? style) body := Stmt.storesAll fits
  refine ⟨?_, nofun, ?_⟩
  · simp [SourceFile.toJson, Json.isPlain, Json.entriesPlain, inner.plain]
  · have parts : SourceFile.ofJson? style (SourceFile.mk name package body).toJson = (do
      return ⟨name, package, ← (Stmt.toJsonList body).mapM (Stmt.ofJson? style)⟩) := rfl
    rw [parts, inner.read]
    rfl

/-! ## Documents -/

/-- Every file that can be stored is read as what it was stored as, and so are the files of every
    package in the text that is printed of them. -/
theorem read_stored (style : Json.CaseStyle) :
    (∀ file : SourceFile, file.storable → SourceFile.ofJson? style file.toJson = some file) ∧
      ∀ (package : Package) (limit : Nat), (∀ file ∈ package.files, file.storable) →
        (Json.ofList SourceFile.toJson package.files).depth ≤ limit →
          (Json.parse? limit (Cli.renderAst package)).bind (Json.list? (SourceFile.ofJson? style)) =
            some package.files := by
  refine ⟨fun file fits => (SourceFile.stores fits).read, fun package limit fits room => ?_⟩
  -- the text is an array with one item a file
  have stored : Stores (.ofList SourceFile.toJson package.files)
      (Json.list? (SourceFile.ofJson? style)) package.files :=
    (StoresAll.ofList fun file member => SourceFile.stores (fits file member)).list
  rw [Cli.renderAst, Json.parse?_pretty stored.plain room]
  exact stored.read

/-- A file with a labelled loop, a jump out of it, and a value of a struct type with a method. -/
def annotatedFile : SourceFile :=
  let jump : Stmt :=
    ⟨⟨8⟩, ⟨1, 2⟩, none, .jump ⟨.break, some "again", some (.declared 3), some ⟨7⟩⟩⟩
  let node : Ty := .struct ⟨"node", [⟨"next", .pointer (.custom "node" (.declared 0))⟩],
    [⟨"last", ⟨[.array 3 .unknown], [.simple .rune]⟩⟩]⟩
  ⟨"m.hv", "main",
    [⟨⟨7⟩, {}, some ⟨"again", some (.declared 3)⟩, .loop ⟨none, none, none,
      ⟨[jump], .ofList [("inner", .declared 5), ("again", .declared 4)]⟩⟩⟩,
     ⟨⟨9⟩, {}, none, .expr ⟨{}, .ident ⟨"n\n\"", some (.builtin 2)⟩, node⟩⟩]⟩

/-- The text of a package with this file is read as the file. -/
theorem read_stored_annotatedFile : annotatedFile.storable = true ∧
    (Json.parse? Cli.nestingLimit (Cli.renderAst (.ofFiles "main" [annotatedFile]))).bind
      (Json.list? (SourceFile.ofJson? .listed)) = some [annotatedFile] := by
  have fits : annotatedFile.storable = true := by decide +kernel
  refine ⟨fits, (read_stored .listed).2 (.ofFiles "main" [annotatedFile]) Cli.nestingLimit ?_ ?_⟩
  · exact fun file member => List.mem_singleton.mp member ▸ fits
  · decide +kernel

end PackageCheck
