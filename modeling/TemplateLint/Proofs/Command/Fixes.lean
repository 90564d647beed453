import TemplateLint.Command.Run

/-! What a run writes: the fixed templates of its documents, one after another, whatever it says
about them meanwhile. -/
namespace TemplateLint.Command
open Files (FileTree FileError)

/-- The fixed template of a document, when a fix applies. -/
def LintedDocument.fixed? (d : LintedDocument) : Option WrittenFile :=
  (d.result.applyFixes? d.source).bind fun outcome =>
    if outcome.applied = 0 then none
    else (Files.fixedPath? d.path).map fun target => ⟨target, outcome.output⟩

/-- The tree with the file in it; the same tree when that cannot be written. -/
def WrittenFile.saveIn (files : FileTree) (file : WrittenFile) : FileTree :=
  match files.write file.path file.content with
  | .ok files => files
  | .error _ => files

namespace FixRun

/-- The run without what it says. -/
def silent (run : FixRun) : FixRun := { run with stderr := [] }

/-- Writes a file, or counts it as failed. -/
def save (run : FixRun) (file : WrittenFile) : FixRun :=
  match run.files.write file.path file.content with
  | .ok files => { run with files, written := run.written ++ [file] }
  | .error _ => { run with failed := run.failed + 1 }

theorem silent_write (verbose : Bool) (run : FixRun) (target : String) (outcome : FixOutcome) :
    (run.write verbose target outcome).silent = run.silent.save ⟨target, outcome.output⟩ := by
  unfold write save
  dsimp only [silent]
  cases run.files.write target outcome.output <;> rfl

theorem silent_add (verbose : Bool) (run : FixRun) (d : LintedDocument) :
    (run.add verbose d).silent = d.fixed?.elim run.silent run.silent.save := by
  unfold add LintedDocument.fixed?
  cases d.result.applyFixes? d.source with
  | none => rfl
  | some outcome =>
    have hskipped (lines : List String) :
        (if 0 < outcome.skipped then { run with stderr := run.stderr ++ lines } else run).silent =
          run.silent := by
      split <;> rfl
    rw [Option.bind_some]
    dsimp only
    split
    next => exact hskipped _
    next =>
      cases Files.fixedPath? d.path with
      | none => exact hskipped _
      | some target =>
        rw [silent_write, hskipped]
        rfl

theorem silent_foldl_add (verbose : Bool) (ds : List LintedDocument) (run : FixRun) :
    (ds.foldl (add verbose) run).silent =
      (ds.filterMap LintedDocument.fixed?).foldl save run.silent := by
  induction ds generalizing run with
  | nil => rfl
  | cons d ds ih =>
    rw [List.foldl_cons, ih, silent_add, List.filterMap_cons]
    cases d.fixed? <;> rfl

theorem files_save (run : FixRun) (file : WrittenFile) :
    (run.save file).files = file.saveIn run.files := by
  unfold save WrittenFile.saveIn
  cases run.files.write file.path file.content <;> rfl

theorem failed_le_save (run : FixRun) (file : WrittenFile) :
    run.failed ≤ (run.save file).failed := by
  unfold save
  cases run.files.write file.path file.content with
  | ok files => exact Nat.le_refl _
  | error e => exact Nat.le_succ _

theorem failed_le_foldl_save (fixed : List WrittenFile) (run : FixRun) :
    run.failed ≤ (fixed.foldl save run).failed := by
  induction fixed generalizing run with
  | nil => exact Nat.le_refl _
  | cons file fixed ih => exact Nat.le_trans (run.failed_le_save file) (ih _)

end FixRun

/-- One of the files cannot be written when its turn comes. -/
def FailsToSave (files : FileTree) (fixed : List WrittenFile) : Prop :=
  ∃ before file after e, fixed = before ++ file :: after ∧
    (before.foldl WrittenFile.saveIn files).write file.path file.content = .error e

theorem failsToSave_cons_iff {files : FileTree} {file : WrittenFile} {fixed : List WrittenFile} :
    FailsToSave files (file :: fixed) ↔
      (∃ e, files.write file.path file.content = .error e) ∨
        FailsToSave (file.saveIn files) fixed := by
  constructor
  · rintro ⟨before, file', after, e, hsplit, he⟩
    cases before with
    | nil =>
      obtain ⟨rfl, rfl⟩ := List.cons.inj hsplit
      exact Or.inl ⟨e, he⟩
    | cons first before =>
      obtain ⟨rfl, hrest⟩ := List.cons.inj hsplit
      exact Or.inr ⟨before, file', after, e, hrest, he⟩
  · rintro (⟨e, he⟩ | ⟨before, file', after, e, rfl, he⟩)
    · exact ⟨[], file, fixed, e, rfl, he⟩
    · exact ⟨file :: before, file', after, e, rfl, he⟩

theorem FixRun.failed_foldl_save_iff (fixed : List WrittenFile) (run : FixRun) :
    run.failed < (fixed.foldl FixRun.save run).failed ↔ FailsToSave run.files fixed := by
  induction fixed generalizing run with
  | nil => simp [FailsToSave]
  | cons file fixed ih =>
    rw [failsToSave_cons_iff, List.foldl_cons, ← run.files_save file, ← ih]
    cases hwrite : run.files.write file.path file.content with
    | ok files =>
      have hsave : run.save file = { run with files, written := run.written ++ [file] } := by
        rw [save, hwrite]
      simp [hsave]
    | error e =>
      have hsave : run.save file = { run with failed := run.failed + 1 } := by rw [save, hwrite]
      have hle := failed_le_foldl_save fixed (run.save file)
      have hlt : run.failed < (run.save file).failed := hsave ▸ Nat.lt_succ_self _
      exact iff_of_true (Nat.lt_of_lt_of_le hlt hle) (Or.inl ⟨e, rfl⟩)

section WriteFixes
variable (options : LintOptions) (files : FileTree) (ds : List LintedDocument)

/-- What a run writes, without what it says about it. -/
theorem silent_writeFixes : (writeFixes options files ds).silent =
    if options.fix then (ds.filterMap LintedDocument.fixed?).foldl FixRun.save ⟨files, [], 0, []⟩
    else ⟨files, [], 0, []⟩ := by
  unfold writeFixes
  split
  next hfix => exact FixRun.silent_foldl_add _ _ _
  next hfix => rfl

theorem failed_writeFixes_pos_iff : 0 < (writeFixes options files ds).failed ↔
    options.fix = true ∧ FailsToSave files (ds.filterMap LintedDocument.fixed?) := by
  have hsilent := congrArg FixRun.failed (silent_writeFixes options files ds)
  rw [show (writeFixes options files ds).failed = _ from hsilent]
  split
  next hfix =>
    rw [← FixRun.failed_foldl_save_iff _ ⟨files, [], 0, []⟩]
    exact (and_iff_right hfix).symm
  next hfix => simp [hfix]

end WriteFixes
end TemplateLint.Command
