import TemplateLint.Proofs.Checked
import TemplateLint.Proofs.Command.Fixes
import TemplateLint.Proofs.Files.Targets

/-! Saving fixed templates in a tree, one after another. Which of them can be saved is settled by
the tree at the start, and each of those is there at the end. -/
namespace TemplateLint.Command
open Files (FileTree FixedPath Intact)

namespace WrittenFile

/-- Whether the file can be written. -/
def fits (files : FileTree) (file : WrittenFile) : Bool :=
  (files.write file.path file.content).toBool

theorem fits_eq (files : FileTree) (file : WrittenFile) :
    file.fits files = (files.target? file.path).isSome := by
  have hbool : file.fits files = (files.write file.path file.content).toOption.isSome := by
    unfold fits
    cases files.write file.path file.content <;> rfl
  rw [hbool, FileTree.write_target?, Option.isSome_map]

theorem saveIn_eq (files : FileTree) (file : WrittenFile) :
    file.saveIn files = (files.target? file.path).elim files fun place =>
      files.insert place (.text file.content) := by
  have hsave : file.saveIn files =
      (files.write file.path file.content).toOption.getD files := by
    unfold saveIn
    cases files.write file.path file.content <;> rfl
  rw [hsave, FileTree.write_target?]
  cases files.target? file.path <;> rfl

end WrittenFile

theorem FixRun.save_eq (run : FixRun) (file : WrittenFile) : run.save file =
    { files := file.saveIn run.files
      written := run.written ++ if file.fits run.files then [file] else []
      failed := run.failed + if file.fits run.files then 0 else 1
      stderr := run.stderr } := by
  unfold save WrittenFile.saveIn WrittenFile.fits
  cases run.files.write file.path file.content with
  | ok files => rfl
  | error e => simp [Except.toBool]

theorem intact_saveIn {root t : FileTree} (h : Intact root t) {file : WrittenFile}
    (hfile : FixedPath file.path) : Intact root (file.saveIn t) := by
  rw [WrittenFile.saveIn_eq]
  cases htarget : t.target? file.path with
  | none => exact h
  | some place => exact h.insert hfile htarget file.content

theorem intact_foldl_saveIn {root t : FileTree} (h : Intact root t) {fixed : List WrittenFile}
    (hfixed : ∀ file ∈ fixed, FixedPath file.path) :
    Intact root (fixed.foldl WrittenFile.saveIn t) := by
  induction fixed generalizing t with
  | nil => exact h
  | cons file fixed ih =>
    obtain ⟨hfile, hfixed⟩ := List.forall_mem_cons.mp hfixed
    exact ih (intact_saveIn h hfile) hfixed

section Root
variable {root : FileTree} (hroot : root.Proper)
include hroot

theorem fits_intact {t : FileTree} (h : Intact root t) (file : WrittenFile) :
    file.fits t = file.fits root := by
  rw [file.fits_eq, file.fits_eq, h.target?_eq hroot]

/-- Whether a file is written depends on the tree at the start only. -/
theorem foldl_save_eq {fixed : List WrittenFile} (hfixed : ∀ file ∈ fixed, FixedPath file.path)
    {run : FixRun} (h : Intact root run.files) : fixed.foldl FixRun.save run =
      { files := fixed.foldl WrittenFile.saveIn run.files
        written := run.written ++ fixed.filter (·.fits root)
        failed := run.failed + fixed.countP (!·.fits root)
        stderr := run.stderr } := by
  induction fixed generalizing run with
  | nil => simp
  | cons file fixed ih =>
    obtain ⟨hfile, hfixed⟩ := List.forall_mem_cons.mp hfixed
    have hrun : Intact root (run.save file).files := by
      rw [run.files_save]
      exact intact_saveIn h hfile
    rw [List.foldl_cons, ih hfixed hrun, run.save_eq, fits_intact hroot h, List.filter_cons,
      List.countP_cons]
    cases file.fits root with
    | true => simp
    | false => simp [Nat.add_assoc, Nat.add_comm 1]

/-- Files that cannot be written change nothing. -/
theorem foldl_saveIn_filter {fixed : List WrittenFile}
    (hfixed : ∀ file ∈ fixed, FixedPath file.path) {t : FileTree} (h : Intact root t) :
    (fixed.filter (·.fits root)).foldl WrittenFile.saveIn t = fixed.foldl WrittenFile.saveIn t := by
  induction fixed generalizing t with
  | nil => rfl
  | cons file fixed ih =>
    obtain ⟨hfile, hfixed⟩ := List.forall_mem_cons.mp hfixed
    rw [List.foldl_cons, ← ih hfixed (intact_saveIn h hfile), List.filter_cons]
    split
    next => rfl
    next hfits =>
      rw [file.fits_eq, Bool.not_eq_true, Option.isSome_eq_false_iff, Option.isNone_iff_eq_none,
        ← h.target?_eq hroot] at hfits
      rw [file.saveIn_eq, hfits]
      rfl

/-- Files at one place of a tree have the same content. -/
def Agree (root : FileTree) (fixed : List WrittenFile) : Prop :=
  ∀ file ∈ fixed, ∀ file' ∈ fixed, ∀ place, root.target? file.path = some place →
    root.target? file'.path = some place → file.content = file'.content

theorem filter_at?_saveIn {t : FileTree} (h : Intact root t) {file : WrittenFile}
    {place : List String} (hplace : root.target? file.path ≠ some place) :
    ((file.saveIn t).at? place).filter (!·.isDirectory) =
      (t.at? place).filter (!·.isDirectory) := by
  rw [file.saveIn_eq]
  cases htarget : t.target? file.path with
  | none => rfl
  | some other =>
    refine (FileTree.writable_of_target? htarget).1.at?_insert_of_ne rfl fun heq => hplace ?_
    rw [heq, ← htarget, h.target?_eq hroot]

/-- Files that are not written to are left as they are. -/
theorem filter_at?_foldl_saveIn {fixed : List WrittenFile}
    (hfixed : ∀ file ∈ fixed, FixedPath file.path) {t : FileTree} (h : Intact root t)
    {place : List String} (hplace : ∀ file ∈ fixed, root.target? file.path ≠ some place) :
    ((fixed.foldl WrittenFile.saveIn t).at? place).filter (!·.isDirectory) =
      (t.at? place).filter (!·.isDirectory) := by
  induction fixed generalizing t with
  | nil => rfl
  | cons file fixed ih =>
    obtain ⟨hfile, hfixed⟩ := List.forall_mem_cons.mp hfixed
    obtain ⟨hfirst, hplace⟩ := List.forall_mem_cons.mp hplace
    rw [List.foldl_cons, ih hfixed (intact_saveIn h hfile) hplace,
      filter_at?_saveIn hroot h hfirst]

theorem at?_saveIn {t : FileTree} (h : Intact root t) {file : WrittenFile} {place : List String}
    (htarget : root.target? file.path = some place) :
    (file.saveIn t).at? place = some (.text file.content) := by
  have htarget' := (h.target?_eq hroot file.path).trans htarget
  rw [file.saveIn_eq, htarget']
  exact (FileTree.writable_of_target? htarget').1.at?_insert_self _

theorem at?_foldl_saveIn {fixed : List WrittenFile}
    (hfixed : ∀ file ∈ fixed, FixedPath file.path) {t : FileTree} (h : Intact root t)
    {place : List String} {content : String} (hplace : t.at? place = some (.text content))
    (hsame : ∀ file ∈ fixed, root.target? file.path = some place → file.content = content) :
    (fixed.foldl WrittenFile.saveIn t).at? place = some (.text content) := by
  induction fixed generalizing t with
  | nil => exact hplace
  | cons file fixed ih =>
    obtain ⟨hfile, hfixed⟩ := List.forall_mem_cons.mp hfixed
    obtain ⟨hcontent, hsame⟩ := List.forall_mem_cons.mp hsame
    refine ih hfixed (intact_saveIn h hfile) ?_ hsame
    by_cases htarget : root.target? file.path = some place
    · rw [at?_saveIn hroot h htarget, hcontent htarget]
    · have hkept := filter_at?_saveIn hroot h htarget
      rw [hplace] at hkept
      exact (Option.filter_eq_some_iff.mp hkept).1

/-- Every file that can be written is there at the end. -/
theorem at?_foldl_saveIn_of_mem {fixed : List WrittenFile}
    (hfixed : ∀ file ∈ fixed, FixedPath file.path) (hagree : Agree root fixed) {t : FileTree}
    (h : Intact root t) {file : WrittenFile} (hmem : file ∈ fixed) {place : List String}
    (htarget : root.target? file.path = some place) :
    (fixed.foldl WrittenFile.saveIn t).at? place = some (.text file.content) := by
  obtain ⟨before, after, rfl⟩ := List.append_of_mem hmem
  have hbefore : Intact root (before.foldl WrittenFile.saveIn t) :=
    intact_foldl_saveIn h fun f hf => hfixed f (List.mem_append_left _ hf)
  have hfile := hfixed file hmem
  rw [List.foldl_append, List.foldl_cons]
  refine at?_foldl_saveIn hroot (fun f hf => ?_) (intact_saveIn hbefore hfile) ?_ fun f hf hf' => ?_
  · exact hfixed f (List.mem_append_right _ (List.mem_cons_of_mem _ hf))
  · exact at?_saveIn hroot hbefore htarget
  · exact hagree f (List.mem_append_right _ (List.mem_cons_of_mem _ hf)) file hmem place hf' htarget

/-- What can be written can be read again. -/
theorem read_foldl_saveIn {fixed : List WrittenFile}
    (hfixed : ∀ file ∈ fixed, FixedPath file.path) (hagree : Agree root fixed)
    {file : WrittenFile} (hmem : file ∈ fixed) (hfits : file.fits root = true) :
    (fixed.foldl WrittenFile.saveIn root).read file.path = .ok file.content := by
  rw [file.fits_eq] at hfits
  obtain ⟨place, htarget⟩ := Option.isSome_iff_exists.mp hfits
  have hend : Intact root (fixed.foldl WrittenFile.saveIn root) :=
    intact_foldl_saveIn (.refl hroot) hfixed
  have hat := at?_foldl_saveIn_of_mem hroot hfixed hagree (.refl hroot) hmem htarget
  have hplace := (hfixed file hmem).place?_eq ((hend.target?_eq hroot file.path).trans htarget)
    (Option.isSome_of_eq_some hat)
  rw [← toOption_eq_some_iff, FileTree.read_place?, hplace, Option.bind_some, hat]
  rfl

/-- Saving the files again changes nothing. -/
theorem foldl_saveIn_again {fixed : List WrittenFile}
    (hfixed : ∀ file ∈ fixed, FixedPath file.path) (hagree : Agree root fixed) :
    fixed.foldl WrittenFile.saveIn (fixed.foldl WrittenFile.saveIn root) =
      fixed.foldl WrittenFile.saveIn root := by
  have hend : Intact root (fixed.foldl WrittenFile.saveIn root) :=
    intact_foldl_saveIn (.refl hroot) hfixed
  have hfile : ∀ file ∈ fixed, file.saveIn (fixed.foldl WrittenFile.saveIn root) =
      fixed.foldl WrittenFile.saveIn root := by
    intro file hmem
    rw [file.saveIn_eq, hend.target?_eq hroot]
    cases htarget : root.target? file.path with
    | none => rfl
    | some place =>
      have hat := at?_foldl_saveIn_of_mem hroot hfixed hagree (.refl hroot) hmem htarget
      have hwritable :=
        (FileTree.writable_of_target? ((hend.target?_eq hroot file.path).trans htarget)).1
      exact hwritable.insert_eq_self hend.proper hat
  generalize fixed.foldl WrittenFile.saveIn root = last at hfile ⊢
  refine List.foldlRecOn (motive := (· = last)) fixed WrittenFile.saveIn rfl ?_
  intro t ht file hmem
  rw [ht, hfile file hmem]

end Root
end TemplateLint.Command
