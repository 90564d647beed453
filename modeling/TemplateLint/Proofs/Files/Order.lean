import Mathlib.Data.List.Lex
import Mathlib.Data.Prod.Lex
import Mathlib.Data.String.Basic
import TemplateLint.Files.Documents

/-! The order of paths. It is the lexicographic order of their components, so documents that are
collected stand in strictly ascending order. -/
namespace TemplateLint.Files

/-- What a component is compared by: its rank, and its name if it is one. -/
def Component.key (c : Component) : Nat ×ₗ String :=
  match c with
  | .name s => toLex (c.rank, s)
  | _ => toLex (c.rank, "")

theorem Component.key_injective : Function.Injective Component.key := by
  intro a b h
  cases a <;> cases b <;> simp_all [key, rank]

theorem Component.isBefore_iff {a b : Component} : a.isBefore b = true ↔ a.key < b.key := by
  cases a <;> cases b <;> simp [isBefore, key, rank, Prod.Lex.toLex_lt_toLex]

namespace Path

def key (path : String) : List (Nat ×ₗ String) := (components path).map Component.key

theorem isBefore_iff {as bs : List Component} :
    isBefore as bs = true ↔ as.map Component.key < bs.map Component.key := by
  induction as generalizing bs with
  | nil => cases bs <;> simp [isBefore]
  | cons a as ih =>
    cases bs with
    | nil => simp [isBefore]
    | cons b bs =>
      simp only [isBefore, List.map_cons, List.cons_lt_cons_iff]
      split
      next hab =>
        subst hab
        simp [ih]
      next hab =>
        simp [Component.isBefore_iff, Component.key_injective.ne hab]

theorem ne_of_isBefore {as bs : List Component} (h : isBefore as bs = true) : as ≠ bs := by
  rintro rfl
  rw [isBefore_iff] at h
  exact lt_irrefl _ h

end Path

namespace Documents

theorem isNotAfter_iff {a b : String} : isNotAfter a b = true ↔ Path.key a ≤ Path.key b := by
  unfold isNotAfter
  rw [Bool.not_eq_true', ← Bool.not_eq_true, Path.isBefore_iff, not_lt]
  rfl

theorem withoutRepeats_sublist (paths : List String) : (withoutRepeats paths).Sublist paths := by
  induction paths with
  | nil => exact List.Sublist.refl _
  | cons path paths ih =>
    rw [withoutRepeats]
    cases hrest : withoutRepeats paths with
    | nil => exact (List.nil_sublist paths).cons_cons path
    | cons next rest =>
      rw [hrest] at ih
      dsimp only
      split
      · exact ((List.sublist_cons_self next rest).trans ih).cons_cons path
      · exact ih.cons_cons path

/-- Of paths with the same components one is kept. -/
theorem exists_mem_withoutRepeats {path : String} {paths : List String} (h : path ∈ paths) :
    ∃ kept ∈ withoutRepeats paths, Path.components kept = Path.components path := by
  induction paths with
  | nil => cases h
  | cons first paths ih =>
    rw [withoutRepeats]
    rcases List.mem_cons.mp h with rfl | h
    · refine ⟨path, ?_, rfl⟩
      cases withoutRepeats paths with
      | nil => exact List.mem_cons_self
      | cons next rest =>
        dsimp only
        split <;> exact List.mem_cons_self
    · obtain ⟨kept, hkept, hcomponents⟩ := ih h
      cases hrest : withoutRepeats paths with
      | nil =>
        rw [hrest] at hkept
        cases hkept
      | cons next rest =>
        rw [hrest] at hkept
        dsimp only
        split
        next hsame =>
          rcases List.mem_cons.mp hkept with rfl | hkept
          · exact ⟨first, List.mem_cons_self, hsame.trans hcomponents⟩
          · exact ⟨kept, List.mem_cons_of_mem _ hkept, hcomponents⟩
        next => exact ⟨kept, List.mem_cons_of_mem _ hkept, hcomponents⟩

/-- In a sorted list the paths with the same components are neighbours. -/
theorem withoutRepeats_pairwise {paths : List String}
    (hsorted : paths.Pairwise fun a b => Path.key a ≤ Path.key b) :
    (withoutRepeats paths).Pairwise fun a b => Path.key a < Path.key b := by
  induction paths with
  | nil => exact List.Pairwise.nil
  | cons path paths ih =>
    obtain ⟨hfirst, hsorted⟩ := List.pairwise_cons.mp hsorted
    have hstrict := ih hsorted
    have hsub := withoutRepeats_sublist paths
    rw [withoutRepeats]
    cases hrest : withoutRepeats paths with
    | nil => exact List.pairwise_singleton _ _
    | cons next rest =>
      rw [hrest] at hstrict hsub
      obtain ⟨hnext, hstrict'⟩ := List.pairwise_cons.mp hstrict
      dsimp only
      split
      next hsame =>
        have hkey : Path.key path = Path.key next :=
          congrArg (List.map Component.key) hsame
        exact List.pairwise_cons.mpr ⟨fun b hb => hkey ▸ hnext b hb, hstrict'⟩
      next hdiffer =>
        have hne : Path.key path ≠ Path.key next :=
          fun hkey => hdiffer (List.map_injective_iff.mpr Component.key_injective hkey)
        have hlt : Path.key path < Path.key next :=
          lt_of_le_of_ne (hfirst next (hsub.subset List.mem_cons_self)) hne
        refine List.pairwise_cons.mpr ⟨fun b hb => ?_, hstrict⟩
        rcases List.mem_cons.mp hb with rfl | hb
        · exact hlt
        · exact hlt.trans (hnext b hb)

/-- The documents that findings make up are in strictly ascending order. -/
theorem ofFindings_pairwise (findings : List Finding) :
    (ofFindings findings).Pairwise fun a b =>
      Path.isBefore (Path.components a) (Path.components b) = true := by
  have hsorted : ((findings.flatMap Finding.documents).mergeSort isNotAfter).Pairwise
      fun a b => isNotAfter a b = true := by
    refine List.pairwise_mergeSort (fun a b c hab hbc => ?_) (fun a b => ?_) _
    · exact isNotAfter_iff.mpr ((isNotAfter_iff.mp hab).trans (isNotAfter_iff.mp hbc))
    · rw [Bool.or_eq_true, isNotAfter_iff, isNotAfter_iff]
      exact le_total _ _
  refine (withoutRepeats_pairwise (hsorted.imp isNotAfter_iff.mp)).imp ?_
  exact Path.isBefore_iff.mpr

theorem mem_of_mem_ofFindings {findings : List Finding} {path : String}
    (h : path ∈ ofFindings findings) : path ∈ findings.flatMap Finding.documents :=
  List.mem_mergeSort.mp ((withoutRepeats_sublist _).subset h)

theorem exists_mem_ofFindings {findings : List Finding} {path : String}
    (h : path ∈ findings.flatMap Finding.documents) :
    ∃ kept ∈ ofFindings findings, Path.components kept = Path.components path :=
  exists_mem_withoutRepeats (List.mem_mergeSort.mpr h)

theorem nodup_collect (root : FileTree) (patterns : List String) :
    (collect root patterns).Nodup :=
  (ofFindings_pairwise _).imp fun hbefore heq =>
    Path.ne_of_isBefore hbefore (congrArg Path.components heq)

theorem isDocument_of_mem_collect {root : FileTree} {patterns : List String} {path : String}
    (h : path ∈ collect root patterns) : isDocument path = true := by
  obtain ⟨finding, -, hpath⟩ := List.mem_flatMap.mp (mem_of_mem_ofFindings h)
  cases finding with
  | glob paths => exact (Bool.and_eq_true_iff.mp (List.mem_filter.mp hpath).2).1
  | walk entries => exact (List.mem_filter.mp hpath).2

end Documents
end TemplateLint.Files
