import TemplateLint.Proofs.Diagnostic.Choice
import TemplateLint.Proofs.Diagnostic.Outcome

/-! The order of the diagnostics. Fixes with edits are tried in the order of their starts, so that
only fixes with the same start can change places, and fixes without edits are never in the way. -/
namespace TemplateLint

namespace Fix

def hasEdits (f : Fix) : Bool := !f.edits.isEmpty

theorem hasEdits_iff {f : Fix} : f.hasEdits = true ↔ f.edits ≠ [] := by
  simp [hasEdits]

/-- Two fixes with edits that begin at two offsets. -/
def StartsElsewhere (f g : Fix) : Prop :=
  f.edits ≠ [] → g.edits ≠ [] → f.firstStart ≠ g.firstStart

instance : Std.Symm StartsElsewhere := ⟨fun _ _ h hg hf => (h hf hg).symm⟩

theorem isUsable_of_not_hasEdits {f : Fix} (h : f.hasEdits = false) (source : List Char)
    (taken : List TextEdit) : f.isUsable source taken = false := by
  simp_all [hasEdits, isUsable]

end Fix

/-- Fixes without edits are passed over. -/
theorem takeFixes_filter_hasEdits (source : List Char) (taken : List TextEdit) (fs : List Fix) :
    takeFixes source taken (fs.filter Fix.hasEdits) = takeFixes source taken fs := by
  induction fs generalizing taken with
  | nil => rfl
  | cons f fs ih =>
    by_cases hf : f.hasEdits = true
    · simp only [List.filter_cons_of_pos hf, takeFixes, ih]
    · have hunusable := Fix.isUsable_of_not_hasEdits (Bool.eq_false_iff.mpr hf) source taken
      simp only [List.filter_cons_of_neg hf, takeFixes, hunusable, Bool.false_eq_true, if_false, ih]

variable {ds ds' : List Diagnostic}

theorem fixesInOrder_perm_of_perm
    (hperm : (ds'.filterMap Diagnostic.fix).Perm (ds.filterMap Diagnostic.fix)) :
    (fixesInOrder ds').Perm (fixesInOrder ds) :=
  (fixesInOrder_perm ds').trans (hperm.trans (fixesInOrder_perm ds).symm)

/-- Sorted by distinct starts, the same fixes come in the same order. -/
theorem filter_fixesInOrder_eq
    (hstarts : (ds.filterMap Diagnostic.fix).Pairwise Fix.StartsElsewhere)
    (hperm : (ds'.filterMap Diagnostic.fix).Perm (ds.filterMap Diagnostic.fix)) :
    (fixesInOrder ds').filter Fix.hasEdits = (fixesInOrder ds).filter Fix.hasEdits := by
  have hstarts' : (fixesInOrder ds).Pairwise Fix.StartsElsewhere :=
    hstarts.perm (fixesInOrder_perm ds).symm fun h => Std.Symm.symm _ _ h
  have hsame := (fixesInOrder_perm_of_perm hperm).filter Fix.hasEdits
  refine hsame.eq_of_pairwise (fun f g hf hg hfg hgf => ?_)
    ((fixesInOrder_pairwise ds').filter _) ((fixesInOrder_pairwise ds).filter _)
  -- Two fixes that may stand in either order begin at one offset, so they are one fix.
  by_contra hne
  obtain ⟨hf, hfe⟩ := List.mem_filter.mp (hsame.subset hf)
  obtain ⟨hg, hge⟩ := List.mem_filter.mp hg
  have helse := hstarts'.forall hf hg hne
  exact helse (Fix.hasEdits_iff.mp hfe) (Fix.hasEdits_iff.mp hge) (by omega)

/-- The outcome does not depend on the order in which the diagnostics come, nor on those without a
fix among them, if no two fixes with edits begin at one offset. -/
theorem applyFixes?_perm (source : String) (ds : List Diagnostic)
    (hstarts : (ds.filterMap Diagnostic.fix).Pairwise fun f g =>
      f.edits ≠ [] → g.edits ≠ [] → f.firstStart ≠ g.firstStart)
    (hin : ∀ d ∈ ds, ∀ f ∈ d.fix, f.edits.Pairwise fun a b => a.overlaps b = false) :
    ∃ outcome, applyFixes? source ds = some outcome ∧
      ∀ ds', (ds'.filterMap Diagnostic.fix).Perm (ds.filterMap Diagnostic.fix) →
        applyFixes? source ds' = some outcome := by
  obtain ⟨outcome, -, hrun, -⟩ := exists_applyFixes?_eq_splice? source hin
  refine ⟨outcome, hrun, fun ds' hperm => ?_⟩
  have haccepted : acceptedFixes source.toList ds' = acceptedFixes source.toList ds := by
    unfold acceptedFixes
    rw [← takeFixes_filter_hasEdits, filter_fixesInOrder_eq hstarts hperm,
      takeFixes_filter_hasEdits]
  have hlength := (fixesInOrder_perm_of_perm hperm).length_eq
  rw [← hrun]
  simp only [applyFixes?, haccepted, hlength]

/-- The fix that begins first is the one that is applied, wherever it stands. The fix without edits
ties with one at the last offset there is. -/
theorem applyFixes?_perm_overlapping :
    let offer (edits : List TextEdit) : Diagnostic :=
      ⟨"r", .error, "m", 0, 3, none, some ⟨"f", edits⟩⟩
    let plain : Diagnostic := ⟨"r", .warning, "m", 1, 2, none, none⟩
    let last := offer [⟨4294967295, 4294967295, ""⟩]
    let ds : List Diagnostic := [offer [⟨2, 4, "y"⟩], offer [], offer [⟨0, 3, "x"⟩], last]
    let ds' : List Diagnostic :=
      [last, offer [⟨0, 3, "x"⟩], plain, offer [⟨2, 4, "y"⟩], plain, offer []]
    (ds.filterMap Diagnostic.fix).Pairwise (fun f g =>
      f.edits ≠ [] → g.edits ≠ [] → f.firstStart ≠ g.firstStart) ∧
    (∀ d ∈ ds, ∀ f ∈ d.fix, f.edits.Pairwise fun a b => a.overlaps b = false) ∧
    (ds'.filterMap Diagnostic.fix).Perm (ds.filterMap Diagnostic.fix) ∧
    applyFixes? "abcd" ds = some ⟨"xd", 1, 3⟩ ∧ applyFixes? "abcd" ds' = some ⟨"xd", 1, 3⟩ := by
  intro offer plain last ds ds'
  have hstarts : (ds.filterMap Diagnostic.fix).Pairwise fun f g =>
      f.edits ≠ [] → g.edits ≠ [] → f.firstStart ≠ g.firstStart := by decide
  have hin : ∀ d ∈ ds, ∀ f ∈ d.fix, f.edits.Pairwise fun a b => a.overlaps b = false := by decide
  have hperm : (ds'.filterMap Diagnostic.fix).Perm (ds.filterMap Diagnostic.fix) := by decide
  have hrun : applyFixes? "abcd" ds = some ⟨"xd", 1, 3⟩ := by
    simp only [applyFixes?, acceptedFixes, fixesInOrder_eq_insertionSort,
      TextEdit.lastFirst_eq_insertionSort]
    decide +kernel
  obtain ⟨outcome, houtcome, hsame⟩ := applyFixes?_perm "abcd" ds hstarts hin
  rw [← houtcome] at hsame
  exact ⟨hstarts, hin, hperm, hrun, (hsame ds' hperm).trans hrun⟩

end TemplateLint
