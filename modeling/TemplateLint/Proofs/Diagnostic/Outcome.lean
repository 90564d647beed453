import TemplateLint.Proofs.Diagnostic.Accepted
import TemplateLint.Proofs.Diagnostic.Splice

/-! The outcome of applying the fixes of many diagnostics: all accepted edits at once. -/
namespace TemplateLint
open Text

namespace TextEdit

theorem start_le_stop_of_fits {e : TextEdit} {text : List Char} (h : e.fits text = true) :
    e.start ≤ e.stop := by
  obtain ⟨before, middle, after, -, -, hm⟩ := fits_iff.mp h
  rw [UInt32.le_iff_toNat_le]
  omega

theorem Apart.before {a b : TextEdit} {text : List Char} (h : a.Apart b)
    (hb : b.fits text = true) (hle : a.start ≤ b.start) : a.Before b := by
  unfold Apart overlaps at h
  rw [Bool.or_eq_false_iff, Bool.and_eq_false_iff] at h
  simp only [decide_eq_false_iff_not, UInt32.lt_iff_toNat_lt, ← UInt32.toNat_inj] at h
  have hstop := UInt32.le_iff_toNat_le.mp (start_le_stop_of_fits hb)
  rw [UInt32.le_iff_toNat_le] at hle
  unfold Before
  rw [UInt32.lt_iff_toNat_lt, UInt32.le_iff_toNat_le]
  omega

theorem Before.apart {a b : TextEdit} (h : a.Before b) : a.Apart b := by
  unfold Before at h
  unfold Apart overlaps
  rw [Bool.or_eq_false_iff, Bool.and_eq_false_iff]
  simp only [decide_eq_false_iff_not, UInt32.lt_iff_toNat_lt, ← UInt32.toNat_inj,
    UInt32.le_iff_toNat_le] at h ⊢
  omega

theorem lastFirst_perm (es : List TextEdit) : (lastFirst es).Perm es :=
  List.mergeSort_perm _ _

theorem lastFirst_reverse_pairwise_le (es : List TextEdit) :
    (lastFirst es).reverse.Pairwise fun a b => a.start ≤ b.start := by
  rw [List.pairwise_reverse]
  have h : (lastFirst es).Pairwise fun a b => startsNoEarlier a b = true :=
    List.pairwise_mergeSort startsNoEarlier_trans startsNoEarlier_total es
  simpa only [startsNoEarlier, decide_eq_true_eq] using h

/-- Sorted edits that fit and stand apart are in strict order. -/
theorem pairwise_before {es : List TextEdit} {text : List Char}
    (hfit : ∀ e ∈ es, e.fits text = true) (hapart : es.Pairwise Apart)
    (hord : es.Pairwise fun a b => a.start ≤ b.start) : es.Pairwise Before := by
  refine (hord.and hapart).imp_of_mem ?_
  intro a b _ hb ⟨hle, h⟩
  exact h.before (hfit b hb) hle

theorem lastFirst_reverse_perm (es : List TextEdit) : (lastFirst es).reverse.Perm es :=
  (List.reverse_perm _).trans (lastFirst_perm es)

theorem lastFirst_reverse_pairwise_before {es : List TextEdit} {text : List Char}
    (hfit : ∀ e ∈ es, e.fits text = true) (hapart : es.Pairwise Apart) :
    (lastFirst es).reverse.Pairwise Before := by
  have hperm := lastFirst_reverse_perm es
  exact pairwise_before (fun e he => hfit e (hperm.subset he))
    (hapart.perm hperm.symm fun h => h.symm) (lastFirst_reverse_pairwise_le es)

/-- Edits in strict order can be made one after another from the end of the text, which is the same
as all at once. -/
theorem applyAll?_of_ordered {es : List TextEdit} {text : List Char}
    (hfit : ∀ e ∈ es, e.fits text = true) (hord : es.Pairwise Before) :
    ∃ out, splice? text 0 (byteLength text) es = some out ∧
      applyAll? es.reverse text = some out :=
  applyAll?_reverse [] text hfit hord fun _ _ => Nat.zero_le _

theorem applyAll?_lastFirst {es : List TextEdit} {text : List Char}
    (hfit : ∀ e ∈ es, e.fits text = true) (hapart : es.Pairwise Apart) :
    ∃ out, splice? text 0 (byteLength text) (lastFirst es).reverse = some out ∧
      applyAll? (lastFirst es) text = some out := by
  obtain ⟨out, hsplice, hrun⟩ := applyAll?_of_ordered
    (fun e he => hfit e ((lastFirst_reverse_perm es).subset he))
    (lastFirst_reverse_pairwise_before hfit hapart)
  rw [List.reverse_reverse] at hrun
  exact ⟨out, hsplice, hrun⟩

end TextEdit

variable {ds : List Diagnostic}

/-- Where the edits of each fix stand apart, there is an outcome, and its text is the source with
all accepted edits made at once. -/
theorem exists_applyFixes?_eq_splice? (source : String)
    (hin : ∀ d ∈ ds, ∀ f ∈ d.fix, f.edits.Pairwise TextEdit.Apart) :
    ∃ outcome edits, applyFixes? source ds = some outcome ∧
      edits.Perm (acceptedEdits source.toList ds) ∧ edits.Pairwise TextEdit.Before ∧
      TextEdit.splice? source.toList 0 (byteLength source.toList) edits =
        some outcome.output.toList ∧
      outcome.applied = (acceptedFixes source.toList ds).length ∧
      outcome.skipped = (fixesInOrder ds).length - outcome.applied := by
  have hfit : ∀ e ∈ acceptedEdits source.toList ds, e.fits source.toList = true :=
    fun e he => fits_of_mem_acceptedEdits he
  have hapart := acceptedEdits_pairwise source.toList hin
  obtain ⟨out, hsplice, hrun⟩ := TextEdit.applyAll?_lastFirst hfit hapart
  refine ⟨_, (TextEdit.lastFirst (acceptedEdits source.toList ds)).reverse,
    congrArg (Option.map _) hrun, ?_, ?_, ?_, rfl, rfl⟩
  · exact TextEdit.lastFirst_reverse_perm _
  · exact TextEdit.lastFirst_reverse_pairwise_before hfit hapart
  · rw [hsplice, String.toList_ofList]

/-- Applying fixes is one simultaneous replacement in the source. If no fix has two edits that
overlap, there is an outcome, no two applied edits overlap, and in ascending order each ends before
the next begins. The output is the source with exactly these ranges of it replaced. -/
theorem applyFixes?_simultaneous (source : String) (ds : List Diagnostic)
    (hin : ∀ d ∈ ds, ∀ f ∈ d.fix, f.edits.Pairwise fun a b => a.overlaps b = false) :
    ∃ outcome edits, applyFixes? source ds = some outcome ∧
      edits.Perm ((acceptedFixes source.toList ds).flatMap Fix.edits) ∧
      edits.Pairwise (fun a b => a.overlaps b = false) ∧
      edits.Pairwise (fun a b => a.start < b.start ∧ a.stop ≤ b.start) ∧
      TextEdit.splice? source.toList 0 (byteLength source.toList) edits =
        some outcome.output.toList ∧
      outcome.applied = (acceptedFixes source.toList ds).length := by
  obtain ⟨outcome, edits, hrun, hperm, hord, hsplice, happlied, -⟩ :=
    exists_applyFixes?_eq_splice? source hin
  exact ⟨outcome, edits, hrun, hperm, hord.imp TextEdit.Before.apart, hord, hsplice, happlied⟩

/-- A fix with an insertion behind a replacement, beside one that overlaps it and is left out. -/
theorem applyFixes?_simultaneous_insertion :
    let ds : List Diagnostic :=
      [⟨"r", .error, "m", 0, 3, none, some ⟨"f", [⟨3, 3, "!"⟩, ⟨0, 2, "ab"⟩]⟩⟩,
        ⟨"r", .error, "m", 0, 3, none, some ⟨"f", [⟨2, 4, ""⟩]⟩⟩]
    (∀ d ∈ ds, ∀ f ∈ d.fix, f.edits.Pairwise fun a b => a.overlaps b = false) ∧
      ∃ outcome edits, applyFixes? "éxy" ds = some outcome ∧
        edits.Perm ((acceptedFixes "éxy".toList ds).flatMap Fix.edits) ∧
        edits.Pairwise (fun a b => a.overlaps b = false) ∧
        edits.Pairwise (fun a b => a.start < b.start ∧ a.stop ≤ b.start) ∧
        TextEdit.splice? "éxy".toList 0 (byteLength "éxy".toList) edits =
          some outcome.output.toList ∧
        outcome.applied = (acceptedFixes "éxy".toList ds).length := by
  intro ds
  have hin : ∀ d ∈ ds, ∀ f ∈ d.fix, f.edits.Pairwise fun a b => a.overlaps b = false := by decide
  exact ⟨hin, applyFixes?_simultaneous "éxy" ds hin⟩

end TemplateLint
