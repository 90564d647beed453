import Mathlib.Data.List.Sort
import TemplateLint.Diagnostic.Apply

/-! The choice of fixes. A fix is taken beside the edits taken before it, so the edits of two taken
fixes never meet. -/
namespace TemplateLint

/-- Sorting by merging and by insertion are one, also if the order leaves ties: both are stable. The
sort by insertion can be evaluated. -/
theorem mergeSort_eq_insertionSort_of_total {α : Type} {le : α → α → Bool}
    (trans : ∀ a b c, le a b = true → le b c = true → le a c = true)
    (total : ∀ a b, (le a b || le b a) = true) (l : List α) :
    l.mergeSort le = l.insertionSort fun a b => le a b = true := by
  induction l with
  | nil => exact List.mergeSort_nil
  | cons a l ih =>
    obtain ⟨front, back, hcons, hl, hfront⟩ := List.mergeSort_cons trans total a l
    have hsorted := List.pairwise_mergeSort trans total (a :: l)
    rw [hcons, List.pairwise_append, List.pairwise_cons] at hsorted
    obtain ⟨-, ⟨hback, -⟩, -⟩ := hsorted
    -- The insertion passes over `front` and stops there.
    have hstop : back.takeWhile (fun b => decide ¬ le a b = true) = [] := by
      cases back with
      | nil => rfl
      | cons b back => exact List.takeWhile_cons_of_neg (by simpa using hback b List.mem_cons_self)
    have htake : (front ++ back).takeWhile (fun b => decide ¬ le a b = true) = front := by
      rw [List.takeWhile_append_of_pos (by simpa using hfront), hstop, List.append_nil]
    have hcut := List.takeWhile_append_dropWhile (p := fun b => decide ¬ le a b = true)
      (l := front ++ back)
    rw [htake, List.append_cancel_left_eq] at hcut
    rw [List.insertionSort_cons, ← ih, hl, hcons, List.orderedInsert_eq_take_drop, htake, hcut]

namespace TextEdit

def startsNoEarlier (a b : TextEdit) : Bool := decide (b.start ≤ a.start)

theorem startsNoEarlier_trans (a b c : TextEdit) (hab : startsNoEarlier a b = true)
    (hbc : startsNoEarlier b c = true) : startsNoEarlier a c = true := by
  simp only [startsNoEarlier, decide_eq_true_eq] at *
  exact UInt32.le_trans hbc hab

theorem startsNoEarlier_total (a b : TextEdit) :
    (startsNoEarlier a b || startsNoEarlier b a) = true := by
  simp only [startsNoEarlier, Bool.or_eq_true, decide_eq_true_eq]
  exact UInt32.le_total _ _

theorem lastFirst_eq_insertionSort (es : List TextEdit) :
    lastFirst es = es.insertionSort fun a b => startsNoEarlier a b = true :=
  mergeSort_eq_insertionSort_of_total startsNoEarlier_trans startsNoEarlier_total es

/-- Two edits that do not overlap, as the choice of fixes has it. -/
def Apart (a b : TextEdit) : Prop := a.overlaps b = false

theorem Apart.symm {a b : TextEdit} (h : a.Apart b) : b.Apart a := by
  unfold Apart overlaps at *
  rw [Bool.or_eq_false_iff, Bool.and_eq_false_iff] at *
  simp only [decide_eq_false_iff_not] at *
  exact ⟨h.1.symm, fun he => h.2 he.symm⟩

end TextEdit

namespace Fix

/-- No edit of one fix overlaps an edit of the other. -/
def Apart (f g : Fix) : Prop := ∀ a ∈ f.edits, ∀ b ∈ g.edits, a.Apart b

theorem Apart.symm {f g : Fix} (h : f.Apart g) : g.Apart f :=
  fun b hb a ha => (h a ha b hb).symm

theorem isUsable_iff {f : Fix} {source : List Char} {taken : List TextEdit} :
    f.isUsable source taken = true ↔
      f.edits ≠ [] ∧ ∀ e ∈ f.edits, e.fits source = true ∧ ∀ other ∈ taken, e.Apart other := by
  simp [isUsable, TextEdit.Apart]

theorem isUsable_nil_iff {f : Fix} {source : List Char} :
    f.isUsable source [] = true ↔ f.edits ≠ [] ∧ ∀ e ∈ f.edits, e.fits source = true := by
  simp [isUsable]

end Fix

section Taking
variable {source : List Char}

theorem takeFixes_sublist (taken : List TextEdit) (fs : List Fix) :
    (takeFixes source taken fs).Sublist fs := by
  induction fs generalizing taken with
  | nil => exact List.Sublist.refl _
  | cons f fs ih =>
    unfold takeFixes
    split
    · exact (ih _).cons_cons f
    · exact (ih _).cons f

/-- A fix that is taken is still usable beside the edits taken at first. -/
theorem isUsable_of_mem_takeFixes {taken : List TextEdit} {fs : List Fix} {f : Fix}
    (h : f ∈ takeFixes source taken fs) : f.isUsable source taken = true := by
  induction fs generalizing taken with
  | nil => exact absurd h List.not_mem_nil
  | cons g fs ih =>
    unfold takeFixes at h
    split at h
    next hg =>
      rcases List.mem_cons.mp h with rfl | h
      · exact hg
      · obtain ⟨hne, hedits⟩ := Fix.isUsable_iff.mp (ih h)
        refine Fix.isUsable_iff.mpr ⟨hne, fun e he => ⟨(hedits e he).1, ?_⟩⟩
        intro other hother
        exact (hedits e he).2 other (List.mem_append_left _ hother)
    next => exact ih h

theorem takeFixes_pairwise (taken : List TextEdit) (fs : List Fix) :
    (takeFixes source taken fs).Pairwise Fix.Apart := by
  induction fs generalizing taken with
  | nil => exact List.Pairwise.nil
  | cons f fs ih =>
    unfold takeFixes
    split
    · refine List.pairwise_cons.mpr ⟨?_, ih _⟩
      intro g hg a ha b hb
      have hb' := (Fix.isUsable_iff.mp (isUsable_of_mem_takeFixes hg)).2 b hb
      exact (hb'.2 a (List.mem_append_right _ ha)).symm
    · exact ih _

/-- Fixes that stand apart from each other and from what is taken are all taken. -/
theorem takeFixes_eq_self {taken : List TextEdit} {fs : List Fix}
    (husable : ∀ f ∈ fs, f.isUsable source taken = true) (hapart : fs.Pairwise Fix.Apart) :
    takeFixes source taken fs = fs := by
  induction fs generalizing taken with
  | nil => rfl
  | cons f fs ih =>
    rw [List.pairwise_cons] at hapart
    rw [takeFixes, if_pos (husable f List.mem_cons_self), ih _ hapart.2]
    intro g hg
    obtain ⟨hne, hedits⟩ := Fix.isUsable_iff.mp (husable g (List.mem_cons_of_mem _ hg))
    refine Fix.isUsable_iff.mpr ⟨hne, fun e he => ⟨(hedits e he).1, ?_⟩⟩
    intro other hother
    rcases List.mem_append.mp hother with h | h
    · exact (hedits e he).2 other h
    · exact (hapart.1 g hg other h e he).symm

end Taking

def startsNoLater (f g : Fix) : Bool := decide (f.firstStart ≤ g.firstStart)

theorem startsNoLater_trans (f g h : Fix) (hfg : startsNoLater f g = true)
    (hgh : startsNoLater g h = true) : startsNoLater f h = true := by
  simp only [startsNoLater, decide_eq_true_eq] at *
  omega

theorem startsNoLater_total (f g : Fix) : (startsNoLater f g || startsNoLater g f) = true := by
  simp only [startsNoLater, Bool.or_eq_true, decide_eq_true_eq]
  omega

variable {source : List Char} {ds : List Diagnostic}

theorem fixesInOrder_pairwise (ds : List Diagnostic) :
    (fixesInOrder ds).Pairwise fun f g => f.firstStart ≤ g.firstStart := by
  have hsorted : (fixesInOrder ds).Pairwise fun f g => startsNoLater f g = true :=
    List.pairwise_mergeSort startsNoLater_trans startsNoLater_total _
  simpa only [startsNoLater, decide_eq_true_eq] using hsorted

theorem fixesInOrder_eq_insertionSort (ds : List Diagnostic) :
    fixesInOrder ds =
      (ds.filterMap Diagnostic.fix).insertionSort fun f g => startsNoLater f g = true :=
  mergeSort_eq_insertionSort_of_total startsNoLater_trans startsNoLater_total _

theorem fixesInOrder_perm (ds : List Diagnostic) :
    (fixesInOrder ds).Perm (ds.filterMap Diagnostic.fix) :=
  List.mergeSort_perm _ _

theorem mem_fixesInOrder {f : Fix} : f ∈ fixesInOrder ds ↔ ∃ d ∈ ds, d.fix = some f := by
  rw [(fixesInOrder_perm ds).mem_iff, List.mem_filterMap]

theorem acceptedFixes_sublist (source : List Char) (ds : List Diagnostic) :
    (acceptedFixes source ds).Sublist (fixesInOrder ds) :=
  takeFixes_sublist _ _

theorem exists_of_mem_acceptedFixes {f : Fix} (h : f ∈ acceptedFixes source ds) :
    ∃ d ∈ ds, d.fix = some f :=
  mem_fixesInOrder.mp ((acceptedFixes_sublist source ds).subset h)

/-- Where all fixes fit and no two of them meet, none is left out. -/
theorem acceptedFixes_eq_fixesInOrder
    (hfit : ∀ d ∈ ds, ∀ f ∈ d.fix, f.edits ≠ [] ∧ ∀ e ∈ f.edits, e.fits source = true)
    (hapart : (ds.filterMap Diagnostic.fix).Pairwise Fix.Apart) :
    acceptedFixes source ds = fixesInOrder ds := by
  refine takeFixes_eq_self ?_ (hapart.perm (fixesInOrder_perm ds).symm fun h => h.symm)
  intro f hf
  obtain ⟨d, hd, hfix⟩ := mem_fixesInOrder.mp hf
  exact Fix.isUsable_nil_iff.mpr (hfit d hd f hfix)

/-- The edits that are made, in the order in which their fixes are taken. -/
def acceptedEdits (source : List Char) (ds : List Diagnostic) : List TextEdit :=
  (acceptedFixes source ds).flatMap Fix.edits

theorem fits_of_mem_acceptedEdits {e : TextEdit} (h : e ∈ acceptedEdits source ds) :
    e.fits source = true := by
  obtain ⟨f, hf, he⟩ := List.mem_flatMap.mp h
  exact (Fix.isUsable_nil_iff.mp (isUsable_of_mem_takeFixes hf)).2 e he

/-- Within one fix the edits have to stand apart already, across fixes the choice sees to it. -/
theorem acceptedEdits_pairwise (source : List Char)
    (hin : ∀ d ∈ ds, ∀ f ∈ d.fix, f.edits.Pairwise TextEdit.Apart) :
    (acceptedEdits source ds).Pairwise TextEdit.Apart := by
  refine List.pairwise_flatMap.mpr ⟨?_, takeFixes_pairwise _ _⟩
  intro f hf
  obtain ⟨d, hd, hfix⟩ := exists_of_mem_acceptedFixes hf
  exact hin d hd f hfix

end TemplateLint
