import TemplateLint.Proofs.Diagnostic.Outcome

/-! One fix, applied on its own and as the only one of a list. Both come to the same where its edits
fit and stand apart. Where an edit does not fit, the list leaves the fix out whole, and on its own
the fix is made in part. -/
namespace TemplateLint
open Text

namespace TextEdit

/-- The edits that are made when every edit is left out that does not fit the text that those made
before it leave. -/
def made : List Char → List TextEdit → List TextEdit
  | _, [] => []
  | text, e :: es =>
    match applied? e text with
    | some next => e :: made next es
    | none => made text es

section Made
variable {e : TextEdit} {es : List TextEdit} {text next : List Char}

theorem applied?_eq_none_iff : applied? e text = none ↔ e.fits text = false := by
  rw [← isSome_applied?, Option.isSome_eq_false_iff, Option.isNone_iff_eq_none]

theorem fits_of_applied? (h : applied? e text = some next) : e.fits text = true := by
  rw [← isSome_applied?, h, Option.isSome_some]

theorem made_cons_of_some (h : applied? e text = some next) :
    made text (e :: es) = e :: made next es := by
  simp only [made, h]

theorem made_cons_of_none (h : applied? e text = none) : made text (e :: es) = made text es := by
  simp only [made, h]

/-- Leaving edits out as they come is making the others. -/
theorem applyAll?_made (es : List TextEdit) (text : List Char) :
    applyAll? (made text es) text =
      some (es.foldl (fun text e => (applied? e text).getD text) text) := by
  induction es generalizing text with
  | nil => rfl
  | cons e es ih =>
    rw [List.foldl_cons]
    cases h : applied? e text with
    | none =>
      rw [made_cons_of_none h, Option.getD_none]
      exact ih text
    | some next =>
      rw [made_cons_of_some h, applyAll?, h, Option.bind_some, Option.getD_some]
      exact ih next

theorem made_of_applyAll? {out : List Char} (h : applyAll? es text = some out) :
    made text es = es := by
  induction es generalizing text with
  | nil => rfl
  | cons e es ih =>
    obtain ⟨next, hnext, hrest⟩ := Option.bind_eq_some_iff.mp h
    rw [made_cons_of_some hnext, ih hrest]

theorem made_eq_nil_iff : made text es = [] ↔ ∀ e ∈ es, e.fits text = false := by
  induction es with
  | nil => simp [made]
  | cons e es ih =>
    rw [List.forall_mem_cons, ← applied?_eq_none_iff]
    cases h : applied? e text with
    | none => simp [made_cons_of_none h, ih]
    | some next => simp [made_cons_of_some h]

/-- An edit fits as well as it did once an edit behind it is made. -/
theorem fits_applied? {a b : TextEdit} (h : applied? a text = some next) (hle : b.start ≤ a.start)
    (hapart : a.Apart b) : b.fits next = b.fits text := by
  have hbefore : b.Before a := hapart.symm.before (fits_of_applied? h) hle
  have hstart := UInt32.le_iff_toNat_le.mp hle
  have hstop := UInt32.le_iff_toNat_le.mp hbefore.2
  unfold fits isRange
  rw [isBoundary_applied? h, isBoundary_applied? h, if_pos hstart, if_pos hstop]

/-- Of edits that stand apart just those are made that fit the text as it is. -/
theorem made_eq_filter (hord : es.Pairwise fun a b => b.start ≤ a.start)
    (hapart : es.Pairwise Apart) : made text es = es.filter (·.fits text) := by
  induction es generalizing text with
  | nil => rfl
  | cons e es ih =>
    obtain ⟨hle, hord⟩ := List.pairwise_cons.mp hord
    obtain ⟨hfirst, hapart⟩ := List.pairwise_cons.mp hapart
    cases h : applied? e text with
    | none =>
      have hfit : e.fits text = false := applied?_eq_none_iff.mp h
      rw [made_cons_of_none h, ih hord hapart, List.filter_cons_of_neg (by simp [hfit])]
    | some next =>
      have hsame : es.filter (·.fits next) = es.filter (·.fits text) :=
        List.filter_congr fun b hb => fits_applied? h (hle b hb) (hfirst b hb)
      have hfit : e.fits text = true := fits_of_applied? h
      rw [made_cons_of_some h, ih hord hapart, hsame, List.filter_cons_of_pos (by simp [hfit])]

/-- Edits that stand apart, taken from the end of the text to its start: those that fit come to
the same as all at once. -/
theorem exists_splice?_made {fs : List TextEdit} (hapart : fs.Pairwise Apart) (hperm : es.Perm fs)
    (hord : es.Pairwise fun a b => b.start ≤ a.start) (text : List Char) :
    ∃ edits, edits.Perm (fs.filter (·.fits text)) ∧ edits.Pairwise Before ∧
      splice? text 0 (byteLength text) edits = applyAll? (made text es) text := by
  have hapart' : es.Pairwise Apart := hapart.perm hperm.symm fun h => h.symm
  have hmade : made text es = es.filter (·.fits text) := made_eq_filter hord hapart'
  have hsub : (made text es).Sublist es := hmade ▸ List.filter_sublist
  have hfit : ∀ e ∈ (made text es).reverse, e.fits text = true := by
    intro e he
    rw [hmade, List.mem_reverse] at he
    exact (List.mem_filter.mp he).2
  have hbefore : (made text es).reverse.Pairwise Before :=
    pairwise_before hfit (List.pairwise_reverse.mpr ((hapart'.sublist hsub).imp Apart.symm))
      (List.pairwise_reverse.mpr (hord.sublist hsub))
  obtain ⟨out, hsplice, hrun⟩ := applyAll?_of_ordered hfit hbefore
  rw [List.reverse_reverse] at hrun
  refine ⟨_, ?_, hbefore, hsplice.trans hrun.symm⟩
  exact (List.reverse_perm _).trans (hmade ▸ hperm.filter _)

end Made

theorem lastFirst_pairwise_ge (es : List TextEdit) :
    (lastFirst es).Pairwise fun a b => b.start ≤ a.start :=
  List.pairwise_reverse.mp (lastFirst_reverse_pairwise_le es)

theorem applyAll?_lastFirst_singleton (e : TextEdit) (text : List Char) :
    applyAll? (lastFirst [e]) text = applied? e text := by
  rw [lastFirst, List.mergeSort_singleton, applyAll?]
  cases applied? e text <;> rfl

theorem lastFirst_of_pairwise_ge {es : List TextEdit}
    (h : es.Pairwise fun a b => b.start ≤ a.start) : lastFirst es = es :=
  List.mergeSort_of_pairwise (h.imp fun hle => decide_eq_true hle)

/-- Edits that fit and stand apart are made in one order, however they are listed. -/
theorem lastFirst_eq_of_perm {es fs : List TextEdit} {text : List Char} (hperm : fs.Perm es)
    (hfit : ∀ e ∈ es, e.fits text = true) (hapart : es.Pairwise Apart) :
    lastFirst fs = lastFirst es := by
  have hord := lastFirst_reverse_pairwise_before hfit hapart
  have hord' : (lastFirst fs).reverse.Pairwise Before :=
    lastFirst_reverse_pairwise_before (fun e he => hfit e (hperm.subset he))
      (hapart.perm hperm.symm fun h => h.symm)
  have hsorted : (lastFirst fs).reverse.Perm (lastFirst es).reverse :=
    (lastFirst_reverse_perm fs).trans (hperm.trans (lastFirst_reverse_perm es).symm)
  refine List.reverse_inj.mp (hsorted.eq_of_pairwise ?_ hord' hord)
  intro a b _ _ hab hba
  exact absurd hba.1 (UInt32.not_lt.mpr (UInt32.le_of_lt hab.1))

end TextEdit

variable {source : String} {d : Diagnostic} {f : Fix}

/-- The text of a fix on its own is what the edits leave that are made. -/
theorem Fix.applyAll?_made (f : Fix) (source : String) :
    TextEdit.applyAll? (TextEdit.made source.toList (TextEdit.lastFirst f.edits)) source.toList =
      some (f.apply source).toList := by
  rw [TextEdit.applyAll?_made, Fix.apply, String.toList_ofList]

theorem Fix.apply_of_applyAll? {out : List Char}
    (h : TextEdit.applyAll? (TextEdit.lastFirst f.edits) source.toList = some out) :
    f.apply source = String.ofList out := by
  have hmade := f.applyAll?_made source
  rw [TextEdit.made_of_applyAll? h, h, Option.some.injEq] at hmade
  rw [hmade, String.ofList_toList]

section OneDiagnostic
variable (hfix : d.fix = some f)
include hfix

theorem fixesInOrder_singleton : fixesInOrder [d] = [f] := by
  rw [fixesInOrder, List.filterMap_cons_some hfix, List.filterMap_nil, List.mergeSort_singleton]

theorem applyFixes?_of_isUsable (h : f.isUsable source.toList [] = true) :
    applyFixes? source [d] =
      (TextEdit.applyAll? (TextEdit.lastFirst f.edits) source.toList).map
        fun out => ⟨String.ofList out, 1, 0⟩ := by
  have haccepted : acceptedFixes source.toList [d] = [f] := by
    rw [acceptedFixes, fixesInOrder_singleton hfix, takeFixes, if_pos h, takeFixes]
  rw [applyFixes?, haccepted, fixesInOrder_singleton hfix, List.flatMap_singleton]
  rfl

theorem applyFixes?_of_not_isUsable (h : f.isUsable source.toList [] = false) :
    applyFixes? source [d] = some ⟨source, 0, 1⟩ := by
  have haccepted : acceptedFixes source.toList [d] = [] := by
    rw [acceptedFixes, fixesInOrder_singleton hfix, takeFixes, h, if_neg Bool.false_ne_true,
      takeFixes]
  rw [applyFixes?, haccepted, fixesInOrder_singleton hfix]
  simp [TextEdit.lastFirst, TextEdit.applyAll?]

end OneDiagnostic

/-! A fix with one edit -/
section OneEdit
variable {e : TextEdit} {message : String} {before middle after : List Char}
  (hsource : source.toList = before ++ middle ++ after)
  (hstart : byteLength before = e.start.toNat)
  (hstop : e.start.toNat + byteLength middle = e.stop.toNat)
include hsource hstart hstop

theorem applyAll?_single : TextEdit.applyAll? (TextEdit.lastFirst [e]) source.toList =
    some (before ++ e.newText.toList ++ after) := by
  rw [TextEdit.applyAll?_lastFirst_singleton, hsource, TextEdit.applied?_append hstart hstop]

theorem Fix.apply_single :
    (Fix.mk message [e]).apply source = String.ofList (before ++ e.newText.toList ++ after) :=
  Fix.apply_of_applyAll? (applyAll?_single hsource hstart hstop)

theorem applyFixes?_single (hfix : d.fix = some ⟨message, [e]⟩) :
    applyFixes? source [d] =
      some ⟨String.ofList (before ++ e.newText.toList ++ after), 1, 0⟩ := by
  have hfits : e.fits source.toList = true :=
    TextEdit.fits_iff.mpr ⟨before, middle, after, hsource, hstart, hstop⟩
  have husable : (Fix.mk message [e]).isUsable source.toList [] = true :=
    Fix.isUsable_nil_iff.mpr ⟨List.cons_ne_nil _ _, List.forall_mem_singleton.mpr hfits⟩
  rw [applyFixes?_of_isUsable hfix husable, applyAll?_single hsource hstart hstop]
  rfl

end OneEdit

/-- A fix whose edits fit and stand apart, with these listed in any order. On its own and as the
only fix of a list it makes the same text, which is the source with all edits made at once. -/
theorem Fix.apply_eq_applyFixes? (source : String) (f : Fix) (hne : f.edits ≠ [])
    (hfit : ∀ e ∈ f.edits, e.fits source.toList = true)
    (hapart : f.edits.Pairwise fun a b => a.overlaps b = false) :
    (∃ edits, edits.Perm f.edits ∧
      edits.Pairwise (fun a b => a.start < b.start ∧ a.stop ≤ b.start) ∧
      TextEdit.splice? source.toList 0 (byteLength source.toList) edits =
        some (f.apply source).toList) ∧
    ∀ g : Fix, g.edits.Perm f.edits → g.apply source = f.apply source ∧
      ∀ d : Diagnostic, d.fix = some g →
        applyFixes? source [d] = some ⟨f.apply source, 1, 0⟩ := by
  obtain ⟨out, hsplice, hrun⟩ := TextEdit.applyAll?_lastFirst hfit hapart
  have hout : f.apply source = String.ofList out := Fix.apply_of_applyAll? hrun
  refine ⟨⟨(TextEdit.lastFirst f.edits).reverse, ?_, ?_, ?_⟩, fun g hperm => ?_⟩
  · exact TextEdit.lastFirst_reverse_perm f.edits
  · exact TextEdit.lastFirst_reverse_pairwise_before hfit hapart
  · rw [hsplice, hout, String.toList_ofList]
  · have hsame := TextEdit.lastFirst_eq_of_perm hperm hfit hapart
    rw [← hsame] at hrun
    refine ⟨(Fix.apply_of_applyAll? hrun).trans hout.symm, fun d hfix => ?_⟩
    have husable : g.isUsable source.toList [] = true := by
      refine Fix.isUsable_nil_iff.mpr ⟨fun hnil => hne ?_, fun e he => hfit e (hperm.subset he)⟩
      rw [hnil] at hperm
      exact hperm.nil_eq.symm
    rw [applyFixes?_of_isUsable hfix husable, hrun, hout]
    rfl

/-- An insertion right behind a replacement, listed in either order. -/
theorem Fix.apply_eq_applyFixes?_adjacent :
    let f : Fix := ⟨"f", [⟨2, 2, "!"⟩, ⟨0, 2, "ab"⟩]⟩
    let g : Fix := ⟨"g", [⟨0, 2, "ab"⟩, ⟨2, 2, "!"⟩]⟩
    f.edits ≠ [] ∧ (∀ e ∈ f.edits, e.fits "éx".toList = true) ∧
      f.edits.Pairwise (fun a b => a.overlaps b = false) ∧ g.edits.Perm f.edits ∧
      f.apply "éx" = "ab!x" ∧ g.apply "éx" = "ab!x" ∧
      applyFixes? "éx" [⟨"r", .error, "m", 0, 2, none, some g⟩] = some ⟨"ab!x", 1, 0⟩ := by
  intro f g
  have hne : f.edits ≠ [] := List.cons_ne_nil _ _
  have hfit : ∀ e ∈ f.edits, e.fits "éx".toList = true := by decide
  have hapart : f.edits.Pairwise fun a b => a.overlaps b = false := by decide
  have hperm : g.edits.Perm f.edits := List.Perm.swap _ _ _
  have hrun : f.apply "éx" = "ab!x" := by
    rw [Fix.apply, TextEdit.lastFirst_of_pairwise_ge (by decide)]
    decide
  obtain ⟨-, hall⟩ := Fix.apply_eq_applyFixes? "éx" f hne hfit hapart
  obtain ⟨hsame, hbatch⟩ := hall g hperm
  rw [hrun] at hsame hbatch
  exact ⟨hne, hfit, hapart, hperm, hrun, hsame, hbatch _ rfl⟩

/-- A fix with an edit that does not fit. As one of many it is left out whole. On its own it leaves
the source as it is exactly if no edit fits at all, or if the edits that are made undo each other.
Where the edits stand apart, the text is the source with all those made at once that fit. -/
theorem Fix.apply_eq_self_iff (source : String) (f : Fix)
    (hbad : ∃ e ∈ f.edits, e.fits source.toList = false) :
    let made := TextEdit.made source.toList (TextEdit.lastFirst f.edits)
    (∀ ds, f ∉ acceptedFixes source.toList ds) ∧
    (∀ d : Diagnostic, d.fix = some f → applyFixes? source [d] = some ⟨source, 0, 1⟩) ∧
    TextEdit.applyAll? made source.toList = some (f.apply source).toList ∧
    (f.apply source = source ↔ (∀ e ∈ f.edits, e.fits source.toList = false) ∨
      made ≠ [] ∧ TextEdit.applyAll? made source.toList = some source.toList) ∧
    (f.edits.Pairwise (fun a b => a.overlaps b = false) →
      ∃ edits, edits.Perm (f.edits.filter (·.fits source.toList)) ∧
        edits.Pairwise (fun a b => a.start < b.start ∧ a.stop ≤ b.start) ∧
        TextEdit.splice? source.toList 0 (byteLength source.toList) edits =
          some (f.apply source).toList) := by
  intro made
  have hrun : TextEdit.applyAll? made source.toList = some (f.apply source).toList :=
    f.applyAll?_made source
  have hnone : made = [] ↔ ∀ e ∈ f.edits, e.fits source.toList = false := by
    rw [TextEdit.made_eq_nil_iff]
    simp only [(TextEdit.lastFirst_perm f.edits).mem_iff]
  obtain ⟨e, he, hfit⟩ := hbad
  have hunusable : f.isUsable source.toList [] = false := by
    rw [Bool.eq_false_iff]
    intro husable
    simp [(Fix.isUsable_nil_iff.mp husable).2 e he] at hfit
  refine ⟨fun ds hf => ?_, fun d hfix => ?_, hrun, ?_, fun hapart => ?_⟩
  · simpa [hunusable] using isUsable_of_mem_takeFixes hf
  · exact applyFixes?_of_not_isUsable hfix hunusable
  · rw [← hnone, hrun, Option.some.injEq, String.toList_inj]
    constructor
    · intro h
      by_cases hmade : made = []
      · exact Or.inl hmade
      · exact Or.inr ⟨hmade, h⟩
    · rintro (hmade | ⟨-, h⟩)
      · rw [hmade, TextEdit.applyAll?, Option.some.injEq, String.toList_inj] at hrun
        exact hrun.symm
      · exact h
  · obtain ⟨edits, hperm, hord, hsplice⟩ := TextEdit.exists_splice?_made hapart
      (TextEdit.lastFirst_perm f.edits) (TextEdit.lastFirst_pairwise_ge f.edits) source.toList
    exact ⟨edits, hperm, hord, hsplice.trans hrun⟩

/-- An edit inside a character is left out, and so is one behind the end of the text. -/
theorem Fix.apply_eq_self_iff_none_fits :
    let f : Fix := ⟨"f", [⟨1, 2, "x"⟩, ⟨2, 9, "y"⟩]⟩
    (∃ e ∈ f.edits, e.fits "é".toList = false) ∧ f.apply "é" = "é" := by
  intro f
  have hbad : ∃ e ∈ f.edits, e.fits "é".toList = false := by decide
  have hnone : ∀ e ∈ f.edits, e.fits "é".toList = false := by decide
  obtain ⟨-, -, -, hiff, -⟩ := Fix.apply_eq_self_iff "é" f hbad
  exact ⟨hbad, hiff.mpr (Or.inl hnone)⟩

/-- The edit behind the end of the text is left out, the other one is made. -/
theorem Fix.apply_in_part :
    let f : Fix := ⟨"f", [⟨1, 9, "y"⟩, ⟨0, 1, "x"⟩]⟩
    (∃ e ∈ f.edits, e.fits "abc".toList = false) ∧ f.apply "abc" = "xbc" := by
  intro f
  refine ⟨by decide, ?_⟩
  rw [Fix.apply, TextEdit.lastFirst_of_pairwise_ge (by decide)]
  decide

end TemplateLint
