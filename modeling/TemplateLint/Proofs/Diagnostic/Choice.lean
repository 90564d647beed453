import Mathlib.Data.List.Pairwise
import TemplateLint.Proofs.Diagnostic.Accepted
import TemplateLint.Proofs.Diagnostic.Splice

/-! Which fixes are applied. The choice is maximal: a fix is left out only for a reason that the
applied fixes show, and without the fixes left out the choice is the same. One fix can be offered
twice, so fixes are numbered in the order of their diagnostics. -/
namespace TemplateLint

/-- Tried earlier: it begins earlier, or at the same offset in an earlier diagnostic. -/
def TriedBefore (p q : Fix × Nat) : Prop :=
  p.1.firstStart < q.1.firstStart ∨ p.1.firstStart = q.1.firstStart ∧ p.2 < q.2

def numberedFixes (ds : List Diagnostic) : List (Fix × Nat) := (ds.filterMap Diagnostic.fix).zipIdx

def triedFixes (ds : List Diagnostic) : List (Fix × Nat) :=
  (numberedFixes ds).mergeSort (List.zipIdxLE startsNoLater)

/-- `takeFixes` that keeps the numbers. -/
def takeNumbered (source : List Char) : List TextEdit → List (Fix × Nat) → List (Fix × Nat)
  | _, [] => []
  | taken, p :: ps =>
    if p.1.isUsable source taken then p :: takeNumbered source (taken ++ p.1.edits) ps
    else takeNumbered source taken ps

def appliedFixes (source : List Char) (ds : List Diagnostic) : List (Fix × Nat) :=
  takeNumbered source [] (triedFixes ds)

def skippedFixes (source : List Char) (ds : List Diagnostic) : List (Fix × Nat) :=
  (numberedFixes ds).filter fun p => p ∉ appliedFixes source ds

/-- The fixes without those that are skipped, in the order of their diagnostics. -/
def keptFixes (source : List Char) (ds : List Diagnostic) : List Fix :=
  ((numberedFixes ds).filter fun p => p ∈ appliedFixes source ds).map Prod.fst

section Taking
variable {source : List Char} {taken : List TextEdit} {ps : List (Fix × Nat)}

theorem takeNumbered_map_fst (taken : List TextEdit) (ps : List (Fix × Nat)) :
    (takeNumbered source taken ps).map Prod.fst = takeFixes source taken (ps.map Prod.fst) := by
  induction ps generalizing taken with
  | nil => rfl
  | cons p ps ih =>
    rw [takeNumbered, List.map_cons, takeFixes]
    split
    · rw [List.map_cons, ih]
    · rw [ih]

theorem takeNumbered_sublist (taken : List TextEdit) (ps : List (Fix × Nat)) :
    (takeNumbered source taken ps).Sublist ps := by
  induction ps generalizing taken with
  | nil => exact List.Sublist.refl _
  | cons p ps ih =>
    rw [takeNumbered]
    split
    · exact (ih _).cons_cons p
    · exact (ih _).cons p

/-- Why a fix is not taken beside `taken` and the fixes that are tried before it. -/
theorem exists_reason_of_not_mem_takeNumbered (hord : ps.Pairwise TriedBefore) {p : Fix × Nat}
    (hp : p ∈ ps) (hnot : p ∉ takeNumbered source taken ps) :
    p.1.edits = [] ∨ (∃ e ∈ p.1.edits, e.fits source = false) ∨
      (∃ a ∈ p.1.edits, ∃ b ∈ taken, a.overlaps b = true) ∨
      ∃ q ∈ takeNumbered source taken ps, TriedBefore q p ∧
        ∃ a ∈ p.1.edits, ∃ b ∈ q.1.edits, a.overlaps b = true := by
  induction ps generalizing taken with
  | nil => exact absurd hp List.not_mem_nil
  | cons first ps ih =>
    obtain ⟨hfirst, hord⟩ := List.pairwise_cons.mp hord
    rw [takeNumbered] at hnot ⊢
    rcases List.mem_cons.mp hp with rfl | hp
    · have hunusable : ¬ p.1.isUsable source taken = true := by
        intro husable
        rw [if_pos husable] at hnot
        exact hnot List.mem_cons_self
      rw [Fix.isUsable_iff] at hunusable
      by_contra hno
      push Not at hno
      obtain ⟨hne, hfit, hapart, -⟩ := hno
      refine hunusable ⟨hne, fun e he => ⟨by simpa using hfit e he, fun other hother => ?_⟩⟩
      simpa [TextEdit.Apart] using hapart e he other hother
    · split at hnot
      next husable =>
        rw [if_pos husable]
        rcases ih hord hp fun h => hnot (List.mem_cons_of_mem _ h) with
          h | h | ⟨a, ha, b, hb, hover⟩ | ⟨q, hq, hbefore, hover⟩
        · exact Or.inl h
        · exact Or.inr (Or.inl h)
        · rcases List.mem_append.mp hb with hb | hb
          · exact Or.inr (Or.inr (Or.inl ⟨a, ha, b, hb, hover⟩))
          · exact Or.inr (Or.inr (Or.inr
              ⟨first, List.mem_cons_self, hfirst p hp, a, ha, b, hb, hover⟩))
        · exact Or.inr (Or.inr (Or.inr ⟨q, List.mem_cons_of_mem _ hq, hbefore, hover⟩))
      next hunusable =>
        rw [if_neg hunusable]
        exact ih hord hp hnot

end Taking

namespace Fix

theorem foldl_min_le (starts : List TextEdit) (least : Nat) :
    starts.foldl (fun least e => min least e.start.toNat) least ≤ least ∧
      ∀ e ∈ starts,
        starts.foldl (fun least e => min least e.start.toNat) least ≤ e.start.toNat := by
  induction starts generalizing least with
  | nil => simp
  | cons e es ih =>
    obtain ⟨hle, hall⟩ := ih (min least e.start.toNat)
    rw [List.foldl_cons]
    refine ⟨by omega, fun e' he' => ?_⟩
    rcases List.mem_cons.mp he' with rfl | he'
    · omega
    · exact hall e' he'

theorem foldl_min_eq (starts : List TextEdit) (least : Nat) :
    starts.foldl (fun least e => min least e.start.toNat) least = least ∨
      ∃ e ∈ starts,
        starts.foldl (fun least e => min least e.start.toNat) least = e.start.toNat := by
  induction starts generalizing least with
  | nil => simp
  | cons e es ih =>
    rw [List.foldl_cons]
    rcases ih (min least e.start.toNat) with h | ⟨e', he', h⟩
    · by_cases hle : least ≤ e.start.toNat
      · exact Or.inl (by omega)
      · exact Or.inr ⟨e, List.mem_cons_self, by omega⟩
    · exact Or.inr ⟨e', List.mem_cons_of_mem _ he', h⟩

theorem exists_firstStart_eq {f : Fix} (hne : f.edits ≠ []) :
    ∃ e ∈ f.edits, f.firstStart = e.start.toNat := by
  rcases foldl_min_eq f.edits (UInt32.size - 1) with h | h
  · obtain ⟨e, he⟩ := List.exists_mem_of_ne_nil _ hne
    have hle := (foldl_min_le f.edits (UInt32.size - 1)).2 e he
    have hlt := e.start.toNat_lt_size
    exact ⟨e, he, by unfold firstStart; omega⟩
  · exact h

/-- Two fixes whose edits stand apart do not begin at one offset. -/
theorem Apart.firstStart_ne {f g : Fix} (h : f.Apart g) (hf : f.edits ≠ []) (hg : g.edits ≠ []) :
    f.firstStart ≠ g.firstStart := by
  intro heq
  obtain ⟨a, ha, hfa⟩ := exists_firstStart_eq hf
  obtain ⟨b, hb, hgb⟩ := exists_firstStart_eq hg
  have hsame : a.start = b.start := UInt32.toNat_inj.mp (by omega)
  have hover := h a ha b hb
  simp [TextEdit.Apart, TextEdit.overlaps, hsame] at hover

instance : Std.Symm Apart := ⟨fun _ _ h => h.symm⟩

end Fix

variable {source : List Char} {ds : List Diagnostic}

theorem triedFixes_map_fst (ds : List Diagnostic) :
    (triedFixes ds).map Prod.fst = fixesInOrder ds :=
  List.mergeSort_zipIdx

theorem triedFixes_perm (ds : List Diagnostic) : (triedFixes ds).Perm (numberedFixes ds) :=
  List.mergeSort_perm _ _

theorem triedFixes_eq_insertionSort (ds : List Diagnostic) :
    triedFixes ds =
      (numberedFixes ds).insertionSort fun p q => List.zipIdxLE startsNoLater p q = true :=
  mergeSort_eq_insertionSort_of_total (List.zipIdxLE_trans startsNoLater_trans)
    (List.zipIdxLE_total startsNoLater_total) _

theorem numberedFixes_map_snd_nodup (ds : List Diagnostic) :
    ((numberedFixes ds).map Prod.snd).Nodup := by
  rw [numberedFixes, List.zipIdx_map_snd]
  exact List.nodup_range'

theorem numberedFixes_nodup (ds : List Diagnostic) : (numberedFixes ds).Nodup :=
  (numberedFixes_map_snd_nodup ds).of_map Prod.snd

theorem triedFixes_pairwise (ds : List Diagnostic) : (triedFixes ds).Pairwise TriedBefore := by
  have hsorted : (triedFixes ds).Pairwise fun p q => List.zipIdxLE startsNoLater p q = true :=
    List.pairwise_mergeSort (List.zipIdxLE_trans startsNoLater_trans)
      (List.zipIdxLE_total startsNoLater_total) _
  have hdistinct : (triedFixes ds).Pairwise fun p q => p.2 ≠ q.2 := by
    apply List.pairwise_map.mp
    exact ((triedFixes_perm ds).map Prod.snd).nodup_iff.mpr (numberedFixes_map_snd_nodup ds)
  refine (hsorted.and hdistinct).imp ?_
  rintro p q ⟨hle, hne⟩
  simp only [List.zipIdxLE, startsNoLater, decide_eq_true_eq] at hle
  unfold TriedBefore
  split at hle
  · split at hle
    · simp only [decide_eq_true_eq] at hle
      omega
    · omega
  · simp at hle

theorem appliedFixes_map_fst (source : List Char) (ds : List Diagnostic) :
    (appliedFixes source ds).map Prod.fst = acceptedFixes source ds := by
  rw [appliedFixes, takeNumbered_map_fst, triedFixes_map_fst, acceptedFixes]

theorem appliedFixes_perm_kept (source : List Char) (ds : List Diagnostic) :
    ((numberedFixes ds).filter fun p => p ∈ appliedFixes source ds).Perm
      (appliedFixes source ds) := by
  have hsub : (appliedFixes source ds).Sublist (triedFixes ds) := takeNumbered_sublist [] _
  have hnodup : (appliedFixes source ds).Nodup :=
    ((triedFixes_perm ds).nodup_iff.mpr (numberedFixes_nodup ds)).sublist hsub
  refine (List.perm_ext_iff_of_nodup ((numberedFixes_nodup ds).filter _) hnodup).mpr fun p => ?_
  rw [List.mem_filter, decide_eq_true_eq, and_iff_right_iff_imp]
  exact fun hp => (triedFixes_perm ds).subset (hsub.subset hp)

theorem appliedFixes_append_skippedFixes_perm (source : List Char) (ds : List Diagnostic) :
    (appliedFixes source ds ++ skippedFixes source ds).Perm (numberedFixes ds) := by
  have hsplit := List.filter_append_perm (fun p => decide (p ∈ appliedFixes source ds))
    (numberedFixes ds)
  refine List.Perm.trans ?_ hsplit
  refine (appliedFixes_perm_kept source ds).symm.append (List.Perm.of_eq ?_)
  simp [skippedFixes]

/-- Diagnostics with just the applied fixes: these are tried in the order in which they were
taken. -/
theorem fixesInOrder_of_kept {ds' : List Diagnostic}
    (hkept : ds'.filterMap Diagnostic.fix = keptFixes source ds) :
    fixesInOrder ds' = acceptedFixes source ds := by
  have hperm : (fixesInOrder ds').Perm (acceptedFixes source ds) := by
    refine (fixesInOrder_perm ds').trans ?_
    rw [hkept, ← appliedFixes_map_fst]
    exact (appliedFixes_perm_kept source ds).map Prod.fst
  have hapart : (acceptedFixes source ds).Pairwise Fix.Apart := takeFixes_pairwise _ _
  have hedits : ∀ f ∈ acceptedFixes source ds, f.edits ≠ [] :=
    fun f hf => (Fix.isUsable_iff.mp (isUsable_of_mem_takeFixes hf)).1
  refine List.Perm.eq_of_pairwise ?_ (fixesInOrder_pairwise ds')
    ((fixesInOrder_pairwise ds).sublist (acceptedFixes_sublist source ds)) hperm
  intro f g hf hg hfg hgf
  by_contra hne
  have hf := hperm.subset hf
  exact (hapart.forall hf hg hne).firstStart_ne (hedits f hf) (hedits g hg) (by omega)

theorem acceptedFixes_of_kept {ds' : List Diagnostic}
    (hkept : ds'.filterMap Diagnostic.fix = keptFixes source ds) :
    acceptedFixes source ds' = acceptedFixes source ds := by
  have hself : takeFixes source [] (acceptedFixes source ds) = acceptedFixes source ds :=
    takeFixes_eq_self (fun f hf => isUsable_of_mem_takeFixes hf) (takeFixes_pairwise _ _)
  rw [acceptedFixes, fixesInOrder_of_kept hkept, hself]

/-- The fixes that are applied, and why the others are not. Every fix of the diagnostics is applied
or skipped. Edits of two applied fixes do not overlap, and each of them begins and ends between
characters of the source. A skipped fix has no edits, or one that does not fit, or one that
overlaps an edit of an applied fix that is tried earlier. The outcome, when there is one, counts
them. Without the skipped fixes the outcome is the same, and none is skipped. -/
theorem applyFixes?_maximal (source : String) (ds : List Diagnostic) :
    let applied := appliedFixes source.toList ds
    let skipped := skippedFixes source.toList ds
    applied.map Prod.fst = acceptedFixes source.toList ds ∧
      (applied ++ skipped).Perm (numberedFixes ds) ∧
      applied.Pairwise (fun p q => ∀ a ∈ p.1.edits, ∀ b ∈ q.1.edits, a.overlaps b = false) ∧
      (∀ p ∈ applied, ∀ e ∈ p.1.edits, ∃ before middle after,
        source.toList = before ++ middle ++ after ∧ Text.byteLength before = e.start.toNat ∧
          e.start.toNat + Text.byteLength middle = e.stop.toNat) ∧
      (∀ p ∈ skipped, p.1.edits = [] ∨ (∃ e ∈ p.1.edits, e.fits source.toList = false) ∨
        ∃ q ∈ applied, TriedBefore q p ∧
          ∃ a ∈ p.1.edits, ∃ b ∈ q.1.edits, a.overlaps b = true) ∧
      (∀ outcome ∈ applyFixes? source ds, outcome.applied = applied.length ∧
        outcome.skipped = skipped.length ∧
        outcome.applied + outcome.skipped = ds.countP Diagnostic.hasFix) ∧
      ∀ ds', ds'.filterMap Diagnostic.fix = keptFixes source.toList ds →
        applyFixes? source ds' =
          (applyFixes? source ds).map fun outcome => { outcome with skipped := 0 } := by
  intro applied skipped
  have hmap : applied.map Prod.fst = acceptedFixes source.toList ds := appliedFixes_map_fst _ _
  have hperm : (applied ++ skipped).Perm (numberedFixes ds) :=
    appliedFixes_append_skippedFixes_perm _ _
  have hlength : (fixesInOrder ds).length = applied.length + skipped.length := by
    rw [← List.length_append, hperm.length_eq, ← (triedFixes_perm ds).length_eq,
      ← triedFixes_map_fst, List.length_map]
  have happlied : (acceptedFixes source.toList ds).length = applied.length := by
    rw [← hmap, List.length_map]
  refine ⟨hmap, hperm, ?_, ?_, ?_, ?_, ?_⟩
  · have hapart : (acceptedFixes source.toList ds).Pairwise Fix.Apart := takeFixes_pairwise _ _
    rw [← hmap, List.pairwise_map] at hapart
    exact hapart
  · intro p hp e he
    have hf : p.1 ∈ acceptedFixes source.toList ds := hmap ▸ List.mem_map_of_mem hp
    exact TextEdit.fits_iff.mp ((Fix.isUsable_iff.mp (isUsable_of_mem_takeFixes hf)).2 e he).1
  · intro p hp
    obtain ⟨hmem, hnot⟩ := List.mem_filter.mp hp
    rw [decide_eq_true_eq] at hnot
    rcases exists_reason_of_not_mem_takeNumbered (triedFixes_pairwise ds)
      ((triedFixes_perm ds).mem_iff.mpr hmem) hnot with h | h | ⟨_, _, _, hb, _⟩ | h
    · exact Or.inl h
    · exact Or.inr (Or.inl h)
    · exact absurd hb List.not_mem_nil
    · exact Or.inr (Or.inr h)
  · intro outcome hrun
    obtain ⟨output, -, rfl⟩ := Option.map_eq_some_iff.mp hrun
    have hcount : (fixesInOrder ds).length = ds.countP Diagnostic.hasFix := by
      rw [(fixesInOrder_perm ds).length_eq, List.length_filterMap_eq_countP]
      rfl
    refine ⟨happlied, ?_, ?_⟩ <;> simp only <;> omega
  · intro ds' hkept
    simp [applyFixes?, fixesInOrder_of_kept hkept, acceptedFixes_of_kept hkept, Function.comp_def]

/-- Of three fixes the last one begins first, so the one that it overlaps is left out, and so is one
without edits. -/
theorem applyFixes?_maximal_three :
    let offer (edits : List TextEdit) : Diagnostic :=
      ⟨"r", .error, "m", 0, 3, none, some ⟨"f", edits⟩⟩
    let ds : List Diagnostic := [offer [⟨2, 3, "x"⟩], offer [], offer [⟨0, 3, "y"⟩]]
    (applyFixes? "éa" ds = some ⟨"y", 1, 2⟩ ∧ keptFixes "éa".toList ds = [⟨"f", [⟨0, 3, "y"⟩]⟩]) ∧
      applyFixes? "éa" [offer [⟨0, 3, "y"⟩]] = some ⟨"y", 1, 0⟩ := by
  intro offer ds
  have hrun : applyFixes? "éa" ds = some ⟨"y", 1, 2⟩ := by
    simp only [applyFixes?, acceptedFixes, fixesInOrder_eq_insertionSort,
      TextEdit.lastFirst_eq_insertionSort]
    decide +kernel
  have hkept : keptFixes "éa".toList ds = [⟨"f", [⟨0, 3, "y"⟩]⟩] := by
    simp only [keptFixes, appliedFixes, triedFixes_eq_insertionSort]
    decide +kernel
  obtain ⟨-, -, -, -, -, -, hagain⟩ := applyFixes?_maximal "éa" ds
  refine ⟨⟨hrun, hkept⟩, ?_⟩
  rw [hagain [offer [⟨0, 3, "y"⟩]] hkept.symm, hrun]
  rfl

end TemplateLint
