import TemplateLint.Proofs.Text.Cuts
import TemplateLint.Text.Blank

/-! Trimming takes white space off the two ends of a text, and nothing else. -/
namespace TemplateLint.Text

theorem exists_trimLeft (cs : List Char) :
    ∃ left, cs = left ++ trimLeft cs ∧ ∀ c ∈ left, isWhiteSpace c = true := by
  refine ⟨cs.takeWhile isWhiteSpace, List.takeWhile_append_dropWhile.symm, ?_⟩
  intro c hc
  exact List.all_eq_true.mp List.all_takeWhile c hc

theorem exists_trimRight (cs : List Char) :
    ∃ right, cs = trimRight cs ++ right ∧ ∀ c ∈ right, isWhiteSpace c = true := by
  obtain ⟨left, hcs, hleft⟩ := exists_trimLeft cs.reverse
  refine ⟨left.reverse, ?_, fun c hc => hleft c (List.mem_reverse.mp hc)⟩
  have h := congrArg List.reverse hcs
  rwa [List.reverse_reverse, List.reverse_append] at h

theorem exists_trim (cs : List Char) :
    ∃ left right, cs = left ++ trim cs ++ right ∧
      (∀ c ∈ left, isWhiteSpace c = true) ∧ ∀ c ∈ right, isWhiteSpace c = true := by
  obtain ⟨left, hcs, hleft⟩ := exists_trimLeft cs
  obtain ⟨right, hrest, hright⟩ := exists_trimRight (trimLeft cs)
  refine ⟨left, right, ?_, hleft, hright⟩
  rw [List.append_assoc, trim, ← hrest]
  exact hcs

theorem mem_of_mem_trim {c : Char} {cs : List Char} (h : c ∈ trim cs) : c ∈ cs := by
  obtain ⟨left, right, hcs, -, -⟩ := exists_trim cs
  rw [hcs]
  exact List.mem_append_left _ (List.mem_append_right _ h)

/-- A selection without white space does not see what trimming takes away. -/
theorem filter_trim {p : Char → Bool} (hp : ∀ c, isWhiteSpace c = true → p c = false)
    (cs : List Char) : (trim cs).filter p = cs.filter p := by
  obtain ⟨left, right, hcs, hleft, hright⟩ := exists_trim cs
  have hl : left.filter p = [] := by
    rw [List.filter_eq_nil_iff]
    intro c hc
    simp [hp c (hleft c hc)]
  have hr : right.filter p = [] := by
    rw [List.filter_eq_nil_iff]
    intro c hc
    simp [hp c (hright c hc)]
  have h := congrArg (List.filter p) hcs
  rw [List.filter_append, List.filter_append, hl, hr, List.nil_append, List.append_nil] at h
  exact h.symm

theorem count_trim {c : Char} (hc : isWhiteSpace c = false) (cs : List Char) :
    (trim cs).count c = cs.count c := by
  have hblank : ∀ d, isWhiteSpace d = true → (d == c) = false := by
    intro d hd
    apply beq_false_of_ne
    rintro rfl
    rw [hd] at hc
    cases hc
  rw [List.count_eq_length_filter, List.count_eq_length_filter, filter_trim hblank]

theorem byteLength_trim_le (cs : List Char) : byteLength (trim cs) ≤ byteLength cs := by
  obtain ⟨left, right, hcs, -, -⟩ := exists_trim cs
  have h := congrArg byteLength hcs
  rw [byteLength_append, byteLength_append] at h
  omega

end TemplateLint.Text
