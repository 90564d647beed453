import TemplateLint.Proofs.Rule.Boxes

/-! Writing the box of a key the right way round, again and again. Every time one `(` gets behind
a `[` that it stood in front of, and no other pair of the two changes places, so this comes to an
end. -/
namespace TemplateLint

/-- Takes a step `n` times, when it can be taken as often. -/
def times? {α : Type} (step : α → Option α) : Nat → α → Option α
  | 0, a => some a
  | n + 1, a => (step a).bind (times? step n)

theorem times?_succ_eq_some_iff {α : Type} {step : α → Option α} {n : Nat} {a c : α} :
    times? step (n + 1) a = some c ↔ ∃ b, step a = some b ∧ times? step n b = some c :=
  Option.bind_eq_some_iff

/-- A step that lowers a rank can be taken that often at most. -/
theorem exists_times?_stuck {α : Type} {step : α → Option α} {rank : α → Nat}
    (hstep : ∀ a b, step a = some b → rank b < rank a) (a : α) :
    ∃ n ≤ rank a, ∃ b, times? step n a = some b ∧ step b = none := by
  induction hrank : rank a using Nat.strong_induction_on generalizing a with
  | _ r ih =>
    subst hrank
    cases ha : step a with
    | none => exact ⟨0, Nat.zero_le _, a, rfl, ha⟩
    | some b =>
      have hlt := hstep a b ha
      obtain ⟨n, hn, c, hrun, hc⟩ := ih (rank b) hlt b rfl
      exact ⟨n + 1, by omega, c, times?_succ_eq_some_iff.mpr ⟨b, ha, hrun⟩, hc⟩

namespace BananaInBox
open Text

/-- The key with its box written the right way round; nothing when there is no box. -/
def swapOnce? (key : List Char) : Option (List Char) := do
  let b ← locate? key
  replace? key b.start (b.start + b.length) b.swapped

/-- How many pairs of a `(` and a `[` behind it there are. -/
def inversions : List Char → Nat
  | [] => 0
  | c :: cs => (if c = '(' then cs.count '[' else 0) + inversions cs

theorem inversions_append (a b : List Char) :
    inversions (a ++ b) = inversions a + inversions b + a.count '(' * b.count '[' := by
  induction a with
  | nil => simp [inversions]
  | cons c cs ih =>
    rw [List.cons_append, inversions, inversions, ih, List.count_append]
    by_cases hc : c = '('
    · rw [if_pos hc, if_pos hc, hc, List.count_cons_self, Nat.add_mul, Nat.one_mul]
      omega
    · rw [if_neg hc, if_neg hc, List.count_cons_of_ne hc]
      omega

/-- Only the two opening brackets count. -/
theorem inversions_filter {p : Char → Bool} (hround : p '(' = true) (hsquare : p '[' = true)
    (cs : List Char) : inversions (cs.filter p) = inversions cs := by
  induction cs with
  | nil => rfl
  | cons c cs ih =>
    rw [List.filter_cons, inversions]
    split
    next => rw [inversions, ih, List.count_filter hsquare]
    next hp =>
      have hc : c ≠ '(' := by
        rintro rfl
        exact hp hround
      rw [if_neg hc, ih, Nat.zero_add]

theorem inversions_trim (cs : List Char) : inversions (trim cs) = inversions cs := by
  have hblank : ∀ c, isWhiteSpace c = true → (!isWhiteSpace c) = false := by
    intro c hc
    rw [hc]
    rfl
  rw [← inversions_filter (p := fun c => !isWhiteSpace c) (by decide) (by decide),
    filter_trim hblank, inversions_filter (by decide) (by decide)]

theorem count_swappedText {c : Char} (hc : isWhiteSpace c = false) (inner : List Char) :
    (swappedText inner).count c = (boxText inner).count c := by
  simp only [swappedText, boxText, List.cons_append, List.count_cons, List.count_append,
    List.count_nil, count_trim hc]
  omega

/-- The first two brackets are the only ones that change places. -/
theorem inversions_boxText (inner : List Char) :
    inversions (boxText inner) = inversions (swappedText inner) + 1 := by
  have hbox : boxText inner = ['(', '['] ++ inner ++ [']', ')'] := rfl
  have hswap : swappedText inner = ['[', '('] ++ trim inner ++ [')', ']'] := rfl
  have hfront : inversions ['(', '['] = inversions ['[', '('] + 1 := by decide
  have hback : inversions [']', ')'] = inversions [')', ']'] := by decide
  have hsquare : List.count '[' [']', ')'] = List.count '[' [')', ']'] := by decide
  have hcount : List.count '(' ['(', '['] = List.count '(' ['[', '('] := by decide
  rw [hbox, hswap]
  simp only [inversions_append, List.count_append, inversions_trim, hfront, hback, hsquare, hcount,
    count_trim (c := '(') (by decide), count_trim (c := '[') (by decide)]
  omega

variable {key key' before inner after : List Char}

theorem Split.inversions_eq (h : Split key before inner after) :
    inversions key = inversions (before ++ swappedText inner ++ after) + 1 := by
  rw [h.key_eq_append]
  simp only [inversions_append, List.count_append, inversions_boxText,
    count_swappedText (c := '(') (by decide), count_swappedText (c := '[') (by decide)]
  omega

theorem Split.swapOnce?_eq (h : Split key before inner after) :
    swapOnce? key = some (before ++ swappedText inner ++ after) := by
  have hreplace := replace?_append before (boxText inner) after (swappedText inner)
  rw [← h.key_eq_append, byteLength_boxText] at hreplace
  rw [swapOnce?, h.locate?_eq]
  dsimp only [Option.bind_eq_bind, Option.bind_some]
  rw [boxBehind_start, boxBehind_length]
  exact hreplace

/-- There is a box to swap wherever one is found. -/
theorem swapOnce?_eq_none_iff : swapOnce? key = none ↔ locate? key = none := by
  constructor
  · intro hnone
    rw [locate?_eq_none_iff]
    intro hbox
    obtain ⟨before, inner, after, h⟩ := exists_split hbox
    rw [h.swapOnce?_eq] at hnone
    cases hnone
  · intro hnone
    rw [swapOnce?, hnone]
    rfl

theorem exists_split_of_swapOnce? (h : swapOnce? key = some key') :
    ∃ before inner after, Split key before inner after ∧
      key' = before ++ swappedText inner ++ after := by
  obtain ⟨b, hb, -⟩ := Option.bind_eq_some_iff.mp h
  obtain ⟨before, inner, after, hsplit, -⟩ := locate?_eq_some_iff.mp hb
  rw [hsplit.swapOnce?_eq, Option.some.injEq] at h
  exact ⟨before, inner, after, hsplit, h.symm⟩

/-- One swap takes one pair away and brings in no character. -/
theorem swapOnce?_lowers (h : swapOnce? key = some key') :
    inversions key = inversions key' + 1 ∧ key' ⊆ key := by
  obtain ⟨before, inner, after, hsplit, rfl⟩ := exists_split_of_swapOnce? h
  refine ⟨hsplit.inversions_eq, ?_⟩
  rw [hsplit.key_eq_append]
  intro c hc
  rcases List.mem_append.mp hc with hc | hc
  · apply List.mem_append_left
    rcases List.mem_append.mp hc with hc | hc
    · exact List.mem_append_left _ hc
    · exact List.mem_append_right _ (swappedText_subset inner hc)
  · exact List.mem_append_right _ hc

theorem byteLength_le_of_swapOnce? (h : swapOnce? key = some key') :
    byteLength key' ≤ byteLength key := by
  obtain ⟨before, inner, after, hsplit, rfl⟩ := exists_split_of_swapOnce? h
  have htrim := byteLength_trim_le inner
  rw [hsplit.key_eq_append]
  simp only [byteLength_append, byteLength_swappedText, byteLength_boxText]
  omega

theorem times?_swapOnce?_lowers {n : Nat} (h : times? swapOnce? n key = some key') :
    inversions key = inversions key' + n ∧ key' ⊆ key := by
  induction n generalizing key with
  | zero =>
    rw [times?, Option.some.injEq] at h
    subst h
    exact ⟨rfl, List.Subset.refl _⟩
  | succ n ih =>
    obtain ⟨next, hnext, hrest⟩ := times?_succ_eq_some_iff.mp h
    obtain ⟨hone, hsub⟩ := swapOnce?_lowers hnext
    obtain ⟨hmore, hsub'⟩ := ih hrest
    exact ⟨by omega, List.Subset.trans hsub' hsub⟩

/-- Swapping comes to a key without a box. -/
theorem exists_times?_settled (key : List Char) :
    ∃ n ≤ inversions key, ∃ key', times? swapOnce? n key = some key' ∧ locate? key' = none := by
  have hlower : ∀ a b, swapOnce? a = some b → inversions b < inversions a := by
    intro a b hswap
    have := (swapOnce?_lowers hswap).1
    omega
  obtain ⟨n, hn, key', hrun, hstuck⟩ := exists_times?_stuck hlower key
  exact ⟨n, hn, key', hrun, swapOnce?_eq_none_iff.mp hstuck⟩

end BananaInBox
end TemplateLint
