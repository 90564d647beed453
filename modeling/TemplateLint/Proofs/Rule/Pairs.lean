import TemplateLint.Proofs.Text.Cuts
import TemplateLint.Rule.BananaInBox

/-! The search for the first and the last place of two characters that follow each other. -/
namespace TemplateLint.BananaInBox
open Text

variable {a b : Char} {text : List Char}

/-- `a` directly followed by `b` stands at byte offset `n`. -/
def PairAt (a b : Char) (text : List Char) (n : Nat) : Prop :=
  ∃ before after, text = before ++ a :: b :: after ∧ byteLength before = n

theorem pair_mem_iff : [a, b] <:+: text ↔ ∃ before after, text = before ++ a :: b :: after := by
  constructor
  · rintro ⟨before, after, h⟩
    exact ⟨before, after, by simpa using h.symm⟩
  · rintro ⟨before, after, rfl⟩
    exact ⟨before, after, by simp⟩

theorem pair_mem_cons_iff {x : Char} {cs : List Char} :
    [a, b] <:+: x :: cs ↔ (x = a ∧ ∃ rest, cs = b :: rest) ∨ [a, b] <:+: cs := by
  rw [List.infix_cons_iff, List.cons_prefix_cons]
  constructor
  · rintro (⟨rfl, rest, rfl⟩ | h)
    · exact Or.inl ⟨rfl, rest, rfl⟩
    · exact Or.inr h
  · rintro (⟨rfl, rest, rfl⟩ | h)
    · exact Or.inl ⟨rfl, rest, rfl⟩
    · exact Or.inr h

/-- Two places of a pair of different characters do not overlap. -/
theorem eq_nil_or_pair_cons (hab : a ≠ b) {w v rest : List Char}
    (h : a :: b :: v = w ++ a :: b :: rest) : w = [] ∨ ∃ w', w = a :: b :: w' := by
  cases w with
  | nil => exact Or.inl rfl
  | cons x w =>
    simp only [List.cons_append, List.cons.injEq] at h
    obtain ⟨rfl, h⟩ := h
    cases w with
    | nil =>
      simp only [List.nil_append, List.cons.injEq] at h
      exact absurd h.1.symm hab
    | cons y w =>
      simp only [List.cons_append, List.cons.injEq] at h
      exact Or.inr ⟨w, by rw [h.1]⟩

theorem exists_first_pair (h : [a, b] <:+: text) :
    ∃ before rest, text = before ++ a :: b :: rest ∧ ¬ [a, b] <:+: before := by
  induction text with
  | nil => simp at h
  | cons x cs ih =>
    by_cases hx : x = a ∧ ∃ rest, cs = b :: rest
    · obtain ⟨rfl, rest, rfl⟩ := hx
      exact ⟨[], rest, rfl, by simp⟩
    · have htail := (pair_mem_cons_iff.mp h).resolve_left hx
      obtain ⟨before, rest, rfl, hnone⟩ := ih htail
      refine ⟨x :: before, rest, rfl, fun hpair => ?_⟩
      rcases pair_mem_cons_iff.mp hpair with ⟨rfl, tail, rfl⟩ | hpair
      · exact hx ⟨rfl, tail ++ x :: b :: rest, rfl⟩
      · exact hnone hpair

theorem exists_last_pair (h : [a, b] <:+: text) :
    ∃ front after, text = front ++ a :: b :: after ∧ ¬ [a, b] <:+: after := by
  induction text with
  | nil => simp at h
  | cons x cs ih =>
    by_cases htail : [a, b] <:+: cs
    · obtain ⟨front, after, rfl, hnone⟩ := ih htail
      exact ⟨x :: front, after, rfl, hnone⟩
    · obtain ⟨rfl, after, rfl⟩ := (pair_mem_cons_iff.mp h).resolve_right htail
      refine ⟨[], after, rfl, fun hafter => htail ?_⟩
      exact pair_mem_cons_iff.mpr (Or.inr hafter)

theorem firstPair?_cons {x : Char} {cs : List Char} (n : Nat)
    (h : ¬ (x = a ∧ ∃ rest, cs = b :: rest)) :
    firstPair? a b n (x :: cs) = firstPair? a b (n + x.utf8Size) cs := by
  cases cs with
  | nil => rfl
  | cons y ys =>
    have hxy : ¬ (x = a && y = b) = true := by
      rw [Bool.and_eq_true, decide_eq_true_eq, decide_eq_true_eq]
      rintro ⟨hx, rfl⟩
      exact h ⟨hx, ys, rfl⟩
    rw [firstPair?, if_neg hxy]

theorem firstPair?_eq_none (n : Nat) (h : ¬ [a, b] <:+: text) :
    firstPair? a b n text = none := by
  induction text generalizing n with
  | nil => rfl
  | cons x cs ih =>
    rw [pair_mem_cons_iff, not_or] at h
    rw [firstPair?_cons n h.1]
    exact ih _ h.2

theorem firstPair?_append (hab : a ≠ b) {before rest : List Char} (n : Nat)
    (h : ¬ [a, b] <:+: before) :
    firstPair? a b n (before ++ a :: b :: rest) = some (n + byteLength before) := by
  induction before generalizing n with
  | nil => simp [firstPair?]
  | cons x cs ih =>
    rw [pair_mem_cons_iff, not_or] at h
    have hx : ¬ (x = a ∧ ∃ tail, cs ++ a :: b :: rest = b :: tail) := by
      rintro ⟨rfl, tail, htail⟩
      cases cs with
      | nil => exact hab (List.cons.inj htail).1
      | cons y ys => exact h.1 ⟨rfl, ys, by rw [(List.cons.inj htail).1]⟩
    rw [List.cons_append, firstPair?_cons n hx, ih _ h.2, byteLength_cons, Nat.add_assoc]

theorem lastPair?_cons_of_some {x : Char} {cs : List Char} {n k : Nat}
    (h : lastPair? a b (n + x.utf8Size) cs = some k) : lastPair? a b n (x :: cs) = some k := by
  cases cs with
  | nil => simp [lastPair?] at h
  | cons y ys =>
    rw [lastPair?, h]
    rfl

theorem lastPair?_eq_none (n : Nat) (h : ¬ [a, b] <:+: text) :
    lastPair? a b n text = none := by
  induction text generalizing n with
  | nil => rfl
  | cons x cs ih =>
    rw [pair_mem_cons_iff, not_or] at h
    cases cs with
    | nil => rfl
    | cons y ys =>
      have hxy : ¬ (x = a && y = b) = true := by
        rw [Bool.and_eq_true, decide_eq_true_eq, decide_eq_true_eq]
        rintro ⟨hx, rfl⟩
        exact h.1 ⟨hx, ys, rfl⟩
      rw [lastPair?, ih _ h.2, if_neg hxy]
      rfl

theorem lastPair?_append (hab : a ≠ b) {front after : List Char} (n : Nat)
    (h : ¬ [a, b] <:+: after) :
    lastPair? a b n (front ++ a :: b :: after) = some (n + byteLength front) := by
  induction front generalizing n with
  | nil =>
    have hnone : ¬ [a, b] <:+: b :: after := by
      rw [pair_mem_cons_iff, not_or]
      exact ⟨fun hb => hab hb.1.symm, h⟩
    simp [lastPair?, lastPair?_eq_none _ hnone]
  | cons x cs ih =>
    rw [byteLength_cons, ← Nat.add_assoc]
    exact lastPair?_cons_of_some (ih _)

theorem firstPair?_eq_some_iff (hab : a ≠ b) {n : Nat} :
    firstPair? a b 0 text = some n ↔
      ∃ before rest, text = before ++ a :: b :: rest ∧ ¬ [a, b] <:+: before ∧
        byteLength before = n := by
  constructor
  · intro h
    by_cases hpair : [a, b] <:+: text
    · obtain ⟨before, rest, rfl, hnone⟩ := exists_first_pair hpair
      rw [firstPair?_append hab 0 hnone, Nat.zero_add, Option.some.injEq] at h
      exact ⟨before, rest, rfl, hnone, h⟩
    · rw [firstPair?_eq_none 0 hpair] at h
      simp at h
  · rintro ⟨before, rest, rfl, hnone, rfl⟩
    rw [firstPair?_append hab 0 hnone, Nat.zero_add]

theorem lastPair?_eq_some_iff (hab : a ≠ b) {n : Nat} :
    lastPair? a b 0 text = some n ↔
      ∃ front after, text = front ++ a :: b :: after ∧ ¬ [a, b] <:+: after ∧
        byteLength front = n := by
  constructor
  · intro h
    by_cases hpair : [a, b] <:+: text
    · obtain ⟨front, after, rfl, hnone⟩ := exists_last_pair hpair
      rw [lastPair?_append hab 0 hnone, Nat.zero_add, Option.some.injEq] at h
      exact ⟨front, after, rfl, hnone, h⟩
    · rw [lastPair?_eq_none 0 hpair] at h
      simp at h
  · rintro ⟨front, after, rfl, hnone, rfl⟩
    rw [lastPair?_append hab 0 hnone, Nat.zero_add]

theorem byteLength_le_of_pairAt (hab : a ≠ b) {before rest : List Char} {n : Nat}
    (hfirst : ¬ [a, b] <:+: before) (h : PairAt a b (before ++ a :: b :: rest) n) :
    byteLength before ≤ n := by
  obtain ⟨front, after, hcut, rfl⟩ := h
  rcases Nat.le_total (byteLength before) (byteLength front) with hle | hle
  · exact hle
  · obtain ⟨w, rfl, hw⟩ := exists_middle_of_byteLength_le hcut.symm hle
    rcases eq_nil_or_pair_cons hab hw with rfl | ⟨w', rfl⟩
    · simp
    · exact absurd (pair_mem_iff.mpr ⟨front, w', rfl⟩) hfirst

theorem le_byteLength_of_pairAt (hab : a ≠ b) {front after : List Char} {n : Nat}
    (hlast : ¬ [a, b] <:+: after) (h : PairAt a b (front ++ a :: b :: after) n) :
    n ≤ byteLength front := by
  obtain ⟨before, rest, hcut, rfl⟩ := h
  rcases Nat.le_total (byteLength before) (byteLength front) with hle | hle
  · exact hle
  · obtain ⟨w, rfl, hw⟩ := exists_middle_of_byteLength_le hcut hle
    rcases eq_nil_or_pair_cons hab hw with rfl | ⟨w', rfl⟩
    · simp
    · simp only [List.cons_append, List.cons.injEq, true_and] at hw
      exact absurd (pair_mem_iff.mpr ⟨w', rest, hw⟩) hlast

end TemplateLint.BananaInBox
