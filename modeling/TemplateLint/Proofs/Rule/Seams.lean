import TemplateLint.Proofs.Rule.Boxes

/-! When a key in which a box has been written the right way round still has a box. New pairs come
about where the new brackets meet what stands beside them. -/
namespace TemplateLint.BananaInBox
open Text

/-- The text has a `([`. -/
def Opens (text : List Char) : Prop := ['(', '['] <:+: text

/-- The text has a `])`. -/
def Closes (text : List Char) : Prop := [']', ')'] <:+: text

theorem hasBox_cons_iff {x : Char} {cs : List Char} :
    HasBox (x :: cs) ↔ (x = '(' ∧ ∃ rest, cs = '[' :: rest ∧ Closes rest) ∨ HasBox cs := by
  constructor
  · rintro ⟨before, inner, after, h⟩
    cases before with
    | nil =>
      simp only [List.nil_append, List.cons_append, List.cons.injEq] at h
      exact Or.inl ⟨h.1, _, h.2, inner, after, by simp⟩
    | cons y before =>
      simp only [List.cons_append, List.cons.injEq] at h
      exact Or.inr ⟨before, inner, after, by simpa using h.2⟩
  · rintro (⟨rfl, rest, rfl, inner, after, rfl⟩ | ⟨before, inner, after, rfl⟩)
    · exact ⟨[], inner, after, by simp⟩
    · exact ⟨x :: before, inner, after, rfl⟩

theorem not_hasBox_nil : ¬ HasBox [] := by
  rintro ⟨before, inner, after, h⟩
  simp at h

/-- A pair in two texts side by side is in one of them, or lies across the seam. -/
theorem pair_mem_append_iff {a b : Char} {x y : List Char} :
    [a, b] <:+: x ++ y ↔
      [a, b] <:+: x ∨ [a, b] <:+: y ∨ x.getLast? = some a ∧ y.head? = some b := by
  induction x with
  | nil => simp
  | cons c cs ih =>
    rw [List.cons_append, pair_mem_cons_iff, pair_mem_cons_iff, ih]
    cases cs with
    | nil =>
      cases y with
      | nil => simp
      | cons d ds => simp [or_comm]
    | cons d ds => simp [or_assoc]

theorem not_pair_mem_singleton {a b c : Char} : ¬ [a, b] <:+: [c] := fun h =>
  absurd h.length_le (by simp)

/-- No bracket pair lies across the seam of the two texts. -/
def Inert (x y : List Char) : Prop :=
  ¬ (x.getLast? = some '(' ∧ y.head? = some '[') ∧ ¬ (x.getLast? = some ']' ∧ y.head? = some ')')

variable {x y : List Char}

theorem Inert.closes_append (h : Inert x y) : Closes (x ++ y) ↔ Closes x ∨ Closes y := by
  unfold Closes
  rw [pair_mem_append_iff, or_iff_left h.2]

theorem Inert.of_cons {c : Char} (h : Inert (c :: x) y) : Inert x y := by
  cases x with
  | nil => simp [Inert]
  | cons d ds => simpa [Inert] using h

theorem Inert.head_append {c : Char} (h : Inert (c :: x) y) :
    (c = '(' ∧ ∃ rest, x ++ y = '[' :: rest ∧ Closes rest) ↔
      c = '(' ∧ ∃ rest, x = '[' :: rest ∧ (Closes rest ∨ Closes y) := by
  cases x with
  | nil =>
    constructor
    · rintro ⟨rfl, rest, rfl, -⟩
      exact absurd ⟨rfl, rfl⟩ h.1
    · rintro ⟨-, rest, hnil, -⟩
      cases hnil
  | cons d ds =>
    have hclose := h.of_cons.of_cons.closes_append
    constructor
    · rintro ⟨rfl, rest, hrest, hc⟩
      obtain ⟨rfl, rfl⟩ := List.cons.inj hrest
      exact ⟨rfl, ds, rfl, hclose.mp hc⟩
    · rintro ⟨rfl, rest, hrest, hc⟩
      obtain ⟨rfl, rfl⟩ := List.cons.inj hrest
      exact ⟨rfl, ds ++ y, rfl, hclose.mpr hc⟩

/-- A box in two texts side by side is in one of them, or goes from the first to the second. -/
theorem Inert.hasBox_append (h : Inert x y) :
    HasBox (x ++ y) ↔ HasBox x ∨ HasBox y ∨ Opens x ∧ Closes y := by
  induction x with
  | nil => simp [not_hasBox_nil, Opens]
  | cons c cs ih =>
    rw [List.cons_append, hasBox_cons_iff, h.head_append, ih h.of_cons, hasBox_cons_iff, Opens,
      Opens, pair_mem_cons_iff]
    constructor
    · rintro (⟨hc, rest, hcs, hin | hy⟩ | hcs | hy | ⟨hopen, hy⟩)
      · exact Or.inl (Or.inl ⟨hc, rest, hcs, hin⟩)
      · exact Or.inr (Or.inr ⟨Or.inl ⟨hc, rest, hcs⟩, hy⟩)
      · exact Or.inl (Or.inr hcs)
      · exact Or.inr (Or.inl hy)
      · exact Or.inr (Or.inr ⟨Or.inr hopen, hy⟩)
    · rintro ((⟨hc, rest, hcs, hin⟩ | hcs) | hy | ⟨⟨hc, rest, hcs⟩ | hopen, hy⟩)
      · exact Or.inl ⟨hc, rest, hcs, Or.inl hin⟩
      · exact Or.inr (Or.inl hcs)
      · exact Or.inr (Or.inr (Or.inl hy))
      · exact Or.inl ⟨hc, rest, hcs, Or.inr hy⟩
      · exact Or.inr (Or.inr (Or.inr ⟨hopen, hy⟩))

/-- Swapping the brackets of a box between `before` and `after` leaves a box: one that lies across
the new brackets, or one that the content has with the inner parentheses around it. -/
def Relapses (before inner after : List Char) : Prop :=
  before.getLast? = some '(' ∧ (after.head? = some ')' ∨ Closes (trim inner ++ [')'])) ∨
    after.head? = some ')' ∧ Opens ('(' :: trim inner) ∨ HasBox ('(' :: trim inner ++ [')'])

section Swapped
variable {key before inner after : List Char} (h : Split key before inner after)
include h

theorem Split.opens_front : Opens (before ++ ['[']) ↔ before.getLast? = some '(' := by
  unfold Opens
  rw [pair_mem_append_iff, or_iff_right h.first, or_iff_right not_pair_mem_singleton]
  simp

theorem Split.closes_back : Closes (']' :: after) ↔ after.head? = some ')' := by
  unfold Closes
  rw [pair_mem_cons_iff, or_iff_left h.last, List.head?_eq_some_iff]
  simp

theorem Split.not_hasBox_front : ¬ HasBox (before ++ ['[']) := by
  rintro ⟨left, middle, right, hbox⟩
  have hcut : before ++ ['['] = (left ++ ['(', '[']) ++ (middle ++ ']' :: ')' :: right) := by
    simpa using hbox
  rcases List.append_eq_append_iff.mp hcut with ⟨m, -, hm⟩ | ⟨m, hm, -⟩
  · have hlen := congrArg List.length hm
    simp only [List.length_append, List.length_cons, List.length_nil] at hlen
    omega
  · exact h.first ⟨left, m, hm.symm⟩

theorem Split.not_hasBox_back : ¬ HasBox (']' :: after) := by
  intro hbox
  rcases hasBox_cons_iff.mp hbox with ⟨hopen, -⟩ | ⟨left, middle, right, rfl⟩
  · exact absurd hopen (by decide)
  · exact h.last ⟨left ++ '(' :: '[' :: middle, right, by simp⟩

/-- The swapped key falls into three parts with no pair across their seams: what ends in the new
`[`, the content in its parentheses, and what begins with the new `]`. -/
theorem Split.hasBox_swapped_iff :
    HasBox (before ++ swappedText inner ++ after) ↔ Relapses before inner after := by
  have hcut : before ++ swappedText inner ++ after =
      (before ++ ['[']) ++ (('(' :: trim inner ++ [')']) ++ ']' :: after) := by
    simp [swappedText]
  have hleft : Inert (before ++ ['[']) (('(' :: trim inner ++ [')']) ++ ']' :: after) := by
    simp [Inert]
  have hright : Inert ('(' :: trim inner ++ [')']) (']' :: after) := by
    simp [Inert]
  have hopen : Opens ('(' :: trim inner ++ [')']) ↔ Opens ('(' :: trim inner) := by
    unfold Opens
    rw [pair_mem_append_iff, or_iff_right not_pair_mem_singleton]
    simp
  have hclose : Closes ('(' :: trim inner ++ [')']) ↔ Closes (trim inner ++ [')']) := by
    unfold Closes
    rw [List.cons_append, pair_mem_cons_iff]
    simp
  rw [hcut, hleft.hasBox_append, hright.hasBox_append, hright.closes_append, h.opens_front,
    h.closes_back, hopen, hclose, or_iff_right h.not_hasBox_front, or_iff_right h.not_hasBox_back]
  unfold Relapses
  grind

end Swapped

end TemplateLint.BananaInBox
