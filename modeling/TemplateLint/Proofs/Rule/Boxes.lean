import Mathlib.Data.List.TakeWhile
import TemplateLint.Proofs.Rule.Pairs
import TemplateLint.Proofs.Text.Trimming

/-! What the rule looks for, said of texts as concatenations: names with a bracket pair, keys of
attributes, boxes in keys, and the place of a box in the template. -/
namespace TemplateLint.BananaInBox
open Text

/-- A name with a `[` and a `]` somewhere behind it. -/
def Bracketed (name : List Char) : Prop :=
  ∃ before inner after, name = before ++ '[' :: inner ++ ']' :: after

theorem dropWhile_ne_append {x : Char} {front rest : List Char} (h : x ∉ front) :
    (front ++ x :: rest).dropWhile (· ≠ x) = x :: rest := by
  induction front with
  | nil => simp
  | cons c front ih =>
    rw [List.mem_cons, not_or] at h
    have hc : decide (c ≠ x) = true := decide_eq_true fun he => h.1 he.symm
    rw [List.cons_append, List.dropWhile_cons, if_pos hc]
    exact ih h.2

theorem dropWhile_ne_eq_nil {x : Char} {cs : List Char} (h : x ∉ cs) :
    cs.dropWhile (· ≠ x) = [] := by
  rw [List.dropWhile_eq_nil_iff]
  intro c hc
  exact decide_eq_true fun he => h (he ▸ hc)

theorem takeWhile_ne_append {x : Char} {front rest : List Char} (h : x ∉ front) :
    (front ++ x :: rest).takeWhile (· ≠ x) = front := by
  rw [List.takeWhile_append_of_pos]
  · simp
  · intro c hc
    exact decide_eq_true fun he => h (he ▸ hc)

theorem takeWhile_ne_eq {x : Char} {front : List Char} (h : x ∉ front) :
    front.takeWhile (· ≠ x) = front := by
  rw [List.takeWhile_eq_self_iff]
  intro c hc
  exact decide_eq_true fun he => h (he ▸ hc)

theorem detect_iff {name : List Char} : detect name = true ↔ Bracketed name := by
  unfold detect
  constructor
  · intro h
    by_cases hopen : '[' ∈ name
    · obtain ⟨front, rest, rfl, hfront⟩ := List.eq_append_cons_of_mem hopen
      rw [dropWhile_ne_append hfront] at h
      have hclose : ']' ∈ rest := by simpa using h
      obtain ⟨inner, after, rfl⟩ := List.append_of_mem hclose
      exact ⟨front, inner, after, by simp⟩
    · rw [dropWhile_ne_eq_nil hopen] at h
      simp at h
  · rintro ⟨before, inner, after, rfl⟩
    refine List.any_eq_true.mpr ⟨']', ?_, by simp⟩
    induction before with
    | nil => simp
    | cons c before ih =>
      simp only [List.cons_append, List.dropWhile]
      split
      · exact ih
      · simp

/-- The text in front of the first `=`, or all of it. -/
def IsKey (text key : List Char) : Prop :=
  '=' ∉ key ∧ (text = key ∨ ∃ value, text = key ++ '=' :: value)

theorem IsKey.eq {text key : List Char} (h : IsKey text key) : attributeKey text = key := by
  unfold attributeKey
  obtain ⟨hkey, rfl | ⟨value, rfl⟩⟩ := h
  · exact takeWhile_ne_eq hkey
  · exact takeWhile_ne_append hkey

theorem isKey_attributeKey (text : List Char) : IsKey text (attributeKey text) := by
  have hkey : ∃ key, IsKey text key := by
    by_cases heq : '=' ∈ text
    · obtain ⟨key, value, rfl, hkey⟩ := List.eq_append_cons_of_mem heq
      exact ⟨key, hkey, Or.inr ⟨value, rfl⟩⟩
    · exact ⟨text, heq, Or.inl rfl⟩
  obtain ⟨key, h⟩ := hkey
  exact h.eq ▸ h

/-- The key holds a `([` and behind it a `])`. -/
def HasBox (key : List Char) : Prop :=
  ∃ before inner after, key = before ++ '(' :: '[' :: inner ++ ']' :: ')' :: after

theorem hasBox_iff {key : List Char} :
    HasBox key ↔ ∃ i j, PairAt '(' '[' key i ∧ PairAt ']' ')' key j ∧ i + 2 ≤ j := by
  constructor
  · rintro ⟨before, inner, after, rfl⟩
    refine ⟨byteLength before, byteLength (before ++ '(' :: '[' :: inner), ?_, ?_, ?_⟩
    · exact ⟨before, inner ++ ']' :: ')' :: after, by simp, rfl⟩
    · exact ⟨before ++ '(' :: '[' :: inner, after, rfl, rfl⟩
    · rw [byteLength_append]
      change _ ≤ _ + (1 + (1 + byteLength inner))
      omega
  · rintro ⟨i, j, ⟨before, rest, hkey, rfl⟩, ⟨front, after, hkey', rfl⟩, hle⟩
    have hcut : (before ++ ['(', '[']) ++ rest = front ++ ']' :: ')' :: after := by
      rw [← hkey', hkey]
      simp
    have hle' : byteLength (before ++ ['(', '[']) ≤ byteLength front := by
      rw [byteLength_append]
      exact hle
    obtain ⟨inner, rfl, rfl⟩ := exists_middle_of_byteLength_le hcut hle'
    exact ⟨before, inner, after, by rw [hkey]; simp⟩

/-- The key around its first `([` and its last `])`. -/
structure Split (key before inner after : List Char) : Prop where
  key_eq : key = before ++ '(' :: '[' :: inner ++ ']' :: ')' :: after
  first : ¬ ['(', '['] <:+: before
  last : ¬ [']', ')'] <:+: after

variable {key before inner after : List Char}

theorem Split.hasBox (h : Split key before inner after) : HasBox key :=
  ⟨before, inner, after, h.key_eq⟩

theorem exists_split (h : HasBox key) : ∃ before inner after, Split key before inner after := by
  obtain ⟨front, middle, back, rfl⟩ := h
  have hopen : ['(', '['] <:+: front ++ '(' :: '[' :: middle ++ ']' :: ')' :: back :=
    pair_mem_iff.mpr ⟨front, middle ++ ']' :: ')' :: back, by simp⟩
  obtain ⟨before, rest, hkey, hfirst⟩ := exists_first_pair hopen
  have hle : byteLength before ≤ byteLength front :=
    byteLength_le_of_pairAt (by decide) hfirst
      ⟨front, middle ++ ']' :: ')' :: back, by rw [← hkey]; simp, rfl⟩
  rw [List.append_assoc] at hkey
  obtain ⟨w, rfl, hw⟩ := exists_middle_of_byteLength_le hkey.symm hle
  have hclose : [']', ')'] <:+: rest := by
    rw [List.cons_append, List.cons_append] at hw
    rcases eq_nil_or_pair_cons (by decide) hw with rfl | ⟨w', rfl⟩
    · simp only [List.nil_append, List.cons.injEq, true_and] at hw
      exact pair_mem_iff.mpr ⟨middle, back, hw⟩
    · simp only [List.cons_append, List.cons.injEq, true_and] at hw
      exact pair_mem_iff.mpr ⟨w' ++ '(' :: '[' :: middle, back, by rw [hw]; simp⟩
  obtain ⟨inner, after, rfl, hlast⟩ := exists_last_pair hclose
  refine ⟨before, inner, after, ?_, hfirst, hlast⟩
  rw [List.append_assoc, hkey, List.append_assoc]
  rfl

/-- The box behind `before`, with `inner` between its pairs. -/
def boxBehind (before inner : List Char) : Box :=
  ⟨byteLength before, byteLength before + 2 + byteLength inner, trim inner⟩

/-- The box as it stands in the key, brackets included. -/
def boxText (inner : List Char) : List Char := '(' :: '[' :: inner ++ [']', ')']

/-- The box written the right way round. -/
def swappedText (inner : List Char) : List Char := '[' :: '(' :: trim inner ++ [')', ']']

@[simp] theorem byteLength_swappedText (inner : List Char) :
    byteLength (swappedText inner) = byteLength (trim inner) + 4 := by
  rw [swappedText, byteLength_append]
  change 1 + (1 + byteLength (trim inner)) + 2 = _
  omega

theorem swappedText_subset (inner : List Char) : swappedText inner ⊆ boxText inner := by
  intro c hc
  simp only [swappedText, boxText, List.cons_append, List.mem_cons, List.mem_append,
    List.not_mem_nil, or_false] at hc ⊢
  rcases hc with hc | hc | hc | hc | hc
  · exact Or.inr (Or.inl hc)
  · exact Or.inl hc
  · exact Or.inr (Or.inr (Or.inl (mem_of_mem_trim hc)))
  · exact Or.inr (Or.inr (Or.inr (Or.inr hc)))
  · exact Or.inr (Or.inr (Or.inr (Or.inl hc)))

@[simp] theorem boxBehind_start (before inner : List Char) :
    (boxBehind before inner).start = byteLength before := rfl

@[simp] theorem boxBehind_stop (before inner : List Char) :
    (boxBehind before inner).stop = byteLength before + 2 + byteLength inner := rfl

@[simp] theorem boxBehind_content (before inner : List Char) :
    (boxBehind before inner).content = trim inner := rfl

@[simp] theorem boxBehind_length (before inner : List Char) :
    (boxBehind before inner).length = byteLength inner + 4 := by
  rw [Box.length, boxBehind_stop, boxBehind_start]
  omega

@[simp] theorem byteLength_boxText (inner : List Char) :
    byteLength (boxText inner) = byteLength inner + 4 := by
  rw [boxText, byteLength_append]
  change 1 + (1 + byteLength inner) + 2 = _
  omega

theorem Split.key_eq_append (h : Split key before inner after) :
    key = before ++ boxText inner ++ after := by
  rw [h.key_eq, boxText]
  simp

theorem Split.slice?_inner (h : Split key before inner after) :
    slice? key (byteLength before + 2) (byteLength before + 2 + byteLength inner) = some inner := by
  refine slice?_eq_some_iff.mpr ⟨before ++ ['(', '['], ']' :: ')' :: after, ?_, ?_, rfl⟩
  · rw [h.key_eq]
    simp
  · rw [byteLength_append]
    rfl

theorem Split.slice?_boxText (h : Split key before inner after) :
    slice? key (byteLength before) (byteLength before + (byteLength inner + 4)) =
      some (boxText inner) :=
  slice?_eq_some_iff.mpr ⟨before, after, h.key_eq_append, rfl, by rw [byteLength_boxText]⟩

theorem Split.firstPair?_eq (h : Split key before inner after) :
    firstPair? '(' '[' 0 key = some (byteLength before) := by
  refine (firstPair?_eq_some_iff (by decide)).mpr
    ⟨before, inner ++ ']' :: ')' :: after, ?_, h.first, rfl⟩
  rw [h.key_eq]
  simp

theorem Split.lastPair?_eq (h : Split key before inner after) :
    lastPair? ']' ')' 0 key = some (byteLength before + 2 + byteLength inner) := by
  refine (lastPair?_eq_some_iff (by decide)).mpr
    ⟨before ++ '(' :: '[' :: inner, after, h.key_eq, h.last, ?_⟩
  rw [byteLength_append]
  change byteLength before + (1 + (1 + byteLength inner)) = _
  omega

theorem Split.locate?_eq (h : Split key before inner after) :
    locate? key = some (boxBehind before inner) := by
  have hle : ¬ byteLength before + 2 + byteLength inner < byteLength before + 2 := by omega
  unfold locate?
  rw [h.firstPair?_eq, h.lastPair?_eq]
  simp only [Option.bind_eq_bind, Option.bind_some, if_neg hle, h.slice?_inner]
  rfl

theorem locate?_eq_none_iff : locate? key = none ↔ ¬ HasBox key := by
  constructor
  · intro hnone hbox
    obtain ⟨before, inner, after, h⟩ := exists_split hbox
    rw [h.locate?_eq] at hnone
    simp at hnone
  · intro hbox
    cases hl : locate? key with
    | none => rfl
    | some b =>
      obtain ⟨start, hstart, hl⟩ := Option.bind_eq_some_iff.mp hl
      obtain ⟨stop, hstop, hl⟩ := Option.bind_eq_some_iff.mp hl
      split at hl
      next => simp at hl
      next hle =>
        obtain ⟨before, rest, hkey, -, hb⟩ := (firstPair?_eq_some_iff (by decide)).mp hstart
        obtain ⟨front, after, hkey', -, hf⟩ := (lastPair?_eq_some_iff (by decide)).mp hstop
        refine absurd (hasBox_iff.mpr ⟨start, stop, ?_, ?_, Nat.le_of_not_lt hle⟩) hbox
        · exact ⟨before, rest, hkey, hb⟩
        · exact ⟨front, after, hkey', hf⟩

theorem isSome_locate?_iff : (locate? key).isSome = true ↔ HasBox key := by
  rw [Option.isSome_iff_ne_none, ne_eq, locate?_eq_none_iff, not_not]

theorem locate?_eq_some_iff {b : Box} :
    locate? key = some b ↔
      ∃ before inner after, Split key before inner after ∧ b = boxBehind before inner := by
  constructor
  · intro hl
    have hbox : HasBox key := by
      by_contra hbox
      rw [locate?_eq_none_iff.mpr hbox] at hl
      simp at hl
    obtain ⟨before, inner, after, h⟩ := exists_split hbox
    rw [h.locate?_eq, Option.some.injEq] at hl
    exact ⟨before, inner, after, h, hl.symm⟩
  · rintro ⟨before, inner, after, h, rfl⟩
    exact h.locate?_eq

end TemplateLint.BananaInBox
