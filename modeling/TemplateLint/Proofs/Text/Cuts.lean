import TemplateLint.Text.Slice

/-! Cuts, slices and replacements of a text, read as ways to write it as a concatenation. -/
namespace TemplateLint.Text

@[simp] theorem byteLength_nil : byteLength [] = 0 := rfl

@[simp] theorem byteLength_cons (c : Char) (cs : List Char) :
    byteLength (c :: cs) = c.utf8Size + byteLength cs := rfl

theorem byteLength_eq_zero {cs : List Char} (h : byteLength cs = 0) : cs = [] := by
  cases cs with
  | nil => rfl
  | cons c cs =>
    have hc := c.utf8Size_pos
    rw [byteLength_cons] at h
    omega

@[simp] theorem cut?_zero (cs : List Char) : cut? cs 0 = some ([], cs) := by
  cases cs <;> rfl

theorem cut?_append (a b : List Char) : cut? (a ++ b) (byteLength a) = some (a, b) := by
  induction a with
  | nil => exact cut?_zero b
  | cons c cs ih =>
    have hc := c.utf8Size_pos
    have hn : byteLength (c :: cs) = (c.utf8Size + byteLength cs - 1) + 1 := by
      rw [byteLength_cons]
      omega
    have hle : c.utf8Size ≤ c.utf8Size + byteLength cs - 1 + 1 := by omega
    have hrest : c.utf8Size + byteLength cs - 1 + 1 - c.utf8Size = byteLength cs := by omega
    rw [hn, List.cons_append, cut?, if_pos hle, hrest, ih]
    rfl

theorem cut?_eq_some_iff {cs before rest : List Char} {n : Nat} :
    cut? cs n = some (before, rest) ↔ cs = before ++ rest ∧ byteLength before = n := by
  constructor
  · exact eq_of_cut?
  · rintro ⟨rfl, rfl⟩
    exact cut?_append before rest

/-- One text has one cut at an offset. -/
theorem append_inj_of_byteLength {a b a' b' : List Char} (h : a ++ b = a' ++ b')
    (hl : byteLength a = byteLength a') : a = a' ∧ b = b' := by
  have hc := cut?_append a b
  rw [h, hl, cut?_append] at hc
  simp only [Option.some.injEq, Prod.mk.injEq] at hc
  exact ⟨hc.1.symm, hc.2.symm⟩

/-- Of two cuts of one text, the one at the greater offset takes the other's first part along. -/
theorem exists_middle_of_byteLength_le {a b a' b' : List Char} (h : a ++ b = a' ++ b')
    (hl : byteLength a ≤ byteLength a') : ∃ m, a' = a ++ m ∧ b = m ++ b' := by
  rcases List.append_eq_append_iff.mp h with ⟨m, ha, hb⟩ | ⟨m, ha, hb⟩
  · exact ⟨m, ha, hb⟩
  · have hm : byteLength m = 0 := by
      rw [ha, byteLength_append] at hl
      omega
    have hnil := byteLength_eq_zero hm
    subst hnil
    exact ⟨[], by simpa using ha.symm, by simpa using hb.symm⟩

theorem parts?_eq_some_iff {cs before middle after : List Char} {start stop : Nat} :
    parts? cs start stop = some (before, middle, after) ↔
      cs = before ++ middle ++ after ∧ byteLength before = start ∧
        start + byteLength middle = stop := by
  constructor
  · intro h
    unfold parts? at h
    split at h
    next hle =>
      obtain ⟨⟨b, rest⟩, hb, h⟩ := Option.bind_eq_some_iff.mp h
      obtain ⟨⟨m, r⟩, hm, h⟩ := Option.bind_eq_some_iff.mp h
      simp only [Option.pure_def, Option.some.injEq, Prod.mk.injEq] at h
      obtain ⟨rfl, rfl, rfl⟩ := h
      obtain ⟨rfl, hstart⟩ := eq_of_cut? hb
      obtain ⟨rfl, hlen⟩ := eq_of_cut? hm
      exact ⟨(List.append_assoc ..).symm, hstart, by omega⟩
    next => simp at h
  · rintro ⟨rfl, rfl, rfl⟩
    have hmid : byteLength before + byteLength middle - byteLength before = byteLength middle := by
      omega
    unfold parts?
    rw [if_pos (Nat.le_add_right _ _), List.append_assoc, cut?_append]
    simp [hmid, cut?_append]

theorem slice?_eq_some_iff {cs middle : List Char} {start stop : Nat} :
    slice? cs start stop = some middle ↔
      ∃ before after, cs = before ++ middle ++ after ∧ byteLength before = start ∧
        start + byteLength middle = stop := by
  constructor
  · intro h
    obtain ⟨⟨before, m, after⟩, hp, rfl⟩ := Option.map_eq_some_iff.mp h
    exact ⟨before, after, parts?_eq_some_iff.mp hp⟩
  · rintro ⟨before, after, h⟩
    unfold slice?
    rw [parts?_eq_some_iff.mpr h]
    rfl

theorem slice?_self (cs : List Char) : slice? cs 0 (byteLength cs) = some cs :=
  slice?_eq_some_iff.mpr ⟨[], [], by simp, rfl, Nat.zero_add _⟩

theorem isBoundary_iff {cs : List Char} {n : Nat} :
    isBoundary cs n = true ↔ ∃ before after, cs = before ++ after ∧ byteLength before = n := by
  unfold isBoundary
  rw [Option.isSome_iff_exists]
  constructor
  · rintro ⟨⟨before, after⟩, h⟩
    exact ⟨before, after, eq_of_cut? h⟩
  · rintro ⟨before, after, h⟩
    exact ⟨(before, after), cut?_eq_some_iff.mpr h⟩

/-- The boundaries of two texts in a row are those of the first one up to its end, and then those of
the second. -/
theorem isBoundary_append (a b : List Char) (n : Nat) :
    isBoundary (a ++ b) n =
      if n ≤ byteLength a then isBoundary a n else isBoundary b (n - byteLength a) := by
  rw [Bool.eq_iff_iff]
  split <;> rw [isBoundary_iff, isBoundary_iff]
  next hle =>
    constructor
    · rintro ⟨before, after, hcut, rfl⟩
      obtain ⟨middle, rfl, -⟩ := exists_middle_of_byteLength_le hcut.symm hle
      exact ⟨before, middle, rfl, rfl⟩
    · rintro ⟨before, after, rfl, rfl⟩
      exact ⟨before, after ++ b, List.append_assoc .., rfl⟩
  next hgt =>
    constructor
    · rintro ⟨before, after, hcut, rfl⟩
      obtain ⟨middle, rfl, rfl⟩ := exists_middle_of_byteLength_le hcut (by omega)
      exact ⟨middle, after, rfl, by rw [byteLength_append]; omega⟩
    · rintro ⟨before, after, rfl, hlen⟩
      exact ⟨a ++ before, after, (List.append_assoc ..).symm, by rw [byteLength_append]; omega⟩

/-- Slices that touch make one slice. -/
theorem slice?_trans {cs x y : List Char} {a b c : Nat} (hx : slice? cs a b = some x)
    (hy : slice? cs b c = some y) : slice? cs a c = some (x ++ y) := by
  obtain ⟨before, after, hcs, ha, hb⟩ := slice?_eq_some_iff.mp hx
  obtain ⟨before', after', hcs', hb', hc⟩ := slice?_eq_some_iff.mp hy
  have hcut : before ++ x ++ after = before' ++ (y ++ after') := by
    rw [← hcs, hcs', List.append_assoc]
  obtain ⟨rfl, -⟩ := append_inj_of_byteLength hcut (by rw [byteLength_append]; omega)
  refine slice?_eq_some_iff.mpr ⟨before, after', ?_, ha, ?_⟩
  · rw [hcs', List.append_assoc, List.append_assoc, List.append_assoc, List.append_assoc]
  · rw [byteLength_append]
    omega

theorem slice?_of_append {cs x y : List Char} {a c : Nat} (h : slice? cs a c = some (x ++ y)) :
    slice? cs a (a + byteLength x) = some x ∧ slice? cs (a + byteLength x) c = some y := by
  obtain ⟨before, after, hcs, ha, hc⟩ := slice?_eq_some_iff.mp h
  rw [byteLength_append] at hc
  constructor
  · exact slice?_eq_some_iff.mpr ⟨before, y ++ after, by rw [hcs]; simp, ha, rfl⟩
  · exact slice?_eq_some_iff.mpr ⟨before ++ x, after, by rw [hcs]; simp, by simp [ha], by omega⟩

/-- A slice falls into two at every boundary inside it. -/
theorem exists_slice?_split {cs x : List Char} {a b c : Nat} (hx : slice? cs a c = some x)
    (hb : isBoundary cs b = true) (hab : a ≤ b) (hbc : b ≤ c) :
    ∃ y z, slice? cs a b = some y ∧ slice? cs b c = some z ∧ x = y ++ z := by
  obtain ⟨before, after, rfl, ha, hc⟩ := slice?_eq_some_iff.mp hx
  obtain ⟨front, back, hcut, rfl⟩ := isBoundary_iff.mp hb
  have hleft : byteLength before ≤ byteLength front := by omega
  rw [List.append_assoc] at hcut
  obtain ⟨y, rfl, hrest⟩ := exists_middle_of_byteLength_le hcut hleft
  have hright : byteLength y ≤ byteLength x := by
    rw [byteLength_append] at hbc
    omega
  obtain ⟨z, rfl, rfl⟩ := exists_middle_of_byteLength_le hrest.symm hright
  rw [byteLength_append] at hc ⊢
  refine ⟨y, z, ?_, ?_, rfl⟩
  · exact slice?_eq_some_iff.mpr ⟨before, z ++ after, by simp, ha, by omega⟩
  · exact slice?_eq_some_iff.mpr ⟨before ++ y, after, by simp, by simp, by omega⟩

theorem replace?_append (before middle after new : List Char) :
    replace? (before ++ middle ++ after) (byteLength before)
      (byteLength before + byteLength middle) new = some (before ++ new ++ after) := by
  unfold replace?
  rw [parts?_eq_some_iff.mpr ⟨rfl, rfl, rfl⟩]
  rfl

/-- A range that can be cut out is one that leaves a part in front of it and a part behind it. -/
theorem isRange_iff {cs : List Char} {start stop : Nat} :
    isRange cs start stop = true ↔
      ∃ before middle after, cs = before ++ middle ++ after ∧ byteLength before = start ∧
        start + byteLength middle = stop := by
  unfold isRange
  rw [Bool.and_eq_true, Bool.and_eq_true, decide_eq_true_eq, isBoundary_iff, isBoundary_iff]
  constructor
  · rintro ⟨⟨hle, before, rest, rfl, rfl⟩, front, after, hcut, rfl⟩
    obtain ⟨middle, rfl, rfl⟩ := exists_middle_of_byteLength_le hcut hle
    exact ⟨before, middle, after, by rw [List.append_assoc], rfl, (byteLength_append ..).symm⟩
  · rintro ⟨before, middle, after, rfl, rfl, rfl⟩
    refine ⟨⟨Nat.le_add_right _ _, before, middle ++ after, by rw [List.append_assoc], rfl⟩, ?_⟩
    exact ⟨before ++ middle, after, rfl, byteLength_append ..⟩

theorem isRange_of_slice? {cs middle : List Char} {start stop : Nat}
    (h : slice? cs start stop = some middle) : isRange cs start stop = true := by
  obtain ⟨before, after, hs⟩ := slice?_eq_some_iff.mp h
  exact isRange_iff.mpr ⟨before, middle, after, hs⟩

end TemplateLint.Text
