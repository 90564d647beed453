import Mathlib.Data.Prod.Lex
import TemplateLint.Proofs.Text.Lookup

/-! The order of positions. A later offset has a later position, unless the earlier one lies inside
a character: there the column counts bytes, and may run ahead of the characters behind it. -/
namespace TemplateLint.Text

/-- What stands behind the last `a` gets longer while no other `a` comes. -/
theorem length_behindLast_le {α : Type} [DecidableEq α] {a : α} {front whole : List α}
    (h : front <+: whole) (hcount : front.count a = whole.count a) :
    (behindLast a front).length ≤ (behindLast a whole).length := by
  obtain ⟨rest, rfl⟩ := h
  rw [List.count_append] at hcount
  have hnone : a ∉ rest := List.count_eq_zero.mp (by omega)
  rw [behindLast_append hnone, List.length_append]
  omega

theorem take_bytes_append (before rest : List Char) :
    (bytes (before ++ rest)).take (byteLength before) = bytes before := by
  rw [bytes_append, ← length_bytes, List.take_left]

/-- How many bytes of its line stand in front of an offset. -/
def lineBytes (text : List Char) (offset : Nat) : Nat :=
  (behindLast lineFeed ((bytes text).take offset)).length

theorem lineBytes_append (before rest : List Char) :
    lineBytes (before ++ rest) (byteLength before) = byteLength (behindLast '\n' before) := by
  rw [lineBytes, take_bytes_append, behindLast_bytes, length_bytes]

/-- The offset `a` lies inside a character, and the place `b` between two characters of its line
has fewer characters of the line in front of it than there are bytes in front of `a`. -/
structure RunsAhead (text : List Char) (a b : Nat) : Prop where
  inside : isBoundary text a = false
  fewer : ∃ before rest, text = before ++ rest ∧ byteLength before = b ∧
    before.count '\n' = ((bytes text).take a).count lineFeed ∧
    (behindLast '\n' before).length < lineBytes text a

section Scan
variable {text : List Char} {a b line column line' column' : Nat}

theorem Scanned.column_le (h : Scanned text a line column) : column ≤ 1 + lineBytes text a := by
  cases hboundary : isBoundary text a with
  | false => exact (h.column_inside hboundary).le
  | true =>
    obtain ⟨before, rest, rfl, rfl⟩ := isBoundary_iff.mp hboundary
    have hlength := length_le_byteLength (behindLast '\n' before)
    rw [h.column_eq before rest rfl rfl, lineBytes_append]
    omega

theorem Scanned.line_le (h : Scanned text a line column) (h' : Scanned text b line' column')
    (hab : a ≤ b) : line ≤ line' := by
  have hfront : ((bytes text).take a).Sublist ((bytes text).take b) :=
    List.take_sublist_take_left hab
  have hcount := hfront.count_le lineFeed
  rw [h.line_eq, h'.line_eq]
  omega

/-- In one line only a place inside a character can have the greater column. -/
theorem Scanned.column_le_of_line_eq (h : Scanned text a line column)
    (h' : Scanned text b line column') (hab : a ≤ b) (hahead : ¬ RunsAhead text a b) :
    column ≤ column' := by
  have hcount : ((bytes text).take a).count lineFeed = ((bytes text).take b).count lineFeed := by
    have := h.line_eq.symm.trans h'.line_eq
    omega
  cases hb : isBoundary text b with
  | false =>
    have hbytes : lineBytes text a ≤ lineBytes text b :=
      length_behindLast_le (List.take_prefix_take_left hab) hcount
    have hle := h.column_le
    rw [h'.column_inside hb]
    exact hle.trans (Nat.add_le_add_left hbytes 1)
  | true =>
    obtain ⟨before', rest', hcut', rfl⟩ := isBoundary_iff.mp hb
    have hcolumn := h'.column_eq before' rest' hcut' rfl
    cases ha : isBoundary text a with
    | true =>
      obtain ⟨before, rest, hcut, rfl⟩ := isBoundary_iff.mp ha
      obtain ⟨middle, hmiddle, -⟩ := exists_middle_of_byteLength_le (hcut.symm.trans hcut') hab
      have hlines : before.count '\n' = before'.count '\n' := by
        rw [← count_bytes before, ← count_bytes before', ← take_bytes_append before rest,
          ← take_bytes_append before' rest', ← hcut, ← hcut']
        exact hcount
      have hlength := length_behindLast_le ⟨middle, hmiddle.symm⟩ hlines
      rw [h.column_eq before rest hcut rfl, hcolumn]
      omega
    | false =>
      have hlines : before'.count '\n' = ((bytes text).take a).count lineFeed := by
        rw [hcount, hcut', take_bytes_append, count_bytes]
      have hlength : lineBytes text a ≤ (behindLast '\n' before').length := by
        by_contra hlt
        exact hahead ⟨ha, before', rest', hcut', rfl, hlines, Nat.lt_of_not_le hlt⟩
      have hle := h.column_le
      omega

theorem Scanned.lt_of_runsAhead (h : Scanned text a line column)
    (h' : Scanned text b line' column') (hahead : RunsAhead text a b) :
    line = line' ∧ column' < column := by
  obtain ⟨before, rest, hcut, rfl, hlines, hfewer⟩ := hahead.fewer
  constructor
  · rw [h.line_eq, h'.line_eq, ← hlines, ← count_bytes, ← take_bytes_append before rest, ← hcut]
  · rw [h.column_inside hahead.inside, h'.column_eq before rest hcut rfl]
    exact Nat.add_lt_add_left hfewer 1

/-- The positions of two offsets are in order, unless the first runs ahead. -/
theorem Scanned.le_iff (h : Scanned text a line column) (h' : Scanned text b line' column')
    (hab : a ≤ b) : toLex (line, column) ≤ toLex (line', column') ↔ ¬ RunsAhead text a b := by
  rw [Prod.Lex.toLex_le_toLex]
  constructor
  · intro hle hahead
    obtain ⟨hline, hcolumn⟩ := h.lt_of_runsAhead h' hahead
    rcases hle with hlt | ⟨-, hle⟩ <;> dsimp only at * <;> omega
  · intro hahead
    rcases Nat.lt_or_eq_of_le (h.line_le h' hab) with hlt | rfl
    · exact .inl hlt
    · exact .inr ⟨rfl, h.column_le_of_line_eq h' hab hahead⟩

end Scan

/-- The first of two offsets runs ahead of the second. An offset past the end counts as the end. -/
def Crossed (text : List Char) (a b : UInt32) : Prop :=
  RunsAhead text (min a.toNat (byteLength text)) (min b.toNat (byteLength text))

namespace LineIndex

theorem lineColumn_le_iff (text : List Char) {a b : UInt32} (hab : a ≤ b) :
    toLex ((ofText text).lineColumn a.toNat) ≤ toLex ((ofText text).lineColumn b.toNat) ↔
      ¬ Crossed text a b := by
  have hclamped : min a.toNat (byteLength text) ≤ min b.toNat (byteLength text) := by
    have := UInt32.le_iff_toNat_le.mp hab
    omega
  rw [lineColumn_min text a.toNat, lineColumn_min text b.toNat]
  exact (scanned_lineColumn (Nat.min_le_right ..)).le_iff
    (scanned_lineColumn (Nat.min_le_right ..)) hclamped

/-- Numbers that fit are ordered in 32 bits as they are without a limit. -/
theorem toLex_toUInt32_le_iff {p q : Nat × Nat} (hp : p.1 < UInt32.size) (hp' : p.2 < UInt32.size)
    (hq : q.1 < UInt32.size) (hq' : q.2 < UInt32.size) :
    toLex (p.1.toUInt32, p.2.toUInt32) ≤ toLex (q.1.toUInt32, q.2.toUInt32) ↔
      toLex p ≤ toLex q := by
  have hnat {n : Nat} (hn : n < UInt32.size) : n.toUInt32.toNat = n :=
    UInt32.toNat_ofNat_of_lt' hn
  rw [Prod.Lex.toLex_le_toLex, Prod.Lex.toLex_le_toLex, UInt32.lt_iff_toNat_lt,
    UInt32.le_iff_toNat_le, ← UInt32.toNat_inj, hnat hp, hnat hp', hnat hq, hnat hq']

/-- The lookups in 32 bits end, and are in the same order while their last sums do not begin at
zero again. -/
theorem Strict.exists_lineColumn_le_iff {text : List Char} (hsize : byteLength text < UInt32.size)
    {a b : UInt32} (hab : a ≤ b) :
    ∃ p q : UInt32 × UInt32, Strict.lineColumn (ofText text) a = .ok p ∧
      Strict.lineColumn (ofText text) b = .ok q ∧
      (byteLength text + 1 < UInt32.size → (toLex p ≤ toLex q ↔ ¬ Crossed text a b)) := by
  refine ⟨_, _, lineColumn_ok hsize a, lineColumn_ok hsize b, fun hfits => ?_⟩
  obtain ⟨⟨-, hline⟩, -, hcolumn⟩ := lineColumn_bounds text a.toNat
  obtain ⟨⟨-, hline'⟩, -, hcolumn'⟩ := lineColumn_bounds text b.toNat
  rw [← lineColumn_le_iff text hab]
  apply toLex_toUInt32_le_iff <;> omega

end LineIndex
end TemplateLint.Text
