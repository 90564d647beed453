import TemplateLint.Proofs.Text.Lookup
import TemplateLint.Template.Span

/-! Spans that are cut out of a template: when there is one, which text it covers, and how its two
positions belong together. -/
namespace TemplateLint
open Text

/-- The offset lies between two characters, or at an end of the text. -/
def Text.BetweenCharacters (text : List Char) (offset : Nat) : Prop :=
  ∃ before after, text = before ++ after ∧ byteLength before = offset

namespace Position

/-- Where a template begins. -/
def origin : Position := ⟨0, 1, 1⟩

/-- One gets from `p` to `q` over a text. Lines and columns are added in 32 bits. -/
structure Advances (p : Position) (text : List Char) (q : Position) : Prop where
  offset : q.offset.toNat = p.offset.toNat + byteLength text
  line : q.line = p.line + (text.count '\n').toUInt32
  column : '\n' ∉ text → q.column = p.column + text.length.toUInt32
  column_behind : ∀ front last, text = front ++ '\n' :: last → '\n' ∉ last →
    q.column = 1 + last.length.toUInt32

/-- One gets from `p` to `q` over a text, and no sum is too great for 32 bits. -/
structure AdvancesExactly (p : Position) (text : List Char) (q : Position) : Prop where
  line : q.line.toNat = p.line.toNat + text.count '\n'
  column : '\n' ∉ text → q.column.toNat = p.column.toNat + text.length
  column_behind : ∀ front last, text = front ++ '\n' :: last → '\n' ∉ last →
    q.column.toNat = 1 + last.length

end Position

namespace SourceSpan

section Positions
variable (before middle after : List Char)

theorem line_append : ((LineIndex.ofText (before ++ middle ++ after)).lineColumn
      (byteLength (before ++ middle))).1 =
    ((LineIndex.ofText (before ++ middle ++ after)).lineColumn (byteLength before)).1 +
      middle.count '\n' := by
  rw [LineIndex.lineColumn_append (before ++ middle) after, List.append_assoc,
    LineIndex.lineColumn_append before, List.count_append]
  omega

theorem column_append (h : '\n' ∉ middle) :
    ((LineIndex.ofText (before ++ middle ++ after)).lineColumn
        (byteLength (before ++ middle))).2 =
      ((LineIndex.ofText (before ++ middle ++ after)).lineColumn (byteLength before)).2 +
        middle.length := by
  rw [LineIndex.lineColumn_append (before ++ middle) after, List.append_assoc,
    LineIndex.lineColumn_append before, behindLast_append h, List.length_append]
  omega

theorem column_behind {last : List Char} (h : '\n' ∉ last) :
    ((LineIndex.ofText (before ++ '\n' :: last ++ after)).lineColumn
      (byteLength (before ++ '\n' :: last))).2 = 1 + last.length := by
  have hlast : behindLast '\n' (before ++ '\n' :: last) = last := by
    rw [← List.singleton_append, ← List.append_assoc, behindLast_append h,
      behindLast_concat_self, List.nil_append]
  rw [LineIndex.lineColumn_append, hlast]
  exact Nat.add_comm ..

/-- The positions of two places of a template belong to the text between them. -/
theorem positionAt_advances {start stop : UInt32} (hstart : start.toNat = byteLength before)
    (hstop : stop.toNat = byteLength (before ++ middle)) :
    (positionAt (.ofText (before ++ middle ++ after)) start).Advances middle
      (positionAt (.ofText (before ++ middle ++ after)) stop) := by
  unfold positionAt
  rw [hstart, hstop]
  constructor
  · rw [hstart, hstop, byteLength_append]
  · dsimp only
    rw [line_append, Nat.toUInt32, UInt32.ofNat_add]
  · intro hnone
    dsimp only
    rw [column_append before middle after hnone, Nat.toUInt32, UInt32.ofNat_add]
  · rintro front last rfl hnone
    dsimp only
    rw [← List.append_assoc before front, column_behind (before ++ front) after hnone,
      Nat.toUInt32, UInt32.ofNat_add]
    rfl

/-- Only in a text of `2 ^ 32 - 1` bytes may a line or a column begin at zero again. -/
theorem positionAt_toNat {text : List Char} (hsize : byteLength text + 1 < UInt32.size)
    (offset : UInt32) :
    (positionAt (.ofText text) offset).line.toNat =
        ((LineIndex.ofText text).lineColumn offset.toNat).1 ∧
      (positionAt (.ofText text) offset).column.toNat =
        ((LineIndex.ofText text).lineColumn offset.toNat).2 := by
  obtain ⟨⟨-, hline⟩, -, hcolumn⟩ := LineIndex.lineColumn_bounds text offset.toNat
  exact ⟨UInt32.toNat_ofNat_of_lt' (Nat.lt_of_le_of_lt hline hsize),
    UInt32.toNat_ofNat_of_lt' (Nat.lt_of_le_of_lt hcolumn hsize)⟩

theorem positionAt_advancesExactly
    (hsize : byteLength (before ++ middle ++ after) + 1 < UInt32.size) {start stop : UInt32}
    (hstart : start.toNat = byteLength before)
    (hstop : stop.toNat = byteLength (before ++ middle)) :
    (positionAt (.ofText (before ++ middle ++ after)) start).AdvancesExactly middle
      (positionAt (.ofText (before ++ middle ++ after)) stop) := by
  obtain ⟨hline, hcolumn⟩ := positionAt_toNat hsize start
  obtain ⟨hline', hcolumn'⟩ := positionAt_toNat hsize stop
  rw [hstart] at hline hcolumn
  rw [hstop] at hline' hcolumn'
  constructor
  · rw [hline', hline, line_append]
  · intro hnone
    rw [hcolumn', hcolumn, column_append before middle after hnone]
  · rintro front last rfl hnone
    rw [hcolumn', ← List.append_assoc before front, column_behind (before ++ front) after hnone]

theorem positionAt_zero (text : List Char) : positionAt (.ofText text) 0 = .origin := by
  have hfirst : (LineIndex.ofText text).lineColumn 0 = (1, 1) :=
    LineIndex.lineColumn_append [] text
  rw [positionAt, show (0 : UInt32).toNat = 0 from rfl, hfirst]
  rfl

end Positions

section Template
variable {template : String} {start stop : UInt32} {s : SourceSpan}

theorem ofTemplate?_of_slice? {text : List Char}
    (h : slice? template.toList start.toNat stop.toNat = some text) :
    ofTemplate? template start stop = some ⟨positionAt (.ofString template) start,
      positionAt (.ofString template) stop, String.ofList text⟩ := by
  rw [ofTemplate?, h]
  rfl

theorem eq_of_ofTemplate? (h : ofTemplate? template start stop = some s) :
    slice? template.toList start.toNat stop.toNat = some s.source.toList ∧
      s.start = positionAt (.ofString template) start ∧
      s.stop = positionAt (.ofString template) stop := by
  obtain ⟨text, htext, rfl⟩ := Option.map_eq_some_iff.mp h
  rw [String.toList_ofList]
  exact ⟨htext, rfl, rfl⟩

/-- There is a span exactly where the template can be cut at both ends. -/
theorem isSome_ofTemplate?_iff : (ofTemplate? template start stop).isSome = true ↔
    start ≤ stop ∧ stop.toNat ≤ byteLength template.toList ∧
      BetweenCharacters template.toList start.toNat ∧
      BetweenCharacters template.toList stop.toNat := by
  rw [Option.isSome_iff_exists]
  constructor
  · rintro ⟨s, hs⟩
    obtain ⟨before, after, htemplate, hstart, hstop⟩ :=
      slice?_eq_some_iff.mp (eq_of_ofTemplate? hs).1
    have hlength := congrArg byteLength htemplate
    rw [byteLength_append, byteLength_append] at hlength
    refine ⟨UInt32.le_iff_toNat_le.mpr (by omega), by omega, ?_, ?_⟩
    · exact ⟨before, s.source.toList ++ after, by rw [htemplate, List.append_assoc], hstart⟩
    · exact ⟨before ++ s.source.toList, after, htemplate, by rw [byteLength_append]; omega⟩
  · rintro ⟨hle, -, ⟨before, rest, htemplate, hstart⟩, front, after, htemplate', hstop⟩
    have hle : byteLength before ≤ byteLength front := by
      have := UInt32.le_iff_toNat_le.mp hle
      omega
    obtain ⟨middle, rfl, -⟩ :=
      exists_middle_of_byteLength_le (htemplate.symm.trans htemplate') hle
    rw [byteLength_append] at hstop
    exact ⟨_, ofTemplate?_of_slice?
      (slice?_eq_some_iff.mpr ⟨before, after, htemplate', hstart, by omega⟩)⟩

/-- What holds of the span over a range of a template. -/
structure CutFrom (template : String) (start stop : UInt32) (s : SourceSpan) : Prop where
  length : s.length = byteLength s.source.toList
  /-- The lines and columns are those that are looked up. -/
  lookup_start : LineIndex.Strict.lineColumn (.ofString template) start =
    .ok (s.start.line, s.start.column)
  lookup_stop : LineIndex.Strict.lineColumn (.ofString template) stop =
    .ok (s.stop.line, s.stop.column)
  /-- The span begins behind the text in front of it, and ends behind its own. -/
  text : ∃ before after, template.toList = before ++ s.source.toList ++ after ∧
    byteLength before = start.toNat ∧ byteLength (before ++ s.source.toList) = stop.toNat ∧
    Position.origin.Advances before s.start ∧ s.start.Advances s.source.toList s.stop
  exactly : byteLength template.toList + 1 < UInt32.size →
    s.start.AdvancesExactly s.source.toList s.stop

theorem cutFrom_of_ofTemplate? (hsize : byteLength template.toList < UInt32.size)
    (h : ofTemplate? template start stop = some s) : CutFrom template start stop s := by
  obtain ⟨htext, hstart, hstop⟩ := eq_of_ofTemplate? h
  obtain ⟨before, after, htemplate, hbefore, hlength⟩ := slice?_eq_some_iff.mp htext
  have hend : stop.toNat = byteLength (before ++ s.source.toList) := by
    rw [byteLength_append]
    omega
  constructor
  · rw [length, hstart, hstop]
    change stop.toNat - start.toNat = _
    omega
  · rw [hstart]
    exact LineIndex.Strict.lineColumn_ok hsize start
  · rw [hstop]
    exact LineIndex.Strict.lineColumn_ok hsize stop
  · refine ⟨before, after, htemplate, hbefore, hend.symm, ?_, ?_⟩
    · have hzero : (0 : UInt32).toNat = byteLength [] := rfl
      have hadvance := positionAt_advances [] before (s.source.toList ++ after) hzero hbefore.symm
      rw [List.nil_append, ← List.append_assoc, ← htemplate, positionAt_zero] at hadvance
      rw [hstart]
      exact hadvance
    · have hadvance := positionAt_advances before s.source.toList after hbefore.symm hend
      rw [← htemplate] at hadvance
      rw [hstart, hstop]
      exact hadvance
  · intro hfits
    rw [htemplate] at hfits
    have hadvance := positionAt_advancesExactly before s.source.toList after hfits
      hbefore.symm hend
    rw [← htemplate] at hadvance
    rw [hstart, hstop]
    exact hadvance

/-- Spans that touch share the position between them, and make one span. -/
theorem ofTemplate?_touching {a b c : UInt32} {t : SourceSpan}
    (h : ofTemplate? template a b = some s) (h' : ofTemplate? template b c = some t) :
    s.stop = t.start ∧
      ofTemplate? template a c = some ⟨s.start, t.stop, s.source ++ t.source⟩ := by
  obtain ⟨htext, hstart, hstop⟩ := eq_of_ofTemplate? h
  obtain ⟨htext', hstart', hstop'⟩ := eq_of_ofTemplate? h'
  refine ⟨hstop.trans hstart'.symm, ?_⟩
  rw [ofTemplate?_of_slice? (slice?_trans htext htext'), hstart, hstop', String.ofList_append,
    String.ofList_toList, String.ofList_toList]

end Template

/-- A span is made of a template exactly for a range between two places between characters. It
covers the text there, is as long as that text, and its end is where its text leads from its start.
Spans that touch share a position, and together cover what the span over both covers. -/
theorem ofTemplate?_consistent {template : String}
    (hsize : byteLength template.toList < UInt32.size) :
    (∀ start stop, (ofTemplate? template start stop).isSome = true ↔
      start ≤ stop ∧ stop.toNat ≤ byteLength template.toList ∧
        BetweenCharacters template.toList start.toNat ∧
        BetweenCharacters template.toList stop.toNat) ∧
    (∀ start stop s, ofTemplate? template start stop = some s → CutFrom template start stop s) ∧
    ∀ a b c s t, ofTemplate? template a b = some s → ofTemplate? template b c = some t →
      s.stop = t.start ∧
        ofTemplate? template a c = some ⟨s.start, t.stop, s.source ++ t.source⟩ :=
  ⟨fun _ _ => isSome_ofTemplate?_iff, fun _ _ _ => cutFrom_of_ofTemplate? hsize,
    fun _ _ _ _ _ => ofTemplate?_touching⟩

theorem ofTemplate?_consistent_two_lines :
    byteLength "é\nab".toList < UInt32.size ∧
      ofTemplate? "é\nab" 0 3 = some ⟨⟨0, 1, 1⟩, ⟨3, 2, 1⟩, "é\n"⟩ ∧
      ofTemplate? "é\nab" 3 4 = some ⟨⟨3, 2, 1⟩, ⟨4, 2, 2⟩, "a"⟩ ∧
      CutFrom "é\nab" 0 3 ⟨⟨0, 1, 1⟩, ⟨3, 2, 1⟩, "é\n"⟩ ∧
      ofTemplate? "é\nab" 0 4 = some ⟨⟨0, 1, 1⟩, ⟨4, 2, 2⟩, "é\na"⟩ := by
  have hsize : byteLength "é\nab".toList < UInt32.size := by decide +kernel
  have hfirst : ofTemplate? "é\nab" 0 3 = some ⟨⟨0, 1, 1⟩, ⟨3, 2, 1⟩, "é\n"⟩ := by
    decide +kernel
  have hsecond : ofTemplate? "é\nab" 3 4 = some ⟨⟨3, 2, 1⟩, ⟨4, 2, 2⟩, "a"⟩ := by
    decide +kernel
  obtain ⟨-, hcut, htouch⟩ := ofTemplate?_consistent hsize
  exact ⟨hsize, hfirst, hsecond, hcut _ _ _ hfirst, (htouch _ _ _ _ _ hfirst hsecond).2⟩

end SourceSpan
end TemplateLint
