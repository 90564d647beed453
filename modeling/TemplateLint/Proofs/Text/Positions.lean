import Mathlib.Data.List.DropRight
import TemplateLint.Proofs.Text.Lines

/-! Line and column of an offset, as a plain scan of the bytes in front of it tells them. -/
namespace TemplateLint.Text

/-- The UTF-8 bytes of a text. -/
def bytes (text : List Char) : List UInt8 := text.flatMap String.utf8EncodeChar

def lineFeed : UInt8 := 10

@[simp] theorem bytes_append (a b : List Char) : bytes (a ++ b) = bytes a ++ bytes b :=
  List.flatMap_append

theorem bytes_cons (c : Char) (cs : List Char) :
    bytes (c :: cs) = String.utf8EncodeChar c ++ bytes cs := List.flatMap_cons

theorem length_bytes (cs : List Char) : (bytes cs).length = byteLength cs := by
  induction cs with
  | nil => rfl
  | cons c cs ih =>
    rw [bytes_cons, List.length_append, String.length_utf8EncodeChar, ih, byteLength]

theorem utf8EncodeChar_newline : String.utf8EncodeChar '\n' = [lineFeed] := rfl

/-- No byte of another character looks like a line feed. -/
theorem lineFeed_notMem {c : Char} (h : c ≠ '\n') : lineFeed ∉ String.utf8EncodeChar c := by
  have hne : c.val.toNat ≠ 10 := fun heq => h (Char.toNat_inj.mp heq)
  have hbyte (n : Nat) (hn : n ≠ 10) (hlt : n < 256) : lineFeed ≠ UInt8.ofNat n := by
    intro heq
    have hnat := congrArg UInt8.toNat heq
    rw [UInt8.toNat_ofNat', Nat.mod_eq_of_lt hlt] at hnat
    exact hn hnat.symm
  unfold String.utf8EncodeChar
  dsimp only
  split
  · simpa using hbyte _ hne (by omega)
  · split
    · simp only [List.mem_cons, List.not_mem_nil, or_false, not_or]
      exact ⟨hbyte _ (by omega) (by omega), hbyte _ (by omega) (by omega)⟩
    · split
      · simp only [List.mem_cons, List.not_mem_nil, or_false, not_or]
        exact ⟨hbyte _ (by omega) (by omega), hbyte _ (by omega) (by omega),
          hbyte _ (by omega) (by omega)⟩
      · simp only [List.mem_cons, List.not_mem_nil, or_false, not_or]
        exact ⟨hbyte _ (by omega) (by omega), hbyte _ (by omega) (by omega),
          hbyte _ (by omega) (by omega), hbyte _ (by omega) (by omega)⟩

theorem count_bytes (cs : List Char) : (bytes cs).count lineFeed = cs.count '\n' := by
  induction cs with
  | nil => rfl
  | cons c cs ih =>
    rw [bytes_cons, List.count_append, ih]
    by_cases hc : c = '\n'
    · subst hc
      rw [utf8EncodeChar_newline, List.count_cons_self, List.count_cons_self]
      exact Nat.add_comm ..
    · rw [List.count_eq_zero_of_not_mem (lineFeed_notMem hc), List.count_cons_of_ne hc,
        Nat.zero_add]

/-- What stands behind the last `a`, or everything when there is none. -/
def behindLast {α : Type} [DecidableEq α] (a : α) (as : List α) : List α := as.rtakeWhile (· ≠ a)

theorem behindLast_append {α : Type} [DecidableEq α] {a : α} {bs : List α} (h : a ∉ bs)
    (as : List α) : behindLast a (as ++ bs) = behindLast a as ++ bs := by
  induction bs using List.reverseRecOn with
  | nil => rw [List.append_nil, List.append_nil]
  | append_singleton bs b ih =>
    rw [List.mem_append, List.mem_singleton, not_or] at h
    have hb : decide (b ≠ a) = true := decide_eq_true (Ne.symm h.2)
    rw [← List.append_assoc, behindLast,
      List.rtakeWhile_concat_pos (fun x => decide (x ≠ a)) _ _ hb, ← List.append_assoc, ← ih h.1,
      behindLast]

theorem behindLast_concat_self {α : Type} [DecidableEq α] (a : α) (as : List α) :
    behindLast a (as ++ [a]) = [] :=
  List.rtakeWhile_concat_neg _ _ _ (by simp)

theorem behindLast_bytes (cs : List Char) :
    behindLast lineFeed (bytes cs) = bytes (behindLast '\n' cs) := by
  induction cs using List.reverseRecOn with
  | nil => rfl
  | append_singleton cs c ih =>
    have hsingle : bytes [c] = String.utf8EncodeChar c := List.append_nil _
    rw [bytes_append, hsingle]
    by_cases hc : c = '\n'
    · subst hc
      rw [utf8EncodeChar_newline, behindLast_concat_self, behindLast_concat_self]
      rfl
    · have hlast : '\n' ∉ [c] := by simpa using Ne.symm hc
      rw [behindLast_append (lineFeed_notMem hc), behindLast_append hlast, ih, bytes_append,
        hsingle]

/-! Where lines begin -/

theorem lineStartsFrom_append (offset : Nat) (a b : List Char) :
    lineStartsFrom offset (a ++ b) =
      lineStartsFrom offset a ++ lineStartsFrom (offset + byteLength a) b := by
  induction a generalizing offset with
  | nil => rfl
  | cons c cs ih =>
    rw [List.cons_append, lineStartsFrom, lineStartsFrom, ih, byteLength, Nat.add_assoc]
    split <;> rfl

theorem length_lineStartsFrom (offset : Nat) (cs : List Char) :
    (lineStartsFrom offset cs).length = cs.count '\n' := by
  induction cs generalizing offset with
  | nil => rfl
  | cons c cs ih =>
    rw [lineStartsFrom]
    split
    next hc => rw [List.length_cons, ih, hc, List.count_cons_self]
    next hc => rw [ih, List.count_cons_of_ne hc]

theorem le_of_mem_lineStartsFrom {cs : List Char} {offset n : Nat}
    (h : n ∈ lineStartsFrom offset cs) : n ≤ offset + byteLength cs := by
  induction cs generalizing offset with
  | nil => cases h
  | cons c cs ih =>
    rw [lineStartsFrom] at h
    rw [byteLength]
    split at h
    next =>
      rcases List.mem_cons.mp h with rfl | h
      · omega
      · have := ih h
        omega
    next =>
      have := ih h
      omega

/-- The last line begins where what stands behind the last line break does. -/
theorem getLastD_lineStartsFrom (offset : Nat) (cs : List Char) :
    (lineStartsFrom offset cs).getLastD offset + byteLength (behindLast '\n' cs) =
      offset + byteLength cs := by
  induction cs using List.reverseRecOn with
  | nil => rfl
  | append_singleton cs c ih =>
    rw [lineStartsFrom_append, byteLength_append]
    by_cases hc : c = '\n'
    · subst hc
      rw [behindLast_concat_self, show lineStartsFrom (offset + byteLength cs) ['\n'] =
        [offset + byteLength cs + '\n'.utf8Size] from rfl, List.getLastD_concat]
      exact Nat.add_assoc ..
    · have hlast : '\n' ∉ [c] := by simpa using Ne.symm hc
      have hnone : lineStartsFrom (offset + byteLength cs) [c] = [] := by
        rw [lineStartsFrom, if_neg hc, lineStartsFrom]
      rw [hnone, List.append_nil, behindLast_append hlast, byteLength_append, ← Nat.add_assoc, ih,
        Nat.add_assoc]

/-- An offset in a text lies between two characters or inside one. -/
theorem exists_cut {text : List Char} {offset : Nat} (h : offset ≤ byteLength text) :
    (∃ before rest, text = before ++ rest ∧ byteLength before = offset) ∨
      ∃ before c rest, text = before ++ c :: rest ∧ byteLength before < offset ∧
        offset < byteLength before + c.utf8Size := by
  induction text generalizing offset with
  | nil => exact .inl ⟨[], [], rfl, (Nat.le_zero.mp h).symm⟩
  | cons c text ih =>
    rw [byteLength] at h
    rcases Nat.eq_zero_or_pos offset with rfl | hpos
    · exact .inl ⟨[], c :: text, rfl, rfl⟩
    rcases Nat.lt_or_ge offset c.utf8Size with hlt | hge
    · refine .inr ⟨[], c, text, rfl, hpos, ?_⟩
      rwa [byteLength, Nat.zero_add]
    · rcases ih (show offset - c.utf8Size ≤ byteLength text by omega) with
        ⟨before, rest, rfl, hcut⟩ | ⟨before, d, rest, rfl, hbefore, hafter⟩
      · refine .inl ⟨c :: before, rest, rfl, ?_⟩
        rw [byteLength]
        omega
      · refine .inr ⟨c :: before, d, rest, rfl, ?_, ?_⟩ <;> rw [byteLength] <;> omega

/-- Nothing is inside of a line break. -/
theorem ne_newline_of_inside {n offset : Nat} {c : Char} (hbefore : n < offset)
    (hafter : offset < n + c.utf8Size) : c ≠ '\n' := by
  rintro rfl
  rw [show '\n'.utf8Size = 1 from rfl] at hafter
  omega

theorem not_isBoundary_inside {before rest : List Char} {c : Char} {offset : Nat}
    (hbefore : byteLength before < offset) (hafter : offset < byteLength before + c.utf8Size) :
    isBoundary (before ++ c :: rest) offset = false := by
  rw [← Bool.not_eq_true, isBoundary_iff]
  rintro ⟨front, back, hcut, rfl⟩
  obtain ⟨middle, rfl, hmiddle⟩ := exists_middle_of_byteLength_le hcut hbefore.le
  rw [byteLength_append] at hbefore hafter
  cases middle with
  | nil =>
    rw [byteLength] at hbefore
    omega
  | cons d middle =>
    obtain ⟨rfl, -⟩ := List.cons.inj hmiddle
    rw [byteLength] at hafter
    omega

/-- What a scan of the text in front of an offset tells about line and column: line feeds are
counted, and then the characters behind the last of them, or its bytes when the offset lies inside
a character. -/
structure Scanned (text : List Char) (offset line column : Nat) : Prop where
  line_eq : line = 1 + ((bytes text).take offset).count lineFeed
  column_eq : ∀ before rest, text = before ++ rest → byteLength before = offset →
    column = 1 + (behindLast '\n' before).length
  column_inside : isBoundary text offset = false →
    column = 1 + (behindLast lineFeed ((bytes text).take offset)).length

namespace LineIndex

theorem lineColumn_min (text : List Char) (offset : Nat) :
    (ofText text).lineColumn offset =
      (ofText text).lineColumn (min offset (byteLength text)) := by
  have hmin : min (min offset (byteLength text)) (byteLength text) =
      min offset (byteLength text) := Nat.min_eq_left (Nat.min_le_right ..)
  unfold lineColumn
  rw [show (ofText text).text = text from rfl, hmin]

section Cut
variable {before rest : List Char} {offset : Nat} (hle : byteLength before ≤ offset)
  (hrest : ∀ n ∈ lineStartsFrom (byteLength before) rest, offset < n)
include hle hrest

/-- The lines that have begun are those that begin in front of the offset. -/
theorem takeWhile_starts : (ofText (before ++ rest)).starts.takeWhile (· ≤ offset) =
    0 :: lineStartsFrom 0 before := by
  have hstarts : (ofText (before ++ rest)).starts =
      (0 :: lineStartsFrom 0 before) ++ lineStartsFrom (byteLength before) rest := by
    rw [ofText, lineStartsFrom_append, Nat.zero_add]
    rfl
  have hbegun : ∀ n ∈ 0 :: lineStartsFrom 0 before, decide (n ≤ offset) = true := by
    intro n hn
    apply decide_eq_true
    rcases List.mem_cons.mp hn with rfl | hn
    · exact Nat.zero_le _
    · have := le_of_mem_lineStartsFrom hn
      omega
  have hlater : (lineStartsFrom (byteLength before) rest).takeWhile (· ≤ offset) = [] := by
    rw [List.takeWhile_eq_nil_iff]
    intro hpos hfirst
    exact absurd (of_decide_eq_true hfirst) (Nat.not_le.mpr (hrest _ (List.getElem_mem hpos)))
  rw [hstarts, List.takeWhile_append_of_pos hbegun, hlater, List.append_nil]

theorem lineColumn_of_cut (hoffset : offset ≤ byteLength (before ++ rest)) :
    (ofText (before ++ rest)).lineColumn offset =
      (before.count '\n' + 1,
        (match slice? (before ++ rest) (byteLength before - byteLength (behindLast '\n' before))
            offset with
          | some cs => cs.length
          | none => offset - (byteLength before - byteLength (behindLast '\n' before))) + 1) := by
  have hstart : (0 :: lineStartsFrom 0 before).getLastD 0 =
      byteLength before - byteLength (behindLast '\n' before) := by
    have hlast := getLastD_lineStartsFrom 0 before
    rw [List.getLastD_cons]
    omega
  have hstop : min offset (byteLength (ofText (before ++ rest)).text) = offset :=
    Nat.min_eq_left hoffset
  unfold lineColumn
  rw [hstop]
  dsimp only
  rw [takeWhile_starts hle hrest, hstart, List.length_cons, length_lineStartsFrom]
  rfl

end Cut

/-- The position between two characters. -/
theorem lineColumn_append (before rest : List Char) :
    (ofText (before ++ rest)).lineColumn (byteLength before) =
      (before.count '\n' + 1, (behindLast '\n' before).length + 1) := by
  obtain ⟨front, hfront⟩ : behindLast '\n' before <:+ before := List.rtakeWhile_suffix _ _
  have hlength := congrArg byteLength hfront
  rw [byteLength_append] at hlength
  have hslice : slice? (before ++ rest) (byteLength before - byteLength (behindLast '\n' before))
      (byteLength before) = some (behindLast '\n' before) :=
    slice?_eq_some_iff.mpr ⟨front, rest, by rw [hfront], by omega, by omega⟩
  rw [lineColumn_of_cut (Nat.le_refl _) fun n hn => lt_of_mem_lineStartsFrom hn]
  · rw [hslice]
  · rw [byteLength_append]
    exact Nat.le_add_right ..

/-- The position inside a character. -/
theorem lineColumn_inside {before rest : List Char} {c : Char} {offset : Nat}
    (hbefore : byteLength before < offset) (hafter : offset < byteLength before + c.utf8Size) :
    (ofText (before ++ c :: rest)).lineColumn offset =
      (before.count '\n' + 1,
        byteLength (behindLast '\n' before) + (offset - byteLength before) + 1) := by
  have hnewline := ne_newline_of_inside hbefore hafter
  have hrest : ∀ n ∈ lineStartsFrom (byteLength before) (c :: rest), offset < n := by
    intro n hn
    rw [lineStartsFrom, if_neg hnewline] at hn
    have := lt_of_mem_lineStartsFrom hn
    omega
  have hnone : slice? (before ++ c :: rest)
      (byteLength before - byteLength (behindLast '\n' before)) offset = none := by
    by_contra hsome
    obtain ⟨middle, hmiddle⟩ := Option.ne_none_iff_exists'.mp hsome
    have hrange := isRange_of_slice? hmiddle
    rw [isRange, not_isBoundary_inside hbefore hafter, Bool.and_false] at hrange
    cases hrange
  have hle : byteLength (behindLast '\n' before) ≤ byteLength before := by
    have hlast := getLastD_lineStartsFrom 0 before
    omega
  rw [lineColumn_of_cut hbefore.le hrest]
  · have hcolumn : offset - (byteLength before - byteLength (behindLast '\n' before)) =
        byteLength (behindLast '\n' before) + (offset - byteLength before) := by omega
    rw [hnone, hcolumn]
  · rw [byteLength_append, byteLength]
    omega

/-- Line and column are what a scan tells. -/
theorem scanned_lineColumn {text : List Char} {offset : Nat} (h : offset ≤ byteLength text) :
    Scanned text offset ((ofText text).lineColumn offset).1
      ((ofText text).lineColumn offset).2 := by
  rcases exists_cut h with ⟨before, rest, rfl, rfl⟩ | ⟨before, c, rest, rfl, hbefore, hafter⟩
  · have htake : (bytes (before ++ rest)).take (byteLength before) = bytes before := by
      rw [bytes_append, ← length_bytes, List.take_left]
    have hboundary : isBoundary (before ++ rest) (byteLength before) = true :=
      isBoundary_iff.mpr ⟨before, rest, rfl, rfl⟩
    rw [lineColumn_append]
    constructor
    · rw [htake, count_bytes]
      exact Nat.add_comm ..
    · intro before' rest' hcut hlength
      obtain ⟨rfl, -⟩ := append_inj_of_byteLength hcut hlength.symm
      exact Nat.add_comm ..
    · intro hnot
      rw [hboundary] at hnot
      cases hnot
  · have hnewline := ne_newline_of_inside hbefore hafter
    have hpart : lineFeed ∉ (String.utf8EncodeChar c).take (offset - byteLength before) :=
      fun hmem => lineFeed_notMem hnewline (List.mem_of_mem_take hmem)
    have htake : (bytes (before ++ c :: rest)).take offset =
        bytes before ++ (String.utf8EncodeChar c).take (offset - byteLength before) := by
      rw [bytes_append, bytes_cons, List.take_append, length_bytes,
        List.take_of_length_le (by rw [length_bytes]; exact hbefore.le),
        List.take_append_of_le_length (by rw [String.length_utf8EncodeChar]; omega)]
    have hinside : isBoundary (before ++ c :: rest) offset = false :=
      not_isBoundary_inside hbefore hafter
    rw [lineColumn_inside hbefore hafter]
    constructor
    · rw [htake, List.count_append, count_bytes, List.count_eq_zero_of_not_mem hpart]
      exact Nat.add_comm ..
    · intro before' rest' hcut hlength
      rw [isBoundary_iff.mpr ⟨before', rest', hcut, hlength⟩] at hinside
      cases hinside
    · intro _
      rw [htake, behindLast_append hpart, behindLast_bytes, List.length_append, length_bytes,
        List.length_take, String.length_utf8EncodeChar]
      dsimp only
      omega

/-- Different places between characters have different positions. -/
theorem lineColumn_injective {text : List Char} {a b : Nat} (ha : isBoundary text a = true)
    (hb : isBoundary text b = true)
    (h : (ofText text).lineColumn a = (ofText text).lineColumn b) : a = b := by
  wlog hab : a ≤ b generalizing a b
  · exact (this hb ha h.symm (Nat.le_of_not_le hab)).symm
  obtain ⟨before, rest, rfl, rfl⟩ := isBoundary_iff.mp ha
  obtain ⟨front, back, hcut, rfl⟩ := isBoundary_iff.mp hb
  obtain ⟨middle, rfl, rfl⟩ := exists_middle_of_byteLength_le hcut hab
  rw [lineColumn_append, ← List.append_assoc, lineColumn_append, Prod.mk.injEq,
    List.count_append] at h
  have hnewline : '\n' ∉ middle := by
    rw [← List.count_eq_zero]
    omega
  rw [behindLast_append hnewline, List.length_append] at h
  have hnil : middle = [] := List.length_eq_zero_iff.mp (by omega)
  rw [hnil, List.append_nil]

end LineIndex
end TemplateLint.Text
