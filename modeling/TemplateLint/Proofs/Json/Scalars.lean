import TemplateLint.Json.Tree
import TemplateLint.Json.Value
import Mathlib.Tactic.IntervalCases

/-! Names, numbers and strings that were written compactly are read back. -/
namespace TemplateLint.Json

/-! Strings -/

theorem fourHex?_hexDigits {n : Nat} (h : n < 0x20) :
    fourHex? '0' '0' (hexDigit (n / 16)) (hexDigit (n % 16)) = some n := by
  interval_cases n <;> decide

/-- A character reads as itself, whether it was escaped or not. -/
theorem scanString_escapeChar (c : Char) (done rest : List Char) (offset : Nat) :
    ∃ next, scanString done none none offset (escapeChar c ++ rest) =
      scanString (c :: done) none none next rest := by
  unfold escapeChar
  split
  any_goals exact ⟨offset + 2, rfl⟩
  next hquote hback _ _ _ _ _ =>
    split
    next hcontrol =>
      have hlow : isLowSurrogate c.toNat = false := by
        simp only [isLowSurrogate, Bool.and_eq_false_iff, decide_eq_false_iff_not]
        omega
      have hhigh : isHighSurrogate c.toNat = false := by
        simp only [isHighSurrogate, Bool.and_eq_false_iff, decide_eq_false_iff_not]
        omega
      refine ⟨offset + 6, ?_⟩
      simp [scanString, fourHex?_hexDigits hcontrol, hlow, hhigh, Char.ofNat_toNat]
    next hplain =>
      refine ⟨offset + c.utf8Size, ?_⟩
      rw [List.singleton_append, scanString]
      · simp [hplain]
      · exact hquote
      · exact hback

theorem scanString_escaped (s done rest : List Char) (offset : Nat) :
    ∃ next, scanString done none none offset (s.flatMap escapeChar ++ '"' :: rest) =
      ⟨.ok (String.ofList (done.reverse ++ s)), .ok ⟨next, rest⟩⟩ := by
  induction s generalizing done offset with
  | nil => exact ⟨offset + 1, by simp [scanString]⟩
  | cons c cs ih =>
    obtain ⟨next, hc⟩ := scanString_escapeChar c done (cs.flatMap escapeChar ++ '"' :: rest) offset
    obtain ⟨stop, hcs⟩ := ih (c :: done) next
    refine ⟨stop, ?_⟩
    rw [List.flatMap_cons, List.append_assoc, hc, hcs]
    simp

theorem readString_stringText (s : String) (rest : List Char) (offset : Nat) :
    ∃ stop, readString ⟨offset, stringText s ++ rest⟩ =
      (.atom offset stop (.string s), .ok ⟨stop, rest⟩) := by
  obtain ⟨stop, h⟩ := scanString_escaped s.toList [] rest (offset + 1)
  refine ⟨stop, ?_⟩
  simp [readString, stringText, h]

/-! Names -/

theorem scanName_append (name rest : List Char) (offset : Nat) :
    scanName offset name (name ++ rest) = .ok ⟨offset + name.length, rest⟩ := by
  induction name generalizing offset with
  | nil => rfl
  | cons c cs ih =>
    rw [List.cons_append, scanName, if_pos rfl, ih, List.length_cons]
    congr 2
    omega

theorem readName_append (name rest : List Char) (value : Atom) (offset : Nat) :
    ∃ stop, readName ⟨offset, name ++ rest⟩ name value =
      (.atom offset stop value, .ok ⟨stop, rest⟩) :=
  ⟨offset + name.length, by simp [readName, scanName_append]⟩

/-! Numbers -/

/-- What stands behind a number and does not go on with it. -/
def EndsNumber (rest : List Char) : Prop :=
  ∀ c ∈ rest.head?, c.isDigit = false ∧ c ≠ '.' ∧ c ≠ 'e' ∧ c ≠ 'E'

theorem wholeDigits_append (digits : List Char) (c : Char) :
    wholeDigits (digits ++ [c]) =
      if (wholeDigits digits).2 = 0 ∧ (wholeDigits digits).1 * 10 + digitValue c ≤ maxSignificand
      then ((wholeDigits digits).1 * 10 + digitValue c, 0)
      else ((wholeDigits digits).1, (wholeDigits digits).2 + 1) := by
  simp [wholeDigits, List.foldl_append]

theorem digitValue_digitChar {d : Nat} (h : d < 10) : digitValue d.digitChar = d := by
  interval_cases d <;> decide

theorem wholeDigits_toDigits {n : Nat} (h : n ≤ maxSignificand) :
    wholeDigits (Nat.toDigits 10 n) = (n, 0) := by
  induction n using Nat.strongRecOn with
  | _ n ih =>
    rw [Nat.toDigits_eq_if (by decide)]
    split
    next hlt =>
      have hd := digitValue_digitChar hlt
      simp [wholeDigits, hd, h]
    next hge =>
      have hlow := digitValue_digitChar (Nat.mod_lt n (by decide : 10 > 0))
      rw [wholeDigits_append, ih (n / 10) (by omega) (by omega), hlow]
      have hn : n / 10 * 10 + n % 10 = n := by omega
      simp [hn, h]

theorem isDigit_of_mem_naturalText {n : Nat} {c : Char} (h : c ∈ naturalText n) :
    c.isDigit = true :=
  Nat.isDigit_of_mem_toDigits (by decide) (by decide) h

theorem exists_naturalText_eq_cons (n : Nat) :
    ∃ c cs, naturalText n = c :: cs ∧ c.isDigit = true := by
  obtain ⟨c, cs, hcs⟩ := List.exists_cons_of_ne_nil (Nat.toDigits_ne_nil (b := 10) (n := n))
  have htext : naturalText n = c :: cs := hcs
  exact ⟨c, cs, htext, isDigit_of_mem_naturalText (htext ▸ List.mem_cons_self)⟩

theorem toDigits_head?_ne_zero {n : Nat} (h : 0 < n) : (Nat.toDigits 10 n).head? ≠ some '0' := by
  induction n using Nat.strongRecOn with
  | _ n ih =>
    rw [Nat.toDigits_eq_if (by decide)]
    split
    next hlt => interval_cases n <;> decide
    next hge =>
      have hhead := ih (n / 10) (by omega) (by omega)
      obtain ⟨c, cs, hcs, -⟩ := exists_naturalText_eq_cons (n / 10)
      rw [show Nat.toDigits 10 (n / 10) = c :: cs from hcs] at hhead ⊢
      exact hhead

/-- Only the number zero is written with a zero in front. -/
theorem naturalText_eq_zero_cons {n : Nat} {cs : List Char} (h : naturalText n = '0' :: cs) :
    cs = [] := by
  rcases Nat.eq_zero_or_pos n with rfl | hpos
  · simpa [naturalText] using h.symm
  · have hhead := toDigits_head?_ne_zero hpos
    simp [show Nat.toDigits 10 n = '0' :: cs from h] at hhead

theorem takeWhile_naturalText (n : Nat) {rest : List Char} (hrest : EndsNumber rest) :
    (naturalText n ++ rest).takeWhile Char.isDigit = naturalText n := by
  rw [List.takeWhile_append_of_pos fun c hc => isDigit_of_mem_naturalText hc]
  cases rest with
  | nil => simp
  | cons c cs => simp [(hrest c rfl).1]

theorem scanFraction_of_endsNumber {rest : List Char} (hrest : EndsNumber rest) (offset : Nat) :
    scanFraction ⟨offset, rest⟩ = .ok (none, ⟨offset, rest⟩) := by
  cases rest with
  | nil => rfl
  | cons c cs =>
    obtain ⟨-, hdot, -⟩ := hrest c rfl
    simp [scanFraction, hdot]

theorem scanExponent_of_endsNumber {rest : List Char} (hrest : EndsNumber rest) (offset : Nat) :
    scanExponent ⟨offset, rest⟩ = .ok (none, ⟨offset, rest⟩) := by
  cases rest with
  | nil => rfl
  | cons c cs =>
    obtain ⟨-, -, he, hE⟩ := hrest c rfl
    simp [scanExponent, he, hE]

theorem readNumber_naturalText {n : Nat} (hn : n ≤ maxSignificand) {rest : List Char}
    (hrest : EndsNumber rest) (offset : Nat) :
    ∃ stop, readNumber ⟨offset, naturalText n ++ rest⟩ =
      (.atom offset stop (.number (.natural n)), .ok ⟨stop, rest⟩) := by
  have htake := takeWhile_naturalText n hrest
  obtain ⟨c, cs, htext, hdigit⟩ := exists_naturalText_eq_cons n
  have hminus : c ≠ '-' := by
    rintro rfl
    exact absurd hdigit (by decide)
  have hzero : ¬ (c = '0' ∧ (cs.head?.or rest.head?).any Char.isDigit = true) := by
    rintro ⟨rfl, hnext⟩
    have hnil : cs = [] := naturalText_eq_zero_cons htext
    cases rest with
    | nil => simp [hnil] at hnext
    | cons d ds => simp [hnil, (hrest d rfl).1] at hnext
  have hfraction := scanFraction_of_endsNumber hrest (offset + (cs.length + 1))
  have hexponent := scanExponent_of_endsNumber hrest (offset + (cs.length + 1))
  have hnumber : numberOf false (c :: cs) none none (offset + (cs.length + 1)) =
      .ok (.natural n) := by
    rw [← htext]
    simp [numberOf, naturalText, wholeDigits_toDigits hn, wholeNumber]
  refine ⟨offset + (cs.length + 1), ?_⟩
  rw [htext, List.cons_append] at htake ⊢
  simp [readNumber, Cursor.advance, hminus, hdigit, hzero, htake, hfraction, hexponent, hnumber]

end TemplateLint.Json
