import TemplateLint.Diagnostic.Apply
import TemplateLint.Proofs.Text.Cuts

/-! Replacing many ranges of a text at once, and why edits made from the end of the text to its
start come to the same. -/
namespace TemplateLint.TextEdit
open Text

/-- `a` ends where `b` begins or before it, and does not begin there too. -/
def Before (a b : TextEdit) : Prop :=
  a.start < b.start ∧ a.stop ≤ b.start

/-- The text between two offsets with all edits made at once. The edits are in ascending order, and
every range counts in the text as it is, before any edit. -/
def splice? (text : List Char) (start stop : Nat) : List TextEdit → Option (List Char)
  | [] => slice? text start stop
  | e :: es => do
    let kept ← slice? text start e.start.toNat
    let rest ← splice? text e.stop.toNat stop es
    return kept ++ e.newText.toList ++ rest

theorem splice?_cons_eq_some_iff {text out : List Char} {start stop : Nat} {e : TextEdit}
    {es : List TextEdit} :
    splice? text start stop (e :: es) = some out ↔
      ∃ kept rest, slice? text start e.start.toNat = some kept ∧
        splice? text e.stop.toNat stop es = some rest ∧
        kept ++ e.newText.toList ++ rest = out := by
  simp [splice?, Option.bind_eq_some_iff]

/-- The edits in front of one and those behind it work on separate parts of the text. -/
theorem splice?_append_cons_eq_some_iff {text out : List Char} {start stop : Nat} {e : TextEdit}
    {infront behind : List TextEdit} :
    splice? text start stop (infront ++ e :: behind) = some out ↔
      ∃ front back, splice? text start e.start.toNat infront = some front ∧
        splice? text e.stop.toNat stop behind = some back ∧
        front ++ e.newText.toList ++ back = out := by
  induction infront generalizing start out with
  | nil => exact splice?_cons_eq_some_iff
  | cons first infront ih =>
    rw [List.cons_append, splice?_cons_eq_some_iff]
    constructor
    · rintro ⟨kept, rest, hkept, hrest, rfl⟩
      obtain ⟨front, back, hfront, hback, rfl⟩ := ih.mp hrest
      refine ⟨kept ++ first.newText.toList ++ front, back, ?_, hback, by simp⟩
      exact splice?_cons_eq_some_iff.mpr ⟨kept, front, hkept, hfront, rfl⟩
    · rintro ⟨front, back, hfront, hback, rfl⟩
      obtain ⟨kept, rest, hkept, hrest, rfl⟩ := splice?_cons_eq_some_iff.mp hfront
      exact ⟨kept, _, hkept, ih.mpr ⟨rest, back, hrest, hback, rfl⟩, by simp⟩

theorem fits_iff {e : TextEdit} {text : List Char} :
    e.fits text = true ↔ ∃ before middle after, text = before ++ middle ++ after ∧
      byteLength before = e.start.toNat ∧ e.start.toNat + byteLength middle = e.stop.toNat :=
  isRange_iff

theorem applied?_append {e : TextEdit} {before middle after : List Char}
    (hb : byteLength before = e.start.toNat)
    (hm : e.start.toNat + byteLength middle = e.stop.toNat) :
    applied? e (before ++ middle ++ after) = some (before ++ e.newText.toList ++ after) := by
  unfold applied?
  rw [← hm, ← hb]
  exact replace?_append before middle after _

theorem applied?_eq_some_iff {e : TextEdit} {text out : List Char} :
    applied? e text = some out ↔ ∃ before middle after, text = before ++ middle ++ after ∧
      byteLength before = e.start.toNat ∧ e.start.toNat + byteLength middle = e.stop.toNat ∧
      out = before ++ e.newText.toList ++ after := by
  constructor
  · intro h
    obtain ⟨⟨before, middle, after⟩, hp, rfl⟩ := Option.map_eq_some_iff.mp h
    obtain ⟨htext, hb, hm⟩ := parts?_eq_some_iff.mp hp
    exact ⟨before, middle, after, htext, hb, hm, rfl⟩
  · rintro ⟨before, middle, after, rfl, hb, hm, rfl⟩
    exact applied?_append hb hm

/-- An edit can be made exactly where it fits. -/
theorem isSome_applied? (e : TextEdit) (text : List Char) :
    (applied? e text).isSome = e.fits text := by
  rw [Bool.eq_iff_iff, Option.isSome_iff_exists, fits_iff]
  constructor
  · rintro ⟨out, h⟩
    obtain ⟨before, middle, after, htext, hb, hm, -⟩ := applied?_eq_some_iff.mp h
    exact ⟨before, middle, after, htext, hb, hm⟩
  · rintro ⟨before, middle, after, rfl, hb, hm⟩
    exact ⟨_, applied?_append hb hm⟩

theorem isBoundary_applied? {e : TextEdit} {text out : List Char} (h : applied? e text = some out)
    (n : Nat) : isBoundary out n =
      if n ≤ e.start.toNat then isBoundary text n
      else if n ≤ e.start.toNat + byteLength e.newText.toList then
        isBoundary e.newText.toList (n - e.start.toNat)
      else isBoundary text
        (n - (e.start.toNat + byteLength e.newText.toList) + e.stop.toNat) := by
  obtain ⟨before, middle, after, rfl, hb, hm, rfl⟩ := applied?_eq_some_iff.mp h
  simp only [isBoundary_append, byteLength_append, hb]
  grind

theorem applyAll?_append (es fs : List TextEdit) (text : List Char) :
    applyAll? (es ++ fs) text = (applyAll? es text).bind (applyAll? fs) := by
  induction es generalizing text with
  | nil => rfl
  | cons e es ih =>
    rw [List.cons_append, applyAll?, applyAll?]
    cases applied? e text with
    | none => rfl
    | some next => exact ih next

/-- What the edits behind `front` have done leaves `front` alone, so that the edit in front of them
still finds its range where it was. -/
theorem applyAll?_reverse (front back : List Char) {es : List TextEdit}
    (hfit : ∀ e ∈ es, e.fits (front ++ back) = true) (hord : es.Pairwise Before)
    (hstart : ∀ e ∈ es, byteLength front ≤ e.start.toNat) :
    ∃ out, splice? (front ++ back) (byteLength front) (byteLength (front ++ back)) es = some out ∧
      applyAll? es.reverse (front ++ back) = some (front ++ out) := by
  induction es generalizing front back with
  | nil =>
    refine ⟨back, ?_, rfl⟩
    exact slice?_eq_some_iff.mpr ⟨front, [], by rw [List.append_nil], rfl,
      (byteLength_append ..).symm⟩
  | cons e es ih =>
    obtain ⟨before, middle, after, htext, hb, hm⟩ := fits_iff.mp (hfit e List.mem_cons_self)
    have hfront : byteLength front ≤ byteLength before := hb ▸ hstart e List.mem_cons_self
    have hassoc : front ++ back = before ++ (middle ++ after) := by
      rw [htext, List.append_assoc]
    obtain ⟨kept, rfl, -⟩ := exists_middle_of_byteLength_le hassoc hfront
    rw [List.pairwise_cons] at hord
    have hstop : byteLength (front ++ kept ++ middle) = e.stop.toNat := by
      rw [byteLength_append, hb, hm]
    have hlater : ∀ e' ∈ es, byteLength (front ++ kept ++ middle) ≤ e'.start.toNat := by
      intro e' he'
      have h := UInt32.le_iff_toNat_le.mp (hord.1 e' he').2
      omega
    rw [htext] at hfit ⊢
    obtain ⟨out, hsplice, hrun⟩ :=
      ih _ _ (fun e' he' => hfit e' (List.mem_cons_of_mem _ he')) hord.2 hlater
    refine ⟨kept ++ e.newText.toList ++ out, ?_, ?_⟩
    · refine splice?_cons_eq_some_iff.mpr ⟨kept, out, ?_, hstop ▸ hsplice, rfl⟩
      refine slice?_eq_some_iff.mpr ⟨front, middle ++ after, by rw [List.append_assoc], rfl, ?_⟩
      rw [← hb, byteLength_append]
    · rw [List.reverse_cons, applyAll?_append, hrun, Option.bind_some, applyAll?,
        applied?_append hb hm]
      simp [applyAll?]

/-- A relation between pieces of text that every edit respects holds between the text and what the
edits make of it. -/
theorem splice?_rel {R : List Char → List Char → Prop} (hrefl : ∀ a, R a a)
    (happend : ∀ {a b a' b'}, R a a' → R b b' → R (a ++ b) (a' ++ b'))
    {text out : List Char} {start stop : Nat} {es : List TextEdit}
    (hedits : ∀ e ∈ es, ∃ old, slice? text e.start.toNat e.stop.toNat = some old ∧
      R old e.newText.toList)
    (h : splice? text start stop es = some out) :
    ∃ old, slice? text start stop = some old ∧ R old out := by
  induction es generalizing start out with
  | nil => exact ⟨out, h, hrefl out⟩
  | cons e es ih =>
    obtain ⟨kept, rest, hkept, hrest, rfl⟩ := splice?_cons_eq_some_iff.mp h
    obtain ⟨old, hold, hR⟩ := hedits e List.mem_cons_self
    obtain ⟨tail, htail, hRtail⟩ := ih (fun e' he' => hedits e' (List.mem_cons_of_mem _ he')) hrest
    exact ⟨kept ++ old ++ tail, slice?_trans (slice?_trans hkept hold) htail,
      happend (happend (hrefl kept) hR) hRtail⟩

end TemplateLint.TextEdit
