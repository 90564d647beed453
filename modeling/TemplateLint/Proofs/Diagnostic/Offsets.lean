import TemplateLint.Proofs.Diagnostic.Splice
import Mathlib.Algebra.GroupWithZero.Nat

/-! Where the offsets of a text go when edits are made in it, and what stands between two of them
afterwards. -/
namespace TemplateLint.TextEdit
open Text

/-- The edits that end at an offset or before it. -/
def upTo (n : Nat) (es : List TextEdit) : List TextEdit :=
  es.filter fun e => decide (e.stop.toNat ≤ n)

/-- The edits that end behind an offset. -/
def beyond (n : Nat) (es : List TextEdit) : List TextEdit :=
  es.filter fun e => decide (n < e.stop.toNat)

theorem upTo_sublist (n : Nat) (es : List TextEdit) : (upTo n es).Sublist es := List.filter_sublist

theorem upTo_upTo {m n : Nat} (h : m ≤ n) (es : List TextEdit) :
    upTo m (upTo n es) = upTo m es := by
  unfold upTo
  rw [List.filter_filter]
  refine List.filter_congr fun e _ => ?_
  rw [← Bool.decide_and, decide_eq_decide]
  omega

/-- How many bytes the edits take away. -/
def removed (es : List TextEdit) : Nat := (es.map fun e => e.stop.toNat - e.start.toNat).sum

/-- How many bytes the edits bring in. -/
def added (es : List TextEdit) : Nat := (es.map fun e => byteLength e.newText.toList).sum

/-- The offset in the edited text of what stands at an offset of the text. -/
def moved (es : List TextEdit) (n : Nat) : Nat := n + added (upTo n es) - removed (upTo n es)

theorem moved_perm {es fs : List TextEdit} (h : es.Perm fs) (n : Nat) :
    moved es n = moved fs n := by
  have hpassed := h.filter fun e => decide (e.stop.toNat ≤ n)
  have hadded : added (upTo n es) = added (upTo n fs) := (hpassed.map _).sum_nat
  have hremoved : removed (upTo n es) = removed (upTo n fs) := (hpassed.map _).sum_nat
  rw [moved, moved, hadded, hremoved]

theorem added_le_removed {es : List TextEdit}
    (h : ∀ e ∈ es, byteLength e.newText.toList ≤ e.stop.toNat - e.start.toNat) :
    added es ≤ removed es := by
  induction es with
  | nil => exact Nat.le_refl _
  | cons e es ih =>
    have hhead := h e List.mem_cons_self
    have htail := ih fun e' he' => h e' (List.mem_cons_of_mem _ he')
    simp only [removed, added, List.map_cons, List.sum_cons] at htail ⊢
    omega

/-- Edits that bring in no more than they take away do not move offsets up. -/
theorem moved_le {es : List TextEdit}
    (h : ∀ e ∈ es, byteLength e.newText.toList ≤ e.stop.toNat - e.start.toNat) (n : Nat) :
    moved es n ≤ n := by
  have hle := added_le_removed fun e he => h e ((upTo_sublist n es).subset he)
  unfold moved
  omega

theorem byteLength_splice? {text out : List Char} {start stop : Nat} {es : List TextEdit}
    (hrange : ∀ e ∈ es, e.start.toNat ≤ e.stop.toNat)
    (h : splice? text start stop es = some out) :
    start + byteLength out + removed es = stop + added es := by
  induction es generalizing start out with
  | nil =>
    obtain ⟨before, after, -, -, hstop⟩ := slice?_eq_some_iff.mp h
    exact hstop
  | cons e es ih =>
    obtain ⟨kept, rest, hkept, hrest, rfl⟩ := splice?_cons_eq_some_iff.mp h
    obtain ⟨before, after, -, -, hstart⟩ := slice?_eq_some_iff.mp hkept
    have hle := hrange e List.mem_cons_self
    have htail := ih (fun e' he' => hrange e' (List.mem_cons_of_mem _ he')) hrest
    simp only [removed, added, List.map_cons, List.sum_cons, byteLength_append] at htail ⊢
    omega

/-- A boundary that is inside no edit divides the edits, and what they make of the text. -/
theorem exists_splice?_split {text out : List Char} {start n stop : Nat} {es : List TextEdit}
    (hord : es.Pairwise Before) (hrange : ∀ e ∈ es, e.start < e.stop)
    (h : splice? text start stop es = some out) (hn : isBoundary text n = true)
    (hle : start ≤ n) (hge : n ≤ stop) (hclear : ∀ e ∈ es, e.stop.toNat ≤ n ∨ n ≤ e.start.toNat) :
    ∃ front back, splice? text start n (upTo n es) = some front ∧
      splice? text n stop (beyond n es) = some back ∧ out = front ++ back := by
  induction es generalizing start out with
  | nil => exact exists_slice?_split h hn hle hge
  | cons e es ih =>
    obtain ⟨kept, rest, hkept, hrest, rfl⟩ := splice?_cons_eq_some_iff.mp h
    obtain ⟨hbefore, hord⟩ := List.pairwise_cons.mp hord
    rcases hclear e List.mem_cons_self with hstop | hstart
    · obtain ⟨front, back, hfront, hback, rfl⟩ := ih hord
        (fun e' he' => hrange e' (List.mem_cons_of_mem _ he')) hrest hstop
        (fun e' he' => hclear e' (List.mem_cons_of_mem _ he'))
      refine ⟨kept ++ e.newText.toList ++ front, back, ?_, ?_, ?_⟩
      · rw [upTo, List.filter_cons_of_pos (by simpa using hstop)]
        exact splice?_cons_eq_some_iff.mpr ⟨kept, front, hkept, hfront, rfl⟩
      · rw [beyond, List.filter_cons_of_neg (by simpa using hstop)]
        exact hback
      · rw [List.append_assoc _ front]
    · have hlater : ∀ e' ∈ e :: es, n < e'.stop.toNat := by
        intro e' he'
        have hpos := UInt32.lt_iff_toNat_lt.mp (hrange e' he')
        rcases List.mem_cons.mp he' with rfl | he'
        · omega
        · have hlt := UInt32.lt_iff_toNat_lt.mp (hbefore e' he').1
          omega
      have hnone : upTo n (e :: es) = [] := by
        rw [upTo, List.filter_eq_nil_iff]
        intro e' he'
        simpa using hlater e' he'
      have hsame : beyond n (e :: es) = e :: es := by
        rw [beyond, List.filter_eq_self]
        intro e' he'
        exact decide_eq_true (hlater e' he')
      obtain ⟨front, back, hfront, hback, rfl⟩ := exists_slice?_split hkept hn hle hstart
      refine ⟨front, back ++ e.newText.toList ++ rest, hnone ▸ hfront, ?_, ?_⟩
      · rw [hsame]
        exact splice?_cons_eq_some_iff.mpr ⟨back, rest, hback, hrest, rfl⟩
      · simp only [List.append_assoc]

/-- The edit takes away something of the range, and nothing else. -/
def Within (start stop : Nat) (e : TextEdit) : Prop :=
  start ≤ e.start.toNat ∧ e.start.toNat < e.stop.toNat ∧ e.stop.toNat ≤ stop

/-- The edit takes away something, and nothing of the range. -/
def Outside (start stop : Nat) (e : TextEdit) : Prop :=
  e.start.toNat < e.stop.toNat ∧ (e.stop.toNat ≤ start ∨ stop ≤ e.start.toNat)

section Range
variable {start stop : Nat} {es inner : List TextEdit}

theorem beyond_upTo_append (es fs : List TextEdit) :
    beyond start (upTo stop (es ++ fs)) =
      beyond start (upTo stop es) ++ beyond start (upTo stop fs) := by
  unfold beyond upTo
  rw [List.filter_append, List.filter_append]

theorem beyond_upTo_of_within (h : ∀ e ∈ es, Within start stop e) :
    beyond start (upTo stop es) = es := by
  have hpassed : upTo stop es = es :=
    List.filter_eq_self.mpr fun e he => decide_eq_true (h e he).2.2
  rw [hpassed]
  refine List.filter_eq_self.mpr fun e he => decide_eq_true ?_
  obtain ⟨hle, hlt, -⟩ := h e he
  omega

theorem beyond_upTo_of_outside (h : ∀ e ∈ es, Outside start stop e) :
    beyond start (upTo stop es) = [] := by
  unfold beyond upTo
  rw [List.filter_filter, List.filter_eq_nil_iff]
  intro e he
  obtain ⟨hlt, hout⟩ := h e he
  rw [← Bool.decide_and, decide_eq_true_eq]
  omega

/-- Edits in order, of which some are within the range and all others outside it. -/
theorem beyond_upTo_eq {front back : List TextEdit} (hperm : es.Perm (front ++ inner ++ back))
    (hord : es.Pairwise Before) (hinord : inner.Pairwise Before)
    (hin : ∀ e ∈ inner, Within start stop e) (hfront : ∀ e ∈ front, Outside start stop e)
    (hback : ∀ e ∈ back, Outside start stop e) : beyond start (upTo stop es) = inner := by
  have hsame : (beyond start (upTo stop es)).Perm
      (beyond start (upTo stop (front ++ inner ++ back))) := (hperm.filter _).filter _
  rw [beyond_upTo_append, beyond_upTo_append, beyond_upTo_of_outside hfront,
    beyond_upTo_of_outside hback, beyond_upTo_of_within hin, List.nil_append, List.append_nil]
    at hsame
  refine List.Perm.eq_of_pairwise ?_ (hord.sublist (List.filter_sublist.trans List.filter_sublist))
    hinord hsame
  intro a b _ _ hab hba
  exact absurd hba.1 (UInt32.not_lt.mpr (UInt32.le_of_lt hab.1))

/-- Between the new offsets of a range stands what its edits make of the text there. -/
theorem exists_slice?_moved {text out : List Char} {front back : List TextEdit}
    (hperm : es.Perm (front ++ inner ++ back)) (hord : es.Pairwise Before)
    (hinord : inner.Pairwise Before) (hin : ∀ e ∈ inner, Within start stop e)
    (hfront : ∀ e ∈ front, Outside start stop e) (hback : ∀ e ∈ back, Outside start stop e)
    (h : splice? text 0 (byteLength text) es = some out) (hcut : isRange text start stop = true) :
    ∃ part, splice? text start stop inner = some part ∧
      slice? out (moved es start) (moved es stop) = some part := by
  obtain ⟨before, middle, after, htext, hbefore, hmiddle⟩ := isRange_iff.mp hcut
  have hcutstart : isBoundary text start = true :=
    isBoundary_iff.mpr ⟨before, middle ++ after, by rw [htext, List.append_assoc], hbefore⟩
  have hcutstop : isBoundary text stop = true :=
    isBoundary_iff.mpr ⟨before ++ middle, after, htext, by rw [byteLength_append]; omega⟩
  have hend : stop ≤ byteLength text := by
    rw [htext, byteLength_append, byteLength_append]
    omega
  have hside : ∀ e ∈ es, Within start stop e ∨ Outside start stop e := by
    intro e he
    rcases List.mem_append.mp (hperm.subset he) with he | he
    · rcases List.mem_append.mp he with he | he
      · exact Or.inr (hfront e he)
      · exact Or.inl (hin e he)
    · exact Or.inr (hback e he)
  have hrange : ∀ e ∈ es, e.start < e.stop := by
    intro e he
    rw [UInt32.lt_iff_toNat_lt]
    rcases hside e he with ⟨-, hlt, -⟩ | ⟨hlt, -⟩ <;> exact hlt
  have hclear : ∀ e ∈ es, (e.stop.toNat ≤ start ∨ start ≤ e.start.toNat) ∧
      (e.stop.toNat ≤ stop ∨ stop ≤ e.start.toNat) := by
    intro e he
    rcases hside e he with ⟨hle, hlt, hge⟩ | ⟨hlt, hout⟩ <;> omega
  obtain ⟨left, right, hleft, -, rfl⟩ :=
    exists_splice?_split hord hrange h hcutstop (Nat.zero_le _) hend fun e he => (hclear e he).2
  have hpassed := upTo_sublist stop es
  obtain ⟨head, part, hhead, hpart, rfl⟩ :=
    exists_splice?_split (hord.sublist hpassed) (fun e he => hrange e (hpassed.subset he)) hleft
      hcutstart (Nat.zero_le _) (by omega) fun e he => (hclear e (hpassed.subset he)).1
  rw [upTo_upTo (by omega)] at hhead
  rw [beyond_upTo_eq hperm hord hinord hin hfront hback] at hpart
  have hle : ∀ n, ∀ e ∈ upTo n es, e.start.toNat ≤ e.stop.toNat := by
    intro n e he
    exact UInt32.le_iff_toNat_le.mp (UInt32.le_of_lt (hrange e ((upTo_sublist n es).subset he)))
  have hlenhead := byteLength_splice? (hle start) hhead
  have hlenleft := byteLength_splice? (hle stop) hleft
  refine ⟨part, hpart, slice?_eq_some_iff.mpr ⟨head, right, rfl, ?_, ?_⟩⟩
  · unfold moved
    omega
  · rw [byteLength_append] at hlenleft
    unfold moved
    omega

end Range

end TemplateLint.TextEdit
