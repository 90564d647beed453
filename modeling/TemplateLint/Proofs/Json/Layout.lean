import TemplateLint.Proofs.Json.Content
import TemplateLint.Proofs.Json.Scalars

/-! A value that was written is read back, whatever blanks stand between its tokens, and whatever
stands behind it that does not go on with a number. Both ways of writing values are of this kind. -/
namespace TemplateLint.Json

/-! Blanks -/

theorem Cursor.skipBlanks_cons {c : Char} (hc : isBlank c = false) (offset : Nat)
    (cs : List Char) : Cursor.skipBlanks ⟨offset, c :: cs⟩ = ⟨offset, c :: cs⟩ := by
  simp [skipBlanks, advance, hc]

theorem Cursor.skipBlanks_append {blanks : List Char} (hblanks : ∀ c ∈ blanks, isBlank c = true)
    {c : Char} (hc : isBlank c = false) (offset : Nat) (cs : List Char) :
    Cursor.skipBlanks ⟨offset, blanks ++ c :: cs⟩ = ⟨offset + blanks.length, c :: cs⟩ := by
  have htake : (blanks ++ c :: cs).takeWhile isBlank = blanks := by
    rw [List.takeWhile_append_of_pos hblanks, List.takeWhile_cons_of_neg (by simp [hc]),
      List.append_nil]
  simp [skipBlanks, advance, htake]

theorem ne_of_isDigit {c d : Char} (hc : c.isDigit = true) (hd : d.isDigit = false) : c ≠ d := by
  rintro rfl
  simp [hc] at hd

theorem isBlank_of_isDigit {c : Char} (hc : c.isDigit = true) : isBlank c = false := by
  simp [isBlank, ne_of_isDigit hc (d := ' ') rfl, ne_of_isDigit hc (d := '\t') rfl,
    ne_of_isDigit hc (d := '\n') rfl, ne_of_isDigit hc (d := '\r') rfl]

/-! Layouts -/

/-- The blanks that a way of writing values puts between their tokens. -/
structure Layout where
  /-- Before an item, a member or a closing bracket at some depth. -/
  lineBreak : Nat → List Char
  afterColon : List Char
  blank_lineBreak : ∀ depth, ∀ c ∈ lineBreak depth, isBlank c = true
  blank_afterColon : ∀ c ∈ afterColon, isBlank c = true

namespace Layout

mutual

def text (l : Layout) (depth : Nat) : Value → List Char
  | .null => nullText
  | .boolean b => booleanText b
  | .natural n => naturalText n
  | .string s => stringText s
  | .array [] => ['[', ']']
  | .array (v :: vs) =>
    '[' :: l.lineBreak (depth + 1) ++ text l (depth + 1) v ++ moreItems l depth vs
  | .object [] => ['\x7b', '\x7d']
  | .object ((k, v) :: ms) =>
    '\x7b' :: l.lineBreak (depth + 1) ++ stringText k ++ ':' :: l.afterColon ++
      text l (depth + 1) v ++ moreMembers l depth ms

/-- The items after the first, and the closing bracket. -/
def moreItems (l : Layout) (depth : Nat) : List Value → List Char
  | [] => l.lineBreak depth ++ [']']
  | v :: vs => ',' :: l.lineBreak (depth + 1) ++ text l (depth + 1) v ++ moreItems l depth vs

def moreMembers (l : Layout) (depth : Nat) : List (String × Value) → List Char
  | [] => l.lineBreak depth ++ ['\x7d']
  | (k, v) :: ms =>
    ',' :: l.lineBreak (depth + 1) ++ stringText k ++ ':' :: l.afterColon ++
      text l (depth + 1) v ++ moreMembers l depth ms

end

def compact : Layout := ⟨fun _ => [], [], nofun, nofun⟩

def indented : Layout where
  lineBreak := Value.lineBreak
  afterColon := [' ']
  blank_lineBreak depth c hc := by
    rcases List.mem_cons.mp hc with rfl | hc
    · rfl
    · rw [List.eq_of_mem_replicate hc]
      rfl
  blank_afterColon c hc := by
    rw [List.mem_singleton.mp hc]
    rfl

mutual

theorem text_compact (depth : Nat) (v : Value) : compact.text depth v = v.compactText := by
  match v with
  | .null | .boolean _ | .natural _ | .string _ | .array [] | .object [] => rfl
  | .array (v :: vs) =>
    rw [text, text_compact, moreItems_compact]
    rfl
  | .object ((k, v) :: ms) =>
    rw [text, text_compact, moreMembers_compact, Value.compactText, Value.compactMembers]
    simp [compact]

theorem moreItems_compact (depth : Nat) (vs : List Value) :
    compact.moreItems depth vs = Value.compactMoreItems vs := by
  match vs with
  | [] => rfl
  | v :: vs =>
    rw [moreItems, text_compact, moreItems_compact]
    rfl

theorem moreMembers_compact (depth : Nat) (ms : List (String × Value)) :
    compact.moreMembers depth ms = Value.compactMoreMembers ms := by
  match ms with
  | [] => rfl
  | (k, v) :: ms =>
    rw [moreMembers, text_compact, moreMembers_compact, Value.compactMoreMembers]
    simp [compact]

end

mutual

theorem text_indented (depth : Nat) (v : Value) : indented.text depth v = v.prettyText depth := by
  match v with
  | .null | .boolean _ | .natural _ | .string _ | .array [] | .object [] => rfl
  | .array (v :: vs) =>
    rw [text, text_indented, moreItems_indented]
    rfl
  | .object ((k, v) :: ms) =>
    rw [text, text_indented, moreMembers_indented]
    rfl

theorem moreItems_indented (depth : Nat) (vs : List Value) :
    indented.moreItems depth vs = Value.prettyMoreItems depth vs := by
  match vs with
  | [] => rfl
  | v :: vs =>
    rw [moreItems, text_indented, moreItems_indented]
    rfl

theorem moreMembers_indented (depth : Nat) (ms : List (String × Value)) :
    indented.moreMembers depth ms = Value.prettyMoreMembers depth ms := by
  match ms with
  | [] => rfl
  | (k, v) :: ms =>
    rw [moreMembers, text_indented, moreMembers_indented]
    rfl

end

variable (l : Layout)

/-- What a value's text begins with is no blank and does not close an array. -/
theorem exists_text_eq_cons (depth : Nat) (v : Value) :
    ∃ c cs, l.text depth v = c :: cs ∧ isBlank c = false ∧ c ≠ ']' := by
  match v with
  | .null => exact ⟨'n', _, rfl, rfl, by decide⟩
  | .boolean b => cases b <;> exact ⟨_, _, rfl, rfl, by decide⟩
  | .natural n =>
    obtain ⟨c, cs, htext, hdigit⟩ := exists_naturalText_eq_cons n
    exact ⟨c, cs, htext, isBlank_of_isDigit hdigit, ne_of_isDigit hdigit rfl⟩
  | .string s => exact ⟨'"', _, rfl, rfl, by decide⟩
  | .array [] => exact ⟨'[', _, rfl, rfl, by decide⟩
  | .array (v :: vs) => exact ⟨'[', _, by rw [text]; rfl, rfl, by decide⟩
  | .object [] => exact ⟨'\x7b', _, rfl, rfl, by decide⟩
  | .object (m :: ms) => exact ⟨'\x7b', _, by rw [text]; rfl, rfl, by decide⟩

end Layout

/-! Steps of the reader -/

theorem readTree_of_skipBlanks {k k' : Cursor} (h : k.skipBlanks = k') (h' : k'.skipBlanks = k')
    (fuel : Nat) : readTree (fuel + 1) k = readTree (fuel + 1) k' := by
  rw [readTree, readTree, h, h']

theorem readTree_of_isDigit {c : Char} (hc : c.isDigit = true) (fuel offset : Nat)
    (cs : List Char) : readTree (fuel + 1) ⟨offset, c :: cs⟩ = readNumber ⟨offset, c :: cs⟩ := by
  rw [readTree, Cursor.skipBlanks_cons (isBlank_of_isDigit hc)]
  split
  next h => cases h
  next d ds h =>
    cases h
    split
    all_goals first
      | exact absurd hc (by decide)
      | simp [hc]

section Steps
variable {fuel start stop : Nat} {c : Char} {cs : List Char} {k last : Cursor} {value : Tree}
  {next : Cursor}

theorem readItems_close {rest : List Char} (hk : k.skipBlanks = ⟨start, ']' :: rest⟩) (fuel : Nat)
    (isFirst : Bool) :
    readItems (fuel + 1) isFirst k = (.close (start + 1), .ok ⟨start + 1, rest⟩) := by
  rw [readItems, hk]
  rfl

theorem readItems_first (hk : k.skipBlanks = ⟨start, c :: cs⟩) (hclose : c ≠ ']') {items : Items}
    (hvalue : readTree fuel ⟨start, c :: cs⟩ = (value, .ok next))
    (hitems : readItems fuel false next = (items, .ok last)) :
    readItems (fuel + 1) true k = (.item start value items, .ok last) := by
  rw [readItems, hk]
  split
  next h => cases h
  next h =>
    cases h
    exact absurd rfl hclose
  next => simp [hvalue, hitems]

theorem readItems_more {text : List Char}
    (hk : Cursor.skipBlanks ⟨stop + 1, text⟩ = ⟨start, c :: cs⟩)
    (hclose : c ≠ ']') {items : Items}
    (hvalue : readTree fuel ⟨start, c :: cs⟩ = (value, .ok next))
    (hitems : readItems fuel false next = (items, .ok last)) :
    readItems (fuel + 1) false ⟨stop, ',' :: text⟩ = (.item start value items, .ok last) := by
  have hcomma : Cursor.skipBlanks (Cursor.advance ⟨stop, ',' :: text⟩ 1) = ⟨start, c :: cs⟩ := hk
  rw [readItems, Cursor.skipBlanks_cons rfl]
  simp only [hcomma]
  split
  next h => cases h
  next h => cases h
  next h =>
    cases h
    simp [hclose, hvalue, hitems]

theorem readTree_array {items : Items}
    (h : readItems fuel true ⟨start + 1, cs⟩ = (items, .ok last)) :
    readTree (fuel + 1) ⟨start, '[' :: cs⟩ = (.array start items, .ok last) := by
  rw [readTree, Cursor.skipBlanks_cons rfl]
  simp [Cursor.advance, h]

theorem readMembers_close {rest : List Char} (hk : k.skipBlanks = ⟨start, '\x7d' :: rest⟩)
    (fuel : Nat) (isFirst : Bool) :
    readMembers (fuel + 1) isFirst k = (.close (start + 1), .ok ⟨start + 1, rest⟩) := by
  rw [readMembers, hk]
  rfl

theorem readMembers_first {text : List Char} {key : Tree} {members : Members}
    (hk : k.skipBlanks = ⟨start, '"' :: text⟩)
    (hkey : readString ⟨start, '"' :: text⟩ = (key, .ok ⟨stop, ':' :: cs⟩))
    (hvalue : readTree fuel ⟨stop + 1, cs⟩ = (value, .ok next))
    (hmembers : readMembers fuel false next = (members, .ok last)) :
    readMembers (fuel + 1) true k =
      (.member start key (resumeAfterKey ⟨stop, ':' :: cs⟩) value members, .ok last) := by
  have hcolon : Cursor.skipBlanks ⟨stop, ':' :: cs⟩ = ⟨stop, ':' :: cs⟩ :=
    Cursor.skipBlanks_cons rfl stop cs
  rw [readMembers, hk]
  simp [hkey, hcolon, Cursor.advance, hvalue, hmembers]

theorem readMembers_more {offset : Nat} {text text' : List Char} {key : Tree} {members : Members}
    (hk : Cursor.skipBlanks ⟨offset + 1, text⟩ = ⟨start, '"' :: text'⟩)
    (hkey : readString ⟨start, '"' :: text'⟩ = (key, .ok ⟨stop, ':' :: cs⟩))
    (hvalue : readTree fuel ⟨stop + 1, cs⟩ = (value, .ok next))
    (hmembers : readMembers fuel false next = (members, .ok last)) :
    readMembers (fuel + 1) false ⟨offset, ',' :: text⟩ =
      (.member offset key (resumeAfterKey ⟨stop, ':' :: cs⟩) value members, .ok last) := by
  have hcolon : Cursor.skipBlanks ⟨stop, ':' :: cs⟩ = ⟨stop, ':' :: cs⟩ :=
    Cursor.skipBlanks_cons rfl stop cs
  have hcomma : Cursor.skipBlanks (Cursor.advance ⟨offset, ',' :: text⟩ 1) =
      ⟨start, '"' :: text'⟩ := hk
  rw [readMembers, Cursor.skipBlanks_cons rfl]
  simp only [hcomma]
  simp [hkey, hcolon, Cursor.advance, hvalue, hmembers]

theorem readTree_object {members : Members}
    (h : readMembers fuel true ⟨start + 1, cs⟩ = (members, .ok last)) :
    readTree (fuel + 1) ⟨start, '\x7b' :: cs⟩ = (.object start members, .ok last) := by
  rw [readTree, Cursor.skipBlanks_cons rfl]
  simp [Cursor.advance, h]

end Steps

theorem endsNumber_of_blanks {blanks : List Char} (hblanks : ∀ c ∈ blanks, isBlank c = true)
    {c : Char} (hc : c = ',' ∨ c = ']' ∨ c = '\x7d') (cs : List Char) :
    EndsNumber (blanks ++ c :: cs) := by
  cases blanks with
  | nil =>
    rintro d hd
    obtain rfl : c = d := by simpa using hd
    rcases hc with rfl | rfl | rfl <;> decide
  | cons b blanks =>
    rintro d hd
    obtain rfl : b = d := by simpa using hd
    have hb := hblanks b List.mem_cons_self
    simp only [isBlank, Bool.or_eq_true, decide_eq_true_eq] at hb
    rcases hb with ((rfl | rfl) | rfl) | rfl <;> decide

namespace Layout
variable (l : Layout)

theorem endsNumber_moreItems (depth : Nat) (vs : List Value) (rest : List Char) :
    EndsNumber (l.moreItems depth vs ++ rest) := by
  cases vs with
  | nil =>
    rw [moreItems, List.append_assoc]
    exact endsNumber_of_blanks (l.blank_lineBreak depth) (by simp) _
  | cons v vs =>
    rw [moreItems]
    exact endsNumber_of_blanks (List.forall_mem_nil _) (by simp) _

theorem endsNumber_moreMembers (depth : Nat) (ms : List (String × Value)) (rest : List Char) :
    EndsNumber (l.moreMembers depth ms ++ rest) := by
  cases ms with
  | nil =>
    rw [moreMembers, List.append_assoc]
    exact endsNumber_of_blanks (l.blank_lineBreak depth) (by simp) _
  | cons m ms =>
    rw [moreMembers]
    exact endsNumber_of_blanks (List.forall_mem_nil _) (by simp) _

theorem text_length_pos (depth : Nat) (v : Value) : 0 < (l.text depth v).length := by
  obtain ⟨c, cs, h, -⟩ := l.exists_text_eq_cons depth v
  simp [h]

theorem moreItems_length_pos (depth : Nat) (vs : List Value) :
    0 < (l.moreItems depth vs).length := by
  cases vs <;> simp [moreItems]

/-- Reading skips the blanks in front of a value. -/
theorem readTree_blanks {blanks : List Char} (hblanks : ∀ c ∈ blanks, isBlank c = true)
    {fuel : Nat} (hfuel : fuel ≠ 0) (depth : Nat) (v : Value) (offset : Nat) (rest : List Char) :
    readTree fuel ⟨offset, blanks ++ (l.text depth v ++ rest)⟩ =
      readTree fuel ⟨offset + blanks.length, l.text depth v ++ rest⟩ := by
  obtain ⟨fuel, rfl⟩ := Nat.exists_eq_succ_of_ne_zero hfuel
  obtain ⟨c, cs, htext, hblank, -⟩ := l.exists_text_eq_cons depth v
  rw [htext, List.cons_append]
  exact readTree_of_skipBlanks (Cursor.skipBlanks_append hblanks hblank _ _)
    (Cursor.skipBlanks_cons hblank _ _) fuel

mutual

/-- Fuel for every character of the text is enough. -/
theorem readTree_text (depth : Nat) (v : Value) (hsmall : v.Small) (fuel offset : Nat)
    (rest : List Char) (hfuel : (l.text depth v).length ≤ fuel) (hrest : EndsNumber rest) :
    ∃ t stop, readTree fuel ⟨offset, l.text depth v ++ rest⟩ = (t, .ok ⟨stop, rest⟩) ∧
      t.value? = some v := by
  have hpos := l.text_length_pos depth v
  obtain ⟨fuel, rfl⟩ := Nat.exists_eq_succ_of_ne_zero (show fuel ≠ 0 by omega)
  match v with
  | .null =>
    obtain ⟨stop, h⟩ := readName_append "null".toList rest .null offset
    exact ⟨_, stop, h, rfl⟩
  | .boolean false =>
    obtain ⟨stop, h⟩ := readName_append "false".toList rest (.boolean false) offset
    exact ⟨_, stop, h, rfl⟩
  | .boolean true =>
    obtain ⟨stop, h⟩ := readName_append "true".toList rest (.boolean true) offset
    exact ⟨_, stop, h, rfl⟩
  | .natural n =>
    cases hsmall with
    | natural hn =>
      obtain ⟨stop, h⟩ := readNumber_naturalText hn hrest offset
      obtain ⟨c, cs, htext, hdigit⟩ := exists_naturalText_eq_cons n
      refine ⟨.atom offset stop (.number (.natural n)), stop, ?_, rfl⟩
      rw [text, ← h, htext]
      exact readTree_of_isDigit hdigit fuel offset _
  | .string s =>
    obtain ⟨stop, h⟩ := readString_stringText s rest offset
    exact ⟨_, stop, h, rfl⟩
  | .array [] =>
    rw [text, List.length_cons, List.length_singleton] at hfuel
    obtain ⟨fuel, rfl⟩ := Nat.exists_eq_succ_of_ne_zero (show fuel ≠ 0 by omega)
    have hclose : Cursor.skipBlanks ⟨offset + 1, ']' :: rest⟩ = ⟨offset + 1, ']' :: rest⟩ :=
      Cursor.skipBlanks_cons rfl _ _
    exact ⟨_, offset + 2, readTree_array (readItems_close hclose fuel true), rfl⟩
  | .array (v :: vs) =>
    cases hsmall with
    | array hall =>
      have hlength := l.text_length_pos (depth + 1) v
      have hmore := l.moreItems_length_pos depth vs
      rw [text, List.length_append, List.length_append, List.length_cons] at hfuel
      obtain ⟨fuel, rfl⟩ := Nat.exists_eq_succ_of_ne_zero (show fuel ≠ 0 by omega)
      obtain ⟨value, next, hvalue, hv⟩ := readTree_text (depth + 1) v (hall v List.mem_cons_self)
        fuel (offset + 1 + (l.lineBreak (depth + 1)).length) (l.moreItems depth vs ++ rest)
        (by omega) (l.endsNumber_moreItems depth vs rest)
      obtain ⟨items, stop, hitems, hvs⟩ := readItems_moreItems depth vs
        (fun v hv => hall v (List.mem_cons_of_mem _ hv)) fuel next rest (by omega)
      obtain ⟨c, cs, hcs, hblank, hclose⟩ := l.exists_text_eq_cons (depth + 1) v
      rw [hcs, List.cons_append] at hvalue
      have hstep := readItems_first
        (Cursor.skipBlanks_append (l.blank_lineBreak (depth + 1)) hblank (offset + 1) _) hclose
        hvalue hitems
      refine ⟨_, stop, Eq.trans ?_ (readTree_array hstep),
        by rw [Tree.value?, Items.values?_item hv hvs]; rfl⟩
      simp [text, hcs]
  | .object [] =>
    rw [text, List.length_cons, List.length_singleton] at hfuel
    obtain ⟨fuel, rfl⟩ := Nat.exists_eq_succ_of_ne_zero (show fuel ≠ 0 by omega)
    have hclose : Cursor.skipBlanks ⟨offset + 1, '\x7d' :: rest⟩ = ⟨offset + 1, '\x7d' :: rest⟩ :=
      Cursor.skipBlanks_cons rfl _ _
    exact ⟨_, offset + 2, readTree_object (readMembers_close hclose fuel true), rfl⟩
  | .object ((k, v) :: ms) =>
    cases hsmall with
    | object hall =>
      have hlength := l.text_length_pos (depth + 1) v
      simp only [text, List.length_append, List.length_cons] at hfuel
      obtain ⟨fuel, rfl⟩ := Nat.exists_eq_succ_of_ne_zero (show fuel ≠ 0 by omega)
      obtain ⟨colon, hkey⟩ := readString_stringText k
        (':' :: (l.afterColon ++ (l.text (depth + 1) v ++ (l.moreMembers depth ms ++ rest))))
        (offset + 1 + (l.lineBreak (depth + 1)).length)
      obtain ⟨value, next, hvalue, hv⟩ := readTree_text (depth + 1) v
        (hall _ List.mem_cons_self) fuel (colon + 1 + l.afterColon.length)
        (l.moreMembers depth ms ++ rest) (by omega) (l.endsNumber_moreMembers depth ms rest)
      obtain ⟨members, stop, hmembers, hms⟩ := readMembers_moreMembers depth ms
        (fun m hm => hall m (List.mem_cons_of_mem _ hm)) fuel next rest (by omega)
      have hfuel' : fuel ≠ 0 := by omega
      rw [← l.readTree_blanks l.blank_afterColon hfuel'] at hvalue
      have hstep := readMembers_first
        (Cursor.skipBlanks_append (l.blank_lineBreak (depth + 1)) rfl (offset + 1) _) hkey
        hvalue hmembers
      refine ⟨_, stop, Eq.trans ?_ (readTree_object hstep),
        by rw [Tree.value?, Members.values?_member rfl hv hms]; rfl⟩
      simp [text, stringText]

theorem readItems_moreItems (depth : Nat) (vs : List Value) (hsmall : ∀ v ∈ vs, v.Small)
    (fuel offset : Nat) (rest : List Char) (hfuel : (l.moreItems depth vs).length ≤ fuel) :
    ∃ items stop, readItems fuel false ⟨offset, l.moreItems depth vs ++ rest⟩ =
      (items, .ok ⟨stop, rest⟩) ∧ items.values? = some vs := by
  match vs with
  | [] =>
    obtain ⟨fuel, rfl⟩ := Nat.exists_eq_succ_of_ne_zero
      (Nat.ne_of_gt ((l.moreItems_length_pos depth []).trans_le hfuel))
    rw [moreItems, List.append_assoc]
    exact ⟨_, _, readItems_close
      (Cursor.skipBlanks_append (l.blank_lineBreak depth) rfl offset rest) fuel false, rfl⟩
  | v :: vs =>
    have hlength := l.text_length_pos (depth + 1) v
    have hmore := l.moreItems_length_pos depth vs
    rw [moreItems, List.length_append, List.length_append, List.length_cons] at hfuel
    obtain ⟨fuel, rfl⟩ := Nat.exists_eq_succ_of_ne_zero (show fuel ≠ 0 by omega)
    obtain ⟨value, next, hvalue, hv⟩ := readTree_text (depth + 1) v
      (hsmall v List.mem_cons_self) fuel (offset + 1 + (l.lineBreak (depth + 1)).length)
      (l.moreItems depth vs ++ rest) (by omega) (l.endsNumber_moreItems depth vs rest)
    obtain ⟨items, stop, hitems, hvs⟩ := readItems_moreItems depth vs
      (fun v hv => hsmall v (List.mem_cons_of_mem _ hv)) fuel next rest (by omega)
    obtain ⟨c, cs, hcs, hblank, hclose⟩ := l.exists_text_eq_cons (depth + 1) v
    rw [hcs, List.cons_append] at hvalue
    have hstep := readItems_more
      (Cursor.skipBlanks_append (l.blank_lineBreak (depth + 1)) hblank (offset + 1) _) hclose
      hvalue hitems
    refine ⟨_, stop, Eq.trans ?_ hstep, Items.values?_item hv hvs⟩
    simp [moreItems, hcs]

theorem readMembers_moreMembers (depth : Nat) (ms : List (String × Value))
    (hsmall : ∀ m ∈ ms, m.2.Small) (fuel offset : Nat) (rest : List Char)
    (hfuel : (l.moreMembers depth ms).length ≤ fuel) :
    ∃ members stop, readMembers fuel false ⟨offset, l.moreMembers depth ms ++ rest⟩ =
      (members, .ok ⟨stop, rest⟩) ∧ members.values? = some ms := by
  match ms with
  | [] =>
    have hpos : 0 < (l.moreMembers depth []).length := by simp [moreMembers]
    obtain ⟨fuel, rfl⟩ := Nat.exists_eq_succ_of_ne_zero (Nat.ne_of_gt (hpos.trans_le hfuel))
    rw [moreMembers, List.append_assoc]
    exact ⟨_, _, readMembers_close
      (Cursor.skipBlanks_append (l.blank_lineBreak depth) rfl offset rest) fuel false, rfl⟩
  | (k, v) :: ms =>
    have hlength := l.text_length_pos (depth + 1) v
    simp only [moreMembers, List.length_append, List.length_cons] at hfuel
    obtain ⟨fuel, rfl⟩ := Nat.exists_eq_succ_of_ne_zero (show fuel ≠ 0 by omega)
    obtain ⟨colon, hkey⟩ := readString_stringText k
      (':' :: (l.afterColon ++ (l.text (depth + 1) v ++ (l.moreMembers depth ms ++ rest))))
      (offset + 1 + (l.lineBreak (depth + 1)).length)
    obtain ⟨value, next, hvalue, hv⟩ := readTree_text (depth + 1) v
      (hsmall _ List.mem_cons_self) fuel (colon + 1 + l.afterColon.length)
      (l.moreMembers depth ms ++ rest) (by omega) (l.endsNumber_moreMembers depth ms rest)
    obtain ⟨members, stop, hmembers, hms⟩ := readMembers_moreMembers depth ms
      (fun m hm => hsmall m (List.mem_cons_of_mem _ hm)) fuel next rest (by omega)
    have hfuel' : fuel ≠ 0 := by omega
    rw [← l.readTree_blanks l.blank_afterColon hfuel'] at hvalue
    have hstep := readMembers_more
      (Cursor.skipBlanks_append (l.blank_lineBreak (depth + 1)) rfl (offset + 1) _) hkey
      hvalue hmembers
    refine ⟨_, stop, Eq.trans ?_ hstep, Members.values?_member rfl hv hms⟩
    simp [moreMembers, stringText]

end

theorem exists_spells_text (v : Value) (hsmall : v.Small) :
    ∃ t, Spells (String.ofList (l.text 0 v)) t ∧ t.value? = some v := by
  have hfuel : (l.text 0 v).length ≤ 2 * (String.ofList (l.text 0 v)).length + 2 := by
    rw [String.length_ofList]
    omega
  obtain ⟨t, stop, hread, hvalue⟩ := l.readTree_text 0 v hsmall _ 0 [] hfuel nofun
  refine ⟨t, ⟨⟨stop, []⟩, ?_, rfl⟩, hvalue⟩
  rw [Tree.ofString, Cursor.ofString, ← hread, List.append_nil, String.toList_ofList]

end Layout

theorem exists_spells_compact (v : Value) (hsmall : v.Small) :
    ∃ t, Spells v.compact t ∧ t.value? = some v := by
  rw [Value.compact, ← Layout.text_compact 0]
  exact Layout.compact.exists_spells_text v hsmall

theorem exists_spells_pretty (v : Value) (hsmall : v.Small) :
    ∃ t, Spells v.pretty t ∧ t.value? = some v := by
  rw [Value.pretty, ← Layout.text_indented 0]
  exact Layout.indented.exists_spells_text v hsmall

end TemplateLint.Json
