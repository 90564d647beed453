import TemplateLint.Proofs.Checked
import TemplateLint.Proofs.Text.Positions

/-! The lookup of a position by halving the line starts, in 32-bit numbers and with everything that
could stop it made to stop it. It never stops, and its positions are those of a scan. -/
namespace TemplateLint.Text.LineIndex

/-- What would stop a lookup. -/
inductive Fault where
  /-- An entry that is not there. -/
  | outside
  /-- A difference below zero. -/
  | underflow
deriving Repr, DecidableEq

/-- Where a search ends: at an entry with the value, or where one could be put in. -/
inductive Place where
  | found (i : Nat)
  | missing (next : Nat)
deriving Repr, DecidableEq

namespace Strict

def entry (xs : List UInt32) (i : Nat) : Except Fault UInt32 :=
  match xs[i]? with
  | some x => .ok x
  | none => .error .outside

/-- Halves the `size` entries from `base` on until one is left. -/
def narrow (xs : List UInt32) (x : UInt32) (base size : Nat) : Except Fault Nat :=
  if 1 < size then do
    let middle ← entry xs (base + size / 2)
    narrow xs x (if x < middle then base else base + size / 2) (size - size / 2)
  else return base
termination_by size

def search (xs : List UInt32) (x : UInt32) : Except Fault Place :=
  if xs = [] then return .missing 0
  else do
    let base ← narrow xs x 0 xs.length
    let last ← entry xs base
    if last = x then return .found base
    else if last < x then return .missing (base + 1)
    else return .missing base

/-- The line of an offset, counted from zero. -/
def line (starts : List UInt32) (offset : UInt32) : Except Fault Nat := do
  match ← search starts offset with
  | .found i => return i
  | .missing next => checkedSub .underflow next 1

/-- Line and column of an offset. The last two sums begin at zero again behind the largest number,
which takes a text of `2 ^ 32 - 1` bytes. -/
def lineColumn (index : LineIndex) (offset : UInt32) : Except Fault (UInt32 × UInt32) := do
  let starts := index.starts.map Nat.toUInt32
  let stop := min offset (byteLength index.text).toUInt32
  let line ← line starts stop
  let start ← entry starts line
  let rest ← checkedSub .underflow stop.toNat start.toNat
  let column :=
    match slice? index.text start.toNat stop.toNat with
    | some cs => cs.length
    | none => rest
  return (line.toUInt32 + 1, column.toUInt32 + 1)

theorem entry_ok {xs : List UInt32} {i : Nat} {x : UInt32} (h : xs[i]? = some x) :
    entry xs i = .ok x := by
  unfold entry
  rw [h]

/-! The search -/
section Search
variable {xs : List UInt32} {x : UInt32}

/-- What is known of the entries outside the range that is still searched. -/
structure Narrowed (xs : List UInt32) (x : UInt32) (base size : Nat) : Prop where
  fits : base + size ≤ xs.length
  begun : base ≠ 0 → ∀ y, xs[base]? = some y → y ≤ x
  later : ∀ j y, base + size ≤ j → xs[j]? = some y → x < y

theorem lt_of_ascending (hxs : xs.Pairwise (· < ·)) {i j : Nat} {a b : UInt32}
    (ha : xs[i]? = some a) (hb : xs[j]? = some b) (h : i < j) : a < b := by
  obtain ⟨hi, rfl⟩ := List.getElem?_eq_some_iff.mp ha
  obtain ⟨hj, rfl⟩ := List.getElem?_eq_some_iff.mp hb
  exact List.pairwise_iff_getElem.mp hxs i j hi hj h

theorem Narrowed.start : Narrowed xs x 0 xs.length where
  fits := (Nat.zero_add _).le
  begun h := absurd rfl h
  later j y hj hy := by
    obtain ⟨hlt, -⟩ := List.getElem?_eq_some_iff.mp hy
    omega

theorem Narrowed.left {base size : Nat} (h : Narrowed xs x base size)
    (hxs : xs.Pairwise (· < ·)) {middle : UInt32}
    (hmiddle : xs[base + size / 2]? = some middle) (hlt : x < middle) :
    Narrowed xs x base (size - size / 2) where
  fits := by
    have := h.fits
    omega
  begun := h.begun
  later j y hj hy := by
    rcases Nat.lt_or_eq_of_le (show base + size / 2 ≤ j by omega) with hlater | rfl
    · exact UInt32.lt_trans hlt (lt_of_ascending hxs hmiddle hy hlater)
    · rw [hmiddle, Option.some.injEq] at hy
      rwa [← hy]

theorem Narrowed.right {base size : Nat} (h : Narrowed xs x base size) {middle : UInt32}
    (hmiddle : xs[base + size / 2]? = some middle) (hle : middle ≤ x) :
    Narrowed xs x (base + size / 2) (size - size / 2) where
  fits := by
    have := h.fits
    omega
  begun _ y hy := by
    rw [hmiddle, Option.some.injEq] at hy
    rwa [← hy]
  later j y hj hy := h.later j y (by omega) hy

theorem narrow_ok (hxs : xs.Pairwise (· < ·)) {base size : Nat} (hsize : 0 < size)
    (h : Narrowed xs x base size) :
    ∃ i, narrow xs x base size = .ok i ∧ Narrowed xs x i 1 := by
  induction base, size using narrow.induct (x := x) with
  | case1 base size hmore ih =>
    have hfits := h.fits
    have hmiddle := List.getElem?_eq_getElem (l := xs) (i := base + size / 2) (by omega)
    rw [narrow, if_pos hmore, entry_ok hmiddle, bind_ok]
    apply ih _ (by omega)
    split
    next hlt => exact h.left hxs hmiddle hlt
    next hlt => exact h.right hmiddle (UInt32.not_lt.mp hlt)
  | case2 base size hdone =>
    obtain rfl : size = 1 := by omega
    refine ⟨base, ?_, h⟩
    rw [narrow, if_neg hdone]
    rfl

/-- The line that is found is the last that begins up to the offset. -/
theorem line_ok (hxs : xs.Pairwise (· < ·)) (hfirst : xs[0]? = some 0) (x : UInt32) :
    ∃ i < xs.length, line xs x = .ok i ∧ ∀ j y, xs[j]? = some y → (y ≤ x ↔ j ≤ i) := by
  have hlength : 0 < xs.length := (List.getElem?_eq_some_iff.mp hfirst).1
  obtain ⟨i, hnarrow, h⟩ := narrow_ok hxs hlength (Narrowed.start (x := x))
  have hi : i < xs.length := h.fits
  have hlast := List.getElem?_eq_getElem hi
  have hle : xs[i] ≤ x := by
    rcases Nat.eq_zero_or_pos i with rfl | hpos
    · rw [hlast, Option.some.injEq] at hfirst
      rw [hfirst]
      exact UInt32.zero_le
    · exact h.begun (by omega) _ hlast
  refine ⟨i, hi, ?_, fun j y hy => ⟨fun hyx => ?_, fun hji => ?_⟩⟩
  · have hnonempty : xs ≠ [] := List.ne_nil_of_length_pos hlength
    rw [line, search, if_neg hnonempty, hnarrow, bind_ok, entry_ok hlast, bind_ok]
    by_cases heq : xs[i] = x
    · rw [if_pos heq]
      rfl
    · rw [if_neg heq, if_pos (UInt32.lt_of_le_of_ne hle heq)]
      show checkedSub Fault.underflow (i + 1) 1 = .ok i
      exact checkedSub_ok (Nat.le_add_left 1 i)
  · by_contra hlater
    exact absurd (h.later j y (by omega) hy) (UInt32.not_lt.mpr hyx)
  · rcases Nat.lt_or_eq_of_le hji with hlt | rfl
    · exact UInt32.le_trans (UInt32.le_of_lt (lt_of_ascending hxs hy hlast hlt)) hle
    · rw [hlast, Option.some.injEq] at hy
      rwa [← hy]

end Search

/-! The lookup -/

theorem takeWhile_eq_take {ns : List Nat} {i stop : Nat}
    (h : ∀ j n, ns[j]? = some n → (n ≤ stop ↔ j ≤ i)) :
    ns.takeWhile (· ≤ stop) = ns.take (i + 1) := by
  have hbegun : ∀ n ∈ ns.take (i + 1), decide (n ≤ stop) = true := by
    intro n hn
    obtain ⟨j, hj, rfl⟩ := List.mem_take_iff_getElem.mp hn
    exact decide_eq_true ((h j _ (List.getElem?_eq_getElem _)).mpr (by omega))
  have hlater : (ns.drop (i + 1)).takeWhile (· ≤ stop) = [] := by
    rw [List.takeWhile_eq_nil_iff]
    intro hpos hle
    rw [List.get_eq_getElem, List.getElem_drop] at hle
    have hji := (h _ _ (List.getElem?_eq_getElem _)).mp (of_decide_eq_true hle)
    omega
  conv_lhs => rw [← List.take_append_drop (i + 1) ns]
  rw [List.takeWhile_append_of_pos hbegun, hlater, List.append_nil]

section Size
variable {text : List Char} (hsize : byteLength text < UInt32.size)
include hsize

theorem toNat_start {n : Nat} (h : n ∈ (ofText text).starts) : n.toUInt32.toNat = n := by
  have hle : n ≤ byteLength text := by
    rcases List.mem_cons.mp h with rfl | h
    · exact Nat.zero_le _
    · have := le_of_mem_lineStartsFrom h
      omega
  exact UInt32.toNat_ofNat_of_lt' (Nat.lt_of_le_of_lt hle hsize)

theorem starts_ascending : ((ofText text).starts.map Nat.toUInt32).Pairwise (· < ·) := by
  apply List.pairwise_map.mpr
  refine (starts_pairwise text).imp_of_mem fun ha hb hlt => ?_
  rw [UInt32.lt_iff_toNat_lt, toNat_start hsize ha, toNat_start hsize hb]
  exact hlt

/-- The lookup ends with the position of the offset. -/
theorem lineColumn_ok (offset : UInt32) :
    lineColumn (ofText text) offset =
      .ok (((ofText text).lineColumn offset.toNat).1.toUInt32,
        ((ofText text).lineColumn offset.toNat).2.toUInt32) := by
  have hstop : (min offset (byteLength text).toUInt32).toNat =
      min offset.toNat (byteLength text) := by
    have hlength : (byteLength text).toUInt32.toNat = byteLength text :=
      UInt32.toNat_ofNat_of_lt' hsize
    rw [UInt32.toNat_min, hlength]
  obtain ⟨i, hi, hline, hlast⟩ :=
    line_ok (starts_ascending hsize) rfl (min offset (byteLength text).toUInt32)
  rw [List.length_map] at hi
  have hmem : (ofText text).starts[i] ∈ (ofText text).starts := List.getElem_mem hi
  have hentry : entry ((ofText text).starts.map Nat.toUInt32) i =
      .ok (ofText text).starts[i].toUInt32 := by
    apply entry_ok
    rw [List.getElem?_map, List.getElem?_eq_getElem hi, Option.map_some]
  have hbegun : ∀ j n, (ofText text).starts[j]? = some n →
      (n ≤ min offset.toNat (byteLength text) ↔ j ≤ i) := by
    intro j n hn
    rw [← hlast j n.toUInt32 (by rw [List.getElem?_map, hn, Option.map_some]),
      UInt32.le_iff_toNat_le, toNat_start hsize (List.mem_of_getElem? hn), hstop]
  have htake := takeWhile_eq_take hbegun
  have hstart : ((ofText text).starts.take (i + 1)).getLastD 0 = (ofText text).starts[i] := by
    rw [List.getLastD_eq_getLast?, List.getLast?_take, if_neg (Nat.succ_ne_zero i),
      Nat.add_sub_cancel, List.getElem?_eq_getElem hi]
    rfl
  have hle := (hbegun i _ (List.getElem?_eq_getElem hi)).mpr (Nat.le_refl i)
  have hcount : ((ofText text).starts.take (i + 1)).length = i + 1 := by
    rw [List.length_take]
    omega
  unfold lineColumn LineIndex.lineColumn
  dsimp only
  rw [show (ofText text).text = text from rfl, hline, bind_ok, hentry, bind_ok, hstop,
    toNat_start hsize hmem, checkedSub_ok hle, bind_ok, htake, hstart, hcount, Nat.toUInt32,
    UInt32.ofNat_add, UInt32.ofNat_add]
  rfl

end Size

end Strict

/-- Different numbers from one to `2 ^ 32` are different in 32 bits. -/
theorem toUInt32_inj {a b : Nat} (ha : 0 < a) (ha' : a ≤ UInt32.size) (hb : 0 < b)
    (hb' : b ≤ UInt32.size) (h : a.toUInt32 = b.toUInt32) : a = b := by
  have hnat := congrArg UInt32.toNat h
  rw [Nat.toUInt32, UInt32.toNat_ofNat', UInt32.toNat_ofNat'] at hnat
  change a % UInt32.size = b % UInt32.size at hnat
  rcases Nat.lt_or_eq_of_le ha' with hlt | rfl <;> rcases Nat.lt_or_eq_of_le hb' with hlt' | rfl
  · rwa [Nat.mod_eq_of_lt hlt, Nat.mod_eq_of_lt hlt'] at hnat
  · rw [Nat.mod_eq_of_lt hlt, Nat.mod_self] at hnat
    omega
  · rw [Nat.mod_eq_of_lt hlt', Nat.mod_self] at hnat
    omega
  · rfl

theorem lineCount_eq (text : List Char) :
    (ofText text).lineCount = 1 + (bytes text).count lineFeed := by
  rw [count_bytes, ← length_lineStartsFrom 0 text]
  exact Nat.add_comm ..

/-- Line and column begin at one, and exceed the length of the text by one at most. -/
theorem lineColumn_bounds (text : List Char) (offset : Nat) :
    (0 < ((ofText text).lineColumn offset).1 ∧
      ((ofText text).lineColumn offset).1 ≤ byteLength text + 1) ∧
    0 < ((ofText text).lineColumn offset).2 ∧
      ((ofText text).lineColumn offset).2 ≤ byteLength text + 1 := by
  have hin : min offset (byteLength text) ≤ byteLength text := Nat.min_le_right ..
  rw [lineColumn_min]
  have hle := lineColumn_le text (min offset (byteLength text))
  have hline := (scanned_lineColumn hin).line_eq
  refine ⟨⟨by omega, by omega⟩, Nat.succ_pos _, by omega⟩

/-- The lookup of any offset ends, and tells the line and the column that a scan up to the offset,
or to the end of the text, tells. There is a line more than there are line feeds, and different
places between characters have different positions. -/
theorem lookup_scans {text : List Char} (hsize : byteLength text < UInt32.size) :
    (∀ offset : UInt32, ∃ line column,
      Strict.lineColumn (ofText text) offset = .ok (line.toUInt32, column.toUInt32) ∧
        (ofText text).lineColumn offset.toNat = (line, column) ∧
        line ≤ byteLength text + 1 ∧ column ≤ byteLength text + 1 ∧
        Scanned text (min offset.toNat (byteLength text)) line column) ∧
      (ofText text).lineCount = 1 + (bytes text).count lineFeed ∧
      ∀ a b : UInt32, isBoundary text a.toNat = true → isBoundary text b.toNat = true →
        Strict.lineColumn (ofText text) a = Strict.lineColumn (ofText text) b → a = b := by
  refine ⟨fun offset => ?_, lineCount_eq text, fun a b ha hb heq => ?_⟩
  · obtain ⟨⟨-, hline⟩, -, hcolumn⟩ := lineColumn_bounds text offset.toNat
    have hscanned := scanned_lineColumn (Nat.min_le_right offset.toNat (byteLength text))
    rw [← lineColumn_min] at hscanned
    exact ⟨_, _, Strict.lineColumn_ok hsize offset, rfl, hline, hcolumn, hscanned⟩
  · rw [Strict.lineColumn_ok hsize, Strict.lineColumn_ok hsize, Except.ok.injEq,
      Prod.mk.injEq] at heq
    obtain ⟨⟨hline, hline'⟩, hcolumn, hcolumn'⟩ := lineColumn_bounds text a.toNat
    obtain ⟨⟨kline, kline'⟩, kcolumn, kcolumn'⟩ := lineColumn_bounds text b.toNat
    have hsame : (ofText text).lineColumn a.toNat = (ofText text).lineColumn b.toNat :=
      Prod.ext (toUInt32_inj hline (by omega) kline (by omega) heq.1)
        (toUInt32_inj hcolumn (by omega) kcolumn (by omega) heq.2)
    exact UInt32.toNat_inj.mp (lineColumn_injective ha hb hsame)

theorem lookup_scans_two_lines :
    byteLength ['a', 'é', '\n', 'b'] < UInt32.size ∧
      Strict.lineColumn (ofText ['a', 'é', '\n', 'b']) 2 = .ok (1, 3) ∧
      Strict.lineColumn (ofText ['a', 'é', '\n', 'b']) 9 = .ok (2, 2) := by
  have hsize : byteLength ['a', 'é', '\n', 'b'] < UInt32.size := by decide
  have hinside : (ofText ['a', 'é', '\n', 'b']).lineColumn 2 = (1, 3) := by decide
  have hbehind : (ofText ['a', 'é', '\n', 'b']).lineColumn 9 = (2, 2) := by decide
  obtain ⟨line, column, hlookup, hat, -⟩ := (lookup_scans hsize).1 2
  obtain ⟨line', column', hlookup', hat', -⟩ := (lookup_scans hsize).1 9
  obtain ⟨rfl, rfl⟩ := Prod.mk.inj (hat.symm.trans hinside)
  obtain ⟨rfl, rfl⟩ := Prod.mk.inj (hat'.symm.trans hbehind)
  exact ⟨hsize, hlookup, hlookup'⟩

end TemplateLint.Text.LineIndex
