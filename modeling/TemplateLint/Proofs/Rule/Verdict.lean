import TemplateLint.Proofs.Rule.Boxes
import TemplateLint.Proofs.Rule.Notes

/-! What the rule says about one event binding: a report, a warning about a span that does not
match, or nothing. -/
namespace TemplateLint.BananaInBox
open Text

theorem exists_offset {n : Nat} (h : n < UInt32.size) : ∃ offset : UInt32, offset.toNat = n :=
  ⟨n.toUInt32, UInt32.toNat_ofNat_of_lt' h⟩

theorem offsetAdd?_eq_some_iff {offset sum : UInt32} {n : Nat} :
    offsetAdd? offset n = some sum ↔ sum.toNat = offset.toNat + n := by
  unfold offsetAdd?
  simp only
  have hlt := sum.toNat_lt_size
  split
  next h =>
    have hsum : (offset.toNat + n).toUInt32.toNat = offset.toNat + n :=
      UInt32.toNat_ofNat_of_lt' h
    rw [Option.some.injEq, ← UInt32.toNat_inj, hsum]
    exact eq_comm
  next h =>
    constructor
    · intro hnone
      simp at hnone
    · intro he
      omega

theorem templateRange?_eq_some_iff {source key : List Char} {base start stop : UInt32} {b : Box} :
    templateRange? source base key b = some (start, stop) ↔
      start.toNat = base.toNat + b.start ∧ stop.toNat = start.toNat + b.length ∧
        ∃ region, slice? key b.start (b.start + b.length) = some region ∧
          slice? source start.toNat stop.toNat = some region := by
  unfold templateRange?
  simp only [Option.bind_eq_bind, Option.bind_eq_some_iff, offsetAdd?_eq_some_iff]
  constructor
  · rintro ⟨region, hregion, start', hstart, stop', hstop, h⟩
    split at h
    next hsame =>
      simp only [Option.some.injEq, Prod.mk.injEq] at h
      obtain ⟨rfl, rfl⟩ := h
      exact ⟨hstart, hstop, region, hregion, hsame⟩
    next => simp at h
  · rintro ⟨hstart, hstop, region, hregion, hsame⟩
    exact ⟨region, hregion, start, hstart, stop, hstop, by rw [if_pos hsame]⟩

variable {key before inner after : List Char}

theorem Split.templateRange?_eq_some_iff (h : Split key before inner after) {source : List Char}
    {base start stop : UInt32} :
    templateRange? source base key (boxBehind before inner) = some (start, stop) ↔
      start.toNat = base.toNat + byteLength before ∧
        stop.toNat = start.toNat + (byteLength inner + 4) ∧
        slice? source start.toNat stop.toNat = some (boxText inner) := by
  rw [BananaInBox.templateRange?_eq_some_iff, boxBehind_start, boxBehind_length, h.slice?_boxText]
  simp

/-- The bytes `i` and `j` of the key begin its first `([` and its last `])`. -/
structure Framed (key : List Char) (i j : Nat) : Prop where
  opens : PairAt '(' '[' key i
  first : ∀ n, PairAt '(' '[' key n → i ≤ n
  closes : PairAt ']' ')' key j
  last : ∀ n, PairAt ']' ')' key n → n ≤ j

theorem Split.framed (h : Split key before inner after) :
    Framed key (byteLength before) (byteLength before + 2 + byteLength inner) := by
  have hopen : key = before ++ '(' :: '[' :: (inner ++ ']' :: ')' :: after) := by
    rw [h.key_eq]
    simp
  have hstop : byteLength (before ++ '(' :: '[' :: inner) =
      byteLength before + 2 + byteLength inner := by
    rw [byteLength_append]
    change byteLength before + (1 + (1 + byteLength inner)) = byteLength before + 2 + _
    omega
  refine ⟨⟨before, _, hopen, rfl⟩, ?_, ⟨_, after, h.key_eq, hstop⟩, ?_⟩
  · intro n hn
    exact byteLength_le_of_pairAt (by decide) h.first (hopen ▸ hn)
  · intro n hn
    exact hstop ▸ le_byteLength_of_pairAt (by decide) h.last (h.key_eq ▸ hn)

/-- The name is one of a box, and the key has a `([` and a `])` that do not overlap, the second
behind the first. -/
def Suspicious (event : BoundEvent) (key : List Char) : Prop :=
  Bracketed event.name.toList ∧ ∃ i j, PairAt '(' '[' key i ∧ PairAt ']' ')' key j ∧ i + 2 ≤ j

theorem suspicious_iff {event : BoundEvent} :
    Suspicious event key ↔ detect event.name.toList = true ∧ HasBox key := by
  rw [Suspicious, ← hasBox_iff, detect_iff]

/-- The template holds at `base` what the key holds from `i` to `j + 2`, at offsets that exist. -/
def InPlace (source key : List Char) (base i j : Nat) : Prop :=
  base + j + 2 < UInt32.size ∧
    ∃ region, slice? key i (j + 2) = some region ∧
      slice? source (base + i) (base + j + 2) = some region

theorem Split.inPlace_iff (h : Split key before inner after) {source : List Char} {base : UInt32} :
    InPlace source key base.toNat (byteLength before) (byteLength before + 2 + byteLength inner) ↔
      ∃ start stop, templateRange? source base key (boxBehind before inner) =
        some (start, stop) := by
  have hregion : slice? key (byteLength before) (byteLength before + 2 + byteLength inner + 2) =
      some (boxText inner) := by
    rw [← h.slice?_boxText]
    congr 1
    omega
  simp only [h.templateRange?_eq_some_iff, InPlace, hregion, Option.some.injEq]
  constructor
  · rintro ⟨hlt, region, rfl, hsame⟩
    obtain ⟨start, hstart⟩ := exists_offset (show base.toNat + byteLength before < _ by omega)
    obtain ⟨stop, hstop⟩ := exists_offset hlt
    refine ⟨start, stop, hstart, by omega, ?_⟩
    rw [hstart, hstop]
    exact hsame
  · rintro ⟨start, stop, hstart, hstop, hsame⟩
    have hlt := stop.toNat_lt_size
    have he : stop.toNat = base.toNat + (byteLength before + 2 + byteLength inner) + 2 := by omega
    rw [hstart, he] at hsame
    exact ⟨by omega, _, rfl, hsame⟩

/-- The report of a box from `i` to `j` in the key of an attribute that begins at `base`. -/
structure Describes (d : Diagnostic) (key : List Char) (base i j : Nat) : Prop where
  start : d.start.toNat = base + i
  stop : d.stop.toNat = base + j + 2
  severity : d.severity = .error
  rule : d.rule = info.name
  message : d.message = BananaInBox.message
  fix : ∃ inner text, slice? key (i + 2) j = some inner ∧
    d.fix = some ⟨text, [⟨d.start, d.stop, "[(" ++ String.ofList (trim inner) ++ ")]"⟩]⟩

theorem ofList_swapped (b : Box) :
    String.ofList b.swapped = "[(" ++ String.ofList b.content ++ ")]" := by
  rw [← String.toList_inj]
  simp [Box.swapped]

theorem Split.describes (h : Split key before inner after) {source : List Char}
    {base start stop : UInt32}
    (hrange : templateRange? source base key (boxBehind before inner) = some (start, stop)) :
    Describes (diagnosticOf (boxBehind before inner) start stop) key base.toNat
      (byteLength before) (byteLength before + 2 + byteLength inner) := by
  obtain ⟨hstart, hstop, -⟩ := h.templateRange?_eq_some_iff.mp hrange
  refine ⟨hstart, ?_, rfl, rfl, rfl, inner,
    "Replace with `" ++ String.ofList (boxBehind before inner).swapped ++ "`", h.slice?_inner, ?_⟩
  · change stop.toNat = _
    omega
  · simp only [diagnosticOf, ofList_swapped]
    rfl

/-- The diagnostics and the warnings that an event binding gives rise to. -/
inductive Verdict (source : List Char) (event : BoundEvent) :
    List Diagnostic → List LogEvent → Prop where
  | reported {key : List Char} {i j : Nat} {d : Diagnostic}
      (hkey : IsKey event.span.source.toList key) (hs : Suspicious event key)
      (hframe : Framed key i j) (hplace : InPlace source key event.span.start.offset.toNat i j)
      (hd : Describes d key event.span.start.offset.toNat i j) : Verdict source event [d] []
  | mismatched {key : List Char} {i j : Nat} {w : LogEvent}
      (hkey : IsKey event.span.source.toList key) (hs : Suspicious event key)
      (hframe : Framed key i j) (hplace : ¬ InPlace source key event.span.start.offset.toNat i j)
      (hw : w.level = .warn) : Verdict source event [] [w]
  | silent {key : List Char} (hkey : IsKey event.span.source.toList key)
      (hs : ¬ Suspicious event key) : Verdict source event [] []

theorem check_eq_nil {event : BoundEvent} {ctx : Context}
    (h : ¬ (detect event.name.toList = true ∧
      HasBox (attributeKey event.span.source.toList))) : check event ctx = [] := by
  unfold check
  split
  next hname =>
    rw [not_and] at h
    simp only [locate?_eq_none_iff.mpr (h hname)]
  next => rfl

theorem check_of_split {event : BoundEvent} {ctx : Context}
    (hname : detect event.name.toList = true)
    (h : Split (attributeKey event.span.source.toList) before inner after) :
    check event ctx =
      match templateRange? ctx.source.toList event.span.start.offset
          (attributeKey event.span.source.toList) (boxBehind before inner) with
      | none => [.log (mismatchEvent ctx.filename event)]
      | some (start, stop) =>
        [.log (foundEvent ctx.filename (boxBehind before inner) start stop),
          .report (diagnosticOf (boxBehind before inner) start stop)] := by
  have hlocate := h.locate?_eq
  unfold check
  rw [if_pos hname]
  dsimp only
  generalize locate? (attributeKey event.span.source.toList) = found at hlocate ⊢
  subst hlocate
  rfl

theorem verdict_check (event : BoundEvent) (ctx : Context) :
    Verdict ctx.source.toList event (Note.reports none (check event ctx))
      ((Note.logs (check event ctx)).filter (·.level = .warn)) := by
  have hkey := isKey_attributeKey event.span.source.toList
  by_cases hs : Suspicious event (attributeKey event.span.source.toList)
  · obtain ⟨hname, hbox⟩ := suspicious_iff.mp hs
    obtain ⟨before, inner, after, h⟩ := exists_split hbox
    rw [check_of_split hname h]
    cases hrange : templateRange? ctx.source.toList event.span.start.offset
        (attributeKey event.span.source.toList) (boxBehind before inner) with
    | none =>
      refine .mismatched hkey hs h.framed (fun hplace => ?_) rfl
      obtain ⟨start, stop, hsome⟩ := h.inPlace_iff.mp hplace
      rw [hrange] at hsome
      simp at hsome
    | some range =>
      obtain ⟨start, stop⟩ := range
      exact .reported hkey hs h.framed (h.inPlace_iff.mpr ⟨start, stop, hrange⟩)
        (h.describes hrange)
  · rw [check_eq_nil (suspicious_iff.not.mp hs)]
    exact .silent hkey hs

end TemplateLint.BananaInBox
