import TemplateLint.Proofs.Report.Positions
import TemplateLint.Proofs.Text.Order

/-! Whether the end that is told of a diagnostic may stand in front of its start. -/
namespace TemplateLint.Report
open Json (Value)
open Text

/-- An object whose end does not stand in front of its start. -/
def InOrder (members : List (String × Value)) : Prop :=
  ∃ line column endLine endColumn : Nat,
    members.lookup "line" = some (.natural line) ∧
    members.lookup "column" = some (.natural column) ∧
    members.lookup "endLine" = some (.natural endLine) ∧
    members.lookup "endColumn" = some (.natural endColumn) ∧
    toLex (line, column) ≤ toLex (endLine, endColumn)

theorem Shows.inOrder_iff {index : LineIndex} {d : Diagnostic} {members : List (String × Value)}
    (h : Shows index d members) : InOrder members ↔
      toLex (index.lineColumn d.start.toNat) ≤ toLex (index.lineColumn d.stop.toNat) := by
  obtain ⟨hline, hcolumn⟩ := Prod.mk.inj h.start
  obtain ⟨hendLine, hendColumn⟩ := Prod.mk.inj h.stop
  constructor
  · rintro ⟨line, column, endLine, endColumn, h₁, h₂, h₃, h₄, hle⟩
    rw [hline, Option.some.injEq, Value.natural.injEq] at h₁
    rw [hcolumn, Option.some.injEq, Value.natural.injEq] at h₂
    rw [hendLine, Option.some.injEq, Value.natural.injEq] at h₃
    rw [hendColumn, Option.some.injEq, Value.natural.injEq] at h₄
    subst h₁ h₂ h₃ h₄
    exact hle
  · exact fun hle => ⟨_, _, _, _, hline, hcolumn, hendLine, hendColumn, hle⟩

/-- The messages of an entry are in order, but for those of diagnostics whose start runs ahead of
their end. -/
def OrderedMessages (r : LintResult) (source : String) (members : List (String × Value)) : Prop :=
  ∃ objects, members.lookup "messages" = some (.array (objects.map .object)) ∧
    List.Forall₂ (fun d object => d.start ≤ d.stop →
      (InOrder object ↔ ¬ Crossed source.toList d.start d.stop)) r.diagnostics objects

theorem ShowsResult.orderedMessages {r : LintResult} {source : String}
    {members : List (String × Value)} (h : ShowsResult r source members) :
    OrderedMessages r source members := by
  obtain ⟨objects, hobjects, hall⟩ := h.messages
  refine ⟨objects, hobjects, hall.imp fun d object hshows hle => ?_⟩
  rw [hshows.inOrder_iff]
  exact LineIndex.lineColumn_le_iff source.toList hle

theorem exists_orderedMessages (results : List LintResult) (sources : Sources) :
    ∃ entries, jsonReport results sources = (Value.array (entries.map .object)).pretty ∧
      List.Forall₂ (fun r members => OrderedMessages r (sources.find r.filename) members)
        results entries := by
  have hentry : ∀ r ∈ results, ∃ members, resultValue sources r = .object members ∧
      OrderedMessages r (sources.find r.filename) members := by
    intro r _
    obtain ⟨entry, hentry, hshows⟩ : ∃ entry, resultValue sources r = .object entry ∧
      ShowsResult r (sources.find r.filename) entry := exists_resultValue_eq rfl
    exact ⟨entry, hentry, hshows.orderedMessages⟩
  obtain ⟨entries, hentries, hall⟩ := exists_map_object_eq results hentry
  exact ⟨entries, by rw [jsonReport, hentries], hall⟩

/-- The position of a later offset is never in front of that of an earlier one, and the end of a
message never in front of its start, unless the earlier offset lies inside a character and fewer
characters of its line stand in front of the later one than bytes in front of the earlier one. -/
theorem positions_ordered_iff {text : List Char} (hsize : byteLength text < UInt32.size)
    {a b : UInt32} (hab : a ≤ b) (results : List LintResult) (sources : Sources) :
    (toLex ((LineIndex.ofText text).lineColumn a.toNat) ≤
        toLex ((LineIndex.ofText text).lineColumn b.toNat) ↔ ¬ Crossed text a b) ∧
    (∃ p q : UInt32 × UInt32, LineIndex.Strict.lineColumn (.ofText text) a = .ok p ∧
      LineIndex.Strict.lineColumn (.ofText text) b = .ok q ∧
      (byteLength text + 1 < UInt32.size → (toLex p ≤ toLex q ↔ ¬ Crossed text a b))) ∧
    ∃ entries,
      Format.json.report results sources = (Value.array (entries.map .object)).pretty ∧
      List.Forall₂ (fun r members => OrderedMessages r (sources.find r.filename) members)
        results entries :=
  ⟨LineIndex.lineColumn_le_iff text hab, LineIndex.Strict.exists_lineColumn_le_iff hsize hab,
    exists_orderedMessages results sources⟩

theorem positions_ordered_iff_inside :
    byteLength ['é', 'b', '\n'] < UInt32.size ∧ (1 : UInt32) ≤ 3 ∧
      ¬ Crossed ['é', 'b', '\n'] 1 3 := by
  have hsize : byteLength ['é', 'b', '\n'] < UInt32.size := by decide
  have hle : (1 : UInt32) ≤ 3 := by decide
  refine ⟨hsize, hle, (positions_ordered_iff hsize hle [] []).1.mp ?_⟩
  rw [Prod.Lex.toLex_le_toLex]
  decide

/-- A character of three bytes: the column of its last byte is three, that behind it is two. -/
theorem positions_crossed :
    (2 : UInt32) ≤ 3 ∧ LineIndex.Strict.lineColumn (.ofText ['€']) 2 = .ok (1, 3) ∧
      LineIndex.Strict.lineColumn (.ofText ['€']) 3 = .ok (1, 2) ∧
      ¬ toLex ((1, 3) : UInt32 × UInt32) ≤ toLex (1, 2) ∧
      ∃ members, messageValue (.ofText ['€']) ⟨"rule", .error, "", 2, 3, none, none⟩ =
        .object members ∧ ¬ InOrder members := by
  have hsize : byteLength ['€'] < UInt32.size := by decide
  have hinside : (LineIndex.ofText ['€']).lineColumn 2 = (1, 3) := by decide
  have hbehind : (LineIndex.ofText ['€']).lineColumn 3 = (1, 2) := by decide
  have hlookup := LineIndex.Strict.lineColumn_ok hsize 2
  have hlookup' := LineIndex.Strict.lineColumn_ok hsize 3
  rw [show (2 : UInt32).toNat = 2 from rfl, hinside] at hlookup
  rw [show (3 : UInt32).toNat = 3 from rfl, hbehind] at hlookup'
  refine ⟨by decide, hlookup, hlookup', ?_, ?_⟩
  · rw [Prod.Lex.toLex_le_toLex]
    decide
  · obtain ⟨members, hmembers, hshows⟩ := exists_messageValue_eq (.ofText ['€'])
      ⟨"rule", .error, "", 2, 3, none, none⟩
    refine ⟨members, hmembers, fun horder => ?_⟩
    have hle := hshows.inOrder_iff.mp horder
    dsimp only at hle
    rw [show (2 : UInt32).toNat = 2 from rfl, show (3 : UInt32).toNat = 3 from rfl, hinside,
      hbehind, Prod.Lex.toLex_le_toLex] at hle
    revert hle
    decide

end TemplateLint.Report
