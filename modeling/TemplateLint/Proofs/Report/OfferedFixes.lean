import TemplateLint.Proofs.Diagnostic.Single
import TemplateLint.Proofs.Report.Positions

/-! The fix that a message offers to tools. It is the first edit of the fix alone, so that a tool
makes the text of the whole fix only where the other edits change nothing. -/
namespace TemplateLint
open Text

theorem TextEdit.exists_slice?_applied? {e : TextEdit} {text : List Char}
    (hfit : e.fits text = true) :
    ∃ before after, slice? text 0 e.start.toNat = some before ∧
      slice? text e.stop.toNat (byteLength text) = some after ∧
      applied? e text = some (before ++ e.newText.toList ++ after) := by
  obtain ⟨before, middle, after, rfl, hstart, hstop⟩ := fits_iff.mp hfit
  refine ⟨before, after, ?_, ?_, applied?_append hstart hstop⟩
  · exact slice?_eq_some_iff.mpr ⟨[], middle ++ after, by simp, rfl, by omega⟩
  · refine slice?_eq_some_iff.mpr ⟨before ++ middle, [], by simp, ?_, ?_⟩ <;>
      simp only [byteLength_append] <;> omega

namespace Fix
variable {f : Fix} {source : List Char} {first : TextEdit}

/-- What the edits beside the first one make of the text in front of its range and behind it stands
around its new text just as the text itself does. -/
def OthersIdle (f : Fix) (source : List Char) : Prop :=
  ∃ first infront behind before after front back, f.edits.head? = some first ∧
    (TextEdit.lastFirst f.edits).reverse = infront ++ first :: behind ∧
    slice? source 0 first.start.toNat = some before ∧
    slice? source first.stop.toNat (byteLength source) = some after ∧
    TextEdit.splice? source 0 first.start.toNat infront = some front ∧
    TextEdit.splice? source first.stop.toNat (byteLength source) behind = some back ∧
    front ++ first.newText.toList ++ back = before ++ first.newText.toList ++ after

/-- The first edit makes the text of all edits exactly if the others are idle. -/
theorem applied?_first_eq_iff {out whole : List Char} (hhead : f.edits.head? = some first)
    (hfit : first.fits source = true) (hout : TextEdit.applied? first source = some out)
    (hwhole : TextEdit.splice? source 0 (byteLength source) (TextEdit.lastFirst f.edits).reverse =
      some whole) : out = whole ↔ f.OthersIdle source := by
  obtain ⟨before, after, hbefore, hafter, hmade⟩ := TextEdit.exists_slice?_applied? hfit
  obtain rfl : before ++ first.newText.toList ++ after = out :=
    Option.some.inj (hmade.symm.trans hout)
  constructor
  · intro heq
    have hmem : first ∈ (TextEdit.lastFirst f.edits).reverse :=
      (TextEdit.lastFirst_reverse_perm f.edits).mem_iff.mpr (List.mem_of_mem_head? hhead)
    obtain ⟨infront, behind, hsplit⟩ := List.append_of_mem hmem
    rw [hsplit] at hwhole
    obtain ⟨front, back, hfront, hback, rfl⟩ := TextEdit.splice?_append_cons_eq_some_iff.mp hwhole
    exact ⟨first, infront, behind, before, after, front, back, hhead, hsplit, hbefore, hafter,
      hfront, hback, heq.symm⟩
  · rintro ⟨first', infront, behind, before', after', front, back, hhead', hsplit, hbefore',
      hafter', hfront, hback, heq⟩
    -- Any such split makes the whole text, whichever one it is.
    obtain rfl : first = first' := Option.some.inj (hhead.symm.trans hhead')
    obtain rfl : before = before' := Option.some.inj (hbefore.symm.trans hbefore')
    obtain rfl : after = after' := Option.some.inj (hafter.symm.trans hafter')
    have hall := TextEdit.splice?_append_cons_eq_some_iff.mpr ⟨front, back, hfront, hback, rfl⟩
    rw [← hsplit, hwhole, Option.some.injEq] at hall
    exact heq.symm.trans hall.symm

end Fix

namespace Report
open Json (Value)

/-- What a tool makes of a template: the text of the fix that a message offers, in the place of its
range. -/
def offeredText? (message : List (String × Value)) (template : List Char) : Option (List Char) :=
  match message.lookup "fix" with
  | some (.object fix) =>
    match fix.lookup "range", fix.lookup "text" with
    | some (.array [.natural start, .natural stop]), some (.string text) =>
      replace? template start stop text.toList
    | _, _ => none
  | _ => none

/-- The message of a diagnostic offers its fix to tools. Where the edits fit a template and stand
apart, a tool makes a text of it, and that is the text of the fix exactly if the edits beside the
first one are idle, which they are if there are none. -/
def OffersFix (d : Diagnostic) (message : List (String × Value)) : Prop :=
  ∀ f ∈ d.fix, ∀ template : String, f.edits ≠ [] →
    (∀ e ∈ f.edits, e.fits template.toList = true) →
    f.edits.Pairwise (fun a b => a.overlaps b = false) →
    ∃ out, offeredText? message template.toList = some out ∧
      (String.ofList out = f.apply template ↔ f.OthersIdle template.toList) ∧
      (f.edits.length = 1 → String.ofList out = f.apply template)

/-- What a tool reads of a fix is its first edit. -/
theorem offeredText?_eq {index : LineIndex} {d : Diagnostic} {message : List (String × Value)}
    (hmessage : messageValue index d = .object message) {f : Fix} {first : TextEdit}
    (hfix : d.fix = some f) (hhead : f.edits.head? = some first) (template : List Char) :
    offeredText? message template = TextEdit.applied? first template := by
  have hmember : fixMember d = [("fix", .object
      [("range", .array [.natural first.start.toNat, .natural first.stop.toNat]),
        ("text", .string first.newText)])] := by
    simp only [fixMember, hfix, Option.bind_some, hhead]
  obtain rfl := Value.object.inj hmessage
  rw [hmember]
  rfl

theorem offersFix_of_messageValue {index : LineIndex} {d : Diagnostic}
    {message : List (String × Value)} (hmessage : messageValue index d = .object message) :
    OffersFix d message := by
  intro f hfix template hne hfit hapart
  obtain ⟨first, hhead⟩ : ∃ first, f.edits.head? = some first :=
    Option.isSome_iff_exists.mp (List.isSome_head?.mpr hne)
  have hfirst : first.fits template.toList = true := hfit first (List.mem_of_mem_head? hhead)
  obtain ⟨out, hout⟩ := Option.isSome_iff_exists.mp
    ((TextEdit.isSome_applied? first template.toList).trans hfirst)
  obtain ⟨whole, hwhole, hrun⟩ := TextEdit.applyAll?_lastFirst hfit hapart
  refine ⟨out, (offeredText?_eq hmessage hfix hhead _).trans hout, ?_, fun hone => ?_⟩
  · rw [Fix.apply_of_applyAll? hrun, String.ofList_inj]
    exact Fix.applied?_first_eq_iff hhead hfirst hout hwhole
  · obtain ⟨e, hedits⟩ := List.length_eq_one_iff.mp hone
    rw [hedits, List.head?_cons, Option.some.injEq] at hhead
    have hsingle : TextEdit.applyAll? (TextEdit.lastFirst f.edits) template.toList = some out := by
      rw [hedits, TextEdit.applyAll?_lastFirst_singleton, hhead, hout]
    exact (Fix.apply_of_applyAll? hsingle).symm

/-- The messages of an entry offer the fixes of the diagnostics of a result in turn. -/
def OffersFixes (r : LintResult) (entry : List (String × Value)) : Prop :=
  ∃ messages, entry.lookup "messages" = some (.array (messages.map .object)) ∧
    List.Forall₂ OffersFix r.diagnostics messages

theorem exists_resultValue_offersFixes (sources : Sources) (r : LintResult) :
    ∃ entry, resultValue sources r = .object entry ∧ OffersFixes r entry := by
  have hmessage : ∀ d ∈ r.diagnostics, ∃ message,
      messageValue (.ofString (sources.find r.filename)) d = .object message ∧
        OffersFix d message :=
    fun d _ => ⟨_, rfl, offersFix_of_messageValue rfl⟩
  obtain ⟨messages, hmessages, hall⟩ := exists_map_object_eq r.diagnostics hmessage
  exact ⟨_, rfl, messages, hmessages ▸ rfl, hall⟩

/-- Every message of a report offers the first edit of the fix of its diagnostic, so that tools make
the text of the fix from it exactly where the other edits are idle. -/
theorem offered_fix_iff (results : List LintResult) (sources : Sources) :
    ∃ entries, Format.json.report results sources = (Value.array (entries.map .object)).pretty ∧
      List.Forall₂ OffersFixes results entries := by
  obtain ⟨entries, hentries, hall⟩ := exists_map_object_eq results fun r _ =>
    exists_resultValue_offersFixes sources r
  exact ⟨entries, congrArg (fun values => (Value.array values).pretty) hentries, hall⟩

/-- The second edit puts in what it takes away, so that the offered fix is the whole fix. -/
theorem offered_fix_iff_idle_edit :
    let f : Fix := ⟨"f", [⟨3, 4, "x"⟩, ⟨0, 2, "é"⟩]⟩
    let result : LintResult := ⟨"t", [⟨"r", .error, "m", 3, 4, none, some f⟩], 1, 0⟩
    (∀ e ∈ f.edits, e.fits "ébc".toList = true) ∧
      f.edits.Pairwise (fun a b => a.overlaps b = false) ∧
      ∃ entry message,
        Format.json.report [result] [("t", "ébc")] = (Value.array [.object entry]).pretty ∧
        entry.lookup "messages" = some (.array [.object message]) ∧
        offeredText? message "ébc".toList = some "ébx".toList ∧ f.apply "ébc" = "ébx" := by
  intro f result
  have hfit : ∀ e ∈ f.edits, e.fits "ébc".toList = true := by decide
  have hapart : f.edits.Pairwise fun a b => a.overlaps b = false := by decide
  have hsorted : TextEdit.lastFirst f.edits = f.edits :=
    TextEdit.lastFirst_of_pairwise_ge (by decide)
  have hwhole : f.apply "ébc" = "ébx" := by
    rw [Fix.apply, hsorted]
    decide
  have hidle : f.OthersIdle "ébc".toList := by
    refine ⟨⟨3, 4, "x"⟩, [⟨0, 2, "é"⟩], [], ['é', 'b'], [], ['é', 'b'], [], rfl, ?_⟩
    rw [hsorted]
    decide
  obtain ⟨entries, hreport, hall⟩ := offered_fix_iff [result] [("t", "ébc")]
  obtain ⟨entry, _, ⟨messages, hmessages, hoffers⟩, hnil, rfl⟩ :=
    List.forall₂_cons_left_iff.mp hall
  obtain rfl := List.forall₂_nil_left_iff.mp hnil
  obtain ⟨message, _, hoffer, hnil, rfl⟩ := List.forall₂_cons_left_iff.mp hoffers
  obtain rfl := List.forall₂_nil_left_iff.mp hnil
  obtain ⟨out, hout, hiff, -⟩ := hoffer f rfl "ébc" (List.cons_ne_nil _ _) hfit hapart
  have hsame := (hiff.mpr hidle).trans hwhole
  rw [← String.toList_inj, String.toList_ofList] at hsame
  exact ⟨hfit, hapart, entry, message, hreport, hmessages, hsame ▸ hout, hwhole⟩

/-- Of a fix with two edits the second one is not offered. -/
theorem offered_fix_lacks_edit :
    let f : Fix := ⟨"f", [⟨2, 3, "z"⟩, ⟨0, 1, "x"⟩]⟩
    let result : LintResult := ⟨"t", [⟨"r", .error, "m", 2, 3, none, some f⟩], 1, 0⟩
    (∀ e ∈ f.edits, e.fits "abc".toList = true) ∧
      f.edits.Pairwise (fun a b => a.overlaps b = false) ∧
      ∃ entry message,
        Format.json.report [result] [("t", "abc")] = (Value.array [.object entry]).pretty ∧
        entry.lookup "messages" = some (.array [.object message]) ∧
        offeredText? message "abc".toList = some "abz".toList ∧ f.apply "abc" = "xbz" := by
  intro f result
  refine ⟨by decide, by decide, _, _, rfl, rfl, by decide, ?_⟩
  rw [Fix.apply, TextEdit.lastFirst_of_pairwise_ge (by decide)]
  decide

end Report
end TemplateLint
