import TemplateLint.Proofs.Lint.Repairs
import TemplateLint.Proofs.Lint.Settings
import TemplateLint.Proofs.Rule.Faults

/-! Linting a template and applying the fixes is safe: nothing stops the run, and the output is the
template with boxes rewritten in reported ranges, up to white space and the order of brackets. -/
namespace TemplateLint
open BananaInBox Text

/-- The notes on each event of a template, from checks that stop when something goes wrong. -/
def BananaInBox.Strict.notes (root : RootNode) (filename : String) : Except Fault (List (List Note)) :=
  root.events.mapM fun event => Strict.check event (.start root.source filename)

theorem BananaInBox.Strict.notes_eq (root : RootNode) (filename : String) :
    Strict.notes root filename = .ok (root.events.map (answer root.source filename)) := by
  unfold Strict.notes
  simp only [Strict.check_eq]
  exact List.mapM_pure

/-- A bracket of a box. -/
def isBracket (c : Char) : Bool := c = '(' || c = ')' || c = '[' || c = ']'

/-- A character that is neither white space nor a bracket of a box. -/
def isContent (c : Char) : Bool := !isWhiteSpace c && !isBracket c

theorem isBracket_iff {c : Char} : isBracket c = true ↔ c = '(' ∨ c = ')' ∨ c = '[' ∨ c = ']' := by
  simp [isBracket, or_assoc]

theorem not_isBracket {c : Char} (h : isWhiteSpace c = true) : isBracket c ≠ true := by
  intro hc
  rcases isBracket_iff.mp hc with rfl | rfl | rfl | rfl <;> exact absurd h (by decide)

section Output
variable {source out : List Char} {ds : List Diagnostic} {edits : List TextEdit}
  (hedits : ∀ e ∈ edits, ∃ d ∈ ds, ∃ inner, Repairs source d inner ∧ e = swapEdit d inner)
include hedits

theorem content_eq_of_splice?
    (hsplice : TextEdit.splice? source 0 (byteLength source) edits = some out) :
    out.filter isContent = source.filter isContent := by
  refine filter_splice? ?_ (by decide) (by decide) hedits hsplice
  intro c hc
  rw [isContent, hc]
  rfl

theorem count_eq_of_splice? {c : Char} (hc : isBracket c = true)
    (hsplice : TextEdit.splice? source 0 (byteLength source) edits = some out) :
    out.count c = source.count c := by
  rw [List.count_eq_countP, List.count_eq_countP, List.countP_eq_length_filter,
    List.countP_eq_length_filter]
  refine congrArg List.length (filter_splice? ?_ ?_ ?_ hedits hsplice)
  · intro x hx
    exact beq_false_of_ne fun he => not_isBracket hx (he ▸ hc)
  · rcases isBracket_iff.mp hc with rfl | rfl | rfl | rfl <;> decide
  · rcases isBracket_iff.mp hc with rfl | rfl | rfl | rfl <;> decide

end Output

namespace Linter

theorem reports_answer (override : Option Severity) (source filename filename' : String)
    (event : BoundEvent) : Note.reports override (answer source filename event) =
      Note.reports override (answer source filename' event) := by
  unfold answer check
  dsimp only [Context.start]
  split
  next =>
    cases locate? (attributeKey event.span.source.toList) with
    | none => rfl
    | some b =>
      dsimp only
      cases templateRange? source.toList event.span.start.offset
        (attributeKey event.span.source.toList) b <;> rfl
  next => rfl

/-- What is reported does not depend on the name of the file. -/
theorem diagnostics_eq {linter : Linter} (hrules : linter.rules = .recommended) (root : RootNode)
    (filename filename' : String) :
    (linter.lint root filename).diagnostics = (linter.lint root filename').diagnostics := by
  rcases activeRules_recommended hrules with hoff | ⟨override, hon⟩
  · rw [lint_of_activeRules_eq_nil root filename hoff,
      lint_of_activeRules_eq_nil root filename' hoff]
  · rw [(lintLogged_of_activeRules root filename hon).1,
      (lintLogged_of_activeRules root filename' hon).1]
    simp only [reports_answer override root.source filename filename']

theorem exists_applyFixes? {linter : Linter} (hrules : linter.rules = .recommended)
    (root : RootNode) (filename : String) :
    ∃ outcome, (linter.lint root filename).applyFixes? root.source = some outcome := by
  have hall : ∀ d ∈ (linter.lint root filename).diagnostics,
      ∃ inner, Repairs root.source.toList d inner := fun d hd => exists_repairs hrules hd
  obtain ⟨outcome, edits, hrun, -⟩ :=
    exists_applyFixes?_eq_splice? root.source (fix_pairwise_apart hall)
  exact ⟨outcome, hrun⟩

/-- The outcome of applying the fixes of `ds`, by way of these edits, loses nothing: every fix is
counted, and the output is the source with boxes rewritten in ranges that are reported. -/
structure Lossless (source : List Char) (ds : List Diagnostic) (outcome : FixOutcome)
    (edits : List TextEdit) : Prop where
  counted : outcome.applied + outcome.skipped = ds.length
  length : edits.length = outcome.applied
  reported : ∀ e ∈ edits, ∃ d ∈ ds, ∃ inner, Repairs source d inner ∧ e = swapEdit d inner
  ordered : edits.Pairwise TextEdit.Before
  spliced : TextEdit.splice? source 0 (byteLength source) edits = some outcome.output.toList
  content : outcome.output.toList.filter isContent = source.filter isContent
  brackets : ∀ c, isBracket c = true → outcome.output.toList.count c = source.count c

/-- Linting a template and applying the fixes is safe for every template, whatever its spans say,
and at every level of the rule. No check stops the run, and the diagnostics are what the checks
report, unless the rule is off. The fixes have an outcome, which loses nothing. All fixes are
applied unless two reported ranges share a byte. -/
theorem lint_applyFixes?_safe {levels : List (String × RuleLevel)} {linter : Linter}
    (hlevels : recommended.setLevels levels = .ok linter) (root : RootNode) (filename : String) :
    (∃ notes, Strict.notes root filename = .ok notes ∧
      (linter.activeRules = [] ∧ (linter.lint root filename).diagnostics = [] ∨
        ∃ override, linter.activeRules = [⟨bananaInBox, override⟩] ∧
          (linter.lint root filename).diagnostics = notes.flatMap (Note.reports override))) ∧
      ∃ outcome edits, (linter.lint root filename).applyFixes? root.source = some outcome ∧
        Lossless root.source.toList (linter.lint root filename).diagnostics outcome edits ∧
        ((linter.lint root filename).diagnostics.Pairwise
          (fun a b => ∀ n, ¬ (a.Covers n ∧ b.Covers n)) → outcome.skipped = 0) := by
  have hrules : linter.rules = .recommended := setLevels_rules hlevels
  refine ⟨⟨_, Strict.notes_eq root filename, ?_⟩, ?_⟩
  · rcases activeRules_recommended hrules with hoff | ⟨override, hon⟩
    · exact Or.inl ⟨hoff, lint_of_activeRules_eq_nil root filename hoff⟩
    · refine Or.inr ⟨override, hon, ?_⟩
      rw [List.flatMap_map]
      exact (lintLogged_of_activeRules root filename hon).1
  have hall : ∀ d ∈ (linter.lint root filename).diagnostics,
      ∃ inner, Repairs root.source.toList d inner := fun d hd => exists_repairs hrules hd
  obtain ⟨outcome, edits, hrun, hperm, hord, hsplice, happlied, hskipped⟩ :=
    exists_applyFixes?_eq_splice? root.source (fix_pairwise_apart hall)
  have hlength := length_fixesInOrder hall
  have hle := (acceptedFixes_sublist root.source.toList
    (linter.lint root filename).diagnostics).length_le
  have hedits : ∀ e ∈ edits, ∃ d ∈ (linter.lint root filename).diagnostics,
      ∃ inner, Repairs root.source.toList d inner ∧ e = swapEdit d inner :=
    fun e he => exists_of_mem_acceptedEdits hall (hperm.subset he)
  refine ⟨outcome, edits, hrun, ⟨?_, ?_, hedits, hord, hsplice, ?_, ?_⟩, ?_⟩
  · omega
  · rw [hperm.length_eq, length_acceptedEdits hall, happlied]
  · exact content_eq_of_splice? hedits hsplice
  · exact fun c hc => count_eq_of_splice? hedits hc hsplice
  · intro hdisj
    rw [hskipped, happlied, acceptedFixes_eq_of_disjoint hall hdisj, Nat.sub_self]

/-- Two boxes behind a character of two bytes, at another level than the rule's own. -/
theorem lint_applyFixes?_safe_two_boxes :
    let root := RootNode.ofEvents "é ([a])=\"b\" ([c])=\"d\""
      [⟨"[a]", .regular, "b", none, ⟨⟨3, 1, 3⟩, ⟨12, 1, 12⟩, "([a])=\"b\""⟩, none⟩,
        ⟨"[c]", .regular, "d", none, ⟨⟨13, 1, 13⟩, ⟨22, 1, 22⟩, "([c])=\"d\""⟩, none⟩]
    let linter : Linter := ⟨.recommended, [("angular/banana-in-box", .warn)]⟩
    recommended.setLevels [("angular/banana-in-box", .warn)] = .ok linter ∧
      (linter.lint root "t").diagnostics.Pairwise (fun a b => ∀ n, ¬ (a.Covers n ∧ b.Covers n)) ∧
      ∃ outcome edits, (linter.lint root "t").applyFixes? root.source = some outcome ∧
        Lossless root.source.toList (linter.lint root "t").diagnostics outcome edits ∧
        outcome.skipped = 0 := by
  intro root linter
  have hlevels : recommended.setLevels [("angular/banana-in-box", .warn)] = .ok linter := rfl
  have hranges : (linter.lint root "t").diagnostics.map (fun d => (d.start, d.stop)) =
      [(3, 8), (13, 18)] := by decide
  have hdisj : (linter.lint root "t").diagnostics.Pairwise
      (fun a b => ∀ n, ¬ (a.Covers n ∧ b.Covers n)) := by
    have hpairs : ((linter.lint root "t").diagnostics.map (fun d => (d.start, d.stop))).Pairwise
        (fun a b => ∀ n, ¬ ((a.1.toNat ≤ n ∧ n < a.2.toNat) ∧ b.1.toNat ≤ n ∧ n < b.2.toNat)) := by
      rw [hranges, List.pairwise_pair]
      intro n
      simp only [UInt32.reduceToNat]
      omega
    exact List.pairwise_map.mp hpairs
  obtain ⟨-, outcome, edits, hrun, hsafe, hall⟩ := lint_applyFixes?_safe hlevels root "t"
  exact ⟨hlevels, hdisj, outcome, edits, hrun, hsafe, hall hdisj⟩

end Linter
end TemplateLint
