import Mathlib.Data.List.Basic
import TemplateLint.Proofs.Lint.Calls

/-! What levels do to a run: a rule that is off takes no part in it, and the level of a rule decides
about the severity of its own reports and of no others. -/
namespace TemplateLint

/-- A diagnostic of a rule with a level, as it stands in the result. -/
def RuleLevel.govern (level : Option RuleLevel) (d : Diagnostic) : Diagnostic :=
  match level with
  | some .warn => { d with severity := .warning }
  | some .error => { d with severity := .error }
  | some .off | none => d

theorem RuleLevel.govern_eq (level : Option RuleLevel) (d : Diagnostic) :
    govern level d = { d with severity := (level.bind severity?).getD d.severity } := by
  cases level with
  | none => rfl
  | some level => cases level <;> rfl

/-- The overriding severity changes what a rule reports, diagnostic by diagnostic. -/
theorem Note.reports_eq_map (override : Option Severity) (notes : List Note) :
    reports override notes =
      (reports none notes).map fun d => { d with severity := override.getD d.severity } := by
  unfold reports
  rw [List.map_filterMap]
  apply List.filterMap_congr
  rintro (d | e) - <;> rfl

namespace HookCall

theorem mem_round {rules : List ActiveRule} {path : List String} {hook : Hook} {c : HookCall}
    (h : c ∈ round rules path hook) : c.rule ∈ rules := by
  obtain ⟨a, ha, rfl⟩ := List.mem_map.mp h
  exact ha

end HookCall

theorem PlacedElement.rule_mem_of_mem_calls {rules : List ActiveRule} {p : PlacedElement}
    {c : HookCall} (h : c ∈ p.calls rules) : c.rule ∈ rules := by
  unfold PlacedElement.calls at h
  rcases List.mem_append.mp h with h | h
  · rcases List.mem_append.mp h with h | h
    · exact HookCall.mem_round h
    · obtain ⟨i, -, h⟩ := List.mem_flatMap.mp h
      exact HookCall.mem_round h
  · obtain ⟨o, -, h⟩ := List.mem_flatMap.mp h
    exact HookCall.mem_round h

/-- The rules that are called are the active ones, all of them. -/
theorem RootNode.exists_call_iff {rules : List ActiveRule} {outer : List String} {root : RootNode}
    {a : ActiveRule} : (∃ c ∈ root.calls rules outer, c.rule = a) ↔ a ∈ rules := by
  constructor
  · rintro ⟨c, hc, rfl⟩
    rcases List.mem_append.mp hc with hc | hc
    · exact HookCall.mem_round hc
    · obtain ⟨p, -, hc⟩ := List.mem_flatMap.mp hc
      exact PlacedElement.rule_mem_of_mem_calls hc
  · intro ha
    exact ⟨⟨a, .onTemplate root, outer⟩, List.mem_append_left _ (List.mem_map_of_mem ha), rfl⟩

namespace Linter
variable {linter : Linter}

theorem activate?_eq_none {r : Rule} (hoff : linter.level? r.name = some .off) :
    linter.activate? r = none := by
  unfold activate?
  rw [hoff]
  rfl

theorem activate?_eq_some {r : Rule} (hon : linter.level? r.name ≠ some .off) :
    linter.activate? r = some ⟨r, (linter.level? r.name).bind RuleLevel.severity?⟩ := by
  unfold activate?
  cases hlevel : linter.level? r.name with
  | none => rfl
  | some level =>
    cases level with
    | off => exact absurd hlevel hon
    | warn => rfl
    | error => rfl

theorem mem_activeRules_iff {a : ActiveRule} :
    a ∈ linter.activeRules ↔ a.rule ∈ linter.rules ∧ linter.level? a.rule.name ≠ some .off ∧
      a.override = (linter.level? a.rule.name).bind RuleLevel.severity? := by
  unfold activeRules
  rw [List.mem_filterMap]
  constructor
  · rintro ⟨r, hr, ha⟩
    by_cases hlevel : linter.level? r.name = some .off
    · rw [activate?_eq_none hlevel] at ha
      exact absurd ha (Option.some_ne_none a).symm
    · rw [activate?_eq_some hlevel, Option.some.injEq] at ha
      subst ha
      exact ⟨hr, hlevel, rfl⟩
  · rintro ⟨hr, hlevel, hoverride⟩
    refine ⟨a.rule, hr, ?_⟩
    rw [activate?_eq_some hlevel, ← hoverride]

/-- A rule that is off might as well not be registered, and levels of names that no rule has do not
count. -/
theorem activeRules_eq_of_off {front back : List Rule} {r : Rule}
    {levels : List (String × RuleLevel)} (hrules : linter.rules = front ++ r :: back)
    (hoff : linter.level? r.name = some .off)
    (hlevels : ∀ s ∈ front ++ back, levels.lookup s.name = linter.level? s.name) :
    linter.activeRules = (Linter.mk (front ++ back) levels).activeRules := by
  have hsame : ∀ s ∈ front ++ back,
      linter.activate? s = (Linter.mk (front ++ back) levels).activate? s := by
    intro s hs
    have hlevel : (Linter.mk (front ++ back) levels).level? s.name = linter.level? s.name :=
      hlevels s hs
    unfold activate?
    rw [hlevel]
  unfold activeRules
  rw [hrules, List.filterMap_append, List.filterMap_cons, activate?_eq_none hoff,
    ← List.filterMap_append]
  exact List.filterMap_congr hsame

theorem isEnabled_iff {name : String} : linter.isEnabled name = true ↔
    ∃ r ∈ linter.rules, r.name = name ∧ linter.level? name ≠ some .off := by
  unfold isEnabled Registry.contains Registry.find?
  rw [Bool.and_eq_true, List.find?_isSome, decide_eq_true_eq]
  constructor
  · rintro ⟨⟨r, hr, hname⟩, hlevel⟩
    exact ⟨r, hr, of_decide_eq_true hname, hlevel⟩
  · rintro ⟨r, hr, hname, hlevel⟩
    exact ⟨⟨r, hr, decide_eq_true hname⟩, hlevel⟩

/-- Levels govern a run. Only registered rules that are not off are called, and a rule that is off
might as well not be there. The diagnostics of the result are those that the hooks have handed back,
call by call, and the severity of each depends on the level of its own rule only: a rule at `warn`
or `error` gets that severity whatever it says, and one without a level keeps what it says. A name
is enabled exactly if some rule of that name is called. All this is about hooks that only look at
the context and hand back notes, as the hooks of a `Rule` do; one that enters a rule itself, and so
reports under the severity of another, is not covered. -/
theorem lint_obeys_levels (linter : Linter) (root : RootNode) (filename : String) :
    let start := Context.start root.source filename
    let calls := root.calls linter.activeRules []
    root.visitAll linter.activeRules start =
        { calls.foldl HookCall.make start with elements := [] } ∧
      (∀ c ∈ calls, c.rule.rule ∈ linter.rules ∧
        linter.level? c.rule.rule.name ≠ some .off) ∧
      (linter.lint root filename).diagnostics =
        (HookCall.answers calls start).flatMap (fun (c, notes) =>
          (Note.reports none notes).map (RuleLevel.govern (linter.level? c.rule.rule.name))) ∧
      (∀ name, linter.isEnabled name = true ↔ ∃ c ∈ calls, c.rule.rule.name = name) ∧
      ∀ front r back levels, linter.rules = front ++ r :: back →
        linter.level? r.name = some .off →
        (∀ s ∈ front ++ back, levels.lookup s.name = linter.level? s.name) →
        linter.lintLogged root filename =
          (Linter.mk (front ++ back) levels).lintLogged root filename := by
  intro start calls
  have hwalk : root.visitAll linter.activeRules start =
      (calls.foldl HookCall.make start).withElements [] := root.walks _ [] start rfl
  have hcalls : ∀ c ∈ calls, c.rule ∈ linter.activeRules :=
    fun c hc => RootNode.exists_call_iff.mp ⟨c, hc, rfl⟩
  refine ⟨hwalk, fun c hc => ?_, ?_, fun name => ?_, ?_⟩
  · obtain ⟨hr, hlevel, -⟩ := mem_activeRules_iff.mp (hcalls c hc)
    exact ⟨hr, hlevel⟩
  · have hdiagnostics : (linter.lint root filename).diagnostics =
        (HookCall.answers calls start).flatMap fun p =>
          Note.reports p.1.rule.override p.2 := by
      show (root.visitAll linter.activeRules start).diagnostics.toList = _
      rw [hwalk]
      exact (HookCall.foldl_make_found calls start).1
    rw [hdiagnostics]
    apply List.flatMap_congr
    intro p hp
    -- The severity that overrides is that of the caller's level, since the caller is active.
    obtain ⟨-, -, hoverride⟩ := mem_activeRules_iff.mp (hcalls p.1 (HookCall.mem_of_mem_answers hp))
    rw [Note.reports_eq_map, hoverride]
    exact List.map_congr_left fun d _ => (RuleLevel.govern_eq _ d).symm
  · rw [isEnabled_iff]
    constructor
    · rintro ⟨r, hr, rfl, hlevel⟩
      have hactive : ActiveRule.mk r ((linter.level? r.name).bind RuleLevel.severity?) ∈
          linter.activeRules := mem_activeRules_iff.mpr ⟨hr, hlevel, rfl⟩
      obtain ⟨c, hc, hrule⟩ := RootNode.exists_call_iff.mpr hactive
      exact ⟨c, hc, by rw [hrule]⟩
    · rintro ⟨c, hc, rfl⟩
      obtain ⟨hr, hlevel, -⟩ := mem_activeRules_iff.mp (hcalls c hc)
      exact ⟨c.rule.rule, hr, rfl, hlevel⟩
  · intro front r back levels hrules hoff hlevels
    unfold lintLogged
    rw [activeRules_eq_of_off hrules hoff hlevels]

end Linter
end TemplateLint
