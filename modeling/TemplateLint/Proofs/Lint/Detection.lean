import Mathlib.Data.List.Basic
import TemplateLint.Lint.Linter
import TemplateLint.Proofs.Lint.Events
import TemplateLint.Proofs.Rule.Boxes

/-! The test of the name in front of the search for a box. It saves the search, and loses no box. -/
namespace TemplateLint

namespace BananaInBox

theorem bracketed_cons_iff {c : Char} (h : c ≠ '[') {cs : List Char} :
    Bracketed (c :: cs) ↔ Bracketed cs := by
  constructor
  · rintro ⟨before, inner, after, heq⟩
    cases before with
    | nil => exact absurd (List.cons.inj heq).1 h
    | cons d before => exact ⟨before, inner, after, (List.cons.inj heq).2⟩
  · rintro ⟨before, inner, after, rfl⟩
    exact ⟨c :: before, inner, after, rfl⟩

theorem bracketed_concat_iff {c : Char} (h : c ≠ ']') {cs : List Char} :
    Bracketed (cs ++ [c]) ↔ Bracketed cs := by
  constructor
  · rintro ⟨before, inner, after, heq⟩
    rcases List.eq_nil_or_concat after with rfl | ⟨after, d, rfl⟩
    · exact absurd (List.append_inj' heq rfl).2 (by simpa using h)
    · have hsame : cs ++ [c] = (before ++ '[' :: inner ++ ']' :: after) ++ [d] := by
        rw [heq]
        simp
      exact ⟨before, inner, after, (List.append_inj' hsame rfl).1⟩
  · rintro ⟨before, inner, after, rfl⟩
    exact ⟨before, inner, after ++ [c], by simp⟩

theorem HasBox.bracketed {text : List Char} (h : HasBox text) : Bracketed text := by
  obtain ⟨before, inner, after, rfl⟩ := h
  exact ⟨before ++ ['('], inner, ')' :: after, by simp⟩

/-- Parentheses bring in no bracket of the name. -/
theorem bracketed_of_parenthesized {name : List Char} (h : HasBox ('(' :: name ++ [')'])) :
    Bracketed name := by
  have hinside := h.bracketed
  rwa [List.cons_append, bracketed_cons_iff (by decide), bracketed_concat_iff (by decide)]
    at hinside

/-- What the rule would say of an event binding if it did not look at the name. -/
def checkKey (event : BoundEvent) (ctx : Context) : List Note :=
  let key := attributeKey event.span.source.toList
  match locate? key with
  | none => []
  | some b =>
    match templateRange? ctx.source.toList event.span.start.offset key b with
    | none => [.log (mismatchEvent ctx.filename event)]
    | some (start, stop) =>
      [.log (foundEvent ctx.filename b start stop), .report (diagnosticOf b start stop)]

/-- The rule without the test of the name. -/
def searching : Rule where
  info := info
  onOutput := fun _ event ctx => checkKey event ctx

theorem check_eq (event : BoundEvent) (ctx : Context) :
    check event ctx = if detect event.name.toList then checkKey event ctx else [] := rfl

theorem checkKey_eq_nil {event : BoundEvent} {ctx : Context}
    (h : ¬ HasBox (attributeKey event.span.source.toList)) : checkKey event ctx = [] := by
  simp only [checkKey, locate?_eq_none_iff.mpr h]

end BananaInBox

/-- The key of the attribute is the name of the event in parentheses. -/
def BoundEvent.Parenthesized (event : BoundEvent) : Prop :=
  BananaInBox.attributeKey event.span.source.toList = '(' :: event.name.toList ++ [')']

theorem BoundEvent.Parenthesized.check_eq {event : BoundEvent} (h : event.Parenthesized)
    (ctx : Context) : BananaInBox.check event ctx = BananaInBox.checkKey event ctx := by
  rw [BananaInBox.check_eq]
  split
  next => rfl
  next hname =>
    refine (BananaInBox.checkKey_eq_nil fun hbox => hname ?_).symm
    rw [h] at hbox
    exact BananaInBox.detect_iff.mpr (BananaInBox.bracketed_of_parenthesized hbox)

/-! Rules that do the same at every visit -/

/-- At the visits of a template both rules do the same to every context. -/
def ActiveRule.Alike (root : RootNode) (a b : ActiveRule) : Prop :=
  ∀ visit ∈ root.visits, ∀ ctx, a.ask visit ctx = b.ask visit ctx

theorem ActiveRule.Alike.run_eq {root : RootNode} {a b : ActiveRule} (h : a.Alike root b)
    {visit : Visit} (hvisit : visit ∈ root.visits) (front back : List ActiveRule) (ctx : Context) :
    visit.run (front ++ a :: back) ctx = visit.run (front ++ b :: back) ctx := by
  have hask : ∀ ctx, (front ++ a :: back).foldl (fun ctx r => r.ask visit ctx) ctx =
      (front ++ b :: back).foldl (fun ctx r => r.ask visit ctx) ctx := by
    intro ctx
    rw [List.foldl_append, List.foldl_append, List.foldl_cons, List.foldl_cons, h visit hvisit]
  cases visit with
  | leave => rfl
  | _ => exact hask _

theorem ActiveRule.Alike.visitAll_eq {root : RootNode} {a b : ActiveRule} (h : a.Alike root b)
    (front back : List ActiveRule) (ctx : Context) :
    root.visitAll (front ++ a :: back) ctx = root.visitAll (front ++ b :: back) ctx := by
  apply List.foldl_ext
  intro ctx visit hvisit
  exact h.run_eq hvisit front back ctx

namespace Linter

/-- A linter tells its rules apart only by what they do. -/
theorem lintLogged_congr {linter linter' : Linter} {root : RootNode} (filename : String)
    (hlength : linter.activeRules.length = linter'.activeRules.length)
    (hvisits : ∀ ctx,
      root.visitAll linter.activeRules ctx = root.visitAll linter'.activeRules ctx) :
    linter.lintLogged root filename = linter'.lintLogged root filename := by
  simp only [lintLogged, startEvent, hvisits, hlength]

/-- A rule in a registry can be exchanged for another one of its name that does the same. -/
theorem lintLogged_exchange {root : RootNode} {r r' : Rule} (hname : r.name = r'.name)
    (h : ∀ override, ActiveRule.Alike root ⟨r, override⟩ ⟨r', override⟩)
    (front back : Registry) (levels : List (String × RuleLevel)) (filename : String) :
    (Linter.mk (front ++ r :: back) levels).lintLogged root filename =
      (Linter.mk (front ++ r' :: back) levels).lintLogged root filename := by
  have hactive (x : Rule) : (Linter.mk (front ++ x :: back) levels).activeRules =
      (Linter.mk front levels).activeRules ++
        (((Linter.mk front levels).activate? x).toList ++ (Linter.mk back levels).activeRules) := by
    have hone : (x :: back).filterMap (Linter.mk front levels).activate? =
        ((Linter.mk front levels).activate? x).toList ++
          back.filterMap (Linter.mk front levels).activate? := by
      cases hx : (Linter.mk front levels).activate? x <;> simp [hx]
    exact List.filterMap_append.trans (congrArg _ hone)
  have hcase : ((Linter.mk front levels).activate? r = none ∧
      (Linter.mk front levels).activate? r' = none) ∨
      ∃ override, (Linter.mk front levels).activate? r = some ⟨r, override⟩ ∧
        (Linter.mk front levels).activate? r' = some ⟨r', override⟩ := by
    unfold activate?
    rw [hname]
    cases (Linter.mk front levels).level? r'.name with
    | none => exact .inr ⟨none, rfl, rfl⟩
    | some level => cases level with
      | off => exact .inl ⟨rfl, rfl⟩
      | _ => exact .inr ⟨_, rfl, rfl⟩
  rcases hcase with ⟨hr, hr'⟩ | ⟨override, hr, hr'⟩
  · have hrules : (Linter.mk (front ++ r :: back) levels).activeRules =
        (Linter.mk (front ++ r' :: back) levels).activeRules := by
      rw [hactive, hactive, hr, hr']
    exact lintLogged_congr filename (by rw [hrules]) fun ctx => by rw [hrules]
  · apply lintLogged_congr
    · rw [hactive, hactive, hr, hr']
      simp
    · intro ctx
      rw [hactive, hactive, hr, hr']
      exact (h override).visitAll_eq _ _ ctx

end Linter

namespace BananaInBox

theorem alike_searching {root : RootNode} (h : ∀ event ∈ root.events, event.Parenthesized)
    (override : Option Severity) :
    ActiveRule.Alike root ⟨bananaInBox, override⟩ ⟨searching, override⟩ := by
  intro visit hvisit ctx
  cases visit with
  | output e event =>
    have hevent : event ∈ root.events := by
      rw [← RootNode.filterMap_visits]
      exact List.mem_filterMap.mpr ⟨_, hvisit, rfl⟩
    have hnotes : check event (ctx.enterRule bananaInBox.name override) =
        checkKey event (ctx.enterRule bananaInBox.name override) := (h event hevent).check_eq _
    exact congrArg (List.foldl Context.note _) hnotes
  | _ => rfl

/-- The test of the name loses nothing. Wherever a box is found, in a text or in a name in
parentheses, that text or name passes the test. Where the keys of the attributes are the names of
their events in parentheses, the rule says the same without the test, of every event and in every
run, whatever the other rules and the levels are. -/
theorem detect_loses_nothing :
    (∀ name, (locate? ('(' :: name ++ [')'])).isSome = true → detect name = true) ∧
    (∀ text, (locate? text).isSome = true → detect text = true) ∧
    (∀ event ctx, BoundEvent.Parenthesized event → check event ctx = checkKey event ctx) ∧
    ∀ (root : RootNode), (∀ event ∈ root.events, event.Parenthesized) →
      ∀ front back levels filename,
        (Linter.mk (front ++ bananaInBox :: back) levels).lintLogged root filename =
          (Linter.mk (front ++ searching :: back) levels).lintLogged root filename := by
  refine ⟨fun name h => ?_, fun text h => ?_, fun event ctx h => h.check_eq ctx,
    fun root h front back levels filename => ?_⟩
  · exact detect_iff.mpr (bracketed_of_parenthesized (isSome_locate?_iff.mp h))
  · exact detect_iff.mpr (isSome_locate?_iff.mp h).bracketed
  · have hname : bananaInBox.name = searching.name := rfl
    exact Linter.lintLogged_exchange hname (alike_searching h) front back levels filename

/-- The first `([` of the key begins with the parenthesis in front of the name. -/
theorem detect_loses_nothing_outer :
    let event : BoundEvent :=
      ⟨"[a]", .regular, "b", none, ⟨⟨3, 1, 4⟩, ⟨12, 1, 13⟩, "([a])=\"b\""⟩, none⟩
    (locate? ['(', '[', 'a', ']', ')']).isSome = true ∧ detect ['[', 'a', ']'] = true ∧
      event.Parenthesized ∧
      ∀ ctx, check event ctx = checkKey event ctx := by
  intro event
  have hbox : (locate? ['(', '[', 'a', ']', ')']).isSome = true := by decide
  have hkey : event.Parenthesized := by
    unfold BoundEvent.Parenthesized
    decide +kernel
  obtain ⟨hname, -, hcheck, -⟩ := detect_loses_nothing
  exact ⟨hbox, hname ['[', 'a', ']'] hbox, hkey, fun ctx => hcheck event ctx hkey⟩

end BananaInBox
end TemplateLint
