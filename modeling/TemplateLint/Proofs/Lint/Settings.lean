import TemplateLint.Lint.Linter
import TemplateLint.Proofs.Named

/-! Setting levels, one after another. The last level that is set for a rule is the one it has, so the
order matters only among levels of one rule. -/
namespace TemplateLint

namespace Config

def names (c : Config) : List String := c.rules.map Prod.fst

/-- The levels of a configuration are a map: no rule is listed twice. -/
def Distinct (c : Config) : Prop := c.names.Nodup

instance (c : Config) : Decidable c.Distinct := inferInstanceAs (Decidable c.names.Nodup)

/-- The order in which the map is listed does not matter. -/
theorem level?_perm {c : Config} (hdistinct : c.Distinct) {order : List (String × RuleLevel)}
    (hperm : order.Perm c.rules) (rule : String) : c.level? rule = order.lookup rule :=
  lookup_perm hperm.symm hdistinct rule

end Config

theorem Registry.contains_iff {rules : Registry} {name : String} :
    rules.contains name = true ↔ ∃ r ∈ rules, r.name = name := by
  simp [contains, find?]

namespace Linter

section Levels
variable {linter linter' : Linter} {levels : List (String × RuleLevel)}

theorem setLevels_cons (linter : Linter) (rule : String) (level : RuleLevel)
    (levels : List (String × RuleLevel)) : linter.setLevels ((rule, level) :: levels) =
      if linter.rules.contains rule then
        setLevels { linter with levels := (rule, level) :: linter.levels } levels
      else .error ⟨rule⟩ := by
  simp only [setLevels, List.foldlM_cons, setLevel]
  split <;> rfl

/-- Levels are set only if all their rules are there, and then all of them are. -/
theorem setLevels_eq_ok_iff : linter.setLevels levels = .ok linter' ↔
    (∀ entry ∈ levels, linter.rules.contains entry.1 = true) ∧
      linter' = ⟨linter.rules, levels.reverse ++ linter.levels⟩ := by
  induction levels generalizing linter with
  | nil =>
    constructor
    · intro h
      obtain rfl : linter = linter' := Except.ok.inj h
      exact ⟨nofun, rfl⟩
    · rintro ⟨-, rfl⟩
      rfl
  | cons entry levels ih =>
    rw [setLevels_cons, List.forall_mem_cons, List.reverse_cons, List.append_assoc]
    split
    next hrule => rw [ih, and_iff_right hrule, List.singleton_append]
    next hrule => exact iff_of_false nofun fun h => hrule h.1.1

/-- Setting levels stops at the first rule that is not there. -/
theorem setLevels_eq_error_iff {e : UnknownRule} : linter.setLevels levels = .error e ↔
    ∃ front level back, levels = front ++ (e.name, level) :: back ∧
      (∀ entry ∈ front, linter.rules.contains entry.1 = true) ∧
        linter.rules.contains e.name = false := by
  induction levels generalizing linter with
  | nil =>
    refine iff_of_false nofun ?_
    rintro ⟨front, level, back, heq, -⟩
    exact List.cons_ne_nil _ _ (List.append_eq_nil_iff.mp heq.symm).2
  | cons entry levels ih =>
    rw [setLevels_cons]
    split
    next hrule =>
      rw [ih]
      constructor
      · rintro ⟨front, level, back, rfl, hfront, hunknown⟩
        exact ⟨entry :: front, level, back, rfl, List.forall_mem_cons.mpr ⟨hrule, hfront⟩, hunknown⟩
      · rintro ⟨front, level, back, heq, hfront, hunknown⟩
        cases front with
        | nil =>
          obtain ⟨rfl, rfl⟩ := List.cons.inj heq
          exact absurd hrule (Bool.eq_false_iff.mp hunknown)
        | cons entry' front =>
          obtain ⟨rfl, rfl⟩ := List.cons.inj heq
          exact ⟨front, level, back, rfl, (List.forall_mem_cons.mp hfront).2, hunknown⟩
    next hrule =>
      constructor
      · intro h
        cases h
        exact ⟨[], entry.2, levels, rfl, nofun, Bool.eq_false_iff.mpr hrule⟩
      · rintro ⟨front, level, back, heq, hfront, -⟩
        cases front with
        | nil =>
          obtain ⟨rfl, rfl⟩ := List.cons.inj heq
          rfl
        | cons entry' front =>
          obtain ⟨rfl, rfl⟩ := List.cons.inj heq
          exact absurd (List.forall_mem_cons.mp hfront).1 hrule

theorem exists_setLevels_eq_ok_iff : (∃ result, linter.setLevels levels = .ok result) ↔
    ∀ entry ∈ levels, linter.rules.contains entry.1 = true := by
  simp only [setLevels_eq_ok_iff, exists_and_left, exists_eq, and_true]

/-- Levels do not change which rules there are. -/
theorem setLevels_rules (h : linter.setLevels levels = .ok linter') :
    linter'.rules = linter.rules := by
  rw [(setLevels_eq_ok_iff.mp h).2]

/-- Levels cannot be set when one of them is for a rule that is not there. -/
theorem exists_setLevels_eq_error_iff : (∃ e, linter.setLevels levels = .error e) ↔
    ∃ entry ∈ levels, ∀ r ∈ linter.rules, r.name ≠ entry.1 := by
  have herror : (∃ e, linter.setLevels levels = .error e) ↔
      ¬ ∃ result, linter.setLevels levels = .ok result := by
    cases linter.setLevels levels <;> simp
  rw [herror, exists_setLevels_eq_ok_iff]
  simp [Registry.contains_iff]

/-- The level of a rule once levels have been set: the last one that was set for it, if any. -/
theorem level?_setLevels (h : linter.setLevels levels = .ok linter') (rule : String) :
    linter'.level? rule = (levels.reverse.lookup rule).or (linter.level? rule) := by
  rw [(setLevels_eq_ok_iff.mp h).2, level?, List.lookup_append]
  rfl

theorem setLevels_append (linter : Linter) (levels levels' : List (String × RuleLevel)) :
    linter.setLevels (levels ++ levels') =
      linter.setLevels levels >>= fun linter => linter.setLevels levels' :=
  List.foldlM_append

/-- Linters with the same rules at the same levels lint alike, and tell the same on the way. -/
theorem lintLogged_eq_of_level? (hrules : linter.rules = linter'.rules)
    (hlevels : ∀ rule, linter.level? rule = linter'.level? rule) (root : RootNode)
    (filename : String) : linter.lintLogged root filename = linter'.lintLogged root filename := by
  have hactive : linter.activeRules = linter'.activeRules := by
    unfold activeRules
    rw [hrules]
    apply List.filterMap_congr
    intro r _
    unfold activate?
    rw [hlevels]
  unfold lintLogged
  rw [hactive]

end Levels

/-! Calls that set levels -/

/-- A call that sets the level of one rule, or those of a configuration in the order of its list. -/
inductive Setting where
  | rule (name : String) (level : RuleLevel)
  | config (config : Config) (distinct : config.Distinct)

namespace Setting

def levels : Setting → List (String × RuleLevel)
  | .rule name level => [(name, level)]
  | .config c _ => c.rules

def names (s : Setting) : List String := s.levels.map Prod.fst

/-- The level that a call sets for a rule, if it names the rule. -/
def level? : Setting → String → Option RuleLevel
  | .rule name level, other => if other = name then some level else none
  | .config c _, other => c.level? other

theorem distinct (s : Setting) : s.names.Nodup := by
  cases s with
  | rule name level => exact List.nodup_singleton name
  | config c hdistinct => exact hdistinct

theorem level?_eq_lookup (s : Setting) (other : String) :
    s.level? other = s.levels.lookup other := by
  cases s with
  | rule name level =>
    rw [level?, levels]
    split
    next h => rw [h, List.lookup_cons_self]
    next h => rw [lookup_cons_of_ne h, List.lookup_nil]
  | config c hdistinct => rfl

theorem level?_eq_none_iff {s : Setting} {name : String} :
    s.level? name = none ↔ name ∉ s.names := by
  rw [level?_eq_lookup]
  exact lookup_eq_none_iff

theorem exists_level? {s : Setting} {name : String} (h : name ∈ s.names) :
    ∃ level, s.level? name = some level := by
  rw [← Option.ne_none_iff_exists', ne_eq, level?_eq_none_iff, not_not]
  exact h

end Setting

def set (linter : Linter) : Setting → Except UnknownRule Linter
  | .rule name level => linter.setLevel name level
  | .config c _ => linter.configure c

/-- Makes calls one after another, up to the first that fails. -/
def setAll (linter : Linter) (settings : List Setting) : Except UnknownRule Linter :=
  settings.foldlM set linter

theorem set_eq (linter : Linter) (s : Setting) : linter.set s = linter.setLevels s.levels := by
  cases s with
  | rule name level =>
    show linter.setLevel name level = linter.setLevels [(name, level)]
    rw [setLevels_cons, setLevel]
    rfl
  | config c hdistinct => rfl

section Calls
variable {linter linter' : Linter} {settings : List Setting}

theorem setAll_cons (linter : Linter) (s : Setting) (settings : List Setting) :
    linter.setAll (s :: settings) = linter.set s >>= fun linter => linter.setAll settings :=
  List.foldlM_cons

/-- Calls set their levels one by one. -/
theorem setAll_eq (linter : Linter) (settings : List Setting) :
    linter.setAll settings = linter.setLevels (settings.flatMap Setting.levels) := by
  induction settings generalizing linter with
  | nil => rfl
  | cons s settings ih =>
    rw [setAll_cons, set_eq, List.flatMap_cons, setLevels_append]
    congr 1
    funext linter'
    exact ih linter'

theorem exists_setAll_eq_ok_iff : (∃ result, linter.setAll settings = .ok result) ↔
    ∀ s ∈ settings, ∀ name ∈ s.names, linter.rules.contains name = true := by
  rw [setAll_eq, exists_setLevels_eq_ok_iff]
  simp only [List.mem_flatMap, Setting.names, List.forall_mem_map]
  constructor
  · intro h s hs entry hentry
    exact h entry ⟨s, hs, hentry⟩
  · rintro h entry ⟨s, hs, hentry⟩
    exact h s hs entry hentry

theorem setAll_rules (h : linter.setAll settings = .ok linter') : linter'.rules = linter.rules :=
  setLevels_rules (setAll_eq linter settings ▸ h)

/-- What one call does to the levels: those it sets are new, the others stay. -/
theorem level?_set {s : Setting} (h : linter.set s = .ok linter') (name : String) :
    linter'.level? name = (s.level? name).or (linter.level? name) := by
  rw [set_eq] at h
  rw [level?_setLevels h, s.level?_eq_lookup]
  congr 1
  exact (lookup_perm (List.reverse_perm s.levels).symm s.distinct name).symm

/-- The level of a rule after some calls is the one that the last of them has set. -/
theorem level?_setAll (h : linter.setAll settings = .ok linter') (name : String) :
    linter'.level? name =
      (settings.reverse.findSome? (Setting.level? · name)).or (linter.level? name) := by
  induction settings generalizing linter with
  | nil =>
    obtain rfl : linter = linter' := Except.ok.inj h
    rfl
  | cons s settings ih =>
    rw [setAll_cons] at h
    cases hs : linter.set s with
    | error e =>
      rw [hs] at h
      cases h
    | ok mid =>
      rw [hs] at h
      rw [ih h, level?_set hs, List.reverse_cons, List.findSome?_append, Option.or_assoc,
        List.findSome?_singleton]

theorem findSome?_level?_eq_none {name : String} (h : ∀ s ∈ settings, name ∉ s.names) :
    settings.reverse.findSome? (Setting.level? · name) = none := by
  rw [List.findSome?_eq_none_iff]
  intro s hs
  exact Setting.level?_eq_none_iff.mpr (h s (List.mem_reverse.mp hs))

theorem level?_setAll_of_notMem {name : String} (h : linter.setAll settings = .ok linter')
    (hnone : ∀ s ∈ settings, name ∉ s.names) : linter'.level? name = linter.level? name := by
  rw [level?_setAll h, findSome?_level?_eq_none hnone, Option.none_or]

theorem level?_setAll_of_last {front back : List Setting} {s : Setting} {name : String}
    (h : linter.setAll (front ++ s :: back) = .ok linter') (hname : name ∈ s.names)
    (hback : ∀ t ∈ back, name ∉ t.names) :
    ∃ level, s.level? name = some level ∧ linter'.level? name = some level := by
  obtain ⟨level, hlevel⟩ := Setting.exists_level? hname
  refine ⟨level, hlevel, ?_⟩
  rw [level?_setAll h, List.reverse_append, List.reverse_cons, List.append_assoc,
    List.findSome?_append, findSome?_level?_eq_none hback, Option.none_or, List.singleton_append,
    List.findSome?_cons_of_isSome]
  · rw [hlevel, Option.some_or]
  · rw [hlevel, Option.isSome_some]

/-- Two calls that name no rule in common may change places. -/
theorem level?_setAll_swap {front back : List Setting} {a b : Setting} {result result' : Linter}
    (hdisjoint : ∀ name ∈ a.names, name ∉ b.names)
    (h : linter.setAll (front ++ a :: b :: back) = .ok result)
    (h' : linter.setAll (front ++ b :: a :: back) = .ok result') (name : String) :
    result.level? name = result'.level? name := by
  have hswap (rest : Option RuleLevel) : (b.level? name).or ((a.level? name).or rest) =
      (a.level? name).or ((b.level? name).or rest) := by
    by_cases hname : name ∈ a.names
    · rw [Setting.level?_eq_none_iff.mpr (hdisjoint name hname), Option.none_or, Option.none_or]
    · rw [Setting.level?_eq_none_iff.mpr hname, Option.none_or, Option.none_or]
  rw [level?_setAll h, level?_setAll h']
  simp only [List.reverse_append, List.reverse_cons, List.findSome?_append,
    List.findSome?_singleton, Option.or_assoc, hswap]

end Calls

/-- Levels resolve to the last one that is set for a rule. A configuration can be applied, in
whatever order its levels are listed, if and only if all the rules it names are there, and otherwise
fails with the name of one that is not; its levels replace the previous ones, and all others stay.
After any calls that have succeeded, the level of a name is the one that the last call to name it has
set. Calls that name no rule in common may change places: both orders succeed or neither does, and
linting gives the same results and the same log. -/
theorem settings_resolve (linter : Linter) :
    (∀ (config : Config) (order : List (String × RuleLevel)), config.Distinct →
      order.Perm config.rules →
      ((∃ result, linter.configure ⟨config.schema, order⟩ = .ok result) ↔
        ∀ name ∈ config.names, linter.rules.contains name = true) ∧
      (∀ e, linter.configure ⟨config.schema, order⟩ = .error e →
        e.name ∈ config.names ∧ linter.rules.contains e.name = false) ∧
      ∀ result, linter.configure ⟨config.schema, order⟩ = .ok result → result.rules = linter.rules ∧
        ∀ name, result.level? name = (config.level? name).or (linter.level? name)) ∧
    (∀ settings result, linter.setAll settings = .ok result → ∀ name,
      (∀ front s back, settings = front ++ s :: back → name ∈ s.names →
        (∀ t ∈ back, name ∉ t.names) →
          ∃ level, s.level? name = some level ∧ result.level? name = some level) ∧
      ((∀ s ∈ settings, name ∉ s.names) → result.level? name = linter.level? name)) ∧
    ∀ front a b back, (∀ name ∈ a.names, name ∉ b.names) →
      ((∃ result, linter.setAll (front ++ a :: b :: back) = .ok result) ↔
        ∃ result, linter.setAll (front ++ b :: a :: back) = .ok result) ∧
      ∀ result result', linter.setAll (front ++ a :: b :: back) = .ok result →
        linter.setAll (front ++ b :: a :: back) = .ok result' →
          (∀ name, result.level? name = result'.level? name) ∧
          ∀ root filename, result.lintLogged root filename = result'.lintLogged root filename := by
  refine ⟨fun config order hdistinct hperm => ⟨?_, fun e he => ?_, fun result hresult => ?_⟩,
    fun settings result hresult name => ⟨?_, level?_setAll_of_notMem hresult⟩,
    fun front a b back hdisjoint => ⟨?_, fun result result' hresult hresult' => ?_⟩⟩
  · refine exists_setLevels_eq_ok_iff.trans ?_
    simp only [Config.names, List.forall_mem_map]
    exact ⟨fun h entry hentry => h entry (hperm.symm.subset hentry),
      fun h entry hentry => h entry (hperm.subset hentry)⟩
  · obtain ⟨front, level, back, rfl, -, hunknown⟩ := setLevels_eq_error_iff.mp he
    have hmem : (e.name, level) ∈ config.rules := hperm.subset List.mem_append_cons_self
    exact ⟨List.mem_map_of_mem hmem, hunknown⟩
  · have hdistinct' : Config.Distinct ⟨config.schema, order⟩ :=
      (hperm.symm.map Prod.fst).nodup hdistinct
    refine ⟨setLevels_rules hresult, fun name => ?_⟩
    rw [level?_set (s := .config _ hdistinct') hresult, Config.level?_perm hdistinct hperm]
    rfl
  · rintro front s back rfl hname hback
    exact level?_setAll_of_last hresult hname hback
  · have hperm : (front ++ a :: b :: back).Perm (front ++ b :: a :: back) :=
      (List.Perm.swap b a back).append_left front
    rw [exists_setAll_eq_ok_iff, exists_setAll_eq_ok_iff]
    exact ⟨fun h s hs => h s (hperm.symm.subset hs), fun h s hs => h s (hperm.subset hs)⟩
  · have hlevels := level?_setAll_swap hdisjoint hresult hresult'
    refine ⟨hlevels, lintLogged_eq_of_level? ?_ hlevels⟩
    exact (setAll_rules hresult).trans (setAll_rules hresult').symm

/-- Two rules, a configuration listed the other way round, one with a rule that is not there, and
two calls in both orders. -/
theorem settings_resolve_two_rules :
    let rule (name : String) : Rule := { info := ⟨name, "", "", .style, false, .warning⟩ }
    let linter : Linter := .ofRules [rule "a", rule "b"]
    let config : Config := ⟨none, [("a", .warn), ("b", .off)]⟩
    let order : List (String × RuleLevel) := [("b", .off), ("a", .warn)]
    let unknown : Config := ⟨none, [("a", .warn), ("c", .off)]⟩
    let first : Setting := .config ⟨none, order⟩ (by decide)
    (∃ result, linter.configure ⟨none, order⟩ = .ok result ∧
        ∀ name, result.level? name = (config.level? name).or (linter.level? name)) ∧
      (∃ e, linter.configure unknown = .error e ∧ e.name ∈ ["a", "c"] ∧
        linter.rules.contains e.name = false) ∧
      ∃ result result', linter.setAll [first, .rule "a" .error, .rule "b" .warn] = .ok result ∧
        linter.setAll [first, .rule "b" .warn, .rule "a" .error] = .ok result' ∧
        result.level? "a" = some .error ∧ result.level? "c" = none ∧
        ∀ root filename, result.lintLogged root filename = result'.lintLogged root filename := by
  intro rule linter config order unknown first
  obtain ⟨hconfig, hcalls, hswap⟩ := settings_resolve linter
  have hperm : order.Perm config.rules := List.Perm.swap _ _ _
  obtain ⟨-, -, hlevels⟩ := hconfig config order (by decide) hperm
  obtain ⟨-, herror, -⟩ := hconfig unknown unknown.rules (by decide) (List.Perm.refl _)
  obtain ⟨-, hsame⟩ := hswap [first] (.rule "a" .error) (.rule "b" .warn) [] (by decide)
  obtain ⟨hlast, -⟩ := hcalls [first, .rule "a" .error, .rule "b" .warn] _ rfl "a"
  obtain ⟨-, hother⟩ := hcalls [first, .rule "a" .error, .rule "b" .warn] _ rfl "c"
  refine ⟨⟨_, rfl, (hlevels _ rfl).2⟩, ⟨_, rfl, herror _ rfl⟩, _, _, rfl, rfl, ?_, ?_, ?_⟩
  · obtain ⟨level, hlevel, hresult⟩ :=
      hlast [first] (.rule "a" .error) [.rule "b" .warn] rfl (by decide) (by decide)
    obtain rfl : RuleLevel.error = level := Option.some.inj hlevel
    exact hresult
  · exact hother (by decide)
  · exact (hsame _ _ rfl rfl).2

end Linter
end TemplateLint
