import TemplateLint.Rule.Context
import TemplateLint.Template.Node

/-!
Rules, which are asked about the nodes of a template, and the list of rules that a linter knows.
-/

namespace TemplateLint

inductive RuleCategory where
  /-- The template does not do what its author meant. -/
  | functionality
  /-- The template is hard to change. -/
  | maintainability
  | style
deriving Repr, DecidableEq, Inhabited

def RuleCategory.name : RuleCategory → String
  | .functionality => "functionality"
  | .maintainability => "maintainability"
  | .style => "style"

structure RuleInfo where
  name : String
  description : String
  rationale : String
  category : RuleCategory
  fixable : Bool
  defaultSeverity : Severity
deriving Repr, DecidableEq, Inhabited

/-- A rule is asked once about the template, and about each element and binding of it. A hook looks
at the context, and can act on it only through the notes that it hands back: it can report and write
to the log, but it can neither enter a rule nor open or close an element. Hooks that change the
context themselves are left out. -/
structure Rule where
  info : RuleInfo
  onTemplate : RootNode → Context → List Note := fun _ _ => []
  onElement : ElementNode → Context → List Note := fun _ _ => []
  onInput : ElementNode → BoundAttribute → Context → List Note := fun _ _ _ => []
  onOutput : ElementNode → BoundEvent → Context → List Note := fun _ _ _ => []

def Rule.name (r : Rule) : String := r.info.name

instance : Inhabited Rule := ⟨{ info := default }⟩

/-- The rules of a linter, in the order in which they are asked. -/
abbrev Registry := List Rule

namespace Registry

def find? (rules : Registry) (name : String) : Option Rule := List.find? (·.name = name) rules

def contains (rules : Registry) (name : String) : Bool := (rules.find? name).isSome

def names (rules : Registry) : List String := rules.map Rule.name

/-- A new rule is asked after the others. -/
def register (rules : Registry) (r : Rule) : Registry := rules ++ [r]

end Registry

end TemplateLint
