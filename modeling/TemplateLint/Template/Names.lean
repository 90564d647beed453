import TemplateLint.Template.Node

/-!
How the kinds of nodes and bindings are called in a document.
-/

namespace TemplateLint

def ElementType.names : List (String × ElementType) :=
  [("element", .element), ("template", .template), ("container", .container)]

def ElementType.name : ElementType → String
  | .element => "element"
  | .template => "template"
  | .container => "container"

def BindingType.names : List (String × BindingType) :=
  [("property", .property), ("attribute", .attr), ("class", .className), ("style", .style),
    ("animation", .animation), ("twoWay", .twoWay)]

def BindingType.name : BindingType → String
  | .property => "property"
  | .attr => "attribute"
  | .className => "class"
  | .style => "style"
  | .animation => "animation"
  | .twoWay => "twoWay"

def EventType.names : List (String × EventType) :=
  [("regular", .regular), ("animation", .animation), ("twoWay", .twoWay)]

def EventType.name : EventType → String
  | .regular => "regular"
  | .animation => "animation"
  | .twoWay => "twoWay"

/-- The kinds of template nodes, as their tags tell them apart. -/
inductive NodeKind where
  | element
  | text
  | boundText
deriving Repr, DecidableEq

def NodeKind.names : List (String × NodeKind) :=
  [("element", .element), ("text", .text), ("boundText", .boundText)]

def NodeKind.name : NodeKind → String
  | .element => "element"
  | .text => "text"
  | .boundText => "boundText"

theorem ElementType.lookup_name (t : ElementType) : names.lookup t.name = some t := by
  cases t <;> decide

theorem BindingType.lookup_name (t : BindingType) : names.lookup t.name = some t := by
  cases t <;> decide

theorem EventType.lookup_name (t : EventType) : names.lookup t.name = some t := by
  cases t <;> decide

theorem NodeKind.lookup_name (k : NodeKind) : names.lookup k.name = some k := by
  cases k <;> decide

end TemplateLint
