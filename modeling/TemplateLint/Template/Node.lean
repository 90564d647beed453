import TemplateLint.Template.Span

/-!
Parsed Angular templates: elements with their attributes and bindings, and the text between them.
-/

namespace TemplateLint

inductive ElementType where
  | element
  /-- `<ng-template>`, and what stands for it in short. -/
  | template
  /-- `<ng-container>` -/
  | container
deriving Repr, DecidableEq, Inhabited

inductive BindingType where
  | property
  | attr
  | className
  | style
  | animation
  /-- The input half of `[(name)]`. -/
  | twoWay
deriving Repr, DecidableEq, Inhabited

inductive EventType where
  | regular
  | animation
  /-- The output half of `[(name)]`. -/
  | twoWay
deriving Repr, DecidableEq, Inhabited

/-- A plain `name="value"`. -/
structure TextAttribute where
  name : String
  value : String
  span : SourceSpan
deriving Repr, DecidableEq, Inhabited

/-- A property binding `[name]="value"`. -/
structure BoundAttribute where
  name : String
  bindingType : BindingType
  value : String
  span : SourceSpan
deriving Repr, DecidableEq, Inhabited

/-- An event binding `(name)="handler"`. The name is without the parentheses, the span covers the
whole attribute. -/
structure BoundEvent where
  name : String
  eventType : EventType
  handler : String
  /-- The global object that the event comes from, such as `window`. -/
  target : Option String
  span : SourceSpan
  keySpan : Option SourceSpan
deriving Repr, DecidableEq, Inhabited

/-- Text, plain or with interpolations. -/
structure TextNode where
  value : String
  span : SourceSpan
deriving Repr, DecidableEq, Inhabited

mutual

inductive TemplateNode where
  | element (e : ElementNode)
  | text (t : TextNode)
  | boundText (t : TextNode)

structure ElementNode where
  tag : String
  elementType : ElementType
  attributes : List TextAttribute
  inputs : List BoundAttribute
  outputs : List BoundEvent
  children : List TemplateNode
  span : SourceSpan

end

deriving instance Repr for TemplateNode, ElementNode

mutual

def TemplateNode.decEq : (n n' : TemplateNode) → Decidable (n = n')
  | .element e, .element e' =>
    have : Decidable (e = e') := e.decEq e'
    decidable_of_decidable_of_iff (p := e = e') (by simp)
  | .text t, .text t' => decidable_of_decidable_of_iff (p := t = t') (by simp)
  | .boundText t, .boundText t' => decidable_of_decidable_of_iff (p := t = t') (by simp)
  | .element _, .text _ | .element _, .boundText _ | .text _, .element _ | .text _, .boundText _
  | .boundText _, .element _ | .boundText _, .text _ => isFalse nofun

def ElementNode.decEq : (e e' : ElementNode) → Decidable (e = e')
  | ⟨tag, elementType, attributes, inputs, outputs, children, span⟩,
    ⟨tag', elementType', attributes', inputs', outputs', children', span'⟩ =>
    have : Decidable (children = children') := TemplateNode.listDecEq children children'
    decidable_of_decidable_of_iff (p := tag = tag' ∧ elementType = elementType' ∧
      attributes = attributes' ∧ inputs = inputs' ∧ outputs = outputs' ∧ children = children' ∧
      span = span') (by simp)

def TemplateNode.listDecEq : (ns ns' : List TemplateNode) → Decidable (ns = ns')
  | [], [] => isTrue rfl
  | [], _ :: _ | _ :: _, [] => isFalse nofun
  | n :: ns, n' :: ns' =>
    have : Decidable (n = n') := n.decEq n'
    have : Decidable (ns = ns') := TemplateNode.listDecEq ns ns'
    decidable_of_decidable_of_iff (p := n = n' ∧ ns = ns') (by simp)

end

instance : DecidableEq TemplateNode := TemplateNode.decEq

instance : DecidableEq ElementNode := ElementNode.decEq

instance : Inhabited TemplateNode := ⟨.text default⟩

/-- An element without attributes, bindings and children. -/
def ElementNode.empty (tag : String) (elementType : ElementType) (span : SourceSpan) :
    ElementNode :=
  ⟨tag, elementType, [], [], [], [], span⟩

instance : Inhabited ElementNode := ⟨.empty "" .element .stub⟩

/-- A template with its text, into which the spans of its nodes point. -/
structure RootNode where
  source : String
  children : List TemplateNode
deriving Repr, DecidableEq, Inhabited

end TemplateLint
