import TemplateLint.Template.Node

/-!
The way through a template: its nodes in the order of the document, each element before its
bindings and its bindings before its children.
-/

namespace TemplateLint

inductive Visit where
  | template (root : RootNode)
  | enter (e : ElementNode)
  | input (e : ElementNode) (binding : BoundAttribute)
  | output (e : ElementNode) (event : BoundEvent)
  | leave

mutual

def TemplateNode.visits : TemplateNode → List Visit
  | .element e => e.visits
  | .text _ => []
  | .boundText _ => []

def ElementNode.visits : ElementNode → List Visit
  | ⟨tag, elementType, attributes, inputs, outputs, children, span⟩ =>
    let e : ElementNode := ⟨tag, elementType, attributes, inputs, outputs, children, span⟩
    .enter e :: inputs.map (.input e) ++ outputs.map (.output e) ++
      TemplateNode.listVisits children ++ [.leave]

def TemplateNode.listVisits : List TemplateNode → List Visit
  | [] => []
  | n :: ns => n.visits ++ TemplateNode.listVisits ns

end

def RootNode.visits (root : RootNode) : List Visit :=
  .template root :: TemplateNode.listVisits root.children

end TemplateLint
