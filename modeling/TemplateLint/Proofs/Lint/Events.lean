import TemplateLint.Lint.Visit

/-! The event bindings of a template in document order, and that a walk through the template comes
to each of them once and in this order. -/
namespace TemplateLint

mutual

/-- The event bindings of a node and of what is inside it. -/
def TemplateNode.events : TemplateNode → List BoundEvent
  | .element e => e.events
  | .text _ => []
  | .boundText _ => []

/-- An element's own event bindings stand in front of those of its children. -/
def ElementNode.events : ElementNode → List BoundEvent
  | ⟨_, _, _, _, outputs, children, _⟩ => outputs ++ TemplateNode.listEvents children

def TemplateNode.listEvents : List TemplateNode → List BoundEvent
  | [] => []
  | n :: ns => n.events ++ TemplateNode.listEvents ns

end

def RootNode.events (root : RootNode) : List BoundEvent := TemplateNode.listEvents root.children

/-- A template of one element with these event bindings. -/
def RootNode.ofEvents (source : String) (events : List BoundEvent) : RootNode :=
  ⟨source, [.element ⟨"x", .element, [], [], events, [], .stub⟩]⟩

/-- The event binding that a visit is about. -/
def Visit.event? : Visit → Option BoundEvent
  | .output _ event => some event
  | _ => none

theorem filterMap_event?_inputs (e : ElementNode) (inputs : List BoundAttribute) :
    (inputs.map (Visit.input e)).filterMap Visit.event? = [] := by
  induction inputs with
  | nil => rfl
  | cons i is ih => exact ih

theorem filterMap_event?_outputs (e : ElementNode) (outputs : List BoundEvent) :
    (outputs.map (Visit.output e)).filterMap Visit.event? = outputs := by
  induction outputs with
  | nil => rfl
  | cons o os ih => exact congrArg (o :: ·) ih

mutual

theorem TemplateNode.filterMap_visits : (n : TemplateNode) →
    n.visits.filterMap Visit.event? = n.events
  | .element e => by
    rw [TemplateNode.visits, TemplateNode.events]
    exact e.filterMap_visits
  | .text _ => by simp [TemplateNode.visits, TemplateNode.events]
  | .boundText _ => by simp [TemplateNode.visits, TemplateNode.events]

theorem ElementNode.filterMap_visits : (e : ElementNode) →
    e.visits.filterMap Visit.event? = e.events
  | ⟨tag, elementType, attributes, inputs, outputs, children, span⟩ => by
    have ih := TemplateNode.filterMap_listVisits children
    rw [ElementNode.visits, ElementNode.events]
    simp only [List.filterMap_append, filterMap_event?_inputs, filterMap_event?_outputs,
      List.cons_append, List.filterMap_cons, Visit.event?, List.nil_append, ih,
      List.filterMap_nil, List.append_nil]

theorem TemplateNode.filterMap_listVisits : (ns : List TemplateNode) →
    (TemplateNode.listVisits ns).filterMap Visit.event? = TemplateNode.listEvents ns
  | [] => by simp [TemplateNode.listVisits, TemplateNode.listEvents]
  | n :: ns => by
    rw [TemplateNode.listVisits, TemplateNode.listEvents, List.filterMap_append,
      n.filterMap_visits, TemplateNode.filterMap_listVisits ns]

end

/-- A walk through a template comes to its event bindings in document order. -/
theorem RootNode.filterMap_visits (root : RootNode) :
    root.visits.filterMap Visit.event? = root.events :=
  TemplateNode.filterMap_listVisits root.children

end TemplateLint
