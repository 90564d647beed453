import TemplateLint.Lint.Linter
import TemplateLint.Proofs.Rule.Notes

/-! The hooks that a walk through a template calls: for each rule that of the template, and then
element by element in document order those of the element, of its inputs and of its outputs. -/
namespace TemplateLint

/-- An element with the tags from the outermost element around it down to its own. -/
structure PlacedElement where
  element : ElementNode
  path : List String

mutual

/-- The elements of a node in document order, each before those inside it. The tags of the elements
around the node are given. -/
def TemplateNode.placed (outer : List String) : TemplateNode → List PlacedElement
  | .element e => e.placed outer
  | .text _ => []
  | .boundText _ => []

def ElementNode.placed (outer : List String) : ElementNode → List PlacedElement
  | ⟨tag, elementType, attributes, inputs, outputs, children, span⟩ =>
    ⟨⟨tag, elementType, attributes, inputs, outputs, children, span⟩, outer ++ [tag]⟩ ::
      TemplateNode.listPlaced (outer ++ [tag]) children

def TemplateNode.listPlaced (outer : List String) : List TemplateNode → List PlacedElement
  | [] => []
  | n :: ns => n.placed outer ++ TemplateNode.listPlaced outer ns

end

/-- The hooks that a rule has, with what they are asked about. -/
inductive Hook where
  | onTemplate (root : RootNode)
  | onElement (e : ElementNode)
  | onInput (e : ElementNode) (binding : BoundAttribute)
  | onOutput (e : ElementNode) (event : BoundEvent)

/-- The visit at which the hook is due. -/
def Hook.visit : Hook → Visit
  | .onTemplate root => .template root
  | .onElement e => .enter e
  | .onInput e binding => .input e binding
  | .onOutput e event => .output e event

/-- A call of one of a rule's hooks, with the tags that are open at it from the outermost on. -/
structure HookCall where
  rule : ActiveRule
  hook : Hook
  path : List String

/-- The hook is called once for each rule, in the order of the rules. -/
def HookCall.round (rules : List ActiveRule) (path : List String) (hook : Hook) : List HookCall :=
  rules.map fun a => ⟨a, hook, path⟩

def PlacedElement.calls (rules : List ActiveRule) (p : PlacedElement) : List HookCall :=
  HookCall.round rules p.path (.onElement p.element) ++
    p.element.inputs.flatMap (fun i => HookCall.round rules p.path (.onInput p.element i)) ++
    p.element.outputs.flatMap fun o => HookCall.round rules p.path (.onOutput p.element o)

/-- The calls for a template inside the elements with the tags `outer`. -/
def RootNode.calls (rules : List ActiveRule) (outer : List String) (root : RootNode) :
    List HookCall :=
  HookCall.round rules outer (.onTemplate root) ++
    (TemplateNode.listPlaced outer root.children).flatMap (PlacedElement.calls rules)

namespace HookCall

/-- What the hook sees: the tags on its path are open, the innermost first, and its own rule is the
current one. -/
def context (c : HookCall) (ctx : Context) : Context :=
  { ctx with
    elements := c.path.reverse
    currentRule := c.rule.rule.info.name
    override := c.rule.override }

/-- What the called hook hands back. -/
def notes (c : HookCall) (ctx : Context) : List Note :=
  match c.hook with
  | .onTemplate root => c.rule.rule.onTemplate root (c.context ctx)
  | .onElement e => c.rule.rule.onElement e (c.context ctx)
  | .onInput e binding => c.rule.rule.onInput e binding (c.context ctx)
  | .onOutput e event => c.rule.rule.onOutput e event (c.context ctx)

/-- Calls the hook and takes its notes. -/
def make (ctx : Context) (c : HookCall) : Context :=
  (c.notes ctx).foldl Context.note (c.context ctx)

/-- The notes that the hooks hand back when they are called one after another. -/
def answers : List HookCall → Context → List (HookCall × List Note)
  | [], _ => []
  | c :: calls, ctx => (c, c.notes ctx) :: answers calls (make ctx c)

theorem mem_of_mem_answers {calls : List HookCall} {ctx : Context} {p : HookCall × List Note}
    (h : p ∈ answers calls ctx) : p.1 ∈ calls := by
  induction calls generalizing ctx with
  | nil => exact absurd h List.not_mem_nil
  | cons c calls ih =>
    rcases List.mem_cons.mp h with rfl | h
    · exact List.mem_cons_self
    · exact List.mem_cons_of_mem _ (ih h)

/-- One call adds what its hook reports, with the severity that its own rule is given, and what it
writes to the log. -/
theorem make_found (ctx : Context) (c : HookCall) :
    (make ctx c).diagnostics.toList =
        ctx.diagnostics.toList ++ Note.reports c.rule.override (c.notes ctx) ∧
      (make ctx c).log.toList = ctx.log.toList ++ Note.logs (c.notes ctx) :=
  Context.foldl_note_found (c.notes ctx) (c.context ctx)

theorem foldl_make_found (calls : List HookCall) (ctx : Context) :
    (calls.foldl make ctx).diagnostics.toList = ctx.diagnostics.toList ++
        (answers calls ctx).flatMap (fun (c, notes) => Note.reports c.rule.override notes) ∧
      (calls.foldl make ctx).log.toList = ctx.log.toList ++
        (answers calls ctx).flatMap fun (_, notes) => Note.logs notes := by
  induction calls generalizing ctx with
  | nil => exact ⟨(List.append_nil _).symm, (List.append_nil _).symm⟩
  | cons c calls ih =>
    obtain ⟨hreports, hlogs⟩ := make_found ctx c
    obtain ⟨ihreports, ihlogs⟩ := ih (make ctx c)
    rw [List.foldl_cons, ihreports, ihlogs, hreports, hlogs, answers, List.flatMap_cons,
      List.flatMap_cons, List.append_assoc, List.append_assoc]
    exact ⟨rfl, rfl⟩

end HookCall

def Context.withElements (ctx : Context) (elements : List String) : Context := { ctx with elements }

theorem foldl_make_withElements (calls : List HookCall) (ctx : Context) (now after : List String) :
    (calls.foldl HookCall.make (ctx.withElements now)).withElements after =
      (calls.foldl HookCall.make ctx).withElements after := by
  cases calls <;> rfl

/-- Where the tags of the path are open, asking a rule is calling its hook. -/
theorem ActiveRule.ask_eq_make (a : ActiveRule) (hook : Hook) {ctx : Context} {path : List String}
    (hopen : ctx.elements = path.reverse) :
    a.ask hook.visit ctx = HookCall.make ctx ⟨a, hook, path⟩ := by
  let c : HookCall := ⟨a, hook, path⟩
  have hctx : ctx.enterRule a.rule.name a.override = c.context ctx := by
    simp only [c, Context.enterRule, HookCall.context, Rule.name, hopen.symm]
  have hnotes : a.notes (c.context ctx) hook.visit = c.notes ctx := by cases hook <;> rfl
  unfold ActiveRule.ask
  rw [hctx]
  show (a.notes (c.context ctx) hook.visit).foldl Context.note (c.context ctx) = HookCall.make ctx c
  rw [hnotes]
  rfl

theorem foldl_ask_eq_round (rules : List ActiveRule) (hook : Hook) {ctx : Context}
    {path : List String} (hopen : ctx.elements = path.reverse) :
    rules.foldl (fun ctx a => a.ask hook.visit ctx) ctx =
      ((HookCall.round rules path hook).foldl HookCall.make ctx).withElements path.reverse := by
  induction rules generalizing ctx with
  | nil =>
    rw [← hopen]
    rfl
  | cons a rules ih =>
    have hask := a.ask_eq_make hook hopen
    -- A hook only reports, so that the same tags are open for the rules after it.
    have hstill : (a.ask hook.visit ctx).elements = path.reverse := by
      rw [hask]
      exact Context.foldl_note_elements _ _
    show rules.foldl (fun ctx a => a.ask hook.visit ctx) (a.ask hook.visit ctx) = _
    rw [ih hstill, hask]
    rfl

/-- The rules are asked at the visit of every hook. -/
theorem Hook.run_visit (hook : Hook) (rules : List ActiveRule) (ctx : Context) :
    hook.visit.run rules ctx =
      rules.foldl (fun ctx a => a.ask hook.visit ctx) (hook.visit.arrive ctx) := by
  cases hook <;> rfl

/-- On the way along the visits exactly these calls are made, one after another, and the open
elements change from `before` to `after`. -/
def Walks (rules : List ActiveRule) (visits : List Visit) (calls : List HookCall)
    (before after : List String) : Prop :=
  ∀ ctx : Context, ctx.elements = before →
    visits.foldl (fun ctx visit => visit.run rules ctx) ctx =
      (calls.foldl HookCall.make ctx).withElements after

namespace Walks
variable {rules : List ActiveRule} {visits visits' : List Visit} {calls calls' : List HookCall}
  {before between after : List String}

theorem nil (here : List String) : Walks rules [] [] here here := by
  rintro ctx rfl
  rfl

theorem append (h : Walks rules visits calls before between)
    (h' : Walks rules visits' calls' between after) :
    Walks rules (visits ++ visits') (calls ++ calls') before after := by
  intro ctx hctx
  rw [List.foldl_append, List.foldl_append, h ctx hctx, h' _ rfl, foldl_make_withElements]

/-- The visit of a hook, where it is clear which elements are open when the rules are asked. -/
theorem visit (hook : Hook) {path : List String}
    (harrive : ∀ ctx : Context, ctx.elements = before →
      hook.visit.arrive ctx = ctx.withElements path.reverse) :
    Walks rules [hook.visit] (HookCall.round rules path hook) before path.reverse := by
  intro ctx hctx
  have harrived := harrive ctx hctx
  rw [List.foldl_cons, List.foldl_nil, hook.run_visit,
    foldl_ask_eq_round rules hook (by rw [harrived]; rfl), harrived, foldl_make_withElements]

/-- A visit without steps in the tree. -/
theorem stay (hook : Hook) {path : List String} (harrive : ∀ ctx, hook.visit.arrive ctx = ctx) :
    Walks rules [hook.visit] (HookCall.round rules path hook) path.reverse path.reverse := by
  refine visit hook fun ctx hctx => ?_
  rw [harrive, ← hctx]
  rfl

variable (rules) in
theorem enter (outer : List String) (e : ElementNode) :
    Walks rules [.enter e] (HookCall.round rules (outer ++ [e.tag]) (.onElement e)) outer.reverse
      (outer ++ [e.tag]).reverse := by
  refine visit (.onElement e) fun ctx hctx => ?_
  rw [List.reverse_append, List.reverse_singleton, ← hctx]
  rfl

variable (rules) in
theorem leave (outer : List String) (tag : String) :
    Walks rules [.leave] [] (outer ++ [tag]).reverse outer.reverse := by
  intro ctx hctx
  rw [List.reverse_append, List.reverse_singleton] at hctx
  show ctx.withElements ctx.elements.tail = _
  rw [hctx]
  rfl

variable (rules) in
theorem inputs (path : List String) (e : ElementNode) (bindings : List BoundAttribute) :
    Walks rules (bindings.map (.input e))
      (bindings.flatMap fun i => HookCall.round rules path (.onInput e i)) path.reverse
      path.reverse := by
  induction bindings with
  | nil => exact nil _
  | cons i is ih => exact (stay (.onInput e i) fun _ => rfl).append ih

variable (rules) in
theorem outputs (path : List String) (e : ElementNode) (events : List BoundEvent) :
    Walks rules (events.map (.output e))
      (events.flatMap fun o => HookCall.round rules path (.onOutput e o)) path.reverse
      path.reverse := by
  induction events with
  | nil => exact nil _
  | cons o os ih => exact (stay (.onOutput e o) fun _ => rfl).append ih

end Walks

mutual

theorem TemplateNode.walks (rules : List ActiveRule) (outer : List String) : (n : TemplateNode) →
    Walks rules n.visits ((n.placed outer).flatMap (PlacedElement.calls rules)) outer.reverse
      outer.reverse
  | .element e => by
    rw [TemplateNode.visits, TemplateNode.placed]
    exact e.walks rules outer
  | .text _ => by
    rw [TemplateNode.visits, TemplateNode.placed]
    exact Walks.nil _
  | .boundText _ => by
    rw [TemplateNode.visits, TemplateNode.placed]
    exact Walks.nil _

/-- The tag of an element is open for its own hooks and those inside it, and closed afterwards. -/
theorem ElementNode.walks (rules : List ActiveRule) (outer : List String) : (e : ElementNode) →
    Walks rules e.visits ((e.placed outer).flatMap (PlacedElement.calls rules)) outer.reverse
      outer.reverse
  | ⟨tag, elementType, attributes, inputs, outputs, children, span⟩ => by
    let e : ElementNode := ⟨tag, elementType, attributes, inputs, outputs, children, span⟩
    have hown := ((Walks.enter rules outer e).append (Walks.inputs rules _ e inputs)).append
      (Walks.outputs rules _ e outputs)
    have hchildren := TemplateNode.listWalks rules (outer ++ [tag]) children
    have hwalk := (hown.append hchildren).append (Walks.leave rules outer tag)
    rw [List.append_nil] at hwalk
    rw [ElementNode.visits, ElementNode.placed, List.flatMap_cons]
    exact hwalk

theorem TemplateNode.listWalks (rules : List ActiveRule) (outer : List String) :
    (ns : List TemplateNode) → Walks rules (TemplateNode.listVisits ns)
      ((TemplateNode.listPlaced outer ns).flatMap (PlacedElement.calls rules)) outer.reverse
      outer.reverse
  | [] => by
    rw [TemplateNode.listVisits, TemplateNode.listPlaced]
    exact Walks.nil _
  | n :: ns => by
    rw [TemplateNode.listVisits, TemplateNode.listPlaced, List.flatMap_append]
    exact (n.walks rules outer).append (TemplateNode.listWalks rules outer ns)

end

theorem RootNode.walks (rules : List ActiveRule) (outer : List String) (root : RootNode) :
    Walks rules root.visits (root.calls rules outer) outer.reverse outer.reverse :=
  (Walks.stay (.onTemplate root) fun _ => rfl).append
    (TemplateNode.listWalks rules outer root.children)

/-- A walk through a template calls every hook that is due, once and in order, and no other. It has
the same outcome as making the calls one by one, each in a context where exactly the tags on its
path are open and its rule is the current one. What the calls hand back, and nothing besides, is
added to the diagnostics and to the log, and afterwards the same elements are open as before. A hook
can make anything of what it is called with, so the outcome shows all calls and their contexts; but
it only looks at the context. A hook that enters a rule or opens and closes elements itself is not
covered. -/
theorem RootNode.visitAll_makes_calls (rules : List ActiveRule) (root : RootNode) (ctx : Context) :
    let calls := root.calls rules ctx.elements.reverse
    let after := root.visitAll rules ctx
    after = { calls.foldl HookCall.make ctx with elements := ctx.elements } ∧
      after.diagnostics.toList = ctx.diagnostics.toList ++
        (HookCall.answers calls ctx).flatMap (fun (c, notes) =>
          Note.reports c.rule.override notes) ∧
      after.log.toList = ctx.log.toList ++
        (HookCall.answers calls ctx).flatMap (fun (_, notes) => Note.logs notes) ∧
      after.elements = ctx.elements := by
  intro calls after
  have hwalk := root.walks rules ctx.elements.reverse ctx (List.reverse_reverse _).symm
  rw [List.reverse_reverse] at hwalk
  have hafter : after = (calls.foldl HookCall.make ctx).withElements ctx.elements := hwalk
  obtain ⟨hreports, hlogs⟩ := HookCall.foldl_make_found calls ctx
  rw [hafter]
  exact ⟨rfl, hreports, hlogs, rfl⟩

end TemplateLint
