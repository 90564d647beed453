import TemplateLint.Json.Value
import TemplateLint.Template.Names

/-!
Templates as JSON values. Every field is written, in a fixed order, but an event's target and key
span only when there is one.
-/

namespace TemplateLint

open Json (Value)

def Position.toJson (p : Position) : Value :=
  .object [("offset", .natural p.offset.toNat), ("line", .natural p.line.toNat),
    ("column", .natural p.column.toNat)]

def SourceSpan.toJson (s : SourceSpan) : Value :=
  .object [("start", s.start.toJson), ("end", s.stop.toJson), ("source", .string s.source)]

def ElementType.toJson (t : ElementType) : Value := .string t.name

def BindingType.toJson (t : BindingType) : Value := .string t.name

def EventType.toJson (t : EventType) : Value := .string t.name

def TextAttribute.toJson (a : TextAttribute) : Value :=
  .object [("name", .string a.name), ("value", .string a.value), ("sourceSpan", a.span.toJson)]

def BoundAttribute.toJson (a : BoundAttribute) : Value :=
  .object [("name", .string a.name), ("bindingType", a.bindingType.toJson),
    ("value", .string a.value), ("sourceSpan", a.span.toJson)]

/-- A member that is left out when there is no value. -/
def optionalMember {α : Type} (name : String) (toJson : α → Value) :
    Option α → List (String × Value)
  | none => []
  | some a => [(name, toJson a)]

def BoundEvent.toJson (e : BoundEvent) : Value :=
  .object <|
    [("name", .string e.name), ("eventType", e.eventType.toJson), ("handler", .string e.handler)] ++
    optionalMember "target" .string e.target ++ [("sourceSpan", e.span.toJson)] ++
    optionalMember "keySpan" SourceSpan.toJson e.keySpan

def TextNode.members (t : TextNode) : List (String × Value) :=
  [("value", .string t.value), ("sourceSpan", t.span.toJson)]

def TextNode.toJson (t : TextNode) : Value := .object t.members

/-- The member that tells the kind of a node. -/
def NodeKind.member (k : NodeKind) : String × Value := ("type", .string k.name)

mutual

def TemplateNode.toJson : TemplateNode → Value
  | .element e => .object (NodeKind.element.member :: e.members)
  | .text t => .object (NodeKind.text.member :: t.members)
  | .boundText t => .object (NodeKind.boundText.member :: t.members)

def ElementNode.members : ElementNode → List (String × Value)
  | ⟨tag, elementType, attributes, inputs, outputs, children, span⟩ =>
    [("tag", .string tag), ("elementType", elementType.toJson),
      ("attributes", .array (attributes.map TextAttribute.toJson)),
      ("inputs", .array (inputs.map BoundAttribute.toJson)),
      ("outputs", .array (outputs.map BoundEvent.toJson)),
      ("children", .array (TemplateNode.listToJson children)), ("sourceSpan", span.toJson)]

def TemplateNode.listToJson : List TemplateNode → List Value
  | [] => []
  | n :: ns => n.toJson :: TemplateNode.listToJson ns

end

def ElementNode.toJson (e : ElementNode) : Value := .object e.members

def RootNode.toJson (r : RootNode) : Value :=
  .object [("source", .string r.source), ("children", .array (TemplateNode.listToJson r.children))]

end TemplateLint
