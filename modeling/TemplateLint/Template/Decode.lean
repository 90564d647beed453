import TemplateLint.Json.Decode
import TemplateLint.Template.Names

/-!
Templates read from JSON: the tables of their fields, and documents.
-/

namespace TemplateLint

open Json (Decoder Fields)

def Position.fields : Fields Position :=
  (((Fields.done Position.mk).required "offset" Json.Decode.natural32).optional "line"
    Json.Decode.natural32 0).optional "column" Json.Decode.natural32 0

def Position.decoder : Decoder Position := Json.Decode.record "Position" Position.fields

def SourceSpan.fields : Fields SourceSpan :=
  (((Fields.done SourceSpan.mk).required "start" Position.decoder).required "end"
    Position.decoder).required "source" Json.Decode.string

def SourceSpan.decoder : Decoder SourceSpan := Json.Decode.record "SourceSpan" SourceSpan.fields

def ElementType.decoder : Decoder ElementType := Json.Decode.choice ElementType.names

def BindingType.decoder : Decoder BindingType := Json.Decode.choice BindingType.names

def EventType.decoder : Decoder EventType := Json.Decode.choice EventType.names

def TextAttribute.fields : Fields TextAttribute :=
  (((Fields.done TextAttribute.mk).required "name" Json.Decode.string).optional "value"
    Json.Decode.string "").required "sourceSpan" SourceSpan.decoder

def TextAttribute.decoder : Decoder TextAttribute :=
  Json.Decode.record "TextAttributeNode" TextAttribute.fields

def BoundAttribute.fields : Fields BoundAttribute :=
  ((((Fields.done BoundAttribute.mk).required "name" Json.Decode.string).optional "bindingType"
    BindingType.decoder .property).optional "value" Json.Decode.string "").required "sourceSpan"
    SourceSpan.decoder

def BoundAttribute.decoder : Decoder BoundAttribute :=
  Json.Decode.record "BoundAttributeNode" BoundAttribute.fields

def BoundEvent.fields : Fields BoundEvent :=
  ((((((Fields.done BoundEvent.mk).required "name" Json.Decode.string).optional "eventType"
    EventType.decoder .regular).optional "handler" Json.Decode.string "").optional "target"
    (Json.Decode.optional Json.Decode.string) none).required "sourceSpan"
    SourceSpan.decoder).optional "keySpan" (Json.Decode.optional SourceSpan.decoder) none

def BoundEvent.decoder : Decoder BoundEvent :=
  Json.Decode.record "BoundEventNode" BoundEvent.fields

def TextNode.fields : Fields TextNode :=
  ((Fields.done TextNode.mk).required "value" Json.Decode.string).required "sourceSpan"
    SourceSpan.decoder

/-- The name of the record of a kind of node. -/
def NodeKind.recordName : NodeKind → String
  | .element => "ElementNode"
  | .text => "TextNode"
  | .boundText => "BoundTextNode"

def TextNode.decoder (kind : NodeKind) : Decoder TextNode :=
  Json.Decode.record kind.recordName TextNode.fields

/-- The fields of an element, given how its children are read. -/
def ElementNode.fields (child : Decoder TemplateNode) : Fields ElementNode :=
  (((((((Fields.done ElementNode.mk).required "tag" Json.Decode.string).optional "elementType"
    ElementType.decoder .element).optional "attributes"
    (Json.Decode.list TextAttribute.decoder) []).optional "inputs"
    (Json.Decode.list BoundAttribute.decoder) []).optional "outputs"
    (Json.Decode.list BoundEvent.decoder) []).optional "children"
    (Json.Decode.list child) []).required "sourceSpan" SourceSpan.decoder

/-- The node of a kind, read off the inside of its brackets. -/
def NodeKind.ofBody (child : Decoder TemplateNode) (kind : NodeKind) (body : Json.Body) :
    Except Json.Error TemplateNode :=
  match kind with
  | .element =>
    ((ElementNode.fields child).ofBody kind.recordName .buffer body).map .element
  | .text => (TextNode.fields.ofBody kind.recordName .buffer body).map .text
  | .boundText => (TextNode.fields.ofBody kind.recordName .buffer body).map .boundText

/-- A node with at most so many nodes inside each other. It is read whole before its fields are
looked at. -/
def TemplateNode.decoderTo : Nat → Decoder TemplateNode
  | 0, m, t => .error (t.mismatch m (.taggedChoice "TemplateNode"))
  | levels + 1, m, t => do
    let (kind, body) ← t.splitTag "TemplateNode" "type" NodeKind.names m
    kind.ofBody (TemplateNode.decoderTo levels) body

/-- A node. Each node inside another is also inside its brackets, so the bound on open brackets
bounds the levels too. -/
def TemplateNode.decoder : Decoder TemplateNode := TemplateNode.decoderTo (Json.maxDepth + 1)

def ElementNode.decoder : Decoder ElementNode :=
  Json.Decode.record NodeKind.element.recordName (ElementNode.fields TemplateNode.decoder)

def RootNode.fields : Fields RootNode :=
  ((Fields.done RootNode.mk).required "source" Json.Decode.string).optional "children"
    (Json.Decode.list TemplateNode.decoder) []

def RootNode.decoder : Decoder RootNode := Json.Decode.record "RootNode" RootNode.fields

/-- Reads a document: a template with its text, as JSON. -/
def RootNode.ofDocument (text : String) : Except Json.Error RootNode :=
  Json.decode RootNode.decoder text

end TemplateLint
