import TemplateLint.Proofs.Json.Nesting
import TemplateLint.Template.Decode

/-! The tables of the records of a template, and nodes as records: a node of any kind is read from
the fields of its kind, and its tag is none of them. -/
namespace TemplateLint
open Json

theorem Position.fields_fresh : Position.fields.Fresh :=
  ⟨by simp [fields, Fields.required, Fields.optional, Fields.Unread], by decide⟩

theorem SourceSpan.fields_fresh : SourceSpan.fields.Fresh :=
  ⟨by simp [fields, Fields.required, Fields.Unread], by decide⟩

theorem TextAttribute.fields_fresh : TextAttribute.fields.Fresh :=
  ⟨by simp [fields, Fields.required, Fields.optional, Fields.Unread], by decide⟩

theorem BoundAttribute.fields_fresh : BoundAttribute.fields.Fresh :=
  ⟨by simp [fields, Fields.required, Fields.optional, Fields.Unread], by decide⟩

theorem BoundEvent.fields_fresh : BoundEvent.fields.Fresh :=
  ⟨by simp [fields, Fields.required, Fields.optional, Fields.Unread], by decide⟩

theorem RootNode.fields_fresh : RootNode.fields.Fresh :=
  ⟨by simp [fields, Fields.required, Fields.optional, Fields.Unread], by decide⟩

/-! What the record of each table takes from what is found -/

section
open Fields (Slot)
variable {γ : Type} {R : Reader γ} {found : Finder γ}

theorem Position.assembles_iff {p : Position} :
    fields.Assembles R found p ↔
      Slot R Decode.natural32 none none (found 0 "offset") p.offset ∧
      Slot R Decode.natural32 (some 0) none (found 1 "line") p.line ∧
      Slot R Decode.natural32 (some 0) none (found 2 "column") p.column := by
  cases p
  simp [fields, Fields.required, Fields.optional, Fields.Assembles, Fields.count]

theorem SourceSpan.assembles_iff {s : SourceSpan} :
    fields.Assembles R found s ↔
      Slot R Position.decoder none none (found 0 "start") s.start ∧
      Slot R Position.decoder none none (found 1 "end") s.stop ∧
      Slot R Decode.string none none (found 2 "source") s.source := by
  cases s
  simp [fields, Fields.required, Fields.Assembles, Fields.count]

theorem TextAttribute.assembles_iff {a : TextAttribute} :
    fields.Assembles R found a ↔
      Slot R Decode.string none none (found 0 "name") a.name ∧
      Slot R Decode.string (some "") none (found 1 "value") a.value ∧
      Slot R SourceSpan.decoder none none (found 2 "sourceSpan") a.span := by
  cases a
  simp [fields, Fields.required, Fields.optional, Fields.Assembles, Fields.count]

theorem BoundAttribute.assembles_iff {a : BoundAttribute} :
    fields.Assembles R found a ↔
      Slot R Decode.string none none (found 0 "name") a.name ∧
      Slot R BindingType.decoder (some .property) none (found 1 "bindingType") a.bindingType ∧
      Slot R Decode.string (some "") none (found 2 "value") a.value ∧
      Slot R SourceSpan.decoder none none (found 3 "sourceSpan") a.span := by
  cases a
  simp [fields, Fields.required, Fields.optional, Fields.Assembles, Fields.count, and_assoc]

theorem BoundEvent.assembles_iff {e : BoundEvent} :
    fields.Assembles R found e ↔
      Slot R Decode.string none none (found 0 "name") e.name ∧
      Slot R EventType.decoder (some .regular) none (found 1 "eventType") e.eventType ∧
      Slot R Decode.string (some "") none (found 2 "handler") e.handler ∧
      Slot R (Decode.optional Decode.string) (some none) none (found 3 "target") e.target ∧
      Slot R SourceSpan.decoder none none (found 4 "sourceSpan") e.span ∧
      Slot R (Decode.optional SourceSpan.decoder) (some none) none (found 5 "keySpan")
        e.keySpan := by
  cases e
  simp [fields, Fields.required, Fields.optional, Fields.Assembles, Fields.count, and_assoc]

theorem TextNode.assembles_iff {t : TextNode} :
    fields.Assembles R found t ↔
      Slot R Decode.string none none (found 0 "value") t.value ∧
      Slot R SourceSpan.decoder none none (found 1 "sourceSpan") t.span := by
  cases t
  simp [fields, Fields.required, Fields.Assembles, Fields.count]

theorem ElementNode.assembles_iff {child : Decoder TemplateNode} {e : ElementNode} :
    (fields child).Assembles R found e ↔
      Slot R Decode.string none none (found 0 "tag") e.tag ∧
      Slot R ElementType.decoder (some .element) none (found 1 "elementType") e.elementType ∧
      Slot R (Decode.list TextAttribute.decoder) (some []) none (found 2 "attributes")
        e.attributes ∧
      Slot R (Decode.list BoundAttribute.decoder) (some []) none (found 3 "inputs") e.inputs ∧
      Slot R (Decode.list BoundEvent.decoder) (some []) none (found 4 "outputs") e.outputs ∧
      Slot R (Decode.list child) (some []) none (found 5 "children") e.children ∧
      Slot R SourceSpan.decoder none none (found 6 "sourceSpan") e.span := by
  cases e
  simp [fields, Fields.required, Fields.optional, Fields.Assembles, Fields.count, and_assoc]

theorem RootNode.assembles_iff {r : RootNode} :
    fields.Assembles R found r ↔
      Slot R Decode.string none none (found 0 "source") r.source ∧
      Slot R (Decode.list TemplateNode.decoder) (some []) none (found 1 "children") r.children := by
  cases r
  simp [fields, Fields.required, Fields.optional, Fields.Assembles, Fields.count]

end

namespace NodeKind

/-- What a node of a kind holds. -/
def Content : NodeKind → Type
  | .element => ElementNode
  | .text => TextNode
  | .boundText => TextNode

def fields (child : Decoder TemplateNode) : (kind : NodeKind) → Fields kind.Content
  | .element => ElementNode.fields child
  | .text => TextNode.fields
  | .boundText => TextNode.fields

def node : (kind : NodeKind) → kind.Content → TemplateNode
  | .element => .element
  | .text => .text
  | .boundText => .boundText

theorem ofBody_eq (child : Decoder TemplateNode) (kind : NodeKind) (body : Body) :
    kind.ofBody child body =
      ((kind.fields child).ofBody kind.recordName .buffer body).map kind.node := by
  cases kind <;> rfl

theorem fields_fresh (child : Decoder TemplateNode) (kind : NodeKind) :
    (kind.fields child).Fresh := by
  have htext : TextNode.fields.Fresh :=
    ⟨by simp [TextNode.fields, Fields.required, Fields.Unread], by decide⟩
  cases kind with
  | element =>
    refine ⟨?_, ?_⟩
    · simp [fields, ElementNode.fields, Fields.required, Fields.optional, Fields.Unread]
    · simp [fields, ElementNode.fields, Fields.required, Fields.optional, Fields.names]
  | text => exact htext
  | boundText => exact htext

theorem type_notMem_names (child : Decoder TemplateNode) (kind : NodeKind) :
    "type" ∉ (kind.fields child).names := by
  cases kind <;>
    simp [fields, ElementNode.fields, TextNode.fields, Fields.required, Fields.optional,
      Fields.names]

end NodeKind

namespace TemplateNode

variable {m : Medium} {levels start : Nat} {n : TemplateNode}

theorem decoderTo_object_eq_ok_iff {ms : Members} :
    decoderTo (levels + 1) m (.object start ms) = .ok n ↔
      m ≠ .text 0 ∧ ∃ es, ms.entries? = some es ∧ TakesOthers "type" m.inside es ∧
        ∃ kind : NodeKind, Fields.Slot (readsIn m.inside) (Decode.tag NodeKind.names) none none
          (valuesOf "type" es) kind ∧
        ∃ c, (kind.fields (decoderTo levels)).Assembles (readsIn .buffer) (byName es) c ∧
          kind.node c = n := by
  simp only [decoderTo, bind_eq_ok_iff, Prod.exists, Tree.splitTag_object_eq_ok_iff,
    NodeKind.ofBody_eq, map_eq_ok_iff]
  constructor
  · rintro ⟨kind, body, ⟨hm, rfl, es, hes, htakes, htag⟩, c, hc, rfl⟩
    obtain ⟨es', hes', -, ha⟩ := (Fields.ofMembers_eq_ok_iff
      (kind.fields_fresh _).nodup).mp hc
    obtain rfl : es = es' := Option.some.inj (hes.symm.trans hes')
    exact ⟨hm, es, hes, htakes, kind, htag, c, ha, rfl⟩
  · rintro ⟨hm, es, hes, htakes, kind, htag, c, ha, rfl⟩
    exact ⟨kind, .members ms, ⟨hm, rfl, es, hes, htakes, htag⟩, c,
      (Fields.ofMembers_eq_ok_iff (kind.fields_fresh _).nodup).mpr
        ⟨es, hes, fun _ _ _ => rfl, ha⟩, rfl⟩

theorem decoderTo_array_eq_ok_iff {items : Items} :
    decoderTo (levels + 1) m (.array start items) = .ok n ↔
      m ≠ .text 0 ∧ ∃ lead value rest, items = .item lead value rest ∧
        rest.takeIn m.inside = .ok () ∧ ∃ kind : NodeKind,
          Decode.tag NodeKind.names m.inside value = .ok kind ∧ ∃ ts, rest.trees? = some ts ∧
          ts.length ≤ (kind.fields (decoderTo levels)).count ∧
          ∃ c, (kind.fields (decoderTo levels)).Assembles (readsIn .buffer) (byPlace ts) c ∧
            kind.node c = n := by
  simp only [decoderTo, bind_eq_ok_iff, Prod.exists, Tree.splitTag_array_eq_ok_iff,
    NodeKind.ofBody_eq, map_eq_ok_iff]
  constructor
  · rintro ⟨kind, body, ⟨hm, lead, value, rest, rfl, htag, hrest, rfl⟩, c, hc, rfl⟩
    obtain ⟨ts, hts, hlength, ha⟩ := (Fields.ofBody_items_eq_ok_iff
      (kind.fields_fresh _).unread).mp hc
    exact ⟨hm, lead, value, rest, rfl, hrest, kind, htag, ts, hts, hlength, c, ha, rfl⟩
  · rintro ⟨hm, lead, value, rest, rfl, hrest, kind, htag, ts, hts, hlength, c, ha, rfl⟩
    exact ⟨kind, .items rest, ⟨hm, lead, value, rest, rfl, htag, hrest, rfl⟩, c,
      (Fields.ofBody_items_eq_ok_iff (kind.fields_fresh _).unread).mpr ⟨ts, hts, hlength, ha⟩,
      rfl⟩

end TemplateNode
end TemplateLint
