import TemplateLint.Load
import TemplateLint.Proofs.Json.Layout
import TemplateLint.Proofs.Json.Failures
import TemplateLint.Proofs.Json.Reading
import TemplateLint.Proofs.Template.Tables
import TemplateLint.Template.Encode

/-! Documents that are written and read again. -/
namespace TemplateLint
open Json

@[simp] theorem valuesOf_optionalMember {α : Type} (name key : String) (toJson : α → Value)
    (a? : Option α) :
    valuesOf name (optionalMember key toJson a?) =
      if key = name then (a?.map toJson).toList else [] := by
  cases a? <;> simp [optionalMember]

theorem Position.reads_toJson (p : Position) : Reads decoder p.toJson p :=
  reads_record fields_fresh (List.Subset.refl _) <| assembles_iff.mpr <| by
    simp [byName, reads, reads_natural32]

theorem SourceSpan.reads_toJson (s : SourceSpan) : Reads decoder s.toJson s :=
  reads_record fields_fresh (List.Subset.refl _) <| assembles_iff.mpr <| by
    simp [byName, reads, reads_string, Position.reads_toJson]

theorem TextAttribute.reads_toJson (a : TextAttribute) : Reads decoder a.toJson a :=
  reads_record fields_fresh (List.Subset.refl _) <| assembles_iff.mpr <| by
    simp [byName, reads, reads_string, SourceSpan.reads_toJson]

theorem BoundAttribute.reads_toJson (a : BoundAttribute) : Reads decoder a.toJson a :=
  reads_record fields_fresh (List.Subset.refl _) <| assembles_iff.mpr <| by
    have htype : Reads BindingType.decoder a.bindingType.toJson a.bindingType :=
      reads_choice a.bindingType.lookup_name
    simp [byName, reads, reads_string, htype, SourceSpan.reads_toJson]

theorem BoundEvent.reads_toJson (e : BoundEvent) : Reads decoder e.toJson e := by
  have htype : Reads EventType.decoder e.eventType.toJson e.eventType :=
    reads_choice e.eventType.lookup_name
  have htarget := slot_optional reads_string nofun e.target
  have hkeySpan := slot_optional SourceSpan.reads_toJson nofun e.keySpan
  refine reads_record fields_fresh ?_ (assembles_iff.mpr ?_)
  · have : fields.names = ["name", "eventType", "handler", "target", "sourceSpan", "keySpan"] := rfl
    cases e.target <;> cases e.keySpan <;> simp [optionalMember, this]
  · simp [byName, reads, reads_string, htype, htarget, hkeySpan, SourceSpan.reads_toJson]

/-! Nodes -/

theorem TemplateNode.listToJson_eq_map (ns : List TemplateNode) :
    listToJson ns = ns.map toJson := by
  induction ns with
  | nil => rfl
  | cons n ns ih => rw [listToJson, ih, List.map_cons]

theorem TemplateNode.depth_lt_depth_element {e : ElementNode} {n : TemplateNode}
    (h : n ∈ e.children) : n.toJson.depth < (TemplateNode.element e).toJson.depth := by
  cases e with
  | mk tag elementType attributes inputs outputs children span =>
    have hitem := Value.itemsDepth_le_iff.mp (Nat.le_refl (Value.itemsDepth (children.map toJson)))
      _ (List.mem_map_of_mem h)
    simp only [toJson, ElementNode.members, listToJson_eq_map, Value.depth, Value.membersDepth]
    omega

namespace NodeKind

/-- The members of a node beside its tag. -/
def members : (kind : NodeKind) → kind.Content → List (String × Value)
  | .element => ElementNode.members
  | .text => TextNode.members
  | .boundText => TextNode.members

theorem exists_node (n : TemplateNode) :
    ∃ (kind : NodeKind) (c : kind.Content), kind.node c = n := by
  cases n with
  | element e => exact ⟨.element, e, rfl⟩
  | text t => exact ⟨.text, t, rfl⟩
  | boundText t => exact ⟨.boundText, t, rfl⟩

theorem toJson_node (kind : NodeKind) (c : kind.Content) :
    (kind.node c).toJson = .object (kind.member :: kind.members c) := by
  cases kind <;> simp [node, members, TemplateNode.toJson]

theorem members_names (child : Decoder TemplateNode) (kind : NodeKind) (c : kind.Content) :
    (kind.members c).map Prod.fst = (kind.fields child).names := by
  cases kind with
  | element =>
    cases c
    simp [members, ElementNode.members]
    rfl
  | text => rfl
  | boundText => rfl

theorem assembles_members (child : Decoder TemplateNode) (kind : NodeKind) (c : kind.Content)
    (hchild : ∀ n : TemplateNode, n.toJson.depth < (kind.node c).toJson.depth →
      Reads child n.toJson n) :
    (kind.fields child).Assembles reads (byName (kind.members c)) c := by
  have htext (t : TextNode) : TextNode.fields.Assembles reads (byName t.members) t :=
    TextNode.assembles_iff.mpr <| by
      simp [TextNode.members, byName, reads, reads_string, SourceSpan.reads_toJson]
  cases kind with
  | element =>
    have hchildren : Reads (Decode.list child) (.array (c.children.map TemplateNode.toJson))
        c.children :=
      reads_list fun n hn => hchild n (TemplateNode.depth_lt_depth_element hn)
    have htype : Reads ElementType.decoder c.elementType.toJson c.elementType :=
      reads_choice c.elementType.lookup_name
    refine ElementNode.assembles_iff.mpr ?_
    cases c with
    | mk tag elementType attributes inputs outputs children span =>
      simp [members, ElementNode.members, TemplateNode.listToJson_eq_map, byName, reads,
        reads_string, htype, hchildren, reads_list fun a _ => TextAttribute.reads_toJson a,
        reads_list fun a _ => BoundAttribute.reads_toJson a,
        reads_list fun e _ => BoundEvent.reads_toJson e, SourceSpan.reads_toJson]
  | text => exact htext c
  | boundText => exact htext c

end NodeKind

theorem TemplateNode.reads_toJson {levels : Nat} {n : TemplateNode}
    (h : n.toJson.depth ≤ levels) : Reads (decoderTo levels) n.toJson n := by
  induction levels generalizing n with
  | zero =>
    obtain ⟨kind, c, rfl⟩ := NodeKind.exists_node n
    simp [NodeKind.toJson_node, Value.depth] at h
  | succ levels ih =>
    obtain ⟨kind, c, rfl⟩ := NodeKind.exists_node n
    have hassembles := kind.assembles_members (decoderTo levels) c
      fun n hn => ih (Nat.le_of_lt_succ (Nat.lt_of_lt_of_le hn h))
    intro m t hroom ht
    rw [NodeKind.toJson_node] at hroom ht
    obtain ⟨start, ms, rfl, hvs⟩ := Tree.value?_eq_object ht
    obtain ⟨hm, hinside⟩ := Medium.HasRoom.bracket hroom
    obtain ⟨es, hes, hspelled⟩ := Members.values?_eq_some hvs
    have hroom' : ∀ v ∈ kind.member :: kind.members c, m.inside.HasRoom v.2.depth :=
      fun v hv => hinside.mono (Value.membersDepth_le_iff.mp (Nat.le_refl _) v hv)
    refine decoderTo_object_eq_ok_iff.mpr ⟨hm, es, hes, ?_, kind, ?_, c, ?_, rfl⟩
    · intro e he _
      obtain ⟨v, hv, -, hvalue⟩ := exists_mem_of_forall₂ hspelled he
      exact (hroom' v hv).takeIn hvalue
    · refine Spelled.slot hspelled hroom' ?_
      have hnone : valuesOf "type" (kind.members c) = [] := by
        refine valuesOf_eq_nil fun e he htype => kind.type_notMem_names (decoderTo levels) ?_
        rw [← kind.members_names _ c, ← htype]
        exact List.mem_map_of_mem he
      simp [NodeKind.member, hnone, reads, reads_tag kind.lookup_name]
    · refine Spelled.assembles hspelled (kind.fields_fresh _).unread (fun _ _ => trivial) ?_
      refine (Fields.assembles_congr fun i _ name hname => ?_).mp hassembles
      have : "type" ≠ name := fun h => kind.type_notMem_names _ (h ▸ hname)
      simp [byName, NodeKind.member, this]

theorem RootNode.reads_toJson {r : RootNode} (h : r.toJson.depth ≤ maxDepth) :
    Reads decoder r.toJson r := by
  have hchildren : Reads (Decode.list TemplateNode.decoder)
      (.array (r.children.map TemplateNode.toJson)) r.children := by
    refine reads_list fun n hn => TemplateNode.reads_toJson ?_
    have := Value.itemsDepth_le_iff.mp
      (Nat.le_refl (Value.itemsDepth (r.children.map TemplateNode.toJson))) _
      (List.mem_map_of_mem hn)
    simp only [toJson, TemplateNode.listToJson_eq_map, Value.depth, Value.membersDepth] at h
    omega
  refine reads_record fields_fresh (List.Subset.refl _) (assembles_iff.mpr ?_)
  simp [TemplateNode.listToJson_eq_map, byName, reads, reads_string, hchildren]

/-! Documents that are too deep -/

theorem TemplateNode.decoderTo_tooDeep {levels room : Nat} {n : TemplateNode} {t : Tree}
    (ht : t.value? = some n.toJson) (hdeep : room < n.toJson.depth) :
    ∃ e, decoderTo (levels + 1) (.text room) t = .error e ∧ e.cause = .tooDeep := by
  obtain ⟨kind, c, rfl⟩ := NodeKind.exists_node n
  rw [NodeKind.toJson_node] at ht hdeep
  obtain ⟨start, ms, rfl, hvs⟩ := Tree.value?_eq_object ht
  cases room with
  | zero => exact ⟨.at .tooDeep (start + 1), rfl, rfl⟩
  | succ room =>
    obtain ⟨lead, key, resume, value, rest, rfl, hkey, hvalue, hrest⟩ :=
      Members.values?_eq_cons hvs
    have htag : Decode.tag NodeKind.names (.text room) value = .ok kind :=
      reads_tag kind.lookup_name _ _ (Nat.zero_le room) hvalue
    obtain ⟨es, hes, hspelled⟩ := Members.values?_eq_some hrest
    have hnames : ∀ e ∈ es, e.1 ≠ "type" := by
      intro e he htype
      obtain ⟨v, hv, hname, -⟩ := exists_mem_of_forall₂ hspelled he
      refine kind.type_notMem_names (decoderTo levels) ?_
      rw [← kind.members_names _ c, ← htype, hname]
      exact List.mem_map_of_mem hv
    have hstops := Members.stopsTooDeep room hrest
    cases he : rest.readError? room with
    | none =>
      rw [he] at hstops
      have : Value.membersDepth (kind.members c) ≤ room := hstops
      simp only [Value.depth, Value.membersDepth, NodeKind.member] at hdeep
      omega
    | some e =>
      rw [he] at hstops
      refine ⟨e, ?_, hstops.2⟩
      simp [decoderTo, Tree.splitTag, Medium.enter, Members.findTag,
        Decode.string_eq_ok_iff.mpr hkey, htag, Members.findTag_text hes hnames, he, bind,
        Except.bind]

theorem TemplateNode.readAll_tooDeep {room : Nat} {ns : List TemplateNode} {items : Items}
    (hroom : room ≤ maxDepth) (hvs : items.values? = some (ns.map toJson))
    (hdeep : room < Value.itemsDepth (ns.map toJson)) :
    ∃ e, items.readAll decoder (.text room) = .error e ∧ e.cause = .tooDeep := by
  obtain ⟨ts, hts, hvalues⟩ := Items.values?_eq_some hvs
  rw [List.forall₂_map_right_iff] at hvalues
  have hnone (n : TemplateNode) (t : Tree) (ht : t.value? = some n.toJson)
      (hdeep : room < n.toJson.depth) :
      ∃ e, decoder (.text room) t = .error e ∧ e.cause = .tooDeep :=
    decoderTo_tooDeep ht hdeep
  -- A node is read back or found too deep.
  have hfails (n : TemplateNode) (t : Tree) (ht : t.value? = some n.toJson) :
      FailsBy (· = .tooDeep) (decoder (.text room) t) := by
    by_cases hn : n.toJson.depth ≤ room
    · have hread : decoder (.text room) t = .ok n :=
        reads_toJson (by omega : n.toJson.depth ≤ maxDepth + 1) _ t hn ht
      exact hread ▸ failsBy_ok n
    · obtain ⟨e, he, hcause⟩ := hnone n t ht (Nat.lt_of_not_le hn)
      intro e' he'
      obtain rfl := Except.error.inj (he.symm.trans he')
      exact hcause
  have hall := Items.readAll_failsBy (P := (· = .tooDeep)) (d := decoder) (m := .text room) hts
    fun t ht => by
      obtain ⟨n, -, hn⟩ := exists_mem_of_forall₂ hvalues ht
      exact hfails n t hn
  refine hall.exists_error fun as has => ?_
  obtain ⟨_, hts', hok⟩ := Items.readAll_eq_ok_iff.mp has
  obtain rfl := Option.some.inj (hts.symm.trans hts')
  have : ∃ n ∈ ns, room < n.toJson.depth := by
    by_contra hno
    refine absurd (Value.itemsDepth_le_iff.mpr fun v hv => ?_) (Nat.not_le.mpr hdeep)
    obtain ⟨n, hn, rfl⟩ := List.mem_map.mp hv
    exact Nat.le_of_not_lt fun h => hno ⟨n, hn, h⟩
  obtain ⟨n, hn, hdeep⟩ := this
  obtain ⟨t, ht, hvalue⟩ := exists_mem_of_forall₂ hvalues.flip hn
  obtain ⟨a, -, ha⟩ := exists_mem_of_forall₂ hok ht
  obtain ⟨e, he, -⟩ := hnone n t hvalue hdeep
  cases he.symm.trans ha

theorem RootNode.decoder_tooDeep {r : RootNode} {t : Tree} (ht : t.value? = some r.toJson)
    (hdeep : maxDepth < r.toJson.depth) :
    ∃ e, decoder (.text maxDepth) t = .error e ∧ e.cause = .tooDeep := by
  obtain ⟨start, ms, rfl, hvs⟩ := Tree.value?_eq_object ht
  obtain ⟨_, key, resume, value, rest, rfl, hkey, hvalue, hrest⟩ := Members.values?_eq_cons hvs
  obtain ⟨_, key', resume', value', _, rfl, hkey', hvalue', -⟩ := Members.values?_eq_cons hrest
  obtain ⟨start', items, rfl, hitems⟩ := Tree.value?_eq_array hvalue'
  have hsource : Decode.string (.text 126) value = .ok r.source :=
    reads_string r.source (.text 126) value (Nat.zero_le 126) hvalue
  rw [TemplateNode.listToJson_eq_map] at hitems
  -- Two brackets are open before the first node.
  have hdeep' : 125 < Value.itemsDepth (r.children.map TemplateNode.toJson) := by
    simp only [toJson, TemplateNode.listToJson_eq_map, Value.depth, Value.membersDepth,
      maxDepth] at hdeep
    omega
  obtain ⟨e, he, hcause⟩ := TemplateNode.readAll_tooDeep (by decide) hitems hdeep'
  refine ⟨e, ?_, hcause⟩
  simp [decoder, Decode.record, maxDepth, Medium.enter, Fields.ofBody, Fields.ofMembers, fields,
    Fields.required, Fields.optional, Fields.accept, Decode.string_eq_ok_iff.mpr hkey,
    Decode.string_eq_ok_iff.mpr hkey', hsource, Decode.list, he, bind, Except.bind]

/-! Texts -/

theorem small_natural32 (n : UInt32) : (Value.natural n.toNat).Small := by
  refine .natural ?_
  have := n.toNat_lt_size
  simp only [maxSignificand, UInt64.size, UInt32.size] at this ⊢
  omega

theorem SourceSpan.small_toJson (s : SourceSpan) : s.toJson.Small := by
  have hposition (p : Position) : p.toJson.Small :=
    .object <| by simp [small_natural32]
  exact .object <| by simp [hposition, Value.Small.string]

theorem small_optionalMember {α : Type} {name : String} {toJson : α → Value} {a? : Option α}
    (h : ∀ a, (toJson a).Small) : ∀ m ∈ optionalMember name toJson a?, m.2.Small := by
  cases a? <;> simp [optionalMember, h]

theorem TextAttribute.small_toJson (a : TextAttribute) : a.toJson.Small :=
  .object <| by simp [Value.Small.string, SourceSpan.small_toJson]

theorem BoundAttribute.small_toJson (a : BoundAttribute) : a.toJson.Small :=
  .object <| by simp [Value.Small.string, BindingType.toJson, SourceSpan.small_toJson]

theorem BoundEvent.small_toJson (e : BoundEvent) : e.toJson.Small := by
  have htarget : ∀ m ∈ optionalMember "target" .string e.target, m.2.Small :=
    small_optionalMember Value.Small.string
  have hkeySpan : ∀ m ∈ optionalMember "keySpan" SourceSpan.toJson e.keySpan, m.2.Small :=
    small_optionalMember SourceSpan.small_toJson
  refine .object ?_
  simp only [List.forall_mem_append]
  refine ⟨⟨⟨?_, htarget⟩, ?_⟩, hkeySpan⟩ <;>
    simp [Value.Small.string, EventType.toJson, SourceSpan.small_toJson]

theorem TextNode.small_members (t : TextNode) : ∀ m ∈ t.members, m.2.Small := by
  simp [members, Value.Small.string, SourceSpan.small_toJson]

mutual

theorem TemplateNode.small_toJson (n : TemplateNode) : n.toJson.Small := by
  match n with
  | .element e =>
    exact .object (List.forall_mem_cons.mpr ⟨.string _, ElementNode.small_members e⟩)
  | .text t => exact .object (List.forall_mem_cons.mpr ⟨.string _, t.small_members⟩)
  | .boundText t => exact .object (List.forall_mem_cons.mpr ⟨.string _, t.small_members⟩)

theorem ElementNode.small_members (e : ElementNode) : ∀ m ∈ e.members, m.2.Small := by
  match e with
  | ⟨tag, elementType, attributes, inputs, outputs, children, span⟩ =>
    have hattributes : (Value.array (attributes.map TextAttribute.toJson)).Small :=
      .array (List.forall_mem_map.mpr fun a _ => a.small_toJson)
    have hinputs : (Value.array (inputs.map BoundAttribute.toJson)).Small :=
      .array (List.forall_mem_map.mpr fun a _ => a.small_toJson)
    have houtputs : (Value.array (outputs.map BoundEvent.toJson)).Small :=
      .array (List.forall_mem_map.mpr fun e _ => e.small_toJson)
    have hchildren : (Value.array (TemplateNode.listToJson children)).Small :=
      .array (TemplateNode.small_listToJson children)
    simp [ElementNode.members, Value.Small.string, ElementType.toJson, hattributes, hinputs,
      houtputs, hchildren, SourceSpan.small_toJson]

theorem TemplateNode.small_listToJson (ns : List TemplateNode) :
    ∀ v ∈ TemplateNode.listToJson ns, v.Small := by
  match ns with
  | [] => exact nofun
  | n :: ns =>
    exact List.forall_mem_cons.mpr ⟨TemplateNode.small_toJson n, TemplateNode.small_listToJson ns⟩

end

theorem RootNode.small_toJson (r : RootNode) : r.toJson.Small := by
  have hchildren : (Value.array (TemplateNode.listToJson r.children)).Small :=
    .array (TemplateNode.small_listToJson r.children)
  exact .object <| by simp [Value.Small.string, hchildren]

theorem RootNode.ofDocument_of_depth_le {r : RootNode} (h : r.toJson.depth ≤ maxDepth) :
    ofDocument r.toJson.compact = .ok r := by
  obtain ⟨t, hspells, hvalue⟩ := exists_spells_compact r.toJson r.small_toJson
  rw [ofDocument, hspells.decode_eq]
  exact reads_toJson h _ t h hvalue

/-- What is written is read as the same template, unless its brackets are too deep, and then it is
not read at all. -/
theorem RootNode.ofDocument_compact (r : RootNode) :
    (r.toJson.depth ≤ maxDepth → ofDocument r.toJson.compact = .ok r) ∧
    (maxDepth < r.toJson.depth →
      ∃ e, ofDocument r.toJson.compact = .error e ∧ e.cause = .tooDeep) := by
  refine ⟨ofDocument_of_depth_le, fun hdeep => ?_⟩
  obtain ⟨t, hspells, hvalue⟩ := exists_spells_compact r.toJson r.small_toJson
  rw [ofDocument, hspells.decode_eq]
  exact decoder_tooDeep hvalue hdeep

/-- Containers inside each other around a text. -/
def TemplateNode.nest : Nat → TemplateNode
  | 0 => .text ⟨"a\"b\\\né", .stub⟩
  | n + 1 => .element ⟨"b", .container, [], [], [], [nest n], .stub⟩

theorem RootNode.ofDocument_compact_nest :
    let r : RootNode := ⟨"é", [.nest 61]⟩
    let r' : RootNode := ⟨"é", [.nest 62]⟩
    (r.toJson.depth = 127 ∧ ofDocument r.toJson.compact = .ok r) ∧
    r'.toJson.depth = 129 ∧ ∃ e, ofDocument r'.toJson.compact = .error e ∧ e.cause = .tooDeep :=
  ⟨⟨by decide +kernel, (ofDocument_compact _).1 (by decide +kernel)⟩,
    by decide +kernel, (ofDocument_compact _).2 (by decide +kernel)⟩

/-- A file with a written template holds that template. -/
theorem RootNode.load_compact {r : RootNode} (h : r.toJson.depth ≤ maxDepth)
    {files : Files.FileTree} {path : String} (hread : files.read path = .ok r.toJson.compact)
    (shown : String) : load files path shown = .ok r := by
  rw [load, hread]
  dsimp only
  rw [ofDocument_of_depth_le h]
  rfl

end TemplateLint
