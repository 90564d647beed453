import TemplateLint.Proofs.Template.RoundTrip

/-! Every document that is accepted has a normal form: the template that it stands for, written
out. Members that were left out come back as empty lists, but each of them is nested less deep than
the span beside it, so the normal form has no more open brackets than were allowed for the
document. -/
namespace TemplateLint
open Json

/-! What is read is nested at least this deep -/

theorem Position.nests : Nests 1 decoder :=
  nests_record fields_fresh (.before (.before .last)) (nests_zero Decode.natural32)

theorem SourceSpan.nests : Nests 2 decoder :=
  nests_record fields_fresh (.before (.before .last)) Position.nests

theorem TextAttribute.nests : Nests 3 decoder :=
  nests_record fields_fresh .last SourceSpan.nests

theorem BoundAttribute.nests : Nests 3 decoder :=
  nests_record fields_fresh .last SourceSpan.nests

theorem BoundEvent.nests : Nests 3 decoder :=
  nests_record fields_fresh (.before .last) SourceSpan.nests

/-! What is written is nested no deeper -/

/-- Written out again, what is read is nested no deeper than where it was read. -/
def Tightens {α : Type} (d : Decoder α) (toJson : α → Value) : Prop :=
  ∀ m t a, d m t = .ok a → (toJson a).depth ≤ t.depth

theorem tightens_of_nests {α : Type} {d : Decoder α} {toJson : α → Value} {n : Nat}
    (hd : Nests n d) (hdepth : ∀ a, (toJson a).depth ≤ n) : Tightens d toJson :=
  fun m t a h => Nat.le_trans (hdepth a) (hd m t a h)

theorem tightens_list {α : Type} {d : Decoder α} {toJson : α → Value} (hd : Tightens d toJson) :
    Tightens (Decode.list d) fun as => .array (as.map toJson) := by
  intro m t as h
  cases t with
  | array start items =>
    obtain ⟨-, ts, hts, hall⟩ := Decode.list_array_eq_ok_iff.mp h
    refine Nat.succ_le_succ (Value.itemsDepth_le_iff.mpr fun v hv => ?_)
    obtain ⟨a, ha, rfl⟩ := List.mem_map.mp hv
    obtain ⟨t, ht, hok⟩ := exists_mem_of_forall₂ hall.flip ha
    exact Nat.le_trans (hd _ _ _ hok) ((items.depth_le_iff hts).mp (Nat.le_refl _) t ht)
  | atom => cases h
  | malformed => cases h
  | object => cases h

theorem SourceSpan.depth_toJson (s : SourceSpan) : s.toJson.depth = 2 := by
  simp [toJson, Position.toJson, Value.depth, Value.membersDepth]

theorem TextAttribute.tightens : Tightens decoder toJson :=
  tightens_of_nests nests fun a => by
    simp [toJson, Value.depth, Value.membersDepth, SourceSpan.depth_toJson]

theorem BoundAttribute.tightens : Tightens decoder toJson :=
  tightens_of_nests nests fun a => by
    simp [toJson, BindingType.toJson, Value.depth, Value.membersDepth, SourceSpan.depth_toJson]

theorem BoundEvent.tightens : Tightens decoder toJson :=
  tightens_of_nests nests fun e => by
    cases htarget : e.target <;> cases hkeySpan : e.keySpan <;>
      simp [toJson, htarget, hkeySpan, optionalMember, EventType.toJson, Value.depth,
        Value.membersDepth, SourceSpan.depth_toJson]

theorem TemplateNode.decoderTo_below {levels : Nat} {m : Medium} {t : Tree} {n : TemplateNode}
    (h : decoderTo (levels + 1) m t = .ok n) :
    ∃ (kind : NodeKind) (c : kind.Content) (found : Finder Tree), kind.node c = n ∧
      found.Below t.depth ∧
      (kind.fields (decoderTo levels)).Assembles (readsIn .buffer) found c := by
  cases t with
  | object start ms =>
    obtain ⟨-, es, hes, -, kind, -, c, ha, rfl⟩ := decoderTo_object_eq_ok_iff.mp h
    exact ⟨kind, c, byName es, rfl, byName_below hes, ha⟩
  | array start items =>
    obtain ⟨-, lead, value, rest, rfl, -, kind, -, ts, hts, -, c, ha, rfl⟩ :=
      decoderTo_array_eq_ok_iff.mp h
    refine ⟨kind, c, byPlace ts, rfl, fun i name x hx => ?_, ha⟩
    have := byPlace_below hts i name x hx
    simp only [Tree.depth, Items.depth]
    omega
  | atom => cases h
  | malformed => cases h

/-- A list that was left out is written as an empty one, and that has one bracket. -/
theorem depth_lt_of_slot {α : Type} {d : Decoder α} {toJson : α → Value} {m : Medium}
    {ts : List Tree} {as : List α} {n : Nat} (hd : Tightens d toJson) (hn : 1 < n)
    (hts : ∀ t ∈ ts, t.depth < n)
    (h : Fields.Slot (readsIn m) (Decode.list d) (some []) none ts as) :
    (Value.array (as.map toJson)).depth < n := by
  cases ts with
  | nil =>
    obtain rfl := Option.some.inj (Fields.slot_unread_nil.mp h)
    exact hn
  | cons t ts =>
    obtain ⟨rfl, hread⟩ := Fields.slot_unread_cons.mp h
    exact Nat.lt_of_le_of_lt (tightens_list hd m t as hread) (hts t List.mem_cons_self)

theorem two_lt_of_slot {m : Medium} {ts : List Tree} {span : SourceSpan} {n : Nat}
    (hts : ∀ t ∈ ts, t.depth < n)
    (h : Fields.Slot (readsIn m) SourceSpan.decoder none none ts span) : 2 < n := by
  cases ts with
  | nil => cases h
  | cons t ts =>
    obtain ⟨rfl, hread⟩ := Fields.slot_unread_cons.mp h
    exact Nat.lt_of_le_of_lt (SourceSpan.nests m t span hread) (hts t List.mem_cons_self)

theorem TextNode.membersDepth_lt {m : Medium} {found : Finder Tree} {t : TextNode} {n : Nat}
    (hbelow : found.Below n) (ha : fields.Assembles (readsIn m) found t) :
    Value.membersDepth t.members < n := by
  have := two_lt_of_slot (hbelow _ _) (assembles_iff.mp ha).2
  simpa [members, Value.membersDepth, Value.depth, SourceSpan.depth_toJson] using this

theorem ElementNode.membersDepth_lt {child : Decoder TemplateNode} {m : Medium}
    {found : Finder Tree} {e : ElementNode} {n : Nat}
    (hchild : Tightens child TemplateNode.toJson) (hbelow : found.Below n)
    (ha : (fields child).Assembles (readsIn m) found e) : Value.membersDepth e.members < n := by
  obtain ⟨-, -, hattributes, hinputs, houtputs, hchildren, hspan⟩ := assembles_iff.mp ha
  -- Two brackets are open in the span, so there is room for a list that was left out.
  have htwo : 2 < n := two_lt_of_slot (hbelow _ _) hspan
  have hone : 1 < n := Nat.lt_of_succ_lt htwo
  have hzero : 0 < n := Nat.lt_of_succ_lt hone
  have hattributes := depth_lt_of_slot TextAttribute.tightens hone (hbelow _ _) hattributes
  have hinputs := depth_lt_of_slot BoundAttribute.tightens hone (hbelow _ _) hinputs
  have houtputs := depth_lt_of_slot BoundEvent.tightens hone (hbelow _ _) houtputs
  have hchildren := depth_lt_of_slot hchild hone (hbelow _ _) hchildren
  cases e with
  | mk tag elementType attributes inputs outputs children span =>
    simp only [members, TemplateNode.listToJson_eq_map, Value.membersDepth,
      SourceSpan.depth_toJson, Nat.max_lt]
    exact ⟨hzero, hzero, hattributes, hinputs, houtputs, hchildren, htwo, hzero⟩

theorem TemplateNode.tightens (levels : Nat) : Tightens (decoderTo levels) toJson := by
  induction levels with
  | zero => nofun
  | succ levels ih =>
    intro m t n h
    obtain ⟨kind, c, found, rfl, hbelow, ha⟩ := decoderTo_below h
    have hmembers : Value.membersDepth (kind.members c) < t.depth := by
      cases kind with
      | element => exact ElementNode.membersDepth_lt ih hbelow ha
      | text => exact TextNode.membersDepth_lt hbelow ha
      | boundText => exact TextNode.membersDepth_lt hbelow ha
    rw [NodeKind.toJson_node]
    simpa [Value.depth, Value.membersDepth, NodeKind.member] using Nat.succ_le_of_lt hmembers

/-! The normal form of a document -/

/-- A node in a text is read whole, so there was room for all its brackets. -/
theorem TemplateNode.depth_le_of_decoderTo {levels room : Nat} {t : Tree} {n : TemplateNode}
    (h : decoderTo levels (.text room) t = .ok n) : t.depth ≤ room := by
  cases levels with
  | zero => cases h
  | succ levels =>
    have hroom {ok : Prop} (h : Medium.text room ≠ .text 0 ∧ ok) : 1 ≤ room := by
      have := h.1
      simp only [ne_eq, Medium.text.injEq] at this
      omega
    cases t with
    | atom => cases h
    | malformed => cases h
    | object start ms =>
      have hiff := decoderTo_object_eq_ok_iff.mp h
      have hone := hroom hiff
      obtain ⟨-, es, hes, htakes, kind, htag, -⟩ := hiff
      have : ms.depth ≤ room - 1 := (ms.depth_le_iff hes).mpr fun e he => by
        by_cases htype : e.1 = "type"
        · have hmem : e.2 ∈ valuesOf "type" es := mem_valuesOf.mpr (htype ▸ he)
          generalize valuesOf "type" es = ts at htag hmem
          cases ts with
          | nil => cases hmem
          | cons x ts =>
            obtain ⟨rfl, hx⟩ := Fields.slot_unread_cons.mp htag
            obtain rfl := List.mem_singleton.mp hmem
            exact Decode.depth_of_tag hx ▸ Nat.zero_le _
        · exact Tree.depth_le_of_readError? (Tree.takeIn_text_eq_ok_iff.mp (htakes e he htype))
      rw [Tree.depth]
      omega
    | array start items =>
      have hiff := decoderTo_array_eq_ok_iff.mp h
      have hone := hroom hiff
      obtain ⟨-, lead, value, rest, rfl, hrest, kind, htag, -⟩ := hiff
      have : rest.depth ≤ room - 1 :=
        Items.depth_le_of_readError? (Items.takeIn_text_eq_ok_iff.mp hrest)
      rw [Tree.depth, Items.depth, Decode.depth_of_tag htag]
      omega

theorem RootNode.depth_toJson_le (room : Nat) {t : Tree} {r : RootNode}
    (h : decoder (.text (room + 2)) t = .ok r) : r.toJson.depth ≤ room + 2 := by
  obtain ⟨found, -, ha⟩ := Decode.record_below fields_fresh h
  obtain ⟨-, hchildren⟩ := assembles_iff.mp ha
  have : Value.itemsDepth (r.children.map TemplateNode.toJson) ≤ room := by
    refine Value.itemsDepth_le_iff.mpr fun v hv => ?_
    obtain ⟨n, hn, rfl⟩ := List.mem_map.mp hv
    generalize found _ _ = ts at hchildren
    cases ts with
    | nil =>
      have hempty : [] = r.children := Option.some.inj (Fields.slot_unread_nil.mp hchildren)
      simp [← hempty] at hn
    | cons t ts =>
      obtain ⟨rfl, hread⟩ := Fields.slot_unread_cons.mp hchildren
      cases t with
      | array start items =>
        obtain ⟨-, ts, hts, hall⟩ := Decode.list_array_eq_ok_iff.mp hread
        obtain ⟨t, ht, hok⟩ := exists_mem_of_forall₂ hall.flip hn
        exact Nat.le_trans (TemplateNode.tightens _ _ t n hok)
          (TemplateNode.depth_le_of_decoderTo hok)
      | atom => cases hread
      | malformed => cases hread
      | object => cases hread
  simp only [toJson, TemplateNode.listToJson_eq_map, Value.depth, Value.membersDepth]
  omega

/-- A document in its normal form. -/
def RootNode.normalized (text : String) : Except Json.Error String :=
  (ofDocument text).map fun r => r.toJson.compact

/-- Whatever a document looks like, its normal form is a document for the same template, and is
its own normal form. -/
theorem RootNode.ofDocument_normalized {text : String} {r : RootNode}
    (h : ofDocument text = .ok r) :
    ofDocument r.toJson.compact = .ok r ∧ normalized text = .ok r.toJson.compact ∧
      normalized r.toJson.compact = .ok r.toJson.compact := by
  have hread : decoder (.text maxDepth) (Tree.ofString text).1 = .ok r :=
    (spells_of_decode h).decode_eq decoder ▸ h
  have hagain : ofDocument r.toJson.compact = .ok r :=
    ofDocument_of_depth_le (depth_toJson_le 125 hread)
  exact ⟨hagain, by rw [normalized, h]; rfl, by rw [normalized, hagain]; rfl⟩

/-- A document with blanks, an escape, an unknown member, defaults that are left out, a null, and
records and names in each of their forms. -/
def oddDocument : String :=
  " \x7b\"x\":null,\"children\":[[\"text\",\"\\u0061\",[[0,1],\x7b\"offset\":1\x7d,\"\"]]," ++
    "\x7b\"outputs\":[\x7b\"target\":null,\"sourceSpan\":[[2],[3],\"\"],\"name\":\"c\"\x7d]," ++
    "\"tag\":\"b\",\"elementType\":\x7b\"template\":null\x7d,\"sourceSpan\":[[1],[4],\"\"]," ++
    "\"type\":\"element\"\x7d], \"source\" : \"ab\"\x7d "

theorem RootNode.ofDocument_normalized_odd :
    let r : RootNode :=
      ⟨"ab", [.text ⟨"a", ⟨0, 1, 0⟩, ⟨1, 0, 0⟩, ""⟩,
        .element ⟨"b", .template, [], [],
          [⟨"c", .regular, "", none, ⟨⟨2, 0, 0⟩, ⟨3, 0, 0⟩, ""⟩, none⟩], [],
          ⟨⟨1, 0, 0⟩, ⟨4, 0, 0⟩, ""⟩⟩]⟩
    ofDocument oddDocument = .ok r ∧ ofDocument r.toJson.compact = .ok r ∧
      normalized oddDocument = .ok r.toJson.compact ∧
      normalized r.toJson.compact = .ok r.toJson.compact := by
  intro r
  have h : ofDocument oddDocument = .ok r := by decide +kernel
  exact ⟨h, ofDocument_normalized h⟩

end TemplateLint
