import TemplateLint.Proofs.Json.Changes
import TemplateLint.Proofs.Template.Tables

/-! Documents that say the same. Anywhere in a document the members of a record may change places,
members that say nothing new may go or come, and the template that is read is the same; but there is
no template without a member that has to be there. -/
namespace TemplateLint
open Json

/-! Places do not matter -/

theorem Position.placeless : Placeless decoder :=
  placeless_record fields_fresh <| by
    simp [fields, Fields.required, Fields.optional, Fields.Each, placeless_natural32]

theorem SourceSpan.placeless : Placeless decoder :=
  placeless_record fields_fresh <| by
    simp [fields, Fields.required, Fields.Each, placeless_string, Position.placeless]

theorem TextAttribute.placeless : Placeless decoder :=
  placeless_record fields_fresh <| by
    simp [fields, Fields.required, Fields.optional, Fields.Each, placeless_string,
      SourceSpan.placeless]

theorem BoundAttribute.placeless : Placeless decoder :=
  placeless_record fields_fresh <| by
    simp [fields, Fields.required, Fields.optional, Fields.Each, placeless_string,
      BindingType.decoder, placeless_choice, SourceSpan.placeless]

theorem BoundEvent.placeless : Placeless decoder :=
  placeless_record fields_fresh <| by
    simp [fields, Fields.required, Fields.optional, Fields.Each, placeless_string,
      EventType.decoder, placeless_choice, placeless_optional, SourceSpan.placeless]

theorem NodeKind.each_placeless {child : Decoder TemplateNode} (hchild : Placeless child)
    (kind : NodeKind) : (kind.fields child).Each fun _ _ d _ => Placeless d := by
  cases kind <;>
    simp [fields, ElementNode.fields, TextNode.fields, Fields.required, Fields.optional,
      Fields.Each, placeless_string, ElementType.decoder, placeless_choice, placeless_list,
      TextAttribute.placeless, BoundAttribute.placeless, BoundEvent.placeless, hchild,
      SourceSpan.placeless]

theorem TemplateNode.placeless (levels : Nat) : Placeless (decoderTo levels) := by
  induction levels with
  | zero =>
    intro m t n
    simp [decoderTo]
  | succ levels ih =>
    intro m t n
    cases t with
    | object start ms =>
      have hassembles (kind : NodeKind) {es : List (String × Tree)} {c : kind.Content} :=
        (kind.each_placeless ih).assembles_unplaced (m := .buffer) (a := c)
          (kind.fields_fresh _).unread (byName_unplaced es)
      have htag {ts : List Tree} {kind : NodeKind} :
          Fields.Slot (readsIn m.inside) (Decode.tag NodeKind.names) none none
            (ts.map Tree.unplaced) kind ↔ Fields.Slot (readsIn m.inside) _ none none ts kind :=
        (placeless_tag NodeKind.names).slot
      simp only [Tree.unplaced, decoderTo_object_eq_ok_iff, Members.entries?_unplaced,
        Option.map_eq_some_iff, exists_exists_and_eq_and, takesOthers_unplaced, valuesOf_map,
        htag, hassembles]
    | array start items =>
      cases items with
      | item lead value rest =>
        have hassembles (kind : NodeKind) {ts : List Tree} {c : kind.Content} :=
          (kind.each_placeless ih).assembles_unplaced (m := .buffer) (a := c)
            (kind.fields_fresh _).unread (byPlace_unplaced ts)
        simp [Tree.unplaced, Items.unplaced, decoderTo_array_eq_ok_iff, Items.takeIn_unplaced,
          placeless_tag NodeKind.names m.inside value, Items.trees?_unplaced, hassembles]
      | _ => simp [Tree.unplaced, Items.unplaced, decoderTo_array_eq_ok_iff]
    | _ => simp [Tree.unplaced, decoderTo, Tree.splitTag, bind, Except.bind]

theorem RootNode.placeless : Placeless decoder :=
  placeless_record fields_fresh <| by
    simp [fields, Fields.required, Fields.optional, Fields.Each, placeless_string,
      placeless_list, TemplateNode.decoder, TemplateNode.placeless]

/-! Nodes -/

namespace TemplateNode

variable {kind : NodeKind} {levels : Nat} {m : Medium} {start start' : Nat} {n : TemplateNode}

theorem survives_array {lead lead' : Nat} {tag tag' : Tree} {rest rest' : Items} {ps : List Pair}
    (htag : Decode.tag NodeKind.names m.inside tag = .ok kind) (htag' : tag.Alike tag')
    (hpairs : PairsOf ps rest rest')
    (htakes : rest.takeIn m.inside = .ok () → rest'.takeIn m.inside = .ok ())
    (hps : ∀ (i : Nat) (p : Pair), ps[i]? = some p →
      ∀ (name : String) (β : Type) (d : Decoder β) (fallback : Option β),
        (kind.fields (decoderTo levels)).Has i name d fallback → ∀ b, d .buffer p.old = .ok b →
          Survives p.losses b (d .buffer p.new))
    (h : decoderTo (levels + 1) m (.array start (.item lead tag rest)) = .ok n) :
    Survives (lossesOf ps) n
      (decoderTo (levels + 1) m (.array start' (.item lead' tag' rest'))) := by
  simp only [decoderTo, bind_eq_ok_iff, Prod.exists, Tree.splitTag_array_eq_ok_iff,
    NodeKind.ofBody_eq, map_eq_ok_iff] at h
  obtain ⟨kind', body, ⟨hm, _, _, _, heq, hold, hrest, rfl⟩, c, hc, rfl⟩ := h
  cases heq
  obtain rfl : kind = kind' := Except.ok.inj (htag.symm.trans hold)
  have hnew : Decode.tag NodeKind.names m.inside tag' = .ok kind :=
    ((placeless_tag NodeKind.names).congr htag').mp htag
  have hsplit : (Tree.array start' (.item lead' tag' rest')).splitTag "TemplateNode" "type"
      NodeKind.names m = .ok (kind, .items rest') :=
    Tree.splitTag_array_eq_ok_iff.mpr ⟨hm, _, _, _, rfl, hnew, htakes hrest, rfl⟩
  rw [decoderTo, hsplit]
  show Survives _ _ (kind.ofBody _ _)
  rw [NodeKind.ofBody_eq]
  exact (survives_ofBody_items (kind.fields_fresh _) hpairs hps hc).map _

theorem survives_object {ms ms' : Members} {c : Change} {tag : Tree}
    (hmem : ("type", tag) ∈ c.before) (htag : Decode.tag NodeKind.names m.inside tag = .ok kind)
    (hbetween : c.Between ms ms')
    (hfits : c.Fits ["type"] (kind.fields (decoderTo levels)) .buffer)
    (hreadable : c.KeptReadable (kind.fields (decoderTo levels)))
    (hkept : c.KeptSurvive (kind.fields (decoderTo levels)) .buffer)
    (h : decoderTo (levels + 1) m (.object start ms) = .ok n) :
    Survives c.losses n (decoderTo (levels + 1) m (.object start' ms')) := by
  simp only [decoderTo, Tree.splitTag, bind_eq_ok_iff, Prod.exists, Medium.enter_eq_ok_iff,
    pure_eq_ok_iff, Prod.mk.injEq, NodeKind.ofBody_eq, map_eq_ok_iff] at h
  obtain ⟨_, _, ⟨_, ⟨hm, rfl⟩, kind', hfind, rfl, rfl⟩, content, hcontent, rfl⟩ := h
  obtain rfl : kind' = kind := by
    obtain ⟨es, es', hes, -, hbefore, -⟩ := hbetween
    exact Members.eq_of_findTag hfind hes (hbefore.mem_iff.mpr hmem) htag
  have hsplit : (Tree.object start' ms').splitTag "TemplateNode" "type" NodeKind.names m =
      (ms'.findTag "type" NodeKind.names m.inside none).map (·, .members ms') := by
    rw [Tree.splitTag, Medium.enter_eq_ok_iff.mpr ⟨hm, rfl⟩]
    rfl
  have htagSurvives := hfits.survives_findTag List.mem_cons_self (kind'.type_notMem_names _)
    hreadable hbetween hfind
  rw [decoderTo, hsplit]
  -- Without its tag the node is of no kind, and no field of it is read.
  by_cases hlost : valuesOf "type" c.lost = []
  · rw [htagSurvives.1 (by simp [hlost])]
    show Survives _ _ (kind'.ofBody _ _)
    rw [NodeKind.ofBody_eq]
    have hfields : ∀ e ∈ c.lost, e.1 ∈ (kind'.fields (decoderTo levels)).names := by
      intro e he
      refine (hfits.lost e he).1.resolve_left fun htype => ?_
      have hvalue : e.2 ∈ valuesOf "type" c.lost :=
        mem_valuesOf.mpr (List.mem_singleton.mp htype ▸ he)
      simp [hlost] at hvalue
    exact (hfits.survives_ofMembers (kind'.fields_fresh _) hbetween hkept hfields hcontent).map _
  · obtain ⟨e, he, hcause⟩ := htagSurvives.2 (by simp [hlost])
    rw [he]
    refine ⟨fun hnone => ?_, fun _ => ⟨e, rfl, hcause⟩⟩
    rw [(Change.losses_eq_zero_iff.mp hnone).2] at hlost
    exact absurd rfl hlost

end TemplateNode

/-- The second tree is the first, for this decoder in this medium, with its records rewritten and
so many members lost. Records may be objects or arrays, and the items of an array keep their
order. -/
inductive Rewritten : {α : Type} → Nat → Decoder α → Medium → Tree → Tree → Prop
  | same {α : Type} {d : Decoder α} {m : Medium} {t t' : Tree} (hd : Placeless d)
      (h : t.Alike t') : Rewritten 0 d m t t'
  | null {α : Type} {d : Decoder α} {m : Medium} {start stop start' stop' : Nat} :
      Rewritten 0 (Decode.optional d) m (.atom start stop .null) (.atom start' stop' .null)
  | some {α : Type} {n : Nat} {d : Decoder α} {m : Medium} {t t' : Tree}
      (ht : ∀ start stop, t ≠ .atom start stop .null)
      (ht' : ∀ start stop, t' ≠ .atom start stop .null) (h : Rewritten n d m t t') :
      Rewritten n (Decode.optional d) m t t'
  | list {α : Type} {d : Decoder α} {m : Medium} {start start' : Nat} {items items' : Items}
      {ps : List Pair} (hpairs : PairsOf ps items items')
      (h : ∀ p ∈ ps, Rewritten p.losses d m.inside p.old p.new) :
      Rewritten (lossesOf ps) (Decode.list d) m (.array start items) (.array start' items')
  | positions {α : Type} {record : String} {fields : Fields α} {m : Medium} {start start' : Nat}
      {items items' : Items} {ps : List Pair} (hfresh : fields.Fresh)
      (hpairs : PairsOf ps items items') (hlength : ps.length ≤ fields.count)
      (h : ∀ (i : Nat) (p : Pair), ps[i]? = some p →
        ∀ (name : String) (β : Type) (d : Decoder β) (fallback : Option β),
          fields.Has i name d fallback → Rewritten p.losses d m.inside p.old p.new) :
      Rewritten (lossesOf ps) (Decode.record record fields) m (.array start items)
        (.array start' items')
  | members {α : Type} {record : String} {fields : Fields α} {m : Medium} {start start' : Nat}
      {ms ms' : Members} {c : Change} (hfresh : fields.Fresh) (hbetween : c.Between ms ms')
      (hfits : c.Fits [] fields m.inside)
      (h : ∀ k ∈ c.kept, ∀ (i : Nat) (β : Type) (d : Decoder β) (fallback : Option β),
        fields.Has i k.1 d fallback → Rewritten k.2.losses d m.inside k.2.old k.2.new) :
      Rewritten c.losses (Decode.record record fields) m (.object start ms) (.object start' ms')
  | nodePositions {kind : NodeKind} {levels : Nat} {m : Medium}
      {start lead start' lead' : Nat} {tag tag' : Tree} {rest rest' : Items} {ps : List Pair}
      (htag : Decode.tag NodeKind.names m.inside tag = .ok kind) (htag' : tag.Alike tag')
      (hpairs : PairsOf ps rest rest')
      (hlength : ps.length ≤ (kind.fields (TemplateNode.decoderTo levels)).count)
      (h : ∀ (i : Nat) (p : Pair), ps[i]? = some p →
        ∀ (name : String) (β : Type) (d : Decoder β) (fallback : Option β),
          (kind.fields (TemplateNode.decoderTo levels)).Has i name d fallback →
            Rewritten p.losses d .buffer p.old p.new) :
      Rewritten (lossesOf ps) (TemplateNode.decoderTo (levels + 1)) m
        (.array start (.item lead tag rest)) (.array start' (.item lead' tag' rest'))
  | nodeMembers {kind : NodeKind} {levels : Nat} {m : Medium} {start start' : Nat}
      {ms ms' : Members} {c : Change} {tag : Tree} (hmem : ("type", tag) ∈ c.before)
      (htag : Decode.tag NodeKind.names m.inside tag = .ok kind) (hbetween : c.Between ms ms')
      (hfits : c.Fits ["type"] (kind.fields (TemplateNode.decoderTo levels)) .buffer)
      (h : ∀ k ∈ c.kept, ∀ (i : Nat) (β : Type) (d : Decoder β) (fallback : Option β),
        (kind.fields (TemplateNode.decoderTo levels)).Has i k.1 d fallback →
          Rewritten k.2.losses d .buffer k.2.old k.2.new) :
      Rewritten c.losses (TemplateNode.decoderTo (levels + 1)) m (.object start ms)
        (.object start' ms')

namespace Rewritten

variable {α : Type} {n : Nat} {d : Decoder α} {m : Medium} {t t' : Tree}

theorem readError? (h : Rewritten n d m t t') {room : Nat} (ht : t.readError? room = none) :
    t'.readError? room = none := by
  induction h generalizing room with
  | same _ h => exact h.readError?.mp ht
  | null => rfl
  | some _ _ _ ih => exact ih ht
  | list hpairs _ ih =>
    rw [Tree.readError?_array_eq_none_iff] at ht ⊢
    exact ⟨ht.1, hpairs.readError? (fun p hp => ih p hp) ht.2⟩
  | positions _ hpairs hlength _ ih =>
    rw [Tree.readError?_array_eq_none_iff] at ht ⊢
    exact ⟨ht.1, hpairs.readError?_of_fields hlength
      (fun i p hp name β d fallback hhas => ih i p hp name β d fallback hhas) ht.2⟩
  | members _ hbetween hfits _ ih =>
    rw [Tree.readError?_object_eq_none_iff] at ht ⊢
    exact ⟨ht.1, hfits.readError?_members
      (fun k hk i β d fallback hhas room => ih k hk i β d fallback hhas) hbetween ht.2⟩
  | nodePositions _ htag' hpairs hlength _ ih =>
    rw [Tree.readError?_array_eq_none_iff, Items.readError?_item_eq_none_iff] at ht ⊢
    exact ⟨ht.1, htag'.readError?.mp ht.2.1, hpairs.readError?_of_fields hlength
      (fun i p hp name β d fallback hhas => ih i p hp name β d fallback hhas) ht.2.2⟩
  | nodeMembers _ _ hbetween hfits _ ih =>
    rw [Tree.readError?_object_eq_none_iff] at ht ⊢
    exact ⟨ht.1, hfits.readError?_members
      (fun k hk i β d fallback hhas room => ih k hk i β d fallback hhas) hbetween ht.2⟩

/-- What is read survives a rewriting as long as nothing is lost. -/
theorem survives (h : Rewritten n d m t t') {a : α} (ha : d m t = .ok a) :
    Survives n a (d m t') := by
  induction h with
  | same hd h => exact ⟨fun _ => (hd.congr h).mp ha, nofun⟩
  | null => exact ⟨fun _ => ha, nofun⟩
  | some ht ht' _ ih =>
    rw [Decode.optional_eq_map ht, map_eq_ok_iff] at ha
    obtain ⟨b, hb, rfl⟩ := ha
    rw [Decode.optional_eq_map ht']
    exact (ih hb).map _
  | list hpairs _ ih =>
    simp only [Decode.list, bind_eq_ok_iff, Medium.enter_eq_ok_iff] at ha
    obtain ⟨_, ⟨hm, rfl⟩, ha⟩ := ha
    rw [Decode.list, Medium.enter_eq_ok_iff.mpr ⟨hm, rfl⟩]
    exact survives_readAll hpairs (fun p hp a ha => ih p hp ha) ha
  | positions hfresh hpairs _ _ ih =>
    simp only [Decode.record, bind_eq_ok_iff, Medium.enter_eq_ok_iff] at ha
    obtain ⟨_, ⟨hm, rfl⟩, ha⟩ := ha
    rw [Decode.record, Medium.enter_eq_ok_iff.mpr ⟨hm, rfl⟩]
    exact survives_ofBody_items hfresh hpairs
      (fun i p hp name β d fallback hhas b hb => ih i p hp name β d fallback hhas hb) ha
  | members hfresh hbetween hfits _ ih =>
    simp only [Decode.record, bind_eq_ok_iff, Medium.enter_eq_ok_iff] at ha
    obtain ⟨_, ⟨hm, rfl⟩, ha⟩ := ha
    rw [Decode.record, Medium.enter_eq_ok_iff.mpr ⟨hm, rfl⟩]
    refine hfits.survives_ofMembers hfresh hbetween
      (fun k hk i β d fallback hhas b hb => ih k hk i β d fallback hhas hb) (fun e he => ?_) ha
    simpa using (hfits.lost e he).1
  | nodePositions htag htag' hpairs hlength h ih =>
    exact TemplateNode.survives_array htag htag' hpairs
      (hpairs.takeIn hlength fun i p hp name β d fallback hhas _ =>
        (h i p hp name β d fallback hhas).readError?)
      (fun i p hp name β d fallback hhas b hb => ih i p hp name β d fallback hhas hb) ha
  | nodeMembers hmem htag hbetween hfits h ih =>
    exact TemplateNode.survives_object hmem htag hbetween hfits
      (fun k hk i β d fallback hhas _ => (h k hk i β d fallback hhas).readError?)
      (fun k hk i β d fallback hhas b hb => ih k hk i β d fallback hhas hb) ha

/-- The members of one node change, and their values stay as they are. -/
theorem nodeMembers_of_alike {kind : NodeKind} {levels start start' : Nat} {ms ms' : Members}
    {c : Change} {tag : Tree} (hmem : ("type", tag) ∈ c.before)
    (htag : Decode.tag NodeKind.names m.inside tag = .ok kind) (hbetween : c.Between ms ms')
    (hfits : c.Fits ["type"] (kind.fields (TemplateNode.decoderTo levels)) .buffer)
    (hkept : ∀ k ∈ c.kept, k.2.old.Alike k.2.new ∧ k.2.losses = 0) :
    Rewritten c.losses (TemplateNode.decoderTo (levels + 1)) m (.object start ms)
      (.object start' ms') :=
  .nodeMembers hmem htag hbetween hfits fun k hk i β d fallback hhas => by
    rw [(hkept k hk).2]
    exact .same ((kind.each_placeless (TemplateNode.placeless levels)).of_has hhas) (hkept k hk).1

/-- The nodes of a document are rewritten, and its members change places. -/
theorem document {source source' : Tree} {start start' lead lead' : Nat} {ms ms' : Members}
    {items items' : Items} (ps : List Pair)
    (hbetween : Change.Between ⟨[("source", ⟨source, source', 0⟩),
      ("children", ⟨.array lead items, .array lead' items', lossesOf ps⟩)], [], [], []⟩ ms ms')
    (hsource : source.Alike source') (hpairs : PairsOf ps items items')
    (h : ∀ p ∈ ps, Rewritten p.losses TemplateNode.decoder m.inside.inside p.old p.new) :
    Rewritten (lossesOf ps) RootNode.decoder m (.object start ms) (.object start' ms') := by
  have hlist : Rewritten (lossesOf ps) (Decode.list TemplateNode.decoder) m.inside
      (.array lead items) (.array lead' items') := .list hpairs h
  have hlosses : Change.losses ⟨[("source", ⟨source, source', 0⟩),
      ("children", ⟨.array lead items, .array lead' items', lossesOf ps⟩)], [], [], []⟩ =
        lossesOf ps := by
    simp [Change.losses, lossesOf]
  rw [← hlosses]
  refine .members RootNode.fields_fresh hbetween
    ⟨?_, List.forall_mem_nil _, List.forall_mem_nil _, List.forall_mem_nil _⟩ ?_
  · have hnames : RootNode.fields.names = ["source", "children"] := rfl
    simp [hnames]
  · intro k hk i β d fallback hhas
    have heach : RootNode.fields.Each fun _ name d _ =>
        (name = "source" → Rewritten 0 d m.inside source source') ∧
        (name = "children" → Rewritten (lossesOf ps) d m.inside (.array lead items)
          (.array lead' items')) := by
      simp [RootNode.fields, Fields.required, Fields.optional, Fields.Each, hlist,
        Rewritten.same placeless_string hsource]
    obtain ⟨hs, hc⟩ := heach.of_has hhas
    simp only [List.mem_cons, List.not_mem_nil, or_false] at hk
    rcases hk with rfl | rfl
    · exact hs rfl
    · exact hc rfl

end Rewritten

/-- A document that says the same is read as the same template. One that lost a member that has to
be there is no document, and for its content only. -/
theorem RootNode.ofDocument_rewritten {text text' : String} {r : RootNode} {losses : Nat} {t : Tree}
    (h : ofDocument text = .ok r) (hspells : Spells text' t)
    (hrewritten : Rewritten losses decoder (.text maxDepth) (Tree.ofString text).1 t) :
    (losses = 0 → ofDocument text' = .ok r) ∧
      (losses ≠ 0 → ∃ e, ofDocument text' = .error e ∧ e.category = .content) := by
  have hread : decoder (.text maxDepth) (Tree.ofString text).1 = .ok r :=
    (spells_of_decode h).decode_eq decoder ▸ h
  rw [ofDocument, hspells.decode_eq]
  exact hrewritten.survives hread

/-- The span `[[0],[1],"a"]` at an offset. -/
def spanTree (k : Nat) : Tree :=
  .array k (.item (k + 1) (.array (k + 1) (.item (k + 2)
    (.atom (k + 2) (k + 3) (.number (.natural 0))) (.close (k + 4))))
    (.item (k + 5) (.array (k + 5) (.item (k + 6)
      (.atom (k + 6) (k + 7) (.number (.natural 1))) (.close (k + 8))))
      (.item (k + 9) (.atom (k + 9) (k + 12) (.string "a")) (.close (k + 13)))))

def textDocument : String :=
  "\x7b\"source\":\"a\",\"children\":[\x7b\"type\":\"text\",\"value\":\"a\"," ++
    "\"sourceSpan\":[[0],[1],\"a\"]\x7d]\x7d"

/-- The same document, with its members in another order and a new one. -/
def movedDocument : String :=
  "\x7b\"children\":[\x7b\"sourceSpan\":[[0],[1],\"a\"],\"value\":\"a\",\"type\":\"text\"," ++
    "\"x\":true\x7d],\"source\":\"a\"\x7d"

/-- The document without the value of its text. -/
def lostDocument : String :=
  "\x7b\"children\":[\x7b\"sourceSpan\":[[0],[1],\"a\"],\"type\":\"text\"\x7d]," ++
    "\"source\":\"a\"\x7d"

theorem RootNode.ofDocument_rewritten_text :
    let r : RootNode := ⟨"a", [.text ⟨"a", ⟨⟨0, 0, 0⟩, ⟨1, 0, 0⟩, "a"⟩⟩]⟩
    ofDocument textDocument = .ok r ∧ ofDocument movedDocument = .ok r ∧
      ∃ e, ofDocument lostDocument = .error e ∧ e.category = .content := by
  intro r
  have h : ofDocument textDocument = .ok r := by decide +kernel
  have htext : (Tree.ofString textDocument).1 = .object 0
      (.member 1 (.atom 1 9 (.string "source")) 9 (.atom 10 13 (.string "a"))
      (.member 13 (.atom 14 24 (.string "children")) 24 (.array 25 (.item 26 (.object 26
        (.member 27 (.atom 27 33 (.string "type")) 33 (.atom 34 40 (.string "text"))
        (.member 40 (.atom 41 48 (.string "value")) 48 (.atom 49 52 (.string "a"))
        (.member 52 (.atom 53 65 (.string "sourceSpan")) 65 (spanTree 66) (.close 80)))))
        (.close 81))) (.close 82))) := by
    decide +kernel
  have hmoved : Tree.ofString movedDocument = (.object 0
      (.member 1 (.atom 1 11 (.string "children")) 11 (.array 12 (.item 13 (.object 13
        (.member 14 (.atom 14 26 (.string "sourceSpan")) 26 (spanTree 27)
        (.member 40 (.atom 41 48 (.string "value")) 48 (.atom 49 52 (.string "a"))
        (.member 52 (.atom 53 59 (.string "type")) 59 (.atom 60 66 (.string "text"))
        (.member 66 (.atom 67 70 (.string "x")) 70 (.atom 71 75 (.boolean true)) (.close 76))))))
        (.close 77)))
      (.member 77 (.atom 78 86 (.string "source")) 86 (.atom 87 90 (.string "a"))
      (.close 91))), .ok ⟨91, []⟩) := by
    decide +kernel
  have hlost : Tree.ofString lostDocument = (.object 0
      (.member 1 (.atom 1 11 (.string "children")) 11 (.array 12 (.item 13 (.object 13
        (.member 14 (.atom 14 26 (.string "sourceSpan")) 26 (spanTree 27)
        (.member 40 (.atom 41 47 (.string "type")) 47 (.atom 48 54 (.string "text"))
        (.close 55))))
        (.close 56)))
      (.member 56 (.atom 57 65 (.string "source")) 65 (.atom 66 69 (.string "a"))
      (.close 70))), .ok ⟨70, []⟩) := by
    decide +kernel
  let span : String × Pair := ("sourceSpan", ⟨spanTree 66, spanTree 27, 0⟩)
  let tag (start stop : Nat) : String × Pair :=
    ("type", ⟨.atom 34 40 (.string "text"), .atom start stop (.string "text"), 0⟩)
  have htag : Decode.tag NodeKind.names .buffer (.atom 34 40 (.string "text")) = .ok .text := rfl
  refine ⟨h, (ofDocument_rewritten h ⟨_, hmoved, rfl⟩ ?_).1 rfl,
    (ofDocument_rewritten h ⟨_, hlost, rfl⟩ ?_).2 Nat.one_ne_zero⟩
  · rw [htext]
    refine .document [⟨_, _, 0⟩] ⟨_, _, rfl, rfl, .refl _, .swap _ _ _⟩ rfl ⟨rfl, rfl⟩ ?_
    refine List.forall_mem_singleton.mpr ?_
    let kept := [span, ("value", ⟨.atom 49 52 (.string "a"), .atom 49 52 (.string "a"), 0⟩),
      tag 60 66]
    have hkept : ∀ k ∈ kept, k.2.old.Alike k.2.new ∧ k.2.losses = 0 := by
      simp [kept, span, tag, Tree.Alike, Tree.unplaced, spanTree, Items.unplaced]
    have hmem : ("type", .atom 34 40 (.string "text")) ∈
        Change.before ⟨kept, [], [("x", .atom 71 75 (.boolean true))], []⟩ := by
      simp [Change.before, kept, span, tag]
    refine Rewritten.nodeMembers_of_alike hmem htag
      ⟨_, _, rfl, rfl, (List.reverse_perm _).symm, .refl _⟩
      ⟨fun k hk _ => hkept k hk, List.forall_mem_nil _, ?_, List.forall_mem_nil _⟩ hkept
    exact List.forall_mem_singleton.mpr ⟨by decide, by decide, _, _, _, rfl⟩
  · rw [htext]
    refine .document [⟨_, _, 1⟩] ⟨_, _, rfl, rfl, .refl _, .swap _ _ _⟩ rfl ⟨rfl, rfl⟩ ?_
    refine List.forall_mem_singleton.mpr ?_
    have hkept : ∀ k ∈ [span, tag 48 54], k.2.old.Alike k.2.new ∧ k.2.losses = 0 := by
      simp [span, tag, Tree.Alike, Tree.unplaced, spanTree, Items.unplaced]
    have hmem : ("type", .atom 34 40 (.string "text")) ∈ Change.before
        ⟨[span, tag 48 54], [], [], [("value", .atom 49 52 (.string "a"))]⟩ := by
      simp [Change.before, span, tag]
    refine Rewritten.nodeMembers_of_alike hmem htag
      ⟨_, _, rfl, rfl, List.perm_append_singleton _ [_, _], .refl _⟩
      ⟨fun k hk _ => hkept k hk, List.forall_mem_nil _, List.forall_mem_nil _, ?_⟩ hkept
    refine List.forall_mem_singleton.mpr ⟨.inr (by decide), fun i β d fallback hhas => ?_⟩
    have hnone : TextNode.fields.Each fun _ _ _ fallback => fallback = none :=
      ⟨⟨trivial, rfl⟩, rfl⟩
    exact hnone.of_has hhas

end TemplateLint
