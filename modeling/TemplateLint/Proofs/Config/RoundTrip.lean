import TemplateLint.Proofs.Json.Layout
import TemplateLint.Proofs.Json.Maps
import TemplateLint.Proofs.Lint.Settings

/-! Configurations that are written and read again. The order in which the levels are written does
not matter. Of the levels that a text lists for one rule the last one counts. -/
namespace TemplateLint
open Json

/-! Levels -/

namespace RuleLevel

/-- The level that a name stands for. -/
def ofName? : String → Option RuleLevel
  | "off" => some .off
  | "warn" | "warning" => some .warn
  | "error" => some .error
  | _ => none

theorem lookup_names (s : String) : names.lookup s = ofName? s := by
  fun_cases ofName? s
  case case5 => simp_all [names]
  all_goals rfl

/-- The level that a value stands for: a name, or an object with one name and no value. -/
def ofValue? : Value → Option RuleLevel
  | .string s => ofName? s
  | .object [(s, .null)] => ofName? s
  | _ => none

theorem exists_ofValue?_of_decoder {room : Nat} {t : Tree} {l : RuleLevel}
    (h : decoder (.text room) t = .ok l) : ∃ v, t.value? = some v ∧ ofValue? v = some l := by
  obtain ⟨s, hs, ht | ht⟩ := Decode.exists_of_choice_text h
  · exact ⟨.string s, ht, (lookup_names s).symm.trans hs⟩
  · exact ⟨.object [(s, .null)], ht, (lookup_names s).symm.trans hs⟩

def toJson (l : RuleLevel) : Value := .string l.name

theorem reads_toJson (l : RuleLevel) : Reads decoder l.toJson l := reads_choice l.lookup_name

end RuleLevel

namespace Config

/-! Writing -/

theorem fields_fresh : fields.Fresh :=
  ⟨by simp [fields, Fields.optional, Fields.Unread], by decide⟩

open Fields (Slot) in
theorem assembles_iff {γ : Type} {R : Reader γ} {found : Finder γ} {c : Config} :
    fields.Assembles R found c ↔
      Slot R (Decode.optional Decode.string) (some none) none (found 0 "$schema") c.schema ∧
      Slot R (Decode.map RuleLevel.decoder) (some []) none (found 1 "rules") c.rules := by
  cases c
  simp [fields, Fields.optional, Fields.Assembles, Fields.count]

def rulesToJson (rules : List (String × RuleLevel)) : Value :=
  .object (rules.map fun a => (a.1, a.2.toJson))

theorem reads_toJson {c : Config} (h : c.Distinct) : Reads decoder c.toJson c := by
  have hschema := slot_optional reads_string nofun c.schema
  have hrules : Reads (Decode.map RuleLevel.decoder) (rulesToJson c.rules) c.rules :=
    reads_map h fun a _ => a.2.reads_toJson
  refine reads_record fields_fresh ?_ (assembles_iff.mpr ?_)
  · have : fields.names = ["$schema", "rules"] := rfl
    cases c.schema <;> simp [this]
  · cases hc : c.schema <;> simp_all [byName, reads, rulesToJson, RuleLevel.toJson]

theorem depth_toJson (c : Config) : c.toJson.depth ≤ 2 := by
  have hrules : (rulesToJson c.rules).depth ≤ 1 := by
    refine Nat.succ_le_succ (Value.membersDepth_le_iff.mpr (List.forall_mem_map.mpr fun a _ => ?_))
    exact Nat.le_refl 0
  refine Nat.succ_le_succ (Value.membersDepth_le_iff.mpr ?_)
  rw [List.forall_mem_append]
  refine ⟨?_, List.forall_mem_singleton.mpr hrules⟩
  cases c.schema <;> simp [Value.depth]

theorem small_toJson (c : Config) : c.toJson.Small := by
  have hrules : (rulesToJson c.rules).Small :=
    .object (List.forall_mem_map.mpr fun a _ => .string _)
  refine .object (List.forall_mem_append.mpr ⟨?_, List.forall_mem_singleton.mpr hrules⟩)
  cases c.schema <;> simp [Value.Small.string]

theorem ofText_of_spells {c : Config} (h : c.Distinct) {text : String}
    (htext : ∃ t, Spells text t ∧ t.value? = some c.toJson) : ofText text = .ok c := by
  obtain ⟨t, hspells, hvalue⟩ := htext
  rw [ofText, hspells.decode_eq]
  exact reads_toJson h _ t (c.depth_toJson.trans (by decide)) hvalue

/-- A text of a configuration that is written, with its levels in any order. -/
inductive WrittenAs (c : Config) : String → Prop
  | compact {order : List (String × RuleLevel)} (h : order.Perm c.rules) :
    WrittenAs c (toJson ⟨c.schema, order⟩).compact
  | pretty {order : List (String × RuleLevel)} (h : order.Perm c.rules) :
    WrittenAs c (toJson ⟨c.schema, order⟩).pretty

theorem WrittenAs.exists_ofText {c : Config} {text : String} (hwritten : c.WrittenAs text)
    (h : c.Distinct) :
    ∃ c', ofText text = .ok c' ∧ c'.schema = c.schema ∧ ∀ name, c'.level? name = c.level? name := by
  have hread {order : List (String × RuleLevel)} (hperm : order.Perm c.rules)
      (htext : ∃ t, Spells text t ∧ t.value? = some (toJson ⟨c.schema, order⟩)) :
      ofText text = .ok ⟨c.schema, order⟩ :=
    ofText_of_spells (c := ⟨c.schema, order⟩) ((hperm.symm.map Prod.fst).nodup h) htext
  cases hwritten with
  | @compact order hperm =>
    exact ⟨_, hread hperm (exists_spells_compact _ (small_toJson _)), rfl,
      fun name => (level?_perm h hperm name).symm⟩
  | @pretty order hperm =>
    exact ⟨_, hread hperm (exists_spells_pretty _ (small_toJson _)), rfl,
      fun name => (level?_perm h hperm name).symm⟩

/-! Reading -/

/-- The tree of the rules of a configuration: its member of this name, or the second item of an
array. -/
def rulesTree? : Tree → Option Tree
  | .object _ ms => ms.entries?.bind fun es => (valuesOf "rules" es).head?
  | .array _ items => items.trees?.bind (·[1]?)
  | _ => none

/-- The members of the rules in a tree, in the order of the text. Rules may be left out. -/
inductive Lists (t : Tree) : List (String × Value) → Prop
  | nothing (h : rulesTree? t = none) : Lists t []
  | rules {r : Tree} {vs : List (String × Value)} (h : rulesTree? t = some r)
    (hvs : r.value? = some (.object vs)) : Lists t vs

theorem exists_slot_of_decoder {room : Nat} {t : Tree} {c : Config}
    (h : decoder (.text room) t = .ok c) :
    Fields.Slot (readsIn (.text (room - 1))) (Decode.map RuleLevel.decoder) (some []) none
      (rulesTree? t).toList c.rules := by
  cases t with
  | object start ms =>
    obtain ⟨-, es, hes, -, ha⟩ := (Decode.record_object_eq_ok_iff fields_fresh.nodup).mp h
    have hrules := (assembles_iff.mp ha).2
    rw [rulesTree?, hes, Option.bind_some]
    rw [byName] at hrules
    cases hfound : valuesOf "rules" es with
    | nil =>
      rw [hfound] at hrules
      exact hrules
    | cons r rest =>
      rw [hfound] at hrules
      -- A second member of this name would not have been accepted.
      obtain ⟨rfl, hr⟩ := Fields.slot_unread_cons.mp hrules
      exact Fields.slot_unread_cons.mpr ⟨rfl, hr⟩
  | array start items =>
    obtain ⟨-, ts, hts, -, ha⟩ := (Decode.record_array_eq_ok_iff fields_fresh.unread).mp h
    rw [rulesTree?, hts, Option.bind_some]
    exact (assembles_iff.mp ha).2
  | atom => cases h
  | malformed => cases h

/-- A configuration has for each rule the last level that its text lists for it. -/
theorem exists_lists_of_ofText {text : String} {c : Config} (h : ofText text = .ok c) :
    c.Distinct ∧ ∃ t vs, Spells text t ∧ Lists t vs ∧
      (∀ v ∈ vs, ∃ l, RuleLevel.ofValue? v.2 = some l) ∧
      ∀ name, c.level? name = (valuesOf name vs).getLast?.bind RuleLevel.ofValue? := by
  have hspells := spells_of_decode h
  rw [ofText, hspells.decode_eq] at h
  have hslot := exists_slot_of_decoder h
  cases hrules : rulesTree? (Tree.ofString text).1 with
  | none =>
    rw [hrules] at hslot
    have hnone : [] = c.rules := Option.some.inj hslot
    refine ⟨?_, _, [], hspells, .nothing hrules, nofun, fun name => ?_⟩
    · rw [Distinct, names, ← hnone]
      exact List.nodup_nil
    · rw [level?, ← hnone]
      rfl
  | some r =>
    rw [hrules] at hslot
    obtain ⟨-, hread⟩ := Fields.slot_unread_cons.mp hslot
    obtain ⟨hdistinct, vs, hvs, hall, hlookup⟩ :=
      Decode.exists_of_map_text hread fun _ _ _ => RuleLevel.exists_ofValue?_of_decoder
    exact ⟨hdistinct, _, vs, hspells, .rules hrules hvs, hall, hlookup⟩

/-- What is written is read with the same schema and the same level for each rule, whatever the
order of the levels. When a configuration that was read off a text is written, what is read then has
for each rule the last level that the first text lists for it. -/
theorem written_read_back :
    (∀ (c : Config) (text : String), c.Distinct → c.WrittenAs text → ∃ c', ofText text = .ok c' ∧
      c'.schema = c.schema ∧ ∀ name, c'.level? name = c.level? name) ∧
    ∀ (text : String) (c : Config), ofText text = .ok c → ∃ t vs, Spells text t ∧ Lists t vs ∧
      (∀ v ∈ vs, ∃ l, RuleLevel.ofValue? v.2 = some l) ∧
      ∀ text', c.WrittenAs text' → ∃ c', ofText text' = .ok c' ∧ c'.schema = c.schema ∧
        ∀ name, c'.level? name = (valuesOf name vs).getLast?.bind RuleLevel.ofValue? := by
  refine ⟨fun c text hdistinct hwritten => hwritten.exists_ofText hdistinct, fun text c h => ?_⟩
  obtain ⟨hdistinct, t, vs, hspells, hlists, hall, hlevels⟩ := exists_lists_of_ofText h
  refine ⟨t, vs, hspells, hlists, hall, fun text' hwritten => ?_⟩
  obtain ⟨c', hread, hschema, hsame⟩ := hwritten.exists_ofText hdistinct
  exact ⟨c', hread, hschema, fun name => (hsame name).trans (hlevels name)⟩

/-- A name that needs escapes, and a text with a level as an object and a rule that is listed
twice. -/
theorem written_read_back_listed_twice :
    let c : Config := ⟨some "s", [("a/b", .warn), ("\"é\n", .off)]⟩
    let swapped : Config := ⟨some "s", [("\"é\n", .off), ("a/b", .warn)]⟩
    let text :=
      "\x7b\"rules\":\x7b\"a\":\"off\",\"b\":\x7b\"error\":null\x7d,\"a\":\"warning\"\x7d\x7d"
    let read : Config := ⟨none, [("b", .error), ("a", .warn)]⟩
    (∃ c', ofText swapped.toJson.pretty = .ok c' ∧ c'.schema = c.schema ∧
        ∀ name, c'.level? name = c.level? name) ∧
      ofText text = .ok read ∧ ∃ t vs, Spells text t ∧ Lists t vs ∧
        ∃ c', ofText read.toJson.compact = .ok c' ∧ c'.schema = none ∧
          ∀ name, c'.level? name = (valuesOf name vs).getLast?.bind RuleLevel.ofValue? := by
  intro c swapped text read
  have hread : ofText text = .ok read := by decide +kernel
  obtain ⟨t, vs, hspells, hlists, -, hwritten⟩ := written_read_back.2 text read hread
  exact ⟨written_read_back.1 c _ (by decide) (.pretty (List.Perm.swap _ _ _)), hread,
    t, vs, hspells, hlists, hwritten _ (.compact (List.Perm.refl _))⟩

end Config
end TemplateLint
