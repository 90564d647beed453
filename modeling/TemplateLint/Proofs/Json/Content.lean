import TemplateLint.Json.Decode
import TemplateLint.Json.Value
import TemplateLint.Proofs.Checked
import Mathlib.Data.List.Forall2

/-! What a tree says, apart from the places in its text: the value it stands for, its items, its
members by name, and how deep its brackets are nested. -/
namespace TemplateLint.Json

theorem exists_mem_of_forall₂ {α β : Type} {R : α → β → Prop} {as : List α} {bs : List β} {a : α}
    (h : List.Forall₂ R as bs) (ha : a ∈ as) : ∃ b ∈ bs, R a b := by
  induction h with
  | nil => cases ha
  | @cons a' b _ bs hab _ ih =>
    rcases List.mem_cons.mp ha with rfl | ha
    · exact ⟨b, List.mem_cons_self, hab⟩
    · obtain ⟨b', hb', hab'⟩ := ih ha
      exact ⟨b', List.mem_cons_of_mem _ hb', hab'⟩

namespace Value

mutual

/-- How many arrays and objects are open at once, at most. -/
def depth : Value → Nat
  | .array items => itemsDepth items + 1
  | .object members => membersDepth members + 1
  | _ => 0

def itemsDepth : List Value → Nat
  | [] => 0
  | v :: vs => max v.depth (itemsDepth vs)

def membersDepth : List (String × Value) → Nat
  | [] => 0
  | (_, v) :: ms => max v.depth (membersDepth ms)

end

theorem itemsDepth_le_iff {vs : List Value} {n : Nat} :
    itemsDepth vs ≤ n ↔ ∀ v ∈ vs, v.depth ≤ n := by
  induction vs with
  | nil => simp [itemsDepth]
  | cons v vs ih => rw [itemsDepth, Nat.max_le, ih, List.forall_mem_cons]

theorem membersDepth_le_iff {ms : List (String × Value)} {n : Nat} :
    membersDepth ms ≤ n ↔ ∀ m ∈ ms, m.2.depth ≤ n := by
  induction ms with
  | nil => simp [membersDepth]
  | cons m ms ih => rw [membersDepth, Nat.max_le, ih, List.forall_mem_cons]

/-- All numbers of the value have at most 64 bits. -/
inductive Small : Value → Prop
  | null : Small .null
  | boolean (b : Bool) : Small (.boolean b)
  | natural {n : Nat} (h : n ≤ maxSignificand) : Small (.natural n)
  | string (s : String) : Small (.string s)
  | array {vs : List Value} (h : ∀ v ∈ vs, Small v) : Small (.array vs)
  | object {ms : List (String × Value)} (h : ∀ m ∈ ms, Small m.2) : Small (.object ms)

end Value

/-- The value of a whole tree. Only numbers that are natural have one. -/
def Atom.value? : Atom → Option Value
  | .null => some .null
  | .boolean b => some (.boolean b)
  | .number (.natural n) => some (.natural n)
  | .number _ => none
  | .string s => some (.string s)

def Tree.name? : Tree → Option String
  | .atom _ _ (.string s) => some s
  | _ => none

/-- The items of an array that nothing is wrong with. -/
def Items.trees? : Items → Option (List Tree)
  | .close _ => some []
  | .item _ value rest => rest.trees?.map (value :: ·)
  | .fault .. => none

/-- The members of an object that nothing is wrong with, in the order of the text. -/
def Members.entries? : Members → Option (List (String × Tree))
  | .close _ => some []
  | .member _ key _ value rest => do return (← key.name?, value) :: (← rest.entries?)
  | .fault .. => none

mutual

def Tree.value? : Tree → Option Value
  | .atom _ _ a => a.value?
  | .malformed .. => none
  | .array _ items => items.values?.map .array
  | .object _ members => members.values?.map .object

def Items.values? : Items → Option (List Value)
  | .close _ => some []
  | .item _ value rest => do return (← value.value?) :: (← rest.values?)
  | .fault .. => none

def Members.values? : Members → Option (List (String × Value))
  | .close _ => some []
  | .member _ key _ value rest => do
    return (← key.name?, ← value.value?) :: (← rest.values?)
  | .fault .. => none

end

@[simp] theorem Items.trees?_item_eq_some_iff {start : Nat} {value : Tree} {rest : Items}
    {ts : List Tree} :
    (Items.item start value rest).trees? = some ts ↔
      ∃ ts', rest.trees? = some ts' ∧ value :: ts' = ts := by
  simp [trees?]

@[simp] theorem Members.entries?_member_eq_some_iff {lead resume : Nat} {key value : Tree}
    {rest : Members} {es : List (String × Tree)} :
    (Members.member lead key resume value rest).entries? = some es ↔
      ∃ name, key.name? = some name ∧ ∃ es', rest.entries? = some es' ∧
        (name, value) :: es' = es := by
  simp [entries?, Option.bind_eq_some_iff]

/-- The text is one value, which has this tree. -/
def Spells (s : String) (t : Tree) : Prop :=
  ∃ k, Tree.ofString s = (t, .ok k) ∧ k.skipBlanks.rest = []

theorem Spells.decode_eq {s : String} {t : Tree} (h : Spells s t) {α : Type} (d : Decoder α) :
    decode d s = d (.text maxDepth) t := by
  obtain ⟨k, htree, hrest⟩ := h
  cases hd : d (.text maxDepth) t <;>
    simp [decode, htree, hd, hrest, bind, Except.bind, pure, Except.pure]

theorem spells_of_decode {α : Type} {d : Decoder α} {s : String} {a : α}
    (h : decode d s = .ok a) : Spells s (Tree.ofString s).1 := by
  rw [decode, bind_eq_ok_iff] at h
  obtain ⟨b, -, h⟩ := h
  split at h
  next => cases h
  next k hnext =>
    refine ⟨k, Prod.ext rfl hnext, ?_⟩
    dsimp only at h
    split at h
    next hrest => simpa using hrest
    next => cases h

theorem Items.values?_item {start : Nat} {value : Tree} {rest : Items} {v : Value}
    {vs : List Value} (hv : value.value? = some v) (hvs : rest.values? = some vs) :
    (Items.item start value rest).values? = some (v :: vs) := by
  rw [values?, hv, hvs]
  rfl

theorem Members.values?_member {lead resume : Nat} {key value : Tree} {rest : Members}
    {name : String} {v : Value} {vs : List (String × Value)} (hname : key.name? = some name)
    (hv : value.value? = some v) (hvs : rest.values? = some vs) :
    (Members.member lead key resume value rest).values? = some ((name, v) :: vs) := by
  rw [values?, hname, hv, hvs]
  rfl

theorem Items.values?_eq_some {items : Items} {vs : List Value} (h : items.values? = some vs) :
    ∃ ts, items.trees? = some ts ∧ List.Forall₂ (fun t v => t.value? = some v) ts vs := by
  match items with
  | .close _ =>
    obtain rfl : [] = vs := Option.some.inj h
    exact ⟨[], rfl, .nil⟩
  | .item start value rest =>
    simp only [values?, bind, Option.bind_eq_some_iff, pure, Option.some.injEq] at h
    obtain ⟨v, hv, vs', hvs, rfl⟩ := h
    obtain ⟨ts, hts, hall⟩ := values?_eq_some hvs
    exact ⟨value :: ts, by simp [hts], .cons hv hall⟩
  | .fault .. => simp [values?] at h

/-- The trees and values of the same members. -/
abbrev Spelled (es : List (String × Tree)) (vs : List (String × Value)) : Prop :=
  List.Forall₂ (fun e v => e.1 = v.1 ∧ e.2.value? = some v.2) es vs

theorem Members.values?_eq_some {members : Members} {vs : List (String × Value)}
    (h : members.values? = some vs) :
    ∃ es, members.entries? = some es ∧ Spelled es vs := by
  match members with
  | .close _ =>
    obtain rfl : [] = vs := Option.some.inj h
    exact ⟨[], rfl, .nil⟩
  | .member lead key resume value rest =>
    simp only [values?, bind, Option.bind_eq_some_iff, pure, Option.some.injEq] at h
    obtain ⟨name, hname, v, hv, vs', hvs, rfl⟩ := h
    obtain ⟨es, hes, hall⟩ := values?_eq_some hvs
    exact ⟨(name, value) :: es, by simp [hname, hes], .cons ⟨rfl, hv⟩ hall⟩
  | .fault .. => simp [values?] at h

theorem Members.values?_eq_cons {ms : Members} {name : String} {v : Value}
    {vs : List (String × Value)} (h : ms.values? = some ((name, v) :: vs)) :
    ∃ lead key resume value rest, ms = .member lead key resume value rest ∧
      key.name? = some name ∧ value.value? = some v ∧ rest.values? = some vs := by
  cases ms with
  | close => simp [values?] at h
  | fault => simp [values?] at h
  | member lead key resume value rest =>
    simp only [values?, bind, Option.bind_eq_some_iff, pure, Option.some.injEq, List.cons.injEq,
      Prod.mk.injEq] at h
    obtain ⟨_, hname, _, hv, _, hvs, ⟨rfl, rfl⟩, rfl⟩ := h
    exact ⟨lead, key, resume, value, rest, rfl, hname, hv, hvs⟩

end TemplateLint.Json
