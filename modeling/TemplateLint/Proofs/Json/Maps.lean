import TemplateLint.Proofs.Json.Places
import TemplateLint.Proofs.Json.Reading
import TemplateLint.Proofs.Named

/-! Maps. They are read off an object, where the last member of each name counts, and are read back
as they were written since no name is written twice. -/
namespace TemplateLint.Json

/-! The last entry of each name -/

section Put
variable {γ : Type} {name : String} {entry : String × γ} {all es : List (String × γ)}

/-- Adds an entry, which takes the place of an older one of its name. -/
def put (all : List (String × γ)) (entry : String × γ) : List (String × γ) :=
  all.filter (·.1 ≠ entry.1) ++ [entry]

theorem lookup_put (all : List (String × γ)) (entry : String × γ) (name : String) :
    (put all entry).lookup name = if entry.1 = name then some entry.2 else all.lookup name := by
  obtain ⟨key, x⟩ := entry
  rw [put, List.lookup_append, lookup_filter_ne]
  split
  next h => rw [Option.none_or, ← h, List.lookup_cons_self]
  next h => rw [lookup_cons_of_ne (Ne.symm h), List.lookup_nil, Option.or_none]

theorem nodup_put (hdistinct : (all.map Prod.fst).Nodup) :
    ((put all entry).map Prod.fst).Nodup := by
  rw [put, List.map_append, List.map_singleton, List.nodup_append]
  refine ⟨hdistinct.sublist (List.filter_sublist.map Prod.fst), List.nodup_singleton _, ?_⟩
  intro n hn n' hn'
  obtain ⟨e, he, rfl⟩ := List.mem_map.mp hn
  obtain rfl := List.mem_singleton.mp hn'
  exact of_decide_eq_true (List.mem_filter.mp he).2

theorem put_of_notMem (h : entry.1 ∉ all.map Prod.fst) : put all entry = all ++ [entry] := by
  rw [put, List.filter_eq_self.mpr]
  intro e he
  rw [decide_eq_true_eq]
  exact fun heq => h (heq ▸ List.mem_map_of_mem he)

/-- After putting entries one by one, the last one of a name is there. -/
theorem lookup_foldl_put (es all : List (String × γ)) (name : String) :
    (es.foldl put all).lookup name = (valuesOf name es).getLast?.or (all.lookup name) := by
  induction es generalizing all with
  | nil => rfl
  | cons entry es ih =>
    rw [List.foldl_cons, ih, lookup_put, valuesOf_cons]
    split
    next =>
      rw [List.getLast?_cons]
      cases (valuesOf name es).getLast? <;> rfl
    next => rfl

theorem nodup_foldl_put (es : List (String × γ)) (hdistinct : (all.map Prod.fst).Nodup) :
    ((es.foldl put all).map Prod.fst).Nodup := by
  induction es generalizing all with
  | nil => exact hdistinct
  | cons entry es ih => exact ih (nodup_put hdistinct)

theorem foldl_put_of_nodup (h : ((all ++ es).map Prod.fst).Nodup) :
    es.foldl put all = all ++ es := by
  induction es generalizing all with
  | nil => rw [List.foldl_nil, List.append_nil]
  | cons entry es ih =>
    have hnot : entry.1 ∉ all.map Prod.fst := by
      rw [List.map_append, List.nodup_append] at h
      exact fun hmem => h.2.2 _ hmem _ (List.mem_map_of_mem List.mem_cons_self) rfl
    rw [List.append_cons] at h
    rw [List.foldl_cons, put_of_notMem hnot, ih h, ← List.append_cons]

end Put

/-! Reading maps -/

section Maps
variable {α : Type} {d : Decoder α} {m : Medium}

/-- The members of an object, each read under its name. -/
abbrev EntriesRead (d : Decoder α) (m : Medium) (es : List (String × Tree))
    (as : List (String × α)) : Prop :=
  List.Forall₂ (fun e a => e.1 = a.1 ∧ d m e.2 = .ok a.2) es as

theorem Members.readAll_eq_ok_iff {ms : Members} {as : List (String × α)} :
    ms.readAll d m = .ok as ↔ ∃ es, ms.entries? = some es ∧ EntriesRead d m es as := by
  match ms with
  | .close _ => simp [readAll, entries?, eq_comm]
  | .member lead key resume value rest =>
    simp only [readAll, bind_eq_ok_iff, Decode.string_eq_ok_iff, pure_eq_ok_iff,
      @readAll_eq_ok_iff rest, entries?_member_eq_some_iff]
    constructor
    · rintro ⟨name, hname, a, ha, as', ⟨es, hes, hall⟩, rfl⟩
      exact ⟨_, ⟨name, hname, es, hes, rfl⟩, .cons ⟨rfl, ha⟩ hall⟩
    · rintro ⟨_, ⟨name, hname, es, hes, rfl⟩, hall⟩
      obtain ⟨⟨key', a⟩, as', ⟨rfl, ha⟩, htail, rfl⟩ := List.forall₂_cons_left_iff.mp hall
      exact ⟨_, hname, a, ha, as', ⟨es, hes, htail⟩, rfl⟩
  | .fault .. => simp [readAll, entries?]

theorem Decode.map_eq_ok_iff {t : Tree} {as : List (String × α)} :
    Decode.map d m t = .ok as ↔ ∃ start ms, t = .object start ms ∧ m ≠ .text 0 ∧
      ∃ es all, ms.entries? = some es ∧ EntriesRead d m.inside es all ∧ all.foldl put [] = as := by
  cases t with
  | object start ms =>
    simp only [Decode.map, bind_eq_ok_iff, Medium.enter_eq_ok_iff, Members.readAll_eq_ok_iff,
      pure_eq_ok_iff]
    constructor
    · rintro ⟨_, ⟨hm, rfl⟩, all, ⟨es, hes, hall⟩, rfl⟩
      exact ⟨start, ms, rfl, hm, es, all, hes, hall, rfl⟩
    · rintro ⟨_, _, heq, hm, es, all, hes, hall, rfl⟩
      cases heq
      exact ⟨_, ⟨hm, rfl⟩, all, ⟨es, hes, hall⟩, rfl⟩
  | _ => simp [Decode.map]

theorem reads_map {toJson : α → Value} {as : List (String × α)}
    (hdistinct : (as.map Prod.fst).Nodup) (h : ∀ a ∈ as, Reads d (toJson a.2) a.2) :
    Reads (Decode.map d) (.object (as.map fun a => (a.1, toJson a.2))) as := by
  intro m t hroom ht
  obtain ⟨start, ms, rfl, hvs⟩ := Tree.value?_eq_object ht
  obtain ⟨hm, hinside⟩ := Medium.HasRoom.bracket hroom
  obtain ⟨es, hes, hspelled⟩ := Members.values?_eq_some hvs
  have hread : ∀ a ∈ as, ∀ e : String × Tree, e.1 = a.1 ∧ e.2.value? = some (toJson a.2) →
      e.1 = a.1 ∧ d m.inside e.2 = .ok a.2 := by
    intro a ha e ⟨hname, hvalue⟩
    refine ⟨hname, h a ha _ _ (hinside.mono ?_) hvalue⟩
    exact Value.membersDepth_le_iff.mp (Nat.le_refl _) (a.1, toJson a.2)
      (List.mem_map_of_mem (f := fun a => (a.1, toJson a.2)) ha)
  rw [Spelled, List.forall₂_map_right_iff] at hspelled
  have hall : EntriesRead d m.inside es as :=
    (((List.forall₂_and_left ..).mpr ⟨hread, hspelled.flip⟩).imp fun _ _ ⟨hd, he⟩ => hd _ he).flip
  have hput : as.foldl put [] = as := foldl_put_of_nodup hdistinct
  exact Decode.map_eq_ok_iff.mpr ⟨start, ms, rfl, hm, es, as, hes, hall, hput⟩

end Maps

/-! What has been read -/

theorem Members.values?_of_entries {ms : Members} {es : List (String × Tree)}
    {vs : List (String × Value)} (hes : ms.entries? = some es) (h : Spelled es vs) :
    ms.values? = some vs := by
  match ms with
  | .close _ =>
    obtain rfl : [] = es := Option.some.inj hes
    rw [List.forall₂_nil_left_iff.mp h]
    rfl
  | .member lead key resume value rest =>
    obtain ⟨name, hname, es', hes', rfl⟩ := entries?_member_eq_some_iff.mp hes
    obtain ⟨⟨key', v⟩, vs', ⟨rfl, hv⟩, htail, rfl⟩ := List.forall₂_cons_left_iff.mp h
    exact values?_member hname hv (values?_of_entries hes' htail)
  | .fault .. => simp [entries?] at hes

theorem EntriesRead.exists_spelled {α : Type} {d : Decoder α} {m : Medium}
    {ofValue? : Value → Option α} {es : List (String × Tree)} {as : List (String × α)}
    (hd : ∀ t a, d m t = .ok a → ∃ v, t.value? = some v ∧ ofValue? v = some a)
    (h : EntriesRead d m es as) : ∃ vs, Spelled es vs ∧
      vs.map (fun v => (v.1, ofValue? v.2)) = as.map fun a => (a.1, some a.2) := by
  induction h with
  | nil => exact ⟨[], .nil, rfl⟩
  | @cons e a es as hea _ ih =>
    obtain ⟨hname, hread⟩ := hea
    obtain ⟨v, hv, ha⟩ := hd e.2 a.2 hread
    obtain ⟨vs, hspelled, hvs⟩ := ih
    refine ⟨(e.1, v) :: vs, .cons ⟨rfl, hv⟩ hspelled, ?_⟩
    rw [List.map_cons, List.map_cons, hvs, ha, hname]

/-- The one member of an object that stands for a name has this name and no value. -/
theorem Decode.exists_of_singleEntry {α : Type} {names : List (String × α)} {room : Nat}
    {ms : Members} {a : α} (h : Decode.singleEntry names (.text room) ms = .ok a) :
    ∃ s, names.lookup s = some a ∧ ms.values? = some [(s, .null)] := by
  cases ms with
  | close stop => cases h
  | fault => cases h
  | member lead key resume value rest =>
    simp only [singleEntry, bind_eq_ok_iff] at h
    obtain ⟨b, htag, ⟨⟩, hnothing, hrest⟩ := h
    have hkey : ∃ s, names.lookup s = some b ∧ key.name? = some s := by
      fun_cases Decode.tag names (.text room) key <;> simp_all [named_eq_ok_iff, Tree.name?, tag]
    have hvalue : value.value? = some .null := by
      fun_cases Decode.nothing (.text room) value <;>
        simp_all [nothing, Tree.value?, Atom.value?]
    obtain ⟨s, hs, hname⟩ := hkey
    cases rest with
    | close stop =>
      obtain rfl : b = a := by simpa using hrest
      exact ⟨s, hs, Members.values?_member hname hvalue rfl⟩
    | member => simp at hrest
    | fault => simp at hrest

/-- A name from a table that is read off a text stands there as a string, or as an object with this
one name and no value. -/
theorem Decode.exists_of_choice_text {α : Type} {names : List (String × α)} {room : Nat} {t : Tree}
    {a : α} (h : Decode.choice names (.text room) t = .ok a) :
    ∃ s, names.lookup s = some a ∧
      (t.value? = some (.string s) ∨ t.value? = some (.object [(s, .null)])) := by
  cases t with
  | atom start stop value =>
    cases value with
    | string s => exact ⟨s, (named_eq_ok_iff names).mp h, .inl rfl⟩
    | _ => cases h
  | malformed start isWord reading skipping => cases isWord <;> cases h
  | array start items => cases h
  | object start ms =>
    simp only [choice, bind_eq_ok_iff, Medium.enter_eq_ok_iff] at h
    obtain ⟨_, ⟨-, rfl⟩, h⟩ := h
    obtain ⟨s, hs, hms⟩ := exists_of_singleEntry h
    refine ⟨s, hs, .inr ?_⟩
    rw [Tree.value?, hms]
    rfl

/-- What is read off a text under each name is the value of the last member of that name. -/
theorem Decode.exists_of_map_text {α : Type} {d : Decoder α} {ofValue? : Value → Option α}
    {room : Nat} {t : Tree} {as : List (String × α)} (h : Decode.map d (.text room) t = .ok as)
    (hd : ∀ room t a, d (.text room) t = .ok a → ∃ v, t.value? = some v ∧ ofValue? v = some a) :
    (as.map Prod.fst).Nodup ∧ ∃ vs, t.value? = some (.object vs) ∧
      (∀ v ∈ vs, ∃ a, ofValue? v.2 = some a) ∧
      ∀ name, as.lookup name = (valuesOf name vs).getLast?.bind ofValue? := by
  obtain ⟨start, ms, rfl, -, es, all, hes, hread, rfl⟩ := Decode.map_eq_ok_iff.mp h
  obtain ⟨vs, hspelled, hvalues⟩ := hread.exists_spelled (hd (room - 1))
  refine ⟨nodup_foldl_put all List.nodup_nil, vs, ?_, fun v hv => ?_, fun name => ?_⟩
  · rw [Tree.value?, Members.values?_of_entries hes hspelled]
    rfl
  · obtain ⟨a, -, hva⟩ := List.mem_map.mp (hvalues ▸ List.mem_map_of_mem hv)
    exact ⟨a.2, (congrArg Prod.snd hva).symm⟩
  · have hlast := congrArg (fun es => (valuesOf name es).getLast?) hvalues
    simp only [valuesOf_map, List.getLast?_map] at hlast
    rw [lookup_foldl_put, List.lookup_nil, Option.or_none]
    cases hall : (valuesOf name all).getLast? with
    | none =>
      rw [hall, Option.map_none, Option.map_eq_none_iff] at hlast
      rw [hlast, Option.bind_none]
    | some a =>
      rw [hall, Option.map_some, Option.map_eq_some_iff] at hlast
      obtain ⟨v, hv, ha⟩ := hlast
      rw [hv, Option.bind_some, ha]

end TemplateLint.Json
