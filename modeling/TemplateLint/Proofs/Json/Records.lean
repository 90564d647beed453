import TemplateLint.Proofs.Json.Content

/-! Records do not depend on the order of an object's members. A field table makes a record of the
values that were found for its fields, one for each at most; `Assembles` says which record that is,
and reading an object or an array comes to the same. -/
namespace TemplateLint.Json

/-- Which value a decoder makes of what was found. -/
abbrev Reader (γ : Type) := ∀ β : Type, Decoder β → γ → β → Prop

def readsIn (m : Medium) : Reader Tree := fun _ d t b => d m t = .ok b

/-- The values of the members of one name. -/
def valuesOf {γ : Type} (name : String) (es : List (String × γ)) : List γ :=
  es.filterMap fun e => if e.1 = name then some e.2 else none

/-- What is found for the field at a place of the table: in an object by its name, in an array by
the place. -/
abbrev Finder (γ : Type) := Nat → String → List γ

def byName {γ : Type} (es : List (String × γ)) : Finder γ := fun _ name => valuesOf name es

def byPlace {γ : Type} (ts : List γ) : Finder γ := fun i _ => ts[i]?.toList

section Values
variable {γ : Type} {name key : String} {es es' : List (String × γ)}

@[simp] theorem valuesOf_nil : valuesOf name ([] : List (String × γ)) = [] := rfl

@[simp] theorem valuesOf_cons (e : String × γ) :
    valuesOf name (e :: es) = if e.1 = name then e.2 :: valuesOf name es else valuesOf name es := by
  by_cases h : e.1 = name <;> simp [valuesOf, h]

@[simp] theorem valuesOf_append :
    valuesOf name (es ++ es') = valuesOf name es ++ valuesOf name es' :=
  List.filterMap_append

theorem valuesOf_map {δ : Type} (f : γ → δ) :
    valuesOf name (es.map fun e => (e.1, f e.2)) = (valuesOf name es).map f := by
  induction es with
  | nil => rfl
  | cons e es ih => by_cases h : e.1 = name <;> simp [h, ih]

theorem valuesOf_perm (h : es.Perm es') : (valuesOf name es).Perm (valuesOf name es') :=
  h.filterMap _

theorem valuesOf_eq_nil (h : ∀ e ∈ es, e.1 ≠ name) : valuesOf name es = [] := by
  simp only [valuesOf, List.filterMap_eq_nil_iff]
  intro e he
  simp [h e he]

theorem mem_valuesOf {x : γ} : x ∈ valuesOf name es ↔ (name, x) ∈ es := by
  simp only [valuesOf, List.mem_filterMap]
  constructor
  · rintro ⟨e, he, hx⟩
    split at hx
    next hname =>
      obtain rfl := Option.some.inj hx
      exact hname ▸ he
    next => cases hx
  · exact fun h => ⟨_, h, by simp⟩

end Values

theorem Decode.string_eq_ok_iff {m : Medium} {t : Tree} {s : String} :
    Decode.string m t = .ok s ↔ t.name? = some s := by
  fun_cases Decode.string m t <;> simp_all [Tree.name?]

theorem Items.finish_eq_ok_iff {m : Medium} {n : Nat} {items : Items} {u : Unit} :
    items.finish m n = .ok u ↔ items.trees? = some [] := by
  fun_cases Items.finish m n items <;> simp [Items.trees?]

namespace Fields
variable {γ : Type} {α β : Type}

def names {α : Type} : Fields α → List String
  | .done _ => []
  | .field before name _ _ _ => before.names ++ [name]

/-- No field has been read yet. -/
def Unread {α : Type} : Fields α → Prop
  | .done _ => True
  | .field before _ _ _ read => before.Unread ∧ read = none

/-- A table to read from: its names differ, and no field has been read. -/
structure Fresh {α : Type} (fields : Fields α) : Prop where
  unread : fields.Unread
  nodup : fields.names.Nodup

/-- The table has this field at place `i`. -/
inductive Has : {α β : Type} → Fields α → Nat → String → Decoder β → Option β → Prop
  | last {α β : Type} {before : Fields (β → α)} {name : String} {d : Decoder β}
      {fallback read : Option β} :
      Has (.field before name d fallback read) before.count name d fallback
  | before {α β β' : Type} {before : Fields (β' → α)} {name name' : String} {d : Decoder β}
      {d' : Decoder β'} {fallback : Option β} {fallback' read' : Option β'} {i : Nat}
      (h : Has before i name d fallback) :
      Has (.field before name' d' fallback' read') i name d fallback

/-- Every field of the table has the property. -/
def Each {α : Type} (P : ∀ {β : Type}, Nat → String → Decoder β → Option β → Prop) :
    Fields α → Prop
  | .done _ => True
  | .field before name d fallback _ => before.Each P ∧ P before.count name d fallback

theorem Each.of_has {P : ∀ {β : Type}, Nat → String → Decoder β → Option β → Prop}
    {fields : Fields α} {i : Nat} {name : String} {d : Decoder β} {fallback : Option β}
    (h : fields.Each P) (hhas : fields.Has i name d fallback) : P i name d fallback := by
  induction hhas with
  | last => exact h.2
  | before _ ih => exact ih h.1

/-- The value of a field: what was read before, or the one that is found, or the fallback. -/
def Slot (R : Reader γ) (d : Decoder β) (fallback read : Option β) (found : List γ) (b : β) :
    Prop :=
  match read, found with
  | some c, [] => c = b
  | none, [] => fallback = some b
  | none, [x] => R β d x b
  | _, _ => False

/-- The record whose fields have the values that were found for them. -/
def Assembles {α : Type} (R : Reader γ) (found : Finder γ) : Fields α → α → Prop
  | .done value, a => value = a
  | .field before name d fallback read, a =>
    ∃ f b, before.Assembles R found f ∧ Slot R d fallback read (found before.count name) b ∧ f b = a

section Slot
variable {R : Reader γ} {d : Decoder β} {fallback read : Option β} {x : γ} {xs : List γ} {b c : β}

@[simp] theorem slot_unread_cons : Slot R d fallback none (x :: xs) b ↔ xs = [] ∧ R β d x b := by
  cases xs <;> simp [Slot]

theorem slot_perm {ys : List γ} (h : xs.Perm ys) :
    Slot R d fallback none xs b ↔ Slot R d fallback none ys b := by
  cases xs with
  | nil => rw [h.nil_eq]
  | cons x xs =>
    cases ys with
    | nil => exact absurd h.symm.nil_eq (List.cons_ne_nil x xs).symm
    | cons y ys =>
      rw [slot_unread_cons, slot_unread_cons]
      constructor
      · rintro ⟨rfl, hx⟩
        obtain ⟨rfl, rfl⟩ := List.cons.inj (List.singleton_perm.mp h).symm
        exact ⟨rfl, hx⟩
      · rintro ⟨rfl, hy⟩
        obtain ⟨rfl, rfl⟩ := List.cons.inj (List.perm_singleton.mp h)
        exact ⟨rfl, hy⟩

theorem slot_unread_nil : Slot R d fallback none [] b ↔ fallback = some b := Iff.rfl

@[simp] theorem slot_read : Slot R d fallback (some c) xs b ↔ xs = [] ∧ c = b := by
  cases xs <;> simp [Slot]

end Slot

theorem Has.mem_names {fields : Fields α} {i : Nat} {name : String} {d : Decoder β}
    {fallback : Option β} (h : fields.Has i name d fallback) : name ∈ fields.names := by
  induction h with
  | last => simp [names]
  | before h ih => simp [names, ih]

theorem exists_has_of_mem_names {fields : Fields α} {name : String} (h : name ∈ fields.names) :
    ∃ (i : Nat) (β : Type) (d : Decoder β) (fallback : Option β), fields.Has i name d fallback := by
  induction fields with
  | done => simp [names] at h
  | field before name' d fallback read ih =>
    rcases List.mem_append.mp h with h | h
    · obtain ⟨i, β, d', fallback', hhas⟩ := ih h
      exact ⟨i, β, d', fallback', .before hhas⟩
    · obtain rfl := List.mem_singleton.mp h
      exact ⟨_, _, _, _, .last⟩

theorem exists_has_of_lt_count {fields : Fields α} {i : Nat} (h : i < fields.count) :
    ∃ (name : String) (β : Type) (d : Decoder β) (fallback : Option β),
      fields.Has i name d fallback := by
  induction fields with
  | done => cases h
  | field before name d fallback read ih =>
    rcases Nat.lt_succ_iff_lt_or_eq.mp h with h | rfl
    · obtain ⟨name', β, d', fallback', hhas⟩ := ih h
      exact ⟨name', β, d', fallback', .before hhas⟩
    · exact ⟨_, _, _, _, .last⟩

theorem Assembles.exists_slot {R : Reader γ} {found : Finder γ} {fields : Fields α} {a : α}
    {i : Nat} {name : String} {d : Decoder β} {fallback : Option β}
    (ha : fields.Assembles R found a) (hunread : fields.Unread)
    (h : fields.Has i name d fallback) : ∃ b, Slot R d fallback none (found i name) b := by
  induction h with
  | last =>
    obtain ⟨-, rfl⟩ := hunread
    obtain ⟨f, b, -, hb, rfl⟩ := ha
    exact ⟨b, hb⟩
  | before h ih =>
    obtain ⟨f, b, hf, -, -⟩ := ha
    exact ih hf hunread.1

theorem Assembles.exists_required {R : Reader γ} {found : Finder γ} {fields : Fields α} {a : α}
    {i : Nat} {name : String} {d : Decoder β} (ha : fields.Assembles R found a)
    (hunread : fields.Unread) (h : fields.Has i name d none) :
    ∃ x b, found i name = [x] ∧ R β d x b := by
  obtain ⟨b, hb⟩ := ha.exists_slot hunread h
  generalize found i name = xs at hb ⊢
  cases xs with
  | nil => cases hb
  | cons x xs =>
    obtain ⟨rfl, hx⟩ := slot_unread_cons.mp hb
    exact ⟨x, b, rfl, hx⟩

/-- Other values give the same record if each field is the same with them. -/
theorem Assembles.imp {γ' : Type} {R : Reader γ} {R' : Reader γ'} {found : Finder γ}
    {found' : Finder γ'} {fields : Fields α} {a : α} (hunread : fields.Unread)
    (h : ∀ (i : Nat) (name : String) (β : Type) (d : Decoder β) (fallback : Option β),
      fields.Has i name d fallback → ∀ b, Slot R d fallback none (found i name) b →
        Slot R' d fallback none (found' i name) b)
    (ha : fields.Assembles R found a) : fields.Assembles R' found' a := by
  induction fields with
  | done => exact ha
  | field before name d fallback read ih =>
    obtain ⟨hbefore, rfl⟩ := hunread
    obtain ⟨f, b, hf, hb, rfl⟩ := ha
    exact ⟨f, b, ih hbefore (fun i name β d fb hhas => h i name β d fb (.before hhas)) hf,
      h _ _ _ _ _ .last b hb, rfl⟩

/-- The table is looked at only at its own names and places. -/
theorem assembles_congr {R : Reader γ} {found found' : Finder γ} {fields : Fields α} {a : α}
    (h : ∀ i < fields.count, ∀ name ∈ fields.names, found i name = found' i name) :
    fields.Assembles R found a ↔ fields.Assembles R found' a := by
  induction fields with
  | done => rfl
  | field before name d fallback read ih =>
    have hlast := h before.count (Nat.lt_succ_self _) name (by simp [names])
    have hrest : ∀ i < before.count, ∀ name ∈ before.names, found i name = found' i name :=
      fun i hi name hname => h i (Nat.lt_succ_of_lt hi) name (by simp [names, hname])
    simp only [Assembles, hlast, ih hrest]

/-- A member that is no field is not looked at. -/
theorem assembles_byName_cons {R : Reader γ} {key : String} {x : γ} {es : List (String × γ)}
    {fields : Fields α} {a : α} (hkey : key ∉ fields.names) :
    fields.Assembles R (byName ((key, x) :: es)) a ↔ fields.Assembles R (byName es) a := by
  refine assembles_congr fun i _ name hname => ?_
  have : key ≠ name := fun h => hkey (h ▸ hname)
  simp [byName, this]

theorem assembles_perm {R : Reader γ} {es es' : List (String × γ)} {fields : Fields α} {a : α}
    (hunread : fields.Unread) (h : es.Perm es') :
    fields.Assembles R (byName es) a ↔ fields.Assembles R (byName es') a :=
  ⟨Assembles.imp hunread fun _ _ _ _ _ _ _ => (slot_perm (valuesOf_perm h)).mp,
    Assembles.imp hunread fun _ _ _ _ _ _ _ => (slot_perm (valuesOf_perm h)).mpr⟩

/-! Objects -/

theorem finish_eq_ok_iff (R : Reader γ) (offset : Option Nat) {fields : Fields α} {a : α} :
    fields.finish offset = .ok a ↔ fields.Assembles R (byName []) a := by
  induction fields with
  | done value => simp [finish, Assembles]
  | field before name d fallback read ih =>
    simp only [finish, bind_eq_ok_iff, ih, Assembles]
    have hnone : byName ([] : List (String × γ)) before.count name = [] := rfl
    rw [hnone]
    cases read <;> cases fallback <;> simp [Slot]

/-- Reading one more member. The names of the table must differ: otherwise the member would be
found for two fields. -/
theorem accept_spec (m : Medium) (key : String) (twice : Option Nat) (value : Tree)
    {fields : Fields α} (hnodup : fields.names.Nodup) :
    match fields.accept m key twice value with
    | none => key ∉ fields.names
    | some (.error _) => key ∈ fields.names ∧
        ∀ es a, ¬ fields.Assembles (readsIn m) (byName ((key, value) :: es)) a
    | some (.ok fields') => key ∈ fields.names ∧ fields'.names = fields.names ∧
        ∀ es a, fields'.Assembles (readsIn m) (byName es) a ↔
          fields.Assembles (readsIn m) (byName ((key, value) :: es)) a := by
  induction fields with
  | done => simp [accept, names]
  | field before name d fallback read ih =>
    obtain ⟨hbefore, -, hdisjoint⟩ := List.nodup_append.mp hnodup
    have hname : name ∉ before.names := fun h => hdisjoint _ h _ List.mem_cons_self rfl
    by_cases h : name = key
    · subst h
      cases read with
      | some c => simp [accept, names, Assembles, byName]
      | none =>
        cases hd : d m value with
        | error e => simp [accept, names, Assembles, byName, hd, readsIn]
        | ok b =>
          have hskip (es : List (String × Tree)) f :
              before.Assembles (readsIn m) (byName ((name, value) :: es)) f ↔
                before.Assembles (readsIn m) (byName es) f := assembles_byName_cons hname
          simp [accept, names, Assembles, hskip, byName, hd, readsIn]
    · specialize ih hbefore
      simp only [accept, h, if_false]
      cases haccept : before.accept m key twice value with
      | none =>
        simp only [haccept] at ih
        simp [names, ih, Ne.symm h]
      | some result =>
        simp only [haccept] at ih
        cases result with
        | error e =>
          obtain ⟨hmem, hnot⟩ := ih
          simp [names, hmem, Assembles, hnot]
        | ok before' =>
          obtain ⟨hmem, hnames, hiff⟩ := ih
          simp [names, hmem, hnames, Assembles, hiff, byName, Ne.symm h]

/-- The members with other names can be passed over. -/
def PassesOthers (names : List String) (m : Medium) (es : List (String × Tree)) : Prop :=
  ∀ e ∈ es, e.1 ∉ names → e.2.ignore m = .ok ()

theorem passesOthers_cons {names : List String} {m : Medium} {e : String × Tree}
    {es : List (String × Tree)} :
    PassesOthers names m (e :: es) ↔
      (e.1 ∉ names → e.2.ignore m = .ok ()) ∧ PassesOthers names m es :=
  List.forall_mem_cons

theorem ofMembers_eq_ok_iff {m : Medium} {ms : Members} {fields : Fields α} {a : α}
    (hnodup : fields.names.Nodup) :
    fields.ofMembers m ms = .ok a ↔
      ∃ es, ms.entries? = some es ∧ PassesOthers fields.names m es ∧
        fields.Assembles (readsIn m) (byName es) a := by
  match ms with
  | .close stop =>
    simp [ofMembers, Members.entries?, PassesOthers, finish_eq_ok_iff (readsIn m)]
  | .fault .. => simp [ofMembers, Members.entries?]
  | .member lead key resume value rest =>
    cases hkey : Decode.string m key with
    | error e =>
      have : key.name? = none := Option.eq_none_iff_forall_ne_some.mpr fun name hname => by
        simp [Decode.string_eq_ok_iff.mpr hname] at hkey
      simp [ofMembers, hkey, this]
    | ok name =>
      have hname := Decode.string_eq_ok_iff.mp hkey
      have haccept := accept_spec m name (m.at resume) value hnodup
      cases h : fields.accept m name (m.at resume) value with
      | none =>
        simp only [h] at haccept
        cases hignore : value.ignore m with
        | error e => simp [ofMembers, hkey, h, hignore, hname, haccept, passesOthers_cons]
        | ok u =>
          simp [ofMembers, hkey, h, hignore, hname, haccept, assembles_byName_cons haccept,
            passesOthers_cons, @ofMembers_eq_ok_iff m rest fields a hnodup]
      | some result =>
        cases result with
        | error e =>
          simp only [h] at haccept
          simp [ofMembers, hkey, h, hname, haccept]
        | ok fields' =>
          simp only [h] at haccept
          obtain ⟨hmem, hnames, hiff⟩ := haccept
          simp [ofMembers, hkey, h, hname, hmem, hnames, hiff, passesOthers_cons,
            @ofMembers_eq_ok_iff m rest fields' a (hnames ▸ hnodup)]

/-! Arrays -/

theorem ofItems_field_eq_ok_iff {m : Medium} {record : String} {total : Nat} {items : Items}
    {before : Fields (β → α)} {name : String} {d : Decoder β} {fallback : Option β} {a : α}
    {ts : List Tree} :
    (∃ rest, ofItems m record total items (.field before name d fallback none) = .ok (a, rest) ∧
        rest.trees? = some ts) ↔
      ∃ us f b, (∃ rest, before.ofItems m record total items = .ok (f, rest) ∧
        rest.trees? = some us) ∧ us.drop 1 = ts ∧
        Slot (readsIn m) d fallback none us[0]?.toList b ∧ f b = a := by
  simp only [ofItems, bind_eq_ok_iff, Prod.exists]
  constructor
  · rintro ⟨rest, ⟨f, items', hf, h⟩, hrest⟩
    cases items' with
    | item start value rest' =>
      cases hd : d m value <;> simp [hd] at h
      obtain ⟨rfl, rfl⟩ := h
      exact ⟨value :: ts, f, _, ⟨_, hf, by simp [hrest]⟩, rfl, by simp [readsIn, hd], rfl⟩
    | close stop =>
      cases fallback <;> simp at h
      obtain ⟨rfl, rfl⟩ := h
      exact ⟨[], f, _, ⟨_, hf, rfl⟩, Option.some.inj hrest, by simp [Slot], rfl⟩
    | fault resume e => simp at h
  · rintro ⟨us, f, b, ⟨items', hf, hus⟩, rfl, hslot, rfl⟩
    cases items' with
    | item start value rest' =>
      simp only [Items.trees?_item_eq_some_iff] at hus
      obtain ⟨ts, hts, rfl⟩ := hus
      have hd : d m value = .ok b := by simpa [readsIn] using hslot
      exact ⟨rest', ⟨f, _, hf, by simp [hd]⟩, hts⟩
    | close stop =>
      obtain rfl : [] = us := Option.some.inj hus
      have hfallback : fallback = some b := by simpa [Slot] using hslot
      exact ⟨.close stop, ⟨f, _, hf, by simp [hfallback]⟩, rfl⟩
    | fault resume e => simp [Items.trees?] at hus

theorem ofItems_eq_ok_iff {m : Medium} {record : String} {total : Nat} {items : Items}
    {fields : Fields α} {a : α} {us : List Tree} (hunread : fields.Unread) :
    (∃ rest, fields.ofItems m record total items = .ok (a, rest) ∧ rest.trees? = some us) ↔
      ∃ ts, items.trees? = some ts ∧ ts.drop fields.count = us ∧
        fields.Assembles (readsIn m) (byPlace ts) a := by
  induction fields generalizing us with
  | done value =>
    constructor
    · rintro ⟨rest, h, hrest⟩
      cases h
      exact ⟨us, hrest, rfl, rfl⟩
    · rintro ⟨ts, hts, rfl, rfl⟩
      exact ⟨items, rfl, hts⟩
  | field before name d fallback read ih =>
    obtain ⟨hbefore, rfl⟩ := hunread
    rw [ofItems_field_eq_ok_iff]
    simp only [ih hbefore, Assembles, byPlace, count]
    constructor
    · rintro ⟨_, f, b, ⟨ts, hts, rfl, hf⟩, hdrop, hslot, rfl⟩
      rw [List.drop_drop] at hdrop
      exact ⟨ts, hts, hdrop, f, b, hf, by simpa using hslot, rfl⟩
    · rintro ⟨ts, hts, hdrop, f, b, hf, hslot, rfl⟩
      refine ⟨_, f, b, ⟨ts, hts, rfl, hf⟩, ?_, by simpa using hslot, rfl⟩
      rw [List.drop_drop, hdrop]

theorem ofBody_items_eq_ok_iff {m : Medium} {record : String} {items : Items}
    {fields : Fields α} {a : α} (hunread : fields.Unread) :
    fields.ofBody record m (.items items) = .ok a ↔
      ∃ ts, items.trees? = some ts ∧ ts.length ≤ fields.count ∧
        fields.Assembles (readsIn m) (byPlace ts) a := by
  have h : (∃ rest, fields.ofItems m record fields.count items = .ok (a, rest) ∧
      rest.trees? = some []) ↔ _ := ofItems_eq_ok_iff hunread
  simp only [List.drop_eq_nil_iff] at h
  rw [← h]
  simp only [ofBody, bind_eq_ok_iff, pure_eq_ok_iff, Prod.exists, Items.finish_eq_ok_iff,
    exists_const]
  constructor
  · rintro ⟨b, rest, hok, hrest, rfl⟩
    exact ⟨rest, hok, hrest⟩
  · rintro ⟨rest, hok, hrest⟩
    exact ⟨a, rest, hok, hrest, rfl⟩

end Fields

/-! Brackets -/

/-- Where the inside of a bracket is read from. -/
def Medium.inside : Medium → Medium
  | .text room => .text (room - 1)
  | .buffer => .buffer

theorem Medium.enter_eq_ok_iff {m m' : Medium} {start : Nat} :
    m.enter start = .ok m' ↔ m ≠ .text 0 ∧ m.inside = m' := by
  fun_cases Medium.enter m start <;> simp [Medium.inside]

variable {α : Type} {m : Medium} {record : String} {fields : Fields α} {start : Nat} {a : α}

theorem Decode.record_object_eq_ok_iff {ms : Members} (hnodup : fields.names.Nodup) :
    Decode.record record fields m (.object start ms) = .ok a ↔
      m ≠ .text 0 ∧ ∃ es, ms.entries? = some es ∧
        Fields.PassesOthers fields.names m.inside es ∧
        fields.Assembles (readsIn m.inside) (byName es) a := by
  simp [Decode.record, bind_eq_ok_iff, Medium.enter_eq_ok_iff, Fields.ofBody,
    Fields.ofMembers_eq_ok_iff hnodup, and_assoc]

theorem Decode.record_array_eq_ok_iff {items : Items} (hunread : fields.Unread) :
    Decode.record record fields m (.array start items) = .ok a ↔
      m ≠ .text 0 ∧ ∃ ts, items.trees? = some ts ∧ ts.length ≤ fields.count ∧
        fields.Assembles (readsIn m.inside) (byPlace ts) a := by
  simp [Decode.record, bind_eq_ok_iff, Medium.enter_eq_ok_iff,
    Fields.ofBody_items_eq_ok_iff hunread, and_assoc]

end TemplateLint.Json
