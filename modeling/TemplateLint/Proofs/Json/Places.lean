import TemplateLint.Proofs.Json.Nesting

/-! Trees that are the same but for the places in their texts. Simple values, and values that are
only passed over or read whole, are taken from either of them alike. -/
namespace TemplateLint.Json

def Error.unplaced (e : Error) : Error := ⟨e.cause, none⟩

def Fault.unplaced (f : Fault) : Fault := ⟨f.reading.unplaced, f.skipping.unplaced⟩

mutual

/-- All places put at the start of the text, and errors without one. -/
def Tree.unplaced : Tree → Tree
  | .atom _ _ a => .atom 0 0 a
  | .malformed _ isWord reading skipping =>
    .malformed 0 isWord reading.unplaced (skipping.map Error.unplaced)
  | .array _ items => .array 0 items.unplaced
  | .object _ members => .object 0 members.unplaced

def Items.unplaced : Items → Items
  | .close _ => .close 0
  | .item _ value rest => .item 0 value.unplaced rest.unplaced
  | .fault _ fault => .fault 0 fault.unplaced

def Members.unplaced : Members → Members
  | .close _ => .close 0
  | .member _ key _ value rest => .member 0 key.unplaced 0 value.unplaced rest.unplaced
  | .fault _ found fault => .fault 0 found.unplaced fault.unplaced

end

/-- The same but for the places. -/
def Tree.Alike (t t' : Tree) : Prop := t.unplaced = t'.unplaced

mutual

theorem Tree.skipError?_unplaced (t : Tree) :
    t.unplaced.skipError? = none ↔ t.skipError? = none := by
  match t with
  | .atom .. => simp [Tree.unplaced, Tree.skipError?]
  | .malformed .. => simp [Tree.unplaced, Tree.skipError?]
  | .array _ items => exact Items.skipError?_unplaced items
  | .object _ members => exact Members.skipError?_unplaced members

theorem Items.skipError?_unplaced (items : Items) :
    items.unplaced.skipError? = none ↔ items.skipError? = none := by
  match items with
  | .close _ => simp [Items.unplaced, Items.skipError?]
  | .fault .. => simp [Items.unplaced, Items.skipError?]
  | .item _ value rest =>
    simp [Items.unplaced, Items.skipError?, Tree.skipError?_unplaced value,
      Items.skipError?_unplaced rest]

theorem Members.skipError?_unplaced (ms : Members) :
    ms.unplaced.skipError? = none ↔ ms.skipError? = none := by
  match ms with
  | .close _ => simp [Members.unplaced, Members.skipError?]
  | .fault .. => simp [Members.unplaced, Members.skipError?]
  | .member _ key _ value rest =>
    simp [Members.unplaced, Members.skipError?, Tree.skipError?_unplaced key,
      Tree.skipError?_unplaced value, Members.skipError?_unplaced rest]

end

mutual

theorem Tree.readError?_unplaced (t : Tree) (room : Nat) :
    t.unplaced.readError? room = none ↔ t.readError? room = none := by
  match t with
  | .atom .. => simp [Tree.unplaced, Tree.readError?]
  | .malformed .. => simp [Tree.unplaced, Tree.readError?]
  | .array _ items =>
    rw [Tree.unplaced, Tree.readError?_array_eq_none_iff, Tree.readError?_array_eq_none_iff,
      Items.readError?_unplaced items]
  | .object _ members =>
    rw [Tree.unplaced, Tree.readError?_object_eq_none_iff, Tree.readError?_object_eq_none_iff,
      Members.readError?_unplaced members]

theorem Items.readError?_unplaced (items : Items) (room : Nat) :
    items.unplaced.readError? room = none ↔ items.readError? room = none := by
  match items with
  | .close _ => simp [Items.unplaced, Items.readError?]
  | .fault .. => simp [Items.unplaced, Items.readError?]
  | .item _ value rest =>
    simp only [Items.unplaced, Items.readError?_item_eq_none_iff,
      Tree.readError?_unplaced value room, Items.readError?_unplaced rest room]

theorem Members.readError?_unplaced (ms : Members) (room : Nat) :
    ms.unplaced.readError? room = none ↔ ms.readError? room = none := by
  match ms with
  | .close _ => simp [Members.unplaced, Members.readError?]
  | .fault .. => simp [Members.unplaced, Members.readError?]
  | .member _ key _ value rest =>
    simp only [Members.unplaced, Members.readError?_member_eq_none_iff,
      Tree.readError?_unplaced key room, Tree.readError?_unplaced value room,
      Members.readError?_unplaced rest room]

end

theorem Tree.Alike.readError? {t t' : Tree} (h : t.Alike t') {room : Nat} :
    t.readError? room = none ↔ t'.readError? room = none := by
  rw [← t.readError?_unplaced, h, t'.readError?_unplaced]

theorem Tree.ignore_eq_ok_iff {m : Medium} {t : Tree} :
    t.ignore m = .ok () ↔ m = .buffer ∨ t.skipError? = none := by
  cases m with
  | text room => cases h : t.skipError? <;> simp [ignore, h]
  | buffer => simp [ignore]

theorem Tree.ignore_unplaced (t : Tree) {m : Medium} :
    t.unplaced.ignore m = .ok () ↔ t.ignore m = .ok () := by
  rw [ignore_eq_ok_iff, ignore_eq_ok_iff, t.skipError?_unplaced]

theorem Tree.Alike.ignore {t t' : Tree} (h : t.Alike t') {m : Medium} :
    t.ignore m = .ok () ↔ t'.ignore m = .ok () := by
  rw [← t.ignore_unplaced, h, t'.ignore_unplaced]

/-! Decoders of simple values -/

/-- The decoder reads the same whatever the places are. -/
def Placeless {α : Type} (d : Decoder α) : Prop :=
  ∀ m t a, d m t.unplaced = .ok a ↔ d m t = .ok a

theorem Placeless.congr {α : Type} {d : Decoder α} (hd : Placeless d) {m : Medium} {t t' : Tree}
    {a : α} (h : t.Alike t') : d m t = .ok a ↔ d m t' = .ok a := by
  rw [← hd m t, h, hd m t']

theorem placeless_string : Placeless Decode.string := by
  intro m t a
  cases t with
  | atom _ _ v => cases v <;> simp [Tree.unplaced, Decode.string]
  | _ => simp [Tree.unplaced, Decode.string]

theorem placeless_natural32 : Placeless Decode.natural32 := by
  intro m t a
  cases t with
  | atom _ _ v =>
    cases v with
    | number n =>
      cases n with
      | natural n => by_cases h : n < UInt32.size <;> simp [Tree.unplaced, Decode.natural32, h]
      | _ => simp [Tree.unplaced, Decode.natural32]
    | _ => simp [Tree.unplaced, Decode.natural32]
  | _ => simp [Tree.unplaced, Decode.natural32]

section Names
variable {α : Type} (names : List (String × α))

theorem named_eq_ok_iff {offset : Option Nat} {s : String} {a : α} :
    Decode.named names offset s = .ok a ↔ names.lookup s = some a := by
  cases h : names.lookup s <;> simp [Decode.named, h]

theorem placeless_tag : Placeless (Decode.tag names) := by
  intro m t a
  cases t with
  | atom _ _ v =>
    cases v with
    | string s => simp [Tree.unplaced, Decode.tag, named_eq_ok_iff]
    | number n =>
      cases n with
      | natural n => cases m <;> cases h : names[n]? <;> simp [Tree.unplaced, Decode.tag, h]
      | _ => simp [Tree.unplaced, Decode.tag]
    | _ => simp [Tree.unplaced, Decode.tag]
  | _ => simp [Tree.unplaced, Decode.tag]

theorem placeless_nothing : Placeless Decode.nothing := by
  intro m t a
  cases t with
  | atom _ _ v => cases v <;> simp [Tree.unplaced, Decode.nothing]
  | object _ ms => cases m <;> cases ms <;> simp [Tree.unplaced, Members.unplaced, Decode.nothing]
  | _ => simp [Tree.unplaced, Decode.nothing]

theorem singleEntry_unplaced {m : Medium} {ms : Members} {a : α} :
    Decode.singleEntry names m ms.unplaced = .ok a ↔ Decode.singleEntry names m ms = .ok a := by
  cases ms with
  | member lead key resume value rest =>
    have htag := placeless_tag names m key
    have hnothing := placeless_nothing m value
    cases rest <;>
      simp only [Members.unplaced, Decode.singleEntry, bind_eq_ok_iff, htag, hnothing,
        pure_eq_ok_iff, throw_ne_ok]
  | _ => simp [Members.unplaced, Decode.singleEntry]

theorem bufferedEntry_unplaced {m : Medium} {ms : Members} {a : α} :
    Decode.bufferedEntry names m ms.unplaced = .ok a ↔ Decode.bufferedEntry names m ms = .ok a := by
  cases ms with
  | member lead key resume value rest =>
    have htag := placeless_tag names m key
    have hnothing := placeless_nothing m value
    cases rest <;>
      simp only [Members.unplaced, Decode.bufferedEntry, bind_eq_ok_iff, htag, hnothing,
        pure_eq_ok_iff, reduceCtorEq]
  | _ => simp [Members.unplaced, Decode.bufferedEntry]

theorem placeless_choice : Placeless (Decode.choice names) := by
  intro m t a
  cases t with
  | atom _ _ v => cases m <;> cases v <;> simp [Tree.unplaced, Decode.choice, named_eq_ok_iff]
  | malformed _ isWord _ _ => cases m <;> cases isWord <;> simp [Tree.unplaced, Decode.choice]
  | array => cases m <;> simp [Tree.unplaced, Decode.choice]
  | object _ ms =>
    cases m with
    | text room =>
      simp [Tree.unplaced, Decode.choice, bind_eq_ok_iff, Medium.enter_eq_ok_iff,
        singleEntry_unplaced]
    | buffer => simp [Tree.unplaced, Decode.choice, bufferedEntry_unplaced]

end Names

/-! Lists and records -/

theorem Tree.name?_unplaced (t : Tree) : t.unplaced.name? = t.name? := by
  cases t with
  | atom _ _ v => cases v <;> rfl
  | _ => rfl

theorem Items.trees?_unplaced (items : Items) :
    items.unplaced.trees? = items.trees?.map (List.map Tree.unplaced) := by
  match items with
  | .close _ => rfl
  | .fault .. => rfl
  | .item _ value rest =>
    rw [unplaced, trees?, trees?, trees?_unplaced rest]
    cases rest.trees? <;> rfl

theorem Members.entries?_unplaced (ms : Members) :
    ms.unplaced.entries? = ms.entries?.map (List.map fun e => (e.1, e.2.unplaced)) := by
  match ms with
  | .close _ => rfl
  | .fault .. => rfl
  | .member _ key _ value rest =>
    rw [unplaced, entries?, entries?, key.name?_unplaced, entries?_unplaced rest]
    cases key.name? <;> cases rest.entries? <;> rfl

section Records
variable {α : Type}

theorem Placeless.slot {d : Decoder α} (hd : Placeless d) {m : Medium} {fallback read : Option α}
    {ts : List Tree} {a : α} :
    Fields.Slot (readsIn m) d fallback read (ts.map Tree.unplaced) a ↔
      Fields.Slot (readsIn m) d fallback read ts a := by
  cases ts with
  | nil => rfl
  | cons t ts => cases read <;> simp [readsIn, hd m t]

theorem placeless_optional {d : Decoder α} (hd : Placeless d) :
    Placeless (Decode.optional d) := by
  intro m t a
  by_cases h : ∃ start stop, t = .atom start stop .null
  · obtain ⟨start, stop, rfl⟩ := h
    rfl
  · have ht : ∀ start stop, t ≠ .atom start stop .null := fun start stop heq => h ⟨start, stop, heq⟩
    have ht' : ∀ start stop, t.unplaced ≠ .atom start stop .null := by
      intro start stop heq
      cases t with
      | atom start stop v =>
        cases heq
        exact ht start stop rfl
      | _ => cases heq
    rw [Decode.optional_eq_map ht, Decode.optional_eq_map ht', map_eq_ok_iff, map_eq_ok_iff]
    simp [hd m t]

theorem placeless_list {d : Decoder α} (hd : Placeless d) : Placeless (Decode.list d) := by
  intro m t as
  cases t with
  | array start items =>
    simp only [Tree.unplaced, Decode.list_array_eq_ok_iff, Items.trees?_unplaced,
      Option.map_eq_some_iff, exists_exists_and_eq_and, List.forall₂_map_left_iff,
      hd m.inside]
  | _ => simp [Tree.unplaced, Decode.list]

theorem Fields.Each.assembles_unplaced {fields : Fields α} {m : Medium}
    {found found' : Finder Tree} {a : α} (hunread : fields.Unread)
    (hd : fields.Each fun _ _ d _ => Placeless d)
    (h : ∀ i name, found' i name = (found i name).map Tree.unplaced) :
    fields.Assembles (readsIn m) found' a ↔ fields.Assembles (readsIn m) found a := by
  constructor <;> refine Fields.Assembles.imp hunread fun i name β d fallback hhas b hb => ?_
  · rw [h] at hb
    exact (hd.of_has hhas).slot.mp hb
  · rw [h]
    exact (hd.of_has hhas).slot.mpr hb

theorem byName_unplaced (es : List (String × Tree)) (i : Nat) (name : String) :
    byName (es.map fun e => (e.1, e.2.unplaced)) i name = (byName es i name).map Tree.unplaced :=
  valuesOf_map Tree.unplaced

theorem byPlace_unplaced (ts : List Tree) (i : Nat) (name : String) :
    byPlace (ts.map Tree.unplaced) i name = (byPlace ts i name).map Tree.unplaced := by
  cases h : ts[i]? <;> simp [byPlace, h]

theorem passesOthers_unplaced {names : List String} {m : Medium} {es : List (String × Tree)} :
    Fields.PassesOthers names m (es.map fun e => (e.1, e.2.unplaced)) ↔
      Fields.PassesOthers names m es := by
  simp only [Fields.PassesOthers, List.forall_mem_map, Tree.ignore_unplaced]

theorem takesOthers_unplaced {field : String} {m : Medium} {es : List (String × Tree)} :
    TakesOthers field m (es.map fun e => (e.1, e.2.unplaced)) ↔ TakesOthers field m es := by
  cases m with
  | buffer => exact iff_of_true (fun _ _ _ => rfl) fun _ _ _ => rfl
  | text room =>
    simp only [TakesOthers, List.forall_mem_map, Tree.takeIn_text_eq_ok_iff,
      Tree.readError?_unplaced]

theorem Items.takeIn_unplaced (items : Items) {m : Medium} :
    items.unplaced.takeIn m = .ok () ↔ items.takeIn m = .ok () := by
  cases m with
  | buffer => rfl
  | text room => rw [takeIn_text_eq_ok_iff, takeIn_text_eq_ok_iff, items.readError?_unplaced]

theorem placeless_record {record : String} {fields : Fields α} (hfresh : fields.Fresh)
    (hd : fields.Each fun _ _ d _ => Placeless d) : Placeless (Decode.record record fields) := by
  intro m t a
  cases t with
  | object start ms =>
    simp only [Tree.unplaced, Decode.record_object_eq_ok_iff hfresh.nodup,
      Members.entries?_unplaced, Option.map_eq_some_iff, exists_exists_and_eq_and,
      passesOthers_unplaced, hd.assembles_unplaced hfresh.unread (byName_unplaced _)]
  | array start items =>
    simp only [Tree.unplaced, Decode.record_array_eq_ok_iff hfresh.unread,
      Items.trees?_unplaced, Option.map_eq_some_iff, exists_exists_and_eq_and, List.length_map,
      hd.assembles_unplaced hfresh.unread (byPlace_unplaced _)]
  | _ => simp [Tree.unplaced, Decode.record]

end Records

end TemplateLint.Json
