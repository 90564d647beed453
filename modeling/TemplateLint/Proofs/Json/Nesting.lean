import TemplateLint.Proofs.Json.Kinds

/-! How deep the brackets of a tree are nested. A value with room for its brackets is read whole, a
value without stops its reader for that reason alone; and a record is nested deeper than what its
fields are read from. -/
namespace TemplateLint.Json

mutual

def Tree.depth : Tree → Nat
  | .array _ items => items.depth + 1
  | .object _ members => members.depth + 1
  | _ => 0

def Items.depth : Items → Nat
  | .item _ value rest => max value.depth rest.depth
  | _ => 0

def Members.depth : Members → Nat
  | .member _ _ _ value rest => max value.depth rest.depth
  | _ => 0

end

theorem Items.depth_le_iff {items : Items} {ts : List Tree} {n : Nat}
    (h : items.trees? = some ts) : items.depth ≤ n ↔ ∀ t ∈ ts, t.depth ≤ n := by
  match items with
  | .close _ =>
    obtain rfl : [] = ts := Option.some.inj h
    simp [depth]
  | .item start value rest =>
    obtain ⟨us, hus, rfl⟩ := trees?_item_eq_some_iff.mp h
    rw [depth, Nat.max_le, depth_le_iff hus, List.forall_mem_cons]
  | .fault .. => simp [trees?] at h

theorem Members.depth_le_iff {ms : Members} {es : List (String × Tree)} {n : Nat}
    (h : ms.entries? = some es) : ms.depth ≤ n ↔ ∀ e ∈ es, e.2.depth ≤ n := by
  match ms with
  | .close _ =>
    obtain rfl : [] = es := Option.some.inj h
    simp [depth]
  | .member lead key resume value rest =>
    obtain ⟨name, hname, es', hes, rfl⟩ := entries?_member_eq_some_iff.mp h
    rw [depth, Nat.max_le, depth_le_iff hes, List.forall_mem_cons]
  | .fault .. => simp [entries?] at h

theorem Tree.readError?_array_eq_none_iff {start room : Nat} {items : Items} :
    (Tree.array start items).readError? room = none ↔
      room ≠ 0 ∧ items.readError? (room - 1) = none := by
  by_cases h : room = 0 <;> simp [readError?, h]

theorem Tree.readError?_object_eq_none_iff {start room : Nat} {ms : Members} :
    (Tree.object start ms).readError? room = none ↔
      room ≠ 0 ∧ ms.readError? (room - 1) = none := by
  by_cases h : room = 0 <;> simp [readError?, h]

theorem Items.readError?_item_eq_none_iff {start room : Nat} {value : Tree} {rest : Items} :
    (Items.item start value rest).readError? room = none ↔
      value.readError? room = none ∧ rest.readError? room = none := by
  simp [readError?]

theorem Members.readError?_member_eq_none_iff {lead resume room : Nat} {key value : Tree}
    {rest : Members} :
    (Members.member lead key resume value rest).readError? room = none ↔
      key.readError? room = none ∧ value.readError? room = none ∧ rest.readError? room = none := by
  simp [readError?]

mutual

theorem Tree.depth_le_of_readError? {t : Tree} {room : Nat} (h : t.readError? room = none) :
    t.depth ≤ room := by
  match t with
  | .atom .. => simp [Tree.depth]
  | .malformed .. => simp [Tree.depth]
  | .array start items =>
    obtain ⟨hroom, hitems⟩ := Tree.readError?_array_eq_none_iff.mp h
    have := Items.depth_le_of_readError? hitems
    rw [Tree.depth]
    omega
  | .object start members =>
    obtain ⟨hroom, hmembers⟩ := Tree.readError?_object_eq_none_iff.mp h
    have := Members.depth_le_of_readError? hmembers
    rw [Tree.depth]
    omega

theorem Items.depth_le_of_readError? {items : Items} {room : Nat}
    (h : items.readError? room = none) : items.depth ≤ room := by
  match items with
  | .close _ => simp [Items.depth]
  | .fault .. => simp [Items.depth]
  | .item start value rest =>
    obtain ⟨hvalue, hrest⟩ := Items.readError?_item_eq_none_iff.mp h
    exact Nat.max_le.mpr
      ⟨Tree.depth_le_of_readError? hvalue, Items.depth_le_of_readError? hrest⟩

theorem Members.depth_le_of_readError? {ms : Members} {room : Nat}
    (h : ms.readError? room = none) : ms.depth ≤ room := by
  match ms with
  | .close _ => simp [Members.depth]
  | .fault .. => simp [Members.depth]
  | .member lead key resume value rest =>
    obtain ⟨-, hvalue, hrest⟩ := Members.readError?_member_eq_none_iff.mp h
    exact Nat.max_le.mpr
      ⟨Tree.depth_le_of_readError? hvalue, Members.depth_le_of_readError? hrest⟩

end

theorem Atom.depth_of_value? {a : Atom} {v : Value} (h : a.value? = some v) : v.depth = 0 := by
  fun_cases Atom.value? a <;> simp_all [value?]
  all_goals simp [← h, Value.depth]

theorem Tree.readError?_of_name? {t : Tree} {name : String} {room : Nat}
    (h : t.name? = some name) : t.readError? room = none := by
  fun_cases Tree.name? t <;> simp_all [name?, readError?]

/-- What stops a reader with little room in brackets nested so deep: nothing, or just that. -/
def StopsTooDeep (room depth : Nat) : Option Error → Prop
  | none => depth ≤ room
  | some e => room < depth ∧ e.cause = .tooDeep

theorem StopsTooDeep.orElse {room n n' : Nat} {e? e?' : Option Error} (h : StopsTooDeep room n e?)
    (h' : StopsTooDeep room n' e?') : StopsTooDeep room (max n n') (e? <|> e?') := by
  cases e? with
  | some e => exact ⟨Nat.lt_of_lt_of_le h.1 (Nat.le_max_left ..), h.2⟩
  | none =>
    cases e?' with
    | some e => exact ⟨Nat.lt_of_lt_of_le h'.1 (Nat.le_max_right ..), h'.2⟩
    | none => exact Nat.max_le.mpr ⟨h, h'⟩

theorem StopsTooDeep.bracket {room n start : Nat} {e? : Option Error}
    (h : StopsTooDeep (room - 1) n e?) :
    StopsTooDeep room (n + 1) (if room = 0 then some (.at .tooDeep start) else e?) := by
  by_cases hroom : room = 0
  · simp [hroom, StopsTooDeep, Error.at]
  · cases e? <;> simp_all [StopsTooDeep] <;> omega

mutual

theorem Tree.stopsTooDeep {t : Tree} {v : Value} (room : Nat) (h : t.value? = some v) :
    StopsTooDeep room v.depth (t.readError? room) := by
  match t with
  | .atom _ _ a =>
    rw [Tree.readError?, StopsTooDeep, Atom.depth_of_value? h]
    exact Nat.zero_le room
  | .malformed .. => simp [Tree.value?] at h
  | .array start items =>
    simp only [Tree.value?, Option.map_eq_some_iff] at h
    obtain ⟨vs, hvs, rfl⟩ := h
    exact (Items.stopsTooDeep _ hvs).bracket
  | .object start members =>
    simp only [Tree.value?, Option.map_eq_some_iff] at h
    obtain ⟨vs, hvs, rfl⟩ := h
    exact (Members.stopsTooDeep _ hvs).bracket

theorem Items.stopsTooDeep {items : Items} {vs : List Value} (room : Nat)
    (h : items.values? = some vs) :
    StopsTooDeep room (Value.itemsDepth vs) (items.readError? room) := by
  match items with
  | .close _ =>
    obtain rfl : [] = vs := Option.some.inj h
    simp [Items.readError?, StopsTooDeep, Value.itemsDepth]
  | .fault .. => simp [Items.values?] at h
  | .item start value rest =>
    simp only [Items.values?, bind, Option.bind_eq_some_iff, pure, Option.some.injEq] at h
    obtain ⟨v, hv, vs', hvs, rfl⟩ := h
    exact (Tree.stopsTooDeep _ hv).orElse (Items.stopsTooDeep _ hvs)

theorem Members.stopsTooDeep {ms : Members} {vs : List (String × Value)} (room : Nat)
    (h : ms.values? = some vs) :
    StopsTooDeep room (Value.membersDepth vs) (ms.readError? room) := by
  match ms with
  | .close _ =>
    obtain rfl : [] = vs := Option.some.inj h
    simp [Members.readError?, StopsTooDeep, Value.membersDepth]
  | .fault .. => simp [Members.values?] at h
  | .member lead key resume value rest =>
    simp only [Members.values?, bind, Option.bind_eq_some_iff, pure, Option.some.injEq] at h
    obtain ⟨name, hname, v, hv, vs', hvs, rfl⟩ := h
    rw [Members.readError?, Tree.readError?_of_name? hname]
    exact (Tree.stopsTooDeep _ hv).orElse (Members.stopsTooDeep _ hvs)

end

theorem Tree.takeIn_text_eq_ok_iff {t : Tree} {room : Nat} :
    t.takeIn (.text room) = .ok () ↔ t.readError? room = none := by
  cases h : t.readError? room <;> simp [takeIn, h]

theorem Items.takeIn_text_eq_ok_iff {items : Items} {room : Nat} :
    items.takeIn (.text room) = .ok () ↔ items.readError? room = none := by
  cases h : items.readError? room <;> simp [takeIn, h]

theorem Items.readError?_eq_none_iff {items : Items} {ts : List Tree} {room : Nat}
    (h : items.trees? = some ts) :
    items.readError? room = none ↔ ∀ t ∈ ts, t.readError? room = none := by
  match items with
  | .close _ =>
    obtain rfl : [] = ts := Option.some.inj h
    simp [readError?]
  | .item start value rest =>
    obtain ⟨us, hus, rfl⟩ := trees?_item_eq_some_iff.mp h
    rw [readError?_item_eq_none_iff, readError?_eq_none_iff hus, List.forall_mem_cons]
  | .fault .. => simp [trees?] at h

theorem Members.readError?_eq_none_iff {ms : Members} {es : List (String × Tree)} {room : Nat}
    (h : ms.entries? = some es) :
    ms.readError? room = none ↔ ∀ e ∈ es, e.2.readError? room = none := by
  match ms with
  | .close _ =>
    obtain rfl : [] = es := Option.some.inj h
    simp [readError?]
  | .member lead key resume value rest =>
    obtain ⟨name, hname, es', hes, rfl⟩ := entries?_member_eq_some_iff.mp h
    simp [readError?_member_eq_none_iff, Tree.readError?_of_name? hname,
      readError?_eq_none_iff hes]
  | .fault .. => simp [entries?] at h

theorem Decode.depth_of_tag {α : Type} {names : List (String × α)} {m : Medium} {t : Tree} {a : α}
    (h : Decode.tag names m t = .ok a) : t.depth = 0 := by
  cases t with
  | atom => rfl
  | malformed => rfl
  | array => cases h
  | object => cases h

/-! Records -/

/-- The values that are found have fewer brackets than `n`. -/
def Finder.Below (n : Nat) (found : Finder Tree) : Prop :=
  ∀ i name, ∀ t ∈ found i name, t.depth < n

theorem byName_below {ms : Members} {es : List (String × Tree)} (h : ms.entries? = some es) :
    (byName es).Below (ms.depth + 1) := by
  intro i name t ht
  have := (ms.depth_le_iff h).mp (Nat.le_refl _) _ (mem_valuesOf.mp ht)
  exact Nat.lt_succ_of_le this

theorem byPlace_below {items : Items} {ts : List Tree} (h : items.trees? = some ts) :
    (byPlace ts).Below (items.depth + 1) := by
  intro i name t ht
  simp only [byPlace, Option.mem_toList] at ht
  have := (items.depth_le_iff h).mp (Nat.le_refl _) _ (List.mem_of_getElem? ht)
  exact Nat.lt_succ_of_le this

section Records
variable {α β : Type} {fields : Fields α} {m : Medium} {record : String} {t : Tree} {a : α}

theorem Decode.record_below (hfresh : fields.Fresh) (h : Decode.record record fields m t = .ok a) :
    ∃ found : Finder Tree, found.Below t.depth ∧ fields.Assembles (readsIn m.inside) found a := by
  cases t with
  | atom => cases h
  | malformed => simp [Decode.record] at h
  | array start items =>
    obtain ⟨-, ts, hts, -, ha⟩ := (record_array_eq_ok_iff hfresh.unread).mp h
    exact ⟨_, byPlace_below hts, ha⟩
  | object start ms =>
    obtain ⟨-, es, hes, -, ha⟩ := (record_object_eq_ok_iff hfresh.nodup).mp h
    exact ⟨_, byName_below hes, ha⟩

/-- Whatever the decoder reads has brackets nested this deep. -/
def Nests (n : Nat) (d : Decoder α) : Prop := ∀ m t a, d m t = .ok a → n ≤ t.depth

theorem nests_zero (d : Decoder α) : Nests 0 d := fun _ _ _ _ => Nat.zero_le _

/-- One bracket more than a field that has to be there. -/
theorem nests_record {n i : Nat} {name : String} {d : Decoder β} (hfresh : fields.Fresh)
    (hhas : fields.Has i name d none) (hd : Nests n d) :
    Nests (n + 1) (Decode.record record fields) := by
  intro m t a h
  obtain ⟨found, hbelow, ha⟩ := Decode.record_below hfresh h
  obtain ⟨x, b, hx, hb⟩ := ha.exists_required hfresh.unread hhas
  exact Nat.lt_of_le_of_lt (hd _ _ _ hb) (hbelow i name x (by simp [hx]))

end Records

end TemplateLint.Json
