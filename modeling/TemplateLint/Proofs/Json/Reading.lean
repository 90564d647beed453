import TemplateLint.Proofs.Json.Nesting

/-! What a decoder makes of a value, whatever tree spells it: simple values, lists and records are
read back wherever there is room for their brackets. -/
namespace TemplateLint.Json

/-- There is room for so many open brackets. -/
def Medium.HasRoom (n : Nat) : Medium → Prop
  | .text room => n ≤ room
  | .buffer => True

theorem Medium.HasRoom.mono {m : Medium} {n k : Nat} (h : m.HasRoom n) (hk : k ≤ n) :
    m.HasRoom k := by
  cases m with
  | text room => exact Nat.le_trans hk h
  | buffer => trivial

theorem Medium.HasRoom.takeIn {m : Medium} {t : Tree} {v : Value} (h : m.HasRoom v.depth)
    (ht : t.value? = some v) : t.takeIn m = .ok () := by
  cases m with
  | text room =>
    have hstops := Tree.stopsTooDeep room ht
    refine Tree.takeIn_text_eq_ok_iff.mpr ?_
    cases he : t.readError? room with
    | none => rfl
    | some e =>
      rw [he] at hstops
      exact absurd (Nat.lt_of_lt_of_le hstops.1 h) (Nat.lt_irrefl _)
  | buffer => rfl

theorem Medium.HasRoom.bracket {m : Medium} {n : Nat} (h : m.HasRoom (n + 1)) :
    m ≠ .text 0 ∧ m.inside.HasRoom n := by
  cases m with
  | text room =>
    have : n + 1 ≤ room := h
    refine ⟨by simp; omega, ?_⟩
    show n ≤ room - 1
    omega
  | buffer => exact ⟨nofun, trivial⟩

/-- The decoder reads the value so, wherever there is room for it. -/
def Reads {α : Type} (d : Decoder α) (v : Value) (a : α) : Prop :=
  ∀ (m : Medium) (t : Tree), m.HasRoom v.depth → t.value? = some v → d m t = .ok a

def reads : Reader Value := fun _ d v b => Reads d v b

section Trees
variable {t : Tree}

theorem Tree.value?_eq_string {s : String} (h : t.value? = some (.string s)) :
    ∃ start stop, t = .atom start stop (.string s) := by
  cases t with
  | atom start stop a =>
    rw [value?] at h
    fun_cases Atom.value? a <;> simp_all [Atom.value?]
  | malformed => cases h
  | array => simp [value?] at h
  | object => simp [value?] at h

theorem Tree.value?_eq_natural {n : Nat} (h : t.value? = some (.natural n)) :
    ∃ start stop, t = .atom start stop (.number (.natural n)) := by
  cases t with
  | atom start stop a =>
    rw [value?] at h
    fun_cases Atom.value? a <;> simp_all [Atom.value?]
  | malformed => cases h
  | array => simp [value?] at h
  | object => simp [value?] at h

theorem Tree.value?_eq_array {vs : List Value} (h : t.value? = some (.array vs)) :
    ∃ start items, t = .array start items ∧ items.values? = some vs := by
  cases t with
  | atom start stop a =>
    rw [value?] at h
    fun_cases Atom.value? a <;> simp_all [Atom.value?]
  | malformed => cases h
  | array start items => simpa [value?] using h
  | object => simp [value?] at h

theorem Tree.value?_eq_object {vs : List (String × Value)} (h : t.value? = some (.object vs)) :
    ∃ start ms, t = .object start ms ∧ ms.values? = some vs := by
  cases t with
  | atom start stop a =>
    rw [value?] at h
    fun_cases Atom.value? a <;> simp_all [Atom.value?]
  | malformed => cases h
  | array => simp [value?] at h
  | object start ms => simpa [value?] using h

end Trees

theorem reads_string (s : String) : Reads Decode.string (.string s) s := by
  intro m t _ ht
  obtain ⟨start, stop, rfl⟩ := Tree.value?_eq_string ht
  rfl

theorem reads_natural32 (n : UInt32) : Reads Decode.natural32 (.natural n.toNat) n := by
  intro m t _ ht
  obtain ⟨start, stop, rfl⟩ := Tree.value?_eq_natural ht
  simp [Decode.natural32, n.toNat_lt_size]

section Names
variable {α : Type} {names : List (String × α)} {s : String} {a : α}

theorem reads_choice (h : names.lookup s = some a) :
    Reads (Decode.choice names) (.string s) a := by
  intro m t _ ht
  obtain ⟨start, stop, rfl⟩ := Tree.value?_eq_string ht
  simp [Decode.choice, Decode.named, h]

theorem reads_tag (h : names.lookup s = some a) : Reads (Decode.tag names) (.string s) a := by
  intro m t _ ht
  obtain ⟨start, stop, rfl⟩ := Tree.value?_eq_string ht
  simp [Decode.tag, Decode.named, h]

end Names

section Containers
variable {α β : Type} {d : Decoder α}

theorem reads_optional {v : Value} {a : α} (h : Reads d v a) (hv : v ≠ .null) :
    Reads (Decode.optional d) v (some a) := by
  intro m t hroom ht
  have hnull : ∀ start stop, t ≠ .atom start stop .null := by
    rintro start stop rfl
    exact hv (Option.some.inj ht).symm
  rw [Decode.optional_eq_map hnull, h m t hroom ht]
  rfl

/-- A member that is left out for nothing is read as nothing. -/
theorem slot_optional {toJson : α → Value} (h : ∀ a, Reads d (toJson a) a)
    (hnull : ∀ a, toJson a ≠ .null) (a? : Option α) :
    Fields.Slot reads (Decode.optional d) (some none) none (a?.map toJson).toList a? := by
  cases a? with
  | none => rfl
  | some a => exact Fields.slot_unread_cons.mpr ⟨rfl, reads_optional (h a) (hnull a)⟩

theorem reads_list {toJson : α → Value} {as : List α} (h : ∀ a ∈ as, Reads d (toJson a) a) :
    Reads (Decode.list d) (.array (as.map toJson)) as := by
  intro m t hroom ht
  obtain ⟨start, items, rfl, hvs⟩ := Tree.value?_eq_array ht
  obtain ⟨hm, hinside⟩ := Medium.HasRoom.bracket hroom
  obtain ⟨ts, hts, hvalues⟩ := Items.values?_eq_some hvs
  refine Decode.list_array_eq_ok_iff.mpr ⟨hm, ts, hts, ?_⟩
  rw [List.forall₂_map_right_iff] at hvalues
  have hreads : ∀ a ∈ as, ∀ t : Tree, t.value? = some (toJson a) → d m.inside t = .ok a := by
    intro a ha t ht
    refine h a ha _ _ (hinside.mono ?_) ht
    exact Value.itemsDepth_le_iff.mp (Nat.le_refl _) _ (List.mem_map_of_mem ha)
  exact (((List.forall₂_and_left ..).mpr ⟨hreads, hvalues.flip⟩).imp
    fun _ _ ⟨hd, ht⟩ => hd _ ht).flip

theorem Spelled.valuesOf {es : List (String × Tree)} {vs : List (String × Value)}
    (h : Spelled es vs) (name : String) :
    List.Forall₂ (fun t v => t.value? = some v) (valuesOf name es) (valuesOf name vs) := by
  induction h with
  | nil => exact .nil
  | @cons e v es vs hev _ ih =>
    obtain ⟨hname, hvalue⟩ := hev
    by_cases h : v.1 = name
    · simpa [hname, h] using ⟨hvalue, ih⟩
    · simpa [hname, h] using ih

theorem Spelled.slot {es : List (String × Tree)} {vs : List (String × Value)} {m : Medium}
    {name : String} {fallback : Option α} {a : α} (h : Spelled es vs)
    (hroom : ∀ v ∈ vs, m.HasRoom v.2.depth)
    (ha : Fields.Slot reads d fallback none (Json.valuesOf name vs) a) :
    Fields.Slot (readsIn m) d fallback none (Json.valuesOf name es) a := by
  have hvalues := h.valuesOf name
  cases hfound : Json.valuesOf name vs with
  | nil =>
    rw [hfound] at ha hvalues
    rw [List.forall₂_nil_right_iff.mp hvalues]
    exact ha
  | cons v rest =>
    rw [hfound] at ha hvalues
    obtain ⟨rfl, hread⟩ := Fields.slot_unread_cons.mp ha
    obtain ⟨t, ts, ht, hts, heq⟩ := List.forall₂_cons_right_iff.mp hvalues
    rw [heq, List.forall₂_nil_right_iff.mp hts]
    have hmem : (name, v) ∈ vs := mem_valuesOf.mp (by simp [hfound])
    exact Fields.slot_unread_cons.mpr ⟨rfl, hread m t (hroom _ hmem) ht⟩

theorem Spelled.assembles {es : List (String × Tree)} {vs : List (String × Value)} {m : Medium}
    {fields : Fields α} {a : α} (h : Spelled es vs) (hunread : fields.Unread)
    (hroom : ∀ v ∈ vs, m.HasRoom v.2.depth) (ha : fields.Assembles reads (byName vs) a) :
    fields.Assembles (readsIn m) (byName es) a :=
  ha.imp hunread fun _ _ _ _ _ _ _ hb => h.slot hroom hb

theorem reads_record {record : String} {fields : Fields α} {vs : List (String × Value)} {a : α}
    (hfresh : fields.Fresh) (hnames : vs.map Prod.fst ⊆ fields.names)
    (ha : fields.Assembles reads (byName vs) a) :
    Reads (Decode.record record fields) (.object vs) a := by
  intro m t hroom ht
  obtain ⟨start, ms, rfl, hvs⟩ := Tree.value?_eq_object ht
  obtain ⟨hm, hinside⟩ := Medium.HasRoom.bracket hroom
  obtain ⟨es, hes, hspelled⟩ := Members.values?_eq_some hvs
  refine (Decode.record_object_eq_ok_iff hfresh.nodup).mpr ⟨hm, es, hes, ?_, ?_⟩
  · intro e he hother
    obtain ⟨v, hv, hname, -⟩ := exists_mem_of_forall₂ hspelled he
    exact absurd (hname ▸ hnames (List.mem_map_of_mem hv)) hother
  · refine Spelled.assembles hspelled hfresh.unread (fun v hv => hinside.mono ?_) ha
    exact Value.membersDepth_le_iff.mp (Nat.le_refl _) v hv

end Containers
end TemplateLint.Json
