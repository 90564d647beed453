import TemplateLint.Proofs.Json.Records

/-! Lists, optional values, and records of several kinds: what each of them is read from. The tag of
a record is found like a field that every kind has. -/
namespace TemplateLint.Json

section Lists
variable {α : Type} {d : Decoder α} {m : Medium}

theorem Items.readAll_eq_ok_iff {items : Items} {as : List α} :
    items.readAll d m = .ok as ↔
      ∃ ts, items.trees? = some ts ∧ List.Forall₂ (fun t a => d m t = .ok a) ts as := by
  match items with
  | .close stop => simp [readAll, trees?, eq_comm]
  | .fault .. => simp [readAll, trees?]
  | .item start value rest =>
    cases hd : d m value with
    | error e => simp [readAll, hd, List.forall₂_cons_left_iff]
    | ok a =>
      simp only [readAll, hd, map_eq_ok_iff, @readAll_eq_ok_iff rest,
        trees?_item_eq_some_iff]
      constructor
      · rintro ⟨as, ⟨ts, hts, hall⟩, rfl⟩
        exact ⟨value :: ts, ⟨ts, hts, rfl⟩, .cons hd hall⟩
      · rintro ⟨_, ⟨ts, hts, rfl⟩, hall⟩
        obtain ⟨b, as, hb, htail, rfl⟩ := List.forall₂_cons_left_iff.mp hall
        obtain rfl : a = b := Except.ok.inj (hd.symm.trans hb)
        exact ⟨as, ⟨ts, hts, htail⟩, rfl⟩

theorem Decode.list_array_eq_ok_iff {start : Nat} {items : Items} {as : List α} :
    Decode.list d m (.array start items) = .ok as ↔
      m ≠ .text 0 ∧ ∃ ts, items.trees? = some ts ∧
        List.Forall₂ (fun t a => d m.inside t = .ok a) ts as := by
  simp [Decode.list, bind_eq_ok_iff, Medium.enter_eq_ok_iff, Items.readAll_eq_ok_iff]

theorem Decode.optional_eq_map {t : Tree} (h : ∀ start stop, t ≠ .atom start stop .null) :
    Decode.optional d m t = (d m t).map some := by
  fun_cases Decode.optional d m t with
  | case1 start stop => exact absurd rfl (h start stop)
  | case2 => rfl

end Lists

section Tags
variable {α : Type} {names : List (String × α)} {field choice : String} {m : Medium} {a : α}
  {body : Body}

/-- The members beside the tag can be read whole. -/
def TakesOthers (field : String) (m : Medium) (es : List (String × Tree)) : Prop :=
  ∀ e ∈ es, e.1 ≠ field → e.2.takeIn m = .ok ()

theorem takesOthers_cons {e : String × Tree} {es : List (String × Tree)} :
    TakesOthers field m (e :: es) ↔
      (e.1 ≠ field → e.2.takeIn m = .ok ()) ∧ TakesOthers field m es :=
  List.forall_mem_cons

theorem Members.findTag_eq_ok_iff {ms : Members} {known : Option α} :
    ms.findTag field names m known = .ok a ↔
      ∃ es, ms.entries? = some es ∧ TakesOthers field m es ∧
        Fields.Slot (readsIn m) (Decode.tag names) none known (valuesOf field es) a := by
  match ms with
  | .close stop =>
    cases known <;> simp [findTag, entries?, TakesOthers, Fields.Slot]
  | .fault .. => simp [findTag, entries?]
  | .member lead key resume value rest =>
    cases hkey : key.name? with
    | none => simp [findTag, bind_eq_ok_iff, Decode.string_eq_ok_iff, hkey]
    | some name =>
      have hname : Decode.string m key = .ok name := Decode.string_eq_ok_iff.mpr hkey
      simp only [findTag, hname, bind_eq_ok_iff]
      by_cases h : field = name
      · subst h
        cases known with
        | some c => simp [hkey]
        | none =>
          cases htag : Decode.tag names m value with
          | error e => simp [hkey, htag, bind_eq_ok_iff, readsIn]
          | ok b =>
            simp [hkey, htag, bind_eq_ok_iff, readsIn, takesOthers_cons,
              @findTag_eq_ok_iff rest]
      · cases htake : value.takeIn m with
        | error e => simp [hkey, Ne.symm h, htake, bind_eq_ok_iff, takesOthers_cons]
        | ok u =>
          simp [hkey, Ne.symm h, htake, bind_eq_ok_iff, takesOthers_cons,
            @findTag_eq_ok_iff rest]

/-- There is one tag, so any member of that name tells the kind. -/
theorem Members.eq_of_findTag {ms : Members} {es : List (String × Tree)} {tag : Tree} {b : α}
    (h : ms.findTag field names m none = .ok a) (hes : ms.entries? = some es)
    (hmem : (field, tag) ∈ es) (htag : Decode.tag names m tag = .ok b) : a = b := by
  obtain ⟨_, hes', -, hslot⟩ := findTag_eq_ok_iff.mp h
  obtain rfl := Option.some.inj (hes.symm.trans hes')
  have hvalue := mem_valuesOf.mpr hmem
  generalize valuesOf field es = ts at hslot hvalue
  cases ts with
  | nil => cases hvalue
  | cons x ts =>
    obtain ⟨rfl, hx⟩ := Fields.slot_unread_cons.mp hslot
    obtain rfl := List.mem_singleton.mp hvalue
    exact Except.ok.inj (Eq.trans (Eq.symm hx) htag)

theorem Tree.splitTag_object_eq_ok_iff {start : Nat} {ms : Members} :
    (Tree.object start ms).splitTag choice field names m = .ok (a, body) ↔
      m ≠ .text 0 ∧ body = .members ms ∧ ∃ es, ms.entries? = some es ∧
        TakesOthers field m.inside es ∧
        Fields.Slot (readsIn m.inside) (Decode.tag names) none none (valuesOf field es) a := by
  simp only [splitTag, bind_eq_ok_iff, Medium.enter_eq_ok_iff, pure_eq_ok_iff, Prod.mk.injEq,
    Members.findTag_eq_ok_iff]
  constructor
  · rintro ⟨m', ⟨hm, rfl⟩, a, hes, rfl, rfl⟩
    exact ⟨hm, rfl, hes⟩
  · rintro ⟨hm, rfl, hes⟩
    exact ⟨m.inside, ⟨hm, rfl⟩, a, hes, rfl, rfl⟩

theorem Tree.splitTag_array_eq_ok_iff {start : Nat} {items : Items} :
    (Tree.array start items).splitTag choice field names m = .ok (a, body) ↔
      m ≠ .text 0 ∧ ∃ lead value rest, items = .item lead value rest ∧
        Decode.tag names m.inside value = .ok a ∧ rest.takeIn m.inside = .ok () ∧
        body = .items rest := by
  simp only [splitTag, bind_eq_ok_iff, Medium.enter_eq_ok_iff]
  constructor
  · rintro ⟨m', ⟨hm, rfl⟩, h⟩
    cases items with
    | item lead value rest =>
      simp only [bind_eq_ok_iff, pure_eq_ok_iff, Prod.mk.injEq] at h
      obtain ⟨b, htag, u, hrest, rfl, rfl⟩ := h
      exact ⟨hm, lead, value, rest, rfl, htag, hrest, rfl⟩
    | close stop => simp at h
    | fault resume e => simp at h
  · rintro ⟨hm, lead, value, rest, rfl, htag, hrest, rfl⟩
    exact ⟨m.inside, ⟨hm, rfl⟩, by simp [htag, hrest, bind_eq_ok_iff]⟩

end Tags
end TemplateLint.Json
