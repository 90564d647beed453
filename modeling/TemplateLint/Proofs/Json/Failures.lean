import TemplateLint.Proofs.Json.Nesting

/-! Why reading fails, when it fails: a cause that every part fails by is the cause of the whole. -/
namespace TemplateLint.Json

/-- If there is no result then for a cause like this. -/
def FailsBy (P : Cause → Prop) {α : Type} (x : Except Error α) : Prop :=
  ∀ e, x = .error e → P e.cause

section Basic
variable {P : Cause → Prop} {α β : Type} {x : Except Error α}

theorem failsBy_ok (a : α) : FailsBy P (.ok a) := nofun

theorem FailsBy.bind {f : α → Except Error β} (hx : FailsBy P x)
    (hf : ∀ a, x = .ok a → FailsBy P (f a)) : FailsBy P (x >>= f) := by
  intro e he
  rcases bind_eq_error_iff.mp he with h | ⟨a, ha, h⟩
  · exact hx e h
  · exact hf a ha e h

theorem FailsBy.map {f : α → β} (hx : FailsBy P x) : FailsBy P (x.map f) :=
  fun e he => hx e (map_eq_error_iff.mp he)

theorem FailsBy.exists_error (hx : FailsBy P x) (hno : ∀ a, x ≠ .ok a) :
    ∃ e, x = .error e ∧ P e.cause := by
  cases h : x with
  | error e => exact ⟨e, rfl, hx e h⟩
  | ok a => exact absurd h (hno a)

theorem Items.readAll_failsBy {d : Decoder α} {m : Medium} {items : Items} {ts : List Tree}
    (hts : items.trees? = some ts) (hd : ∀ t ∈ ts, FailsBy P (d m t)) :
    FailsBy P (items.readAll d m) := by
  match items with
  | .close _ => exact failsBy_ok []
  | .fault .. => simp [trees?] at hts
  | .item start value rest =>
    obtain ⟨us, hus, rfl⟩ := trees?_item_eq_some_iff.mp hts
    obtain ⟨hvalue, hrest⟩ := List.forall_mem_cons.mp hd
    rw [readAll]
    cases h : d m value with
    | error e =>
      intro e' he'
      obtain rfl := Except.error.inj he'
      exact hvalue e h
    | ok a => exact (readAll_failsBy hus hrest).map

end Basic

/-! Brackets that are too deep -/

theorem Members.findTag_text {α : Type} {field : String} {names : List (String × α)} {room : Nat}
    {ms : Members} {es : List (String × Tree)} {a : α} (hes : ms.entries? = some es)
    (hnames : ∀ e ∈ es, e.1 ≠ field) :
    ms.findTag field names (.text room) (some a) =
      match ms.readError? room with
      | some e => .error e
      | none => .ok a := by
  match ms with
  | .close _ => rfl
  | .fault .. => simp [entries?] at hes
  | .member lead key resume value rest =>
    obtain ⟨name, hname, es', hes', rfl⟩ := entries?_member_eq_some_iff.mp hes
    obtain ⟨hne, hrest⟩ := List.forall_mem_cons.mp hnames
    have hkey : Decode.string (.text room) key = .ok name := Decode.string_eq_ok_iff.mpr hname
    simp only [findTag, hkey, readError?, Tree.readError?_of_name? hname, Tree.takeIn,
      bind, Except.bind, hne, if_false]
    cases value.readError? room with
    | some e => rfl
    | none => exact findTag_text hes' hrest

/-! Content of another shape -/

def Cause.IsContent (c : Cause) : Prop := c.category = .content

namespace Fields

variable {α : Type} {m : Medium} {fields : Fields α}

/-- Every field of that name that reads the value fails by its content only. -/
def FailsAt (m : Medium) (fields : Fields α) (name : String) (value : Tree) : Prop :=
  ∀ (i : Nat) (β : Type) (d : Decoder β) (fallback : Option β), fields.Has i name d fallback →
    FailsBy Cause.IsContent (d m value)

theorem finish_failsBy (offset : Option Nat) : FailsBy Cause.IsContent (fields.finish offset) := by
  induction fields with
  | done value => exact failsBy_ok value
  | field before name d fallback read ih =>
    refine ih.bind fun f _ => ?_
    cases read <;> cases fallback <;> intro e he <;> cases he
    rfl

theorem isContent_of_accept {key : String} {twice : Option Nat} {value : Tree} {e : Error}
    (hvalue : fields.FailsAt m key value)
    (h : fields.accept m key twice value = some (.error e)) : e.cause.IsContent := by
  induction fields with
  | done => cases h
  | field before name d fallback read ih =>
    by_cases hname : name = key
    · subst hname
      cases read with
      | some c =>
        simp only [accept, if_true, Option.some.injEq, Except.error.injEq] at h
        exact h ▸ rfl
      | none =>
        cases hd : d m value with
        | ok b => simp [accept, hd] at h
        | error e' =>
          simp only [accept, if_true, hd, Option.some.injEq, Except.error.injEq] at h
          exact h ▸ hvalue _ _ d fallback .last e' hd
    · refine ih (fun i β d fallback hhas => hvalue i β d fallback (.before hhas)) ?_
      cases haccept : before.accept m key twice value with
      | none => simp [accept, hname, haccept] at h
      | some x => cases x <;> simp_all [accept]

theorem exists_has_of_accept {fields' : Fields α} {key : String} {twice : Option Nat}
    {value : Tree} {i : Nat} {name : String} {β : Type} {d : Decoder β} {fallback : Option β}
    (h : fields.accept m key twice value = some (.ok fields'))
    (hhas : fields'.Has i name d fallback) : ∃ j, fields.Has j name d fallback := by
  induction fields generalizing i with
  | done => cases h
  | field before name' d' fallback' read ih =>
    by_cases hname : name' = key
    · cases read with
      | some c => simp [accept, hname] at h
      | none =>
        cases hd : d' m value with
        | error e => simp [accept, hname, hd] at h
        | ok b =>
          simp only [accept, hname, if_true, hd, Option.some.injEq, Except.ok.injEq] at h
          subst h hname
          cases hhas with
          | last => exact ⟨_, .last⟩
          | before hhas => exact ⟨_, .before hhas⟩
    · cases haccept : before.accept m key twice value with
      | none => simp [accept, hname, haccept] at h
      | some x =>
        cases x with
        | error e => simp [accept, hname, haccept] at h
        | ok before' =>
          simp only [accept, hname, if_false, haccept, Option.some.injEq, Except.ok.injEq] at h
          subst h
          cases hhas with
          | last => exact ⟨_, .last⟩
          | before hhas =>
            obtain ⟨j, hj⟩ := ih haccept hhas
            exact ⟨j, .before hj⟩

theorem ofMembers_failsBy {fields : Fields α} {ms : Members} {es : List (String × Tree)}
    (hnodup : fields.names.Nodup) (hes : ms.entries? = some es)
    (hothers : PassesOthers fields.names m es)
    (hvalues : ∀ e ∈ es, fields.FailsAt m e.1 e.2) :
    FailsBy Cause.IsContent (fields.ofMembers m ms) := by
  match ms with
  | .close stop => exact finish_failsBy _
  | .fault .. => simp [Members.entries?] at hes
  | .member lead key resume value rest =>
    obtain ⟨name, hname, es', hes', rfl⟩ := Members.entries?_member_eq_some_iff.mp hes
    obtain ⟨hvalue, hrest⟩ := List.forall_mem_cons.mp hvalues
    obtain ⟨hother, hothers⟩ := passesOthers_cons.mp hothers
    have hspec := accept_spec m name (m.at resume) value hnodup
    rw [ofMembers, Decode.string_eq_ok_iff.mpr hname]
    cases haccept : fields.accept m name (m.at resume) value with
    | none =>
      simp only [haccept] at hspec
      simpa [haccept, hother hspec] using ofMembers_failsBy hnodup hes' hothers hrest
    | some x =>
      cases x with
      | error e =>
        have := isContent_of_accept hvalue haccept
        intro e' he'
        simp only [haccept, Except.error.injEq] at he'
        exact he' ▸ this
      | ok fields' =>
        simp only [haccept] at hspec
        obtain ⟨-, hnames, -⟩ := hspec
        have hvalues' : ∀ e ∈ es', fields'.FailsAt m e.1 e.2 := by
          intro e he i β d fallback hhas
          obtain ⟨j, hj⟩ := exists_has_of_accept haccept hhas
          exact hrest e he j β d fallback hj
        rw [← hnames] at hnodup hothers
        simpa [haccept] using ofMembers_failsBy hnodup hes' hothers hvalues'

theorem trees?_of_ofItems {record : String} {total : Nat} {items rest : Items} {ts : List Tree}
    {a : α} (hts : items.trees? = some ts)
    (h : fields.ofItems m record total items = .ok (a, rest)) :
    rest.trees? = some (ts.drop fields.count) := by
  induction fields generalizing rest with
  | done value =>
    cases h
    exact hts
  | field before name d fallback read ih =>
    simp only [ofItems, bind_eq_ok_iff, Prod.exists] at h
    obtain ⟨f, items', hf, h⟩ := h
    have hrest := ih hf
    rw [count, ← List.drop_drop]
    cases items' with
    | item start value rest' =>
      obtain ⟨us, hus, heq⟩ := Items.trees?_item_eq_some_iff.mp hrest
      cases hd : d m value <;> simp [hd] at h
      rw [← heq, ← h.2, hus]
      rfl
    | close stop =>
      have hnil : [] = ts.drop before.count := Option.some.inj hrest
      cases fallback <;> simp at h
      rw [← hnil, ← h.2]
      rfl
    | fault resume e => simp at h

theorem ofItems_failsBy {record : String} {total : Nat} {items : Items} {ts : List Tree}
    (hts : items.trees? = some ts)
    (hvalues : ∀ (i : Nat) (name : String) (β : Type) (d : Decoder β) (fallback : Option β),
      fields.Has i name d fallback → ∀ t, ts[i]? = some t → FailsBy Cause.IsContent (d m t)) :
    FailsBy Cause.IsContent (fields.ofItems m record total items) := by
  induction fields with
  | done => exact failsBy_ok _
  | field before name d fallback read ih =>
    have hbefore := ih fun i name β d fallback hhas =>
      hvalues i name β d fallback (.before hhas)
    refine hbefore.bind fun (f, items') hf => ?_
    have hrest := trees?_of_ofItems hts hf
    cases items' with
    | item start value rest =>
      obtain ⟨us, hus, heq⟩ := Items.trees?_item_eq_some_iff.mp hrest
      have hvalue : ts[before.count]? = some value := by
        rw [← List.head?_drop, ← heq]
        rfl
      have hd := hvalues _ _ _ d fallback .last value hvalue
      cases h : d m value with
      | ok b =>
        simp only [h]
        exact failsBy_ok _
      | error e =>
        intro e' he'
        simp only [h, throw_eq_error_iff] at he'
        exact he' ▸ hd e h
    | close stop =>
      cases fallback with
      | some b => exact failsBy_ok _
      | none =>
        intro e he
        cases he
        rfl
    | fault resume e => simp [Items.trees?] at hrest

theorem ofBody_items_failsBy {record : String} {items : Items} {ts : List Tree}
    (hts : items.trees? = some ts) (hlength : ts.length ≤ fields.count)
    (hvalues : ∀ (i : Nat) (name : String) (β : Type) (d : Decoder β) (fallback : Option β),
      fields.Has i name d fallback → ∀ t, ts[i]? = some t → FailsBy Cause.IsContent (d m t)) :
    FailsBy Cause.IsContent (fields.ofBody record m (.items items)) := by
  refine (ofItems_failsBy hts hvalues).bind fun (a, rest) ha => ?_
  have hrest := trees?_of_ofItems hts ha
  rw [List.drop_eq_nil_iff.mpr hlength] at hrest
  have hfinish : rest.finish m fields.count = .ok () := Items.finish_eq_ok_iff.mpr hrest
  simpa [hfinish] using failsBy_ok a

end Fields

theorem Members.findTag_failsBy {α : Type} {field : String} {names : List (String × α)}
    {m : Medium} {ms : Members} {es : List (String × Tree)} {known : Option α}
    (hes : ms.entries? = some es) (htakes : TakesOthers field m es)
    (htag : ∀ t ∈ valuesOf field es, FailsBy Cause.IsContent (Decode.tag names m t)) :
    FailsBy Cause.IsContent (ms.findTag field names m known) := by
  match ms with
  | .close stop =>
    cases known with
    | some a => exact failsBy_ok a
    | none =>
      intro e he
      cases he
      rfl
  | .fault .. => simp [entries?] at hes
  | .member lead key resume value rest =>
    obtain ⟨name, hname, es', hes', rfl⟩ := entries?_member_eq_some_iff.mp hes
    obtain ⟨htake, htakes⟩ := takesOthers_cons.mp htakes
    have hkey : Decode.string m key = .ok name := Decode.string_eq_ok_iff.mpr hname
    have hrest (known : Option α) : FailsBy Cause.IsContent (rest.findTag field names m known) :=
      findTag_failsBy hes' htakes fun t ht => htag t <| by
        rw [valuesOf_cons]
        split
        · exact List.mem_cons_of_mem _ ht
        · exact ht
    by_cases h : name = field
    · cases known with
      | some a =>
        intro e he
        simp only [findTag, hkey, h, bind, Except.bind, if_true] at he
        cases he
        rfl
      | none =>
        have hvalue : FailsBy Cause.IsContent (Decode.tag names m value) := htag _ (by simp [h])
        simp only [findTag, hkey, h, bind, Except.bind, if_true]
        exact hvalue.bind fun a _ => hrest (some a)
    · simp only [findTag, hkey, bind, Except.bind, h, if_false, htake h]
      exact hrest known

end TemplateLint.Json
