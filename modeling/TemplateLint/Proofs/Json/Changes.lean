import TemplateLint.Proofs.Json.Failures
import TemplateLint.Proofs.Json.Places
import Mathlib.Algebra.GroupWithZero.Nat

/-! Changes to the members of a record that do not matter to it, and members that it cannot do
without. What is read stays the same as long as nothing is lost, and losing anything is an error of
content. -/
namespace TemplateLint.Json

/-- A value before and after a change; so many members are lost inside it. -/
structure Pair where
  old : Tree
  new : Tree
  losses : Nat

section Pairs
variable {ps : List Pair}

def lossesOf (ps : List Pair) : Nat := (ps.map Pair.losses).sum

theorem lossesOf_eq_zero_iff : lossesOf ps = 0 ↔ ∀ p ∈ ps, p.losses = 0 := by
  simp only [lossesOf, List.sum_eq_zero_iff_forall_eq_nat, List.forall_mem_map]

theorem exists_losses_of_ne_zero (h : lossesOf ps ≠ 0) : ∃ p ∈ ps, p.losses ≠ 0 := by
  by_contra hno
  refine h (lossesOf_eq_zero_iff.mpr fun p hp => ?_)
  by_contra hp'
  exact hno ⟨p, hp, hp'⟩

end Pairs

/-- What happens to the members of an object: some stay, with a value that may be changed inside,
some are left out, some are added, and some go that the record cannot do without. -/
structure Change where
  kept : List (String × Pair)
  dropped : List (String × Tree)
  added : List (String × Tree)
  lost : List (String × Tree)

namespace Change

def before (c : Change) : List (String × Tree) :=
  c.kept.map (fun k => (k.1, k.2.old)) ++ c.dropped ++ c.lost

def after (c : Change) : List (String × Tree) :=
  c.kept.map (fun k => (k.1, k.2.new)) ++ c.added

def losses (c : Change) : Nat := lossesOf (c.kept.map Prod.snd) + c.lost.length

/-- The objects have the members before and after the change, each in any order. -/
def Between (c : Change) (ms ms' : Members) : Prop :=
  ∃ es es', ms.entries? = some es ∧ ms'.entries? = some es' ∧ es.Perm c.before ∧
    es'.Perm c.after

/-- Members that are no fields stay as they are. Only fields with a fallback are left out, and only
if they have that value, and only simple values are added, under new names. Losses are of tags and
of fields without a fallback. -/
structure Fits {α : Type} (c : Change) (tags : List String) (fields : Fields α) (m : Medium) :
    Prop where
  others : ∀ k ∈ c.kept, k.1 ∉ fields.names → k.2.old.Alike k.2.new ∧ k.2.losses = 0
  dropped : ∀ e ∈ c.dropped, e.1 ∈ fields.names ∧
    ∀ (i : Nat) (β : Type) (d : Decoder β) (fallback : Option β), fields.Has i e.1 d fallback →
      ∃ b, fallback = some b ∧ d m e.2 = .ok b
  added : ∀ e ∈ c.added, e.1 ∉ tags ∧ e.1 ∉ fields.names ∧
    ∃ start stop value, e.2 = .atom start stop value
  lost : ∀ e ∈ c.lost, (e.1 ∈ tags ∨ e.1 ∈ fields.names) ∧
    ∀ (i : Nat) (β : Type) (d : Decoder β) (fallback : Option β), fields.Has i e.1 d fallback →
      fallback = none

end Change

/-- What is read after so many losses: the same without any, and nothing otherwise. -/
def Survives {α : Type} (losses : Nat) (a : α) (x : Except Error α) : Prop :=
  (losses = 0 → x = .ok a) ∧ (losses ≠ 0 → ∃ e, x = .error e ∧ e.cause.IsContent)

section Survives
variable {α β : Type} {n : Nat} {a : α} {x : Except Error α}

theorem Survives.of (hok : n = 0 → x = .ok a) (hno : n ≠ 0 → ∀ b, x ≠ .ok b)
    (hfails : FailsBy Cause.IsContent x) : Survives n a x :=
  ⟨hok, fun hn => hfails.exists_error (hno hn)⟩

theorem Survives.failsBy (h : Survives n a x) : FailsBy Cause.IsContent x := by
  by_cases hn : n = 0
  · exact h.1 hn ▸ failsBy_ok a
  · obtain ⟨e, he, hcause⟩ := h.2 hn
    intro e' he'
    obtain rfl := Except.error.inj (he.symm.trans he')
    exact hcause

theorem Survives.ne_ok (h : Survives n a x) (hn : n ≠ 0) (b : α) : x ≠ .ok b := by
  obtain ⟨e, he, -⟩ := h.2 hn
  exact he ▸ nofun

theorem Survives.map (h : Survives n a x) (f : α → β) : Survives n (f a) (x.map f) := by
  refine ⟨fun hn => by rw [h.1 hn]; rfl, fun hn => ?_⟩
  obtain ⟨e, he, hcause⟩ := h.2 hn
  exact ⟨e, by rw [he]; rfl, hcause⟩

end Survives

/-! Objects -/

namespace Change
variable {α β : Type} {c : Change} {tags : List String} {fields : Fields α} {m : Medium}
  {name : String} {i : Nat} {d : Decoder β} {fallback : Option β} {b : β}

theorem mem_before_of_kept {k : String × Pair} (hk : k ∈ c.kept) : (k.1, k.2.old) ∈ c.before := by
  simp only [before, List.append_assoc, List.mem_append, List.mem_map]
  exact .inl ⟨k, hk, rfl⟩

theorem valuesOf_before : valuesOf name c.before =
    (valuesOf name c.kept).map Pair.old ++ valuesOf name c.dropped ++ valuesOf name c.lost := by
  rw [before, valuesOf_append, valuesOf_append, valuesOf_map]

theorem Fits.valuesOf_after (hfits : c.Fits tags fields m) (hname : name ∈ fields.names) :
    valuesOf name c.after = (valuesOf name c.kept).map Pair.new := by
  have hadded : valuesOf name c.added = [] :=
    valuesOf_eq_nil fun e he h => (hfits.added e he).2.1 (h ▸ hname)
  rw [after, valuesOf_append, valuesOf_map, hadded, List.append_nil]

/-- What becomes of the value of a field. -/
inductive Fate (c : Change) (m : Medium) (name : String) (d : Decoder β) (fallback : Option β)
    (b : β) : Prop
  | kept (p : Pair) (hkept : valuesOf name c.kept = [p]) (hlost : valuesOf name c.lost = [])
      (hold : d m p.old = .ok b)
  | absent (hkept : valuesOf name c.kept = []) (hlost : valuesOf name c.lost = [])
      (hfallback : fallback = some b)
  | lost (hkept : valuesOf name c.kept = []) (hlost : valuesOf name c.lost ≠ [])
      (hfallback : fallback = none)

theorem Fits.fate (hfits : c.Fits tags fields m) (hhas : fields.Has i name d fallback)
    (h : Fields.Slot (readsIn m) d fallback none (valuesOf name c.before) b) :
    c.Fate m name d fallback b := by
  rw [valuesOf_before] at h
  cases hkept : valuesOf name c.kept with
  | cons p ps =>
    simp only [hkept, List.map_cons, List.cons_append, Fields.slot_unread_cons,
      List.append_eq_nil_iff, List.map_eq_nil_iff] at h
    obtain ⟨⟨⟨rfl, -⟩, hlost⟩, hread⟩ := h
    exact .kept p hkept hlost hread
  | nil =>
    cases hdropped : valuesOf name c.dropped with
    | cons x xs =>
      simp only [hkept, hdropped, List.map_nil, List.nil_append, List.cons_append,
        Fields.slot_unread_cons, List.append_eq_nil_iff] at h
      obtain ⟨⟨rfl, hlost⟩, hread⟩ := h
      have hmem : (name, x) ∈ c.dropped := mem_valuesOf.mp (by simp [hdropped])
      obtain ⟨b', hfallback, hb'⟩ := (hfits.dropped _ hmem).2 i β d fallback hhas
      obtain rfl : b = b' := Except.ok.inj (Eq.trans (Eq.symm hread) hb')
      exact .absent hkept hlost hfallback
    | nil =>
      simp only [hkept, hdropped, List.map_nil, List.nil_append] at h
      cases hlost : valuesOf name c.lost with
      | nil =>
        rw [hlost] at h
        exact .absent hkept hlost (Fields.slot_unread_nil.mp h)
      | cons x xs =>
        have hmem : (name, x) ∈ c.lost := mem_valuesOf.mp (by simp [hlost])
        exact .lost hkept (by simp [hlost]) ((hfits.lost _ hmem).2 i β d fallback hhas)

/-- A value that stays for a field is still read, or not, after what was lost inside it. -/
def KeptSurvive (c : Change) (fields : Fields α) (m : Medium) : Prop :=
  ∀ k ∈ c.kept, ∀ (i : Nat) (β : Type) (d : Decoder β) (fallback : Option β),
    fields.Has i k.1 d fallback → ∀ b, d m k.2.old = .ok b →
      Survives k.2.losses b (d m k.2.new)

theorem losses_eq_zero_iff :
    c.losses = 0 ↔ (∀ k ∈ c.kept, k.2.losses = 0) ∧ c.lost = [] := by
  simp only [losses, Nat.add_eq_zero_iff, lossesOf_eq_zero_iff, List.forall_mem_map,
    List.length_eq_zero_iff]

theorem Fits.assembles_after {a : α} (hfits : c.Fits tags fields m) (hunread : fields.Unread)
    (hkept : c.KeptSurvive fields m) (hnone : c.losses = 0)
    (ha : fields.Assembles (readsIn m) (byName c.before) a) :
    fields.Assembles (readsIn m) (byName c.after) a := by
  obtain ⟨hkeptNone, hlostNil⟩ := losses_eq_zero_iff.mp hnone
  refine ha.imp hunread fun i name β d fallback hhas b hb => ?_
  simp only [byName, hfits.valuesOf_after hhas.mem_names]
  cases hfits.fate hhas hb with
  | kept p hp _ hold =>
    have hmem : (name, p) ∈ c.kept := mem_valuesOf.mp (by simp [hp])
    have hnew := (hkept _ hmem i β d fallback hhas b hold).1 (hkeptNone _ hmem)
    rw [hp]
    exact Fields.slot_unread_cons.mpr ⟨rfl, hnew⟩
  | absent hp _ hfallback =>
    rw [hp]
    exact hfallback
  | lost _ hlost _ => simp [hlostNil] at hlost

theorem Fits.not_assembles_after {a a' : α} (hfits : c.Fits tags fields m)
    (hunread : fields.Unread) (hkept : c.KeptSurvive fields m)
    (hlost : ∀ e ∈ c.lost, e.1 ∈ fields.names) (hsome : c.losses ≠ 0)
    (ha : fields.Assembles (readsIn m) (byName c.before) a) :
    ¬ fields.Assembles (readsIn m) (byName c.after) a' := by
  intro ha'
  -- The field of the value with a loss in it, or of a value that is lost, reads nothing now.
  have hslots {name : String} (hname : name ∈ fields.names) :
      ∃ (β : Type) (d : Decoder β) (fallback : Option β) (b b' : β), c.Fate m name d fallback b ∧
        Fields.Slot (readsIn m) d fallback none ((valuesOf name c.kept).map Pair.new) b' ∧
        ∀ p, (name, p) ∈ c.kept → d m p.old = .ok b → Survives p.losses b (d m p.new) := by
    obtain ⟨i, β, d, fallback, hhas⟩ := Fields.exists_has_of_mem_names hname
    obtain ⟨b, hb⟩ := ha.exists_slot hunread hhas
    obtain ⟨b', hb'⟩ := ha'.exists_slot hunread hhas
    rw [byName, hfits.valuesOf_after hname] at hb'
    exact ⟨β, d, fallback, b, b', hfits.fate hhas hb, hb',
      fun p hp => hkept (name, p) hp i β d fallback hhas b⟩
  cases hlostList : c.lost with
  | cons e es =>
    have hmem : e ∈ c.lost := by simp [hlostList]
    have hvalue : valuesOf e.1 c.lost ≠ [] := List.ne_nil_of_mem (mem_valuesOf.mpr hmem)
    obtain ⟨β, d, fallback, b, b', hfate, hb', -⟩ := hslots (hlost e hmem)
    cases hfate with
    | kept _ _ hnone => exact hvalue hnone
    | absent _ hnone => exact hvalue hnone
    | lost hp _ hfallback =>
      rw [hp, hfallback] at hb'
      cases hb'
  | nil =>
    rw [losses, hlostList, List.length_nil, Nat.add_zero] at hsome
    obtain ⟨p, hp, hlosses⟩ := exists_losses_of_ne_zero hsome
    obtain ⟨k, hk, rfl⟩ := List.mem_map.mp hp
    have hname : k.1 ∈ fields.names := by
      by_contra h
      exact hlosses (hfits.others k hk h).2
    have hvalue : k.2 ∈ valuesOf k.1 c.kept := mem_valuesOf.mpr hk
    obtain ⟨β, d, fallback, b, b', hfate, hb', hsurvives⟩ := hslots hname
    cases hfate with
    | kept p hp _ hold =>
      rw [hp] at hvalue hb'
      obtain rfl := List.mem_singleton.mp hvalue
      obtain ⟨-, hnew⟩ := Fields.slot_unread_cons.mp hb'
      exact (hsurvives _ hk hold).ne_ok hlosses b' hnew
    | absent hp => simp [hp] at hvalue
    | lost hp => simp [hp] at hvalue

theorem Fits.failsAt_after {a : α} (hfits : c.Fits tags fields m) (hunread : fields.Unread)
    (hkept : c.KeptSurvive fields m) (ha : fields.Assembles (readsIn m) (byName c.before) a) :
    ∀ e ∈ c.after, fields.FailsAt m e.1 e.2 := by
  intro e he i β d fallback hhas
  rcases List.mem_append.mp he with he | he
  · obtain ⟨k, hk, rfl⟩ := List.mem_map.mp he
    obtain ⟨b, hb⟩ := ha.exists_slot hunread hhas
    have hvalue : k.2 ∈ valuesOf k.1 c.kept := mem_valuesOf.mpr hk
    cases hfits.fate hhas hb with
    | kept p hp _ hold =>
      rw [hp] at hvalue
      obtain rfl := List.mem_singleton.mp hvalue
      exact (hkept k hk i β d fallback hhas b hold).failsBy
    | absent hp => simp [hp] at hvalue
    | lost hp => simp [hp] at hvalue
  · exact absurd hhas.mem_names (hfits.added e he).2.1

theorem Fits.passesOthers_after (hfits : c.Fits tags fields m)
    (h : Fields.PassesOthers fields.names m c.before) :
    Fields.PassesOthers fields.names m c.after := by
  intro e he hother
  rcases List.mem_append.mp he with he | he
  · obtain ⟨k, hk, rfl⟩ := List.mem_map.mp he
    exact (hfits.others k hk hother).1.ignore.mp (h _ (mem_before_of_kept hk) hother)
  · obtain ⟨start, stop, value, heq⟩ := (hfits.added e he).2.2
    rw [heq, Tree.ignore_eq_ok_iff]
    exact .inr rfl

theorem Fits.survives_ofMembers {ms ms' : Members} {a : α} (hfits : c.Fits tags fields m)
    (hfresh : fields.Fresh) (hbetween : c.Between ms ms') (hkept : c.KeptSurvive fields m)
    (hlost : ∀ e ∈ c.lost, e.1 ∈ fields.names) (h : fields.ofMembers m ms = .ok a) :
    Survives c.losses a (fields.ofMembers m ms') := by
  obtain ⟨es, es', hes, hes', hbefore, hafter⟩ := hbetween
  obtain ⟨_, hes'', hothers, ha⟩ := (Fields.ofMembers_eq_ok_iff hfresh.nodup).mp h
  obtain rfl := Option.some.inj (hes.symm.trans hes'')
  rw [Fields.assembles_perm hfresh.unread hbefore] at ha
  have hothers' : Fields.PassesOthers fields.names m es' := fun e he =>
    hfits.passesOthers_after (fun e he => hothers e (hbefore.mem_iff.mpr he)) e
      (hafter.mem_iff.mp he)
  refine .of (fun hnone => ?_) (fun hsome a' ha' => ?_) ?_
  · have := hfits.assembles_after hfresh.unread hkept hnone ha
    rw [← Fields.assembles_perm hfresh.unread hafter] at this
    exact (Fields.ofMembers_eq_ok_iff hfresh.nodup).mpr ⟨es', hes', hothers', this⟩
  · obtain ⟨_, hes'', -, ha'⟩ := (Fields.ofMembers_eq_ok_iff hfresh.nodup).mp ha'
    obtain rfl := Option.some.inj (hes'.symm.trans hes'')
    rw [Fields.assembles_perm hfresh.unread hafter] at ha'
    exact hfits.not_assembles_after hfresh.unread hkept hlost hsome ha ha'
  · refine Fields.ofMembers_failsBy hfresh.nodup hes' hothers' fun e he => ?_
    exact hfits.failsAt_after hfresh.unread hkept ha e (hafter.mem_iff.mp he)

/-- What could be read whole still can. -/
def KeptReadable (c : Change) (fields : Fields α) : Prop :=
  ∀ k ∈ c.kept, ∀ (i : Nat) (β : Type) (d : Decoder β) (fallback : Option β),
    fields.Has i k.1 d fallback → ∀ room, k.2.old.readError? room = none →
      k.2.new.readError? room = none

theorem Fits.readError?_after {room : Nat} {e : String × Tree} (hfits : c.Fits tags fields m)
    (hkept : c.KeptReadable fields) (he : e ∈ c.after)
    (h : ∀ old, (e.1, old) ∈ c.before → old.readError? room = none) :
    e.2.readError? room = none := by
  rcases List.mem_append.mp he with he | he
  · obtain ⟨k, hk, rfl⟩ := List.mem_map.mp he
    have hold : k.2.old.readError? room = none := h k.2.old (mem_before_of_kept hk)
    by_cases hname : k.1 ∈ fields.names
    · obtain ⟨i, β, d, fallback, hhas⟩ := Fields.exists_has_of_mem_names hname
      exact hkept k hk i β d fallback hhas room hold
    · exact (hfits.others k hk hname).1.readError?.mp hold
  · obtain ⟨start, stop, value, heq⟩ := (hfits.added e he).2.2
    rw [heq, Tree.readError?]

theorem Fits.readError?_members {room : Nat} {ms ms' : Members} (hfits : c.Fits tags fields m)
    (hkept : c.KeptReadable fields) (hbetween : c.Between ms ms')
    (h : ms.readError? room = none) : ms'.readError? room = none := by
  obtain ⟨es, es', hes, hes', hbefore, hafter⟩ := hbetween
  rw [Members.readError?_eq_none_iff hes] at h
  refine (Members.readError?_eq_none_iff hes').mpr fun e he => ?_
  exact hfits.readError?_after hkept (hafter.mem_iff.mp he)
    fun old hold => h _ (hbefore.mem_iff.mpr hold)

theorem Fits.takesOthers_after {field : String} (hfits : c.Fits tags fields m)
    (hkept : c.KeptReadable fields) {m' : Medium} (h : TakesOthers field m' c.before) :
    TakesOthers field m' c.after := by
  intro e he hother
  cases m' with
  | buffer => rfl
  | text room =>
    refine Tree.takeIn_text_eq_ok_iff.mpr (hfits.readError?_after hkept he fun old hold => ?_)
    exact Tree.takeIn_text_eq_ok_iff.mp (h _ hold hother)

/-- The tag is still read from a member that stays as it is. -/
theorem Fits.survives_findTag {field : String} {names : List (String × β)} {m' : Medium}
    {ms ms' : Members} (hfits : c.Fits tags fields m) (htags : field ∈ tags)
    (hfield : field ∉ fields.names) (hkept : c.KeptReadable fields) (hbetween : c.Between ms ms')
    (h : ms.findTag field names m' none = .ok b) :
    Survives (valuesOf field c.lost).length b (ms'.findTag field names m' none) := by
  obtain ⟨es, es', hes, hes', hbefore, hafter⟩ := hbetween
  obtain ⟨_, hes'', htakes, htag⟩ := Members.findTag_eq_ok_iff.mp h
  obtain rfl := Option.some.inj (hes.symm.trans hes'')
  have htakes' : TakesOthers field m' es' := fun e he =>
    hfits.takesOthers_after hkept (fun e he => htakes e (hbefore.mem_iff.mpr he)) e
      (hafter.mem_iff.mp he)
  have hdropped : valuesOf field c.dropped = [] :=
    valuesOf_eq_nil fun e he h => hfield (h ▸ (hfits.dropped e he).1)
  have hadded : valuesOf field c.added = [] :=
    valuesOf_eq_nil fun e he h => (hfits.added e he).1 (h ▸ htags)
  have hvalues : (valuesOf field es').Perm ((valuesOf field c.kept).map Pair.new) := by
    have : (valuesOf field es').Perm (valuesOf field c.after) := valuesOf_perm hafter
    rwa [after, valuesOf_append, hadded, List.append_nil, valuesOf_map] at this
  rw [Fields.slot_perm (valuesOf_perm hbefore), valuesOf_before, hdropped, List.append_nil] at htag
  cases hp : valuesOf field c.kept with
  | nil =>
    rw [hp, List.map_nil, List.perm_nil] at hvalues
    refine .of (fun hnone => ?_) (fun _ b' hb' => ?_) ?_
    · rw [hp, List.length_eq_zero_iff.mp hnone] at htag
      cases htag
    · obtain ⟨_, hes'', -, htag'⟩ := Members.findTag_eq_ok_iff.mp hb'
      obtain rfl := Option.some.inj (hes'.symm.trans hes'')
      rw [hvalues] at htag'
      cases htag'
    · exact Members.findTag_failsBy hes' htakes' (by simp [hvalues])
  | cons p ps =>
    simp only [hp, List.map_cons, List.cons_append, Fields.slot_unread_cons,
      List.append_eq_nil_iff, List.map_eq_nil_iff] at htag
    obtain ⟨⟨rfl, hlost⟩, hread⟩ := htag
    have hk : (field, p) ∈ c.kept := mem_valuesOf.mp (by simp [hp])
    have hnew : Decode.tag names m' p.new = .ok b :=
      ((placeless_tag names).congr (hfits.others _ hk hfield).1).mp hread
    refine ⟨fun _ => Members.findTag_eq_ok_iff.mpr ⟨es', hes', htakes', ?_⟩, ?_⟩
    · rw [hp] at hvalues
      rw [Fields.slot_perm hvalues]
      exact Fields.slot_unread_cons.mpr ⟨rfl, hnew⟩
    · simp [hlost]

end Change

/-! Arrays -/

section Items
variable {α : Type} {m : Medium} {items items' : Items} {ps : List Pair}

/-- The items of the arrays, before and after. -/
def PairsOf (ps : List Pair) (items items' : Items) : Prop :=
  items.trees? = some (ps.map Pair.old) ∧ items'.trees? = some (ps.map Pair.new)

/-- Arrays with pairs that can still be read whole. -/
theorem PairsOf.readError? {room : Nat} (hpairs : PairsOf ps items items')
    (h : ∀ p ∈ ps, p.old.readError? room = none → p.new.readError? room = none)
    (hitems : items.readError? room = none) : items'.readError? room = none := by
  refine (Items.readError?_eq_none_iff hpairs.2).mpr (List.forall_mem_map.mpr fun p hp => ?_)
  exact h p hp ((Items.readError?_eq_none_iff hpairs.1).mp hitems _ (List.mem_map_of_mem hp))

theorem PairsOf.readError?_of_fields {room : Nat} {fields : Fields α}
    (hpairs : PairsOf ps items items') (hlength : ps.length ≤ fields.count)
    (h : ∀ (i : Nat) (p : Pair), ps[i]? = some p →
      ∀ (name : String) (β : Type) (d : Decoder β) (fallback : Option β),
        fields.Has i name d fallback → p.old.readError? room = none → p.new.readError? room = none)
    (hitems : items.readError? room = none) : items'.readError? room = none := by
  refine hpairs.readError? (fun p hp => ?_) hitems
  obtain ⟨i, hi, rfl⟩ := List.mem_iff_getElem.mp hp
  obtain ⟨name, β, d, fallback, hhas⟩ :=
    Fields.exists_has_of_lt_count (Nat.lt_of_lt_of_le hi hlength)
  exact h i _ (List.getElem?_eq_getElem hi) name β d fallback hhas

theorem PairsOf.takeIn {fields : Fields α} (hpairs : PairsOf ps items items')
    (hlength : ps.length ≤ fields.count)
    (h : ∀ (i : Nat) (p : Pair), ps[i]? = some p →
      ∀ (name : String) (β : Type) (d : Decoder β) (fallback : Option β),
        fields.Has i name d fallback → ∀ room, p.old.readError? room = none →
          p.new.readError? room = none)
    (hitems : items.takeIn m = .ok ()) : items'.takeIn m = .ok () := by
  cases m with
  | buffer => rfl
  | text room =>
    rw [Items.takeIn_text_eq_ok_iff] at hitems ⊢
    exact hpairs.readError?_of_fields hlength
      (fun i p hp name β d fallback hhas => h i p hp name β d fallback hhas room) hitems

theorem survives_readAll {d : Decoder α} {as : List α} (hpairs : PairsOf ps items items')
    (hps : ∀ p ∈ ps, ∀ a, d m p.old = .ok a → Survives p.losses a (d m p.new))
    (h : items.readAll d m = .ok as) : Survives (lossesOf ps) as (items'.readAll d m) := by
  obtain ⟨hold, hnew⟩ := hpairs
  obtain ⟨ts, hts, hall⟩ := Items.readAll_eq_ok_iff.mp h
  obtain rfl := Option.some.inj (hold.symm.trans hts)
  rw [List.forall₂_map_left_iff] at hall
  have hsurvives : List.Forall₂ (fun p a => Survives p.losses a (d m p.new)) ps as :=
    ((List.forall₂_and_left ..).mpr ⟨hps, hall⟩).imp fun _ _ ⟨hp, ha⟩ => hp _ ha
  refine .of (fun hnone => ?_) (fun hsome bs hbs => ?_) ?_
  · have hall := (List.forall₂_and_left ..).mpr ⟨lossesOf_eq_zero_iff.mp hnone, hsurvives⟩
    refine Items.readAll_eq_ok_iff.mpr ⟨_, hnew, List.forall₂_map_left_iff.mpr ?_⟩
    exact hall.imp fun _ _ ⟨hp, hread⟩ => hread.1 hp
  · obtain ⟨p, hp, hlosses⟩ := exists_losses_of_ne_zero hsome
    obtain ⟨a, -, ha⟩ := exists_mem_of_forall₂ hsurvives hp
    obtain ⟨_, hts', hall'⟩ := Items.readAll_eq_ok_iff.mp hbs
    obtain rfl := Option.some.inj (hnew.symm.trans hts')
    obtain ⟨b, -, hb⟩ := exists_mem_of_forall₂ hall' (List.mem_map_of_mem hp)
    exact ha.ne_ok hlosses b hb
  · refine Items.readAll_failsBy hnew (List.forall_mem_map.mpr fun p hp => ?_)
    obtain ⟨a, -, ha⟩ := exists_mem_of_forall₂ hsurvives hp
    exact ha.failsBy

theorem survives_ofBody_items {fields : Fields α} {record : String} {a : α}
    (hfresh : fields.Fresh) (hpairs : PairsOf ps items items')
    (hps : ∀ (i : Nat) (p : Pair), ps[i]? = some p →
      ∀ (name : String) (β : Type) (d : Decoder β) (fallback : Option β),
        fields.Has i name d fallback → ∀ b, d m p.old = .ok b →
          Survives p.losses b (d m p.new))
    (h : fields.ofBody record m (.items items) = .ok a) :
    Survives (lossesOf ps) a (fields.ofBody record m (.items items')) := by
  obtain ⟨hold, hnew⟩ := hpairs
  obtain ⟨ts, hts, hlength, ha⟩ := (Fields.ofBody_items_eq_ok_iff hfresh.unread).mp h
  obtain rfl := Option.some.inj (hold.symm.trans hts)
  rw [List.length_map] at hlength
  -- What each field reads before is what its pair keeps or loses.
  have hslot {i : Nat} {p : Pair} (hp : ps[i]? = some p) {name : String} {β : Type}
      {d : Decoder β} {fallback : Option β} (hhas : fields.Has i name d fallback) :
      ∃ b, d m p.old = .ok b ∧ Survives p.losses b (d m p.new) := by
    obtain ⟨b, hb⟩ := ha.exists_slot hfresh.unread hhas
    have hread : d m p.old = .ok b := by simpa [byPlace, hp, readsIn] using hb
    exact ⟨b, hread, hps i p hp name β d fallback hhas b hread⟩
  refine .of (fun hnone => ?_) (fun hsome a' ha' => ?_) ?_
  · refine (Fields.ofBody_items_eq_ok_iff hfresh.unread).mpr
      ⟨_, hnew, by rwa [List.length_map], ?_⟩
    refine ha.imp hfresh.unread fun i name β d fallback hhas b hb => ?_
    cases hp : ps[i]? with
    | none => simpa [byPlace, hp] using hb
    | some p =>
      have hread : d m p.old = .ok b := by simpa [byPlace, hp, readsIn] using hb
      have hnone := lossesOf_eq_zero_iff.mp hnone p (List.mem_of_getElem? hp)
      have hnew := (hps i p hp name β d fallback hhas b hread).1 hnone
      simpa [byPlace, hp, readsIn] using hnew
  · obtain ⟨p, hmem, hlosses⟩ := exists_losses_of_ne_zero hsome
    obtain ⟨i, hi, rfl⟩ := List.mem_iff_getElem.mp hmem
    have hp : ps[i]? = some ps[i] := List.getElem?_eq_getElem hi
    obtain ⟨name, β, d, fallback, hhas⟩ :=
      Fields.exists_has_of_lt_count (Nat.lt_of_lt_of_le hi hlength)
    obtain ⟨b, -, hsurvives⟩ := hslot hp hhas
    obtain ⟨_, hts', -, ha'⟩ := (Fields.ofBody_items_eq_ok_iff hfresh.unread).mp ha'
    obtain rfl := Option.some.inj (hnew.symm.trans hts')
    obtain ⟨b', hb'⟩ := ha'.exists_slot hfresh.unread hhas
    exact hsurvives.ne_ok hlosses b' (by simpa [byPlace, hp, readsIn] using hb')
  · refine Fields.ofBody_items_failsBy hnew (by rwa [List.length_map]) ?_
    intro i name β d fallback hhas t ht
    rw [List.getElem?_map, Option.map_eq_some_iff] at ht
    obtain ⟨p, hp, rfl⟩ := ht
    obtain ⟨b, -, hsurvives⟩ := hslot hp hhas
    exact hsurvives.failsBy

end Items

end TemplateLint.Json
