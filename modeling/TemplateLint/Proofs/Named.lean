import Mathlib.Data.List.Basic
import Mathlib.Data.List.Nodup

/-! Values that are listed with their names, and looked up by them. Where no name is listed twice the
order of the list does not matter. -/
namespace TemplateLint

section Lookup
variable {γ : Type} {name : String} {x : γ} {es es' : List (String × γ)}

theorem lookup_cons_of_ne {n : String} (h : name ≠ n) (x : γ) (es : List (String × γ)) :
    List.lookup name ((n, x) :: es) = es.lookup name := by
  rw [List.lookup_cons, beq_eq_false_iff_ne.mpr h]

theorem lookup_eq_none_iff : es.lookup name = none ↔ name ∉ es.map Prod.fst := by
  rw [List.lookup_eq_none_iff]
  constructor
  · intro h hmem
    obtain ⟨entry, hentry, rfl⟩ := List.mem_map.mp hmem
    exact absurd (h entry hentry) (by simp)
  · intro h entry hentry
    exact bne_iff_ne.mpr fun heq => h (heq ▸ List.mem_map_of_mem hentry)

theorem mem_of_lookup (h : es.lookup name = some x) : (name, x) ∈ es := by
  obtain ⟨before, after, rfl, -⟩ := List.lookup_eq_some_iff.mp h
  exact List.mem_append_cons_self

theorem lookup_of_mem (hdistinct : (es.map Prod.fst).Nodup) (h : (name, x) ∈ es) :
    es.lookup name = some x := by
  induction es with
  | nil => cases h
  | cons entry es ih =>
    obtain ⟨hnot, hdistinct⟩ := List.nodup_cons.mp hdistinct
    rcases List.mem_cons.mp h with rfl | h
    · exact List.lookup_cons_self
    · have hne : name ≠ entry.1 := fun heq => hnot (heq ▸ List.mem_map_of_mem h)
      rw [lookup_cons_of_ne hne, ih hdistinct h]

/-- A list without repeated names can be looked up in any order. -/
theorem lookup_perm (hperm : es.Perm es') (hdistinct : (es.map Prod.fst).Nodup) (name : String) :
    es.lookup name = es'.lookup name := by
  have hdistinct' : (es'.map Prod.fst).Nodup := (hperm.map Prod.fst).nodup hdistinct
  ext x
  constructor
  · intro h
    exact lookup_of_mem hdistinct' (hperm.subset (mem_of_lookup h))
  · intro h
    exact lookup_of_mem hdistinct (hperm.symm.subset (mem_of_lookup h))

/-- Entries of one name are left out. -/
theorem lookup_filter_ne (n : String) (es : List (String × γ)) (name : String) :
    (es.filter (·.1 ≠ n)).lookup name = if n = name then none else es.lookup name := by
  induction es with
  | nil => simp
  | cons entry es ih =>
    obtain ⟨key, x⟩ := entry
    by_cases hkey : key = n
    · rw [List.filter_cons_of_neg (by simpa using hkey), ih]
      split
      next => rfl
      next hn => rw [lookup_cons_of_ne (hkey ▸ Ne.symm hn)]
    · rw [List.filter_cons_of_pos (by simpa using hkey)]
      by_cases hname : name = key
      · subst hname
        rw [List.lookup_cons_self, List.lookup_cons_self, if_neg (Ne.symm hkey)]
      · rw [lookup_cons_of_ne hname, lookup_cons_of_ne hname, ih]

end Lookup
end TemplateLint
