import TemplateLint.Proofs.Files.Places

/-! Where the components of a path lead. A path that has a place in a tree leads there by its
components alone, whatever the tree. -/
namespace TemplateLint.Files

/-- Where a component leads from a place. -/
def Component.lead (way : List String) : Component → List String
  | .parent => way.dropLast
  | .name s => way ++ [s]
  | _ => way

theorem foldl_lead_names (way names : List String) :
    (names.map Component.name).foldl Component.lead way = way ++ names := by
  induction names generalizing way with
  | nil => exact (List.append_nil way).symm
  | cons name names ih =>
    rw [List.map_cons, List.foldl_cons, ih]
    exact List.append_assoc way [name] names

namespace Path

/-- The components of segments, without the one that a single dot at the start stands for. -/
def innerComponents (path : String) : List Component := (segments path).filterMap componentOf?

theorem componentOf?_eq_some {s : String} {c : Component} (h : componentOf? s = some c) :
    c = .parent ∨ c = .name s := by
  unfold componentOf? at h
  split at h
  next => cases h
  next =>
    split at h <;> rw [Option.some.injEq] at h
    · exact .inl h.symm
    · exact .inr h.symm

/-- Components without a `..` are names. -/
theorem exists_names {segments : List String}
    (h : Component.parent ∉ segments.filterMap componentOf?) :
    ∃ names : List String, segments.filterMap componentOf? = names.map .name := by
  induction segments with
  | nil => exact ⟨[], rfl⟩
  | cons s segments ih =>
    rw [List.filterMap_cons] at h ⊢
    cases hc : componentOf? s with
    | none =>
      rw [hc] at h
      exact ih h
    | some c =>
      rw [hc] at h
      obtain ⟨hfirst, hrest⟩ := not_or.mp (List.mem_cons.not.mp h)
      obtain ⟨names, hnames⟩ := ih hrest
      refine ⟨s :: names, ?_⟩
      rw [hnames, (componentOf?_eq_some hc).resolve_left (Ne.symm hfirst)]
      rfl

end Path

namespace FileTree
variable {t : FileTree}

theorem stepWay_eq_some {way way' : List String} {segment : String}
    (h : t.stepWay way segment = some way') :
    way' = (Path.componentOf? segment).elim way (Component.lead way) := by
  unfold stepWay at h
  split at h
  next => cases h
  next =>
    unfold Path.componentOf?
    split at h
    next hblank =>
      rw [if_pos hblank]
      exact (Option.some.inj h).symm
    next hblank =>
      rw [if_neg hblank]
      split at h
      next hparent =>
        rw [if_pos hparent]
        split at h
        next => cases h
        next => exact (Option.some.inj h).symm
      next hparent =>
        rw [if_neg hparent]
        split at h
        next => exact (Option.some.inj h).symm
        next => cases h

theorem foldlM_stepWay_eq_some {segments way way' : List String}
    (h : segments.foldlM t.stepWay way = some way') :
    way' = (segments.filterMap Path.componentOf?).foldl Component.lead way := by
  induction segments generalizing way with
  | nil => exact (Option.some.inj h).symm
  | cons segment segments ih =>
    rw [List.foldlM_cons] at h
    obtain ⟨next, hnext, hrest⟩ := Option.bind_eq_some_iff.mp h
    rw [ih hrest, stepWay_eq_some hnext, List.filterMap_cons]
    cases Path.componentOf? segment <;> rfl

/-- A path with a place has no component beside its inner ones but a single dot in front. -/
theorem components_of_place? {path : String} {way : List String} (h : t.place? path = some way) :
    (Path.components path = Path.innerComponents path ∨
        Path.components path = .current :: Path.innerComponents path) ∧
      way = (Path.innerComponents path).foldl Component.lead [] := by
  unfold place? at h
  split at h
  next => cases h
  next hrelative =>
    refine ⟨?_, foldlM_stepWay_eq_some h⟩
    have hpath : path ≠ "" := by
      rintro rfl
      exact hrelative rfl
    rw [Path.components_eq hpath, Path.innerComponents]
    cases hsegments : Path.segments path with
    | nil => exact absurd hsegments (Path.segments_ne_nil path)
    | cons first rest =>
      have hfirst : first ≠ "" := by
        rintro rfl
        exact hrelative (hsegments ▸ rfl)
      rw [Path.frontComponents, if_neg hfirst, List.filterMap_cons]
      split
      next hdot =>
        rw [hdot]
        exact .inr rfl
      next => cases Path.componentOf? first <;> exact .inl rfl

/-- The components of a path say where it leads. -/
theorem place?_eq_lead {path : String} {way : List String} (h : t.place? path = some way) :
    way = (Path.components path).foldl Component.lead [] := by
  obtain ⟨hcomponents | hcomponents, hway⟩ := components_of_place? h <;>
  · rw [hcomponents]
    exact hway

theorem place?_inj {u : FileTree} {path path' : String} {way way' : List String}
    (h : t.place? path = some way) (h' : u.place? path' = some way')
    (hcomponents : Path.components path = Path.components path') : way = way' := by
  rw [place?_eq_lead h, place?_eq_lead h', hcomponents]

/-- Without a `..`, the components are the names of the place, behind a single dot perhaps. -/
theorem components_eq_of_place? {path : String} {way : List String} (h : t.place? path = some way)
    (hparent : Component.parent ∉ Path.components path) :
    Path.components path = way.map .name ∨ Path.components path = .current :: way.map .name := by
  obtain ⟨hcomponents, hway⟩ := components_of_place? h
  have hinner : Component.parent ∉ Path.innerComponents path := by
    intro hmem
    rcases hcomponents with heq | heq <;> rw [heq] at hparent
    · exact hparent hmem
    · exact hparent (List.mem_cons_of_mem _ hmem)
  obtain ⟨names, hnames⟩ := Path.exists_names hinner
  have hinnerComponents : Path.innerComponents path = names.map .name := hnames
  rw [hinnerComponents, foldl_lead_names, List.nil_append] at hway
  rw [hway, ← hinnerComponents]
  exact hcomponents

end FileTree
end TemplateLint.Files
