import TemplateLint.Proofs.Files.Order

/-! The documents that findings make up. They are determined by the set of the hits alone: neither
their order counts, nor how often a path is found. -/
namespace TemplateLint.Files

namespace Path

/-- A list in strictly ascending order is determined by its members. -/
theorem eq_of_pairwise_isBefore {as bs : List (List Component)}
    (ha : as.Pairwise fun a b => isBefore a b = true)
    (hb : bs.Pairwise fun a b => isBefore a b = true) (h : ∀ path, path ∈ as ↔ path ∈ bs) :
    as = bs := by
  have hnodup {paths : List (List Component)}
      (hpaths : paths.Pairwise fun a b => isBefore a b = true) : paths.Nodup :=
    hpaths.imp ne_of_isBefore
  refine List.Perm.eq_of_pairwise (fun a b _ _ hab hba => ?_) ha hb
    ((List.perm_ext_iff_of_nodup (hnodup ha) (hnodup hb)).mpr h)
  rw [isBefore_iff] at hab hba
  exact absurd hba hab.asymm

end Path

namespace Documents

/-- The path is a document, and the finding comes across it. What globs find among installed
packages does not count. -/
inductive Finding.Hits : Finding → String → Prop
  | glob {paths : List String} {path : String} (hmem : path ∈ paths)
    (hdocument : isDocument path = true)
    (houtside : Component.name packageDirectory ∉ Path.components path) : Hits (.glob paths) path
  | walk {entries : List WalkEntry} {path : String} (hmem : WalkEntry.found path ∈ entries)
    (hdocument : isDocument path = true) : Hits (.walk entries) path

theorem mem_filterMap_found {entries : List WalkEntry} {path : String} :
    path ∈ entries.filterMap WalkEntry.found? ↔ WalkEntry.found path ∈ entries := by
  rw [List.mem_filterMap]
  constructor
  · rintro ⟨entry, hentry, hpath⟩
    cases entry with
    | found other =>
      obtain rfl := Option.some.inj hpath
      exact hentry
    | hidden other => cases hpath
  · exact fun h => ⟨_, h, rfl⟩

theorem Finding.mem_documents_iff {f : Finding} {path : String} :
    path ∈ f.documents ↔ f.Hits path := by
  cases f with
  | glob paths =>
    rw [documents, List.mem_filter, Bool.and_eq_true, isInPackages, Bool.not_eq_true',
      ← Bool.not_eq_true, List.contains_iff_mem]
    constructor
    · rintro ⟨hmem, hdocument, houtside⟩
      exact .glob hmem hdocument houtside
    · rintro ⟨hmem, hdocument, houtside⟩
      exact ⟨hmem, hdocument, houtside⟩
  | walk entries =>
    rw [documents, List.mem_filter, mem_filterMap_found]
    constructor
    · rintro ⟨hmem, hdocument⟩
      exact .walk hmem hdocument
    · rintro (_ | ⟨hmem, hdocument⟩)
      exact ⟨hmem, hdocument⟩

/-- A hit of the findings has these components. -/
def IsHit (findings : List Finding) (components : List Component) : Prop :=
  ∃ f ∈ findings, ∃ path, f.Hits path ∧ Path.components path = components

theorem isHit_iff_mem_map {findings : List Finding} {components : List Component} :
    IsHit findings components ↔
      components ∈ (findings.flatMap Finding.documents).map Path.components := by
  simp only [List.mem_map, List.mem_flatMap, Finding.mem_documents_iff, IsHit]
  constructor
  · rintro ⟨f, hf, path, hpath, rfl⟩
    exact ⟨path, ⟨f, hf, hpath⟩, rfl⟩
  · rintro ⟨path, ⟨f, hf, hpath⟩, rfl⟩
    exact ⟨f, hf, path, hpath, rfl⟩

theorem IsHit.mono {findings findings' : List Finding} {components : List Component}
    (h : IsHit findings components) (hsub : findings ⊆ findings') : IsHit findings' components := by
  obtain ⟨f, hf, path, hpath, hcomponents⟩ := h
  exact ⟨f, hsub hf, path, hpath, hcomponents⟩

/-- The components of all hits, each once and in strictly ascending order. -/
structure Enumerates (findings : List Finding) (documents : List (List Component)) : Prop where
  ascending : documents.Pairwise fun a b => Path.isBefore a b = true
  mem_iff : ∀ components, components ∈ documents ↔ IsHit findings components

theorem Enumerates.subset {findings findings' : List Finding}
    {documents documents' : List (List Component)} (h : Enumerates findings documents)
    (h' : Enumerates findings' documents') (hsub : findings ⊆ findings') :
    documents ⊆ documents' := by
  intro components hmem
  exact (h'.mem_iff components).mpr (((h.mem_iff components).mp hmem).mono hsub)

theorem Enumerates.unique {findings findings' : List Finding}
    {documents documents' : List (List Component)} (h : Enumerates findings documents)
    (h' : Enumerates findings' documents') (hsub : findings ⊆ findings')
    (hsub' : findings' ⊆ findings) : documents = documents' := by
  refine Path.eq_of_pairwise_isBefore h.ascending h'.ascending fun components => ?_
  exact ⟨fun hmem => h.subset h' hsub hmem, fun hmem => h'.subset h hsub' hmem⟩

theorem enumerates_ofFindings (findings : List Finding) :
    Enumerates findings ((ofFindings findings).map Path.components) where
  ascending := List.pairwise_map.mpr (ofFindings_pairwise findings)
  mem_iff components := by
    rw [isHit_iff_mem_map, List.mem_map, List.mem_map]
    constructor
    · rintro ⟨path, hpath, rfl⟩
      exact ⟨path, mem_of_mem_ofFindings hpath, rfl⟩
    · rintro ⟨path, hpath, rfl⟩
      exact exists_mem_ofFindings hpath

/-- The documents that are collected are the hits of all patterns, told apart and put in order by
their components, whatever the patterns come across and in whatever order. More patterns never make
fewer documents, and the order and the repeats of patterns do not matter. -/
theorem ofFindings_enumerates :
    (∀ findings documents, Enumerates findings documents ↔
      documents = (ofFindings findings).map Path.components) ∧
    (∀ (find : String → Finding) (patterns patterns' : List String), patterns ⊆ patterns' →
      (ofFindings (patterns.map find)).map Path.components ⊆
        (ofFindings (patterns'.map find)).map Path.components ∧
      (patterns' ⊆ patterns → (ofFindings (patterns.map find)).map Path.components =
        (ofFindings (patterns'.map find)).map Path.components)) ∧
    ∀ root patterns, Enumerates (patterns.map (find root))
      ((collect root patterns).map Path.components) := by
  refine ⟨fun findings documents => ⟨fun h => ?_, ?_⟩, fun find patterns patterns' hsub =>
    ⟨?_, fun hsub' => ?_⟩, fun root patterns => enumerates_ofFindings _⟩
  · exact h.unique (enumerates_ofFindings findings) (List.Subset.refl _) (List.Subset.refl _)
  · rintro rfl
    exact enumerates_ofFindings findings
  · exact (enumerates_ofFindings _).subset (enumerates_ofFindings _) (List.map_subset find hsub)
  · exact (enumerates_ofFindings _).unique (enumerates_ofFindings _) (List.map_subset find hsub)
      (List.map_subset find hsub')

/-- A dot is before a slash as a character, but a name is before the names that it starts. Packages
are skipped by the glob only, a second spelling of a path is no second document, and a pattern given
twice changes nothing. -/
theorem ofFindings_enumerates_spellings :
    let glob : Finding := .glob
      ["w/a.b/x.ast.json", "node_modules/y.ast.json", "w/a//x.ast.json", "w/a/x.json"]
    let walk : Finding := .walk
      [.found "w/node_modules/z.ast.json", .hidden "w/.h.ast.json", .found "w/a/x.ast.json"]
    let find (pattern : String) : Finding := if pattern = "w" then walk else glob
    let documents := [[.name "w", .name "a", .name "x.ast.json"],
      [.name "w", .name "a.b", .name "x.ast.json"],
      [.name "w", .name "node_modules", .name "z.ast.json"]]
    documents = (ofFindings [glob, walk]).map Path.components ∧
      documents = (ofFindings (["w", "**", "w"].map find)).map Path.components ∧
      (ofFindings (["w"].map find)).map Path.components ⊆ documents := by
  intro glob walk find documents
  obtain ⟨henumerates, hpatterns, -⟩ := ofFindings_enumerates
  have hhits : ([glob, walk].flatMap Finding.documents).map Path.components =
      [[.name "w", .name "a.b", .name "x.ast.json"], [.name "w", .name "a", .name "x.ast.json"],
        [.name "w", .name "node_modules", .name "z.ast.json"],
        [.name "w", .name "a", .name "x.ast.json"]] := by
    decide +kernel
  have hdocuments : documents = (ofFindings [glob, walk]).map Path.components := by
    refine (henumerates _ _).mp ⟨by decide +kernel, fun components => ?_⟩
    rw [isHit_iff_mem_map, hhits]
    simp only [documents, List.mem_cons, List.not_mem_nil, or_false]
    tauto
  have hsub : ["w", "**", "w"] ⊆ ["**", "w"] := by decide
  refine ⟨hdocuments, ?_, ?_⟩
  · exact hdocuments.trans ((hpatterns find ["w", "**", "w"] ["**", "w"] hsub).2 (by decide)).symm
  · rw [hdocuments]
    exact (hpatterns find ["w"] ["**", "w"] (by decide)).1

end Documents
end TemplateLint.Files
