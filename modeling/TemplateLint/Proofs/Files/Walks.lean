import TemplateLint.Proofs.Files.FixedTemplates

/-! Walks through a tree come across the same documents with and without fixed templates, and find
the same rules about what to leave out. -/
namespace TemplateLint.Files

theorem Path.endsWith_join {name suffix : String} (base : String)
    (h : name.endsWith suffix = true) : (join base name).endsWith suffix = true := by
  rw [endsWith_iff] at *
  unfold join
  split
  next => exact h
  next =>
    split <;>
    · rw [String.toList_append]
      exact h.trans (List.suffix_append _ _)

section Layers
variable {t : FileTree} (h : t.Proper)
include h

theorem IgnoreLayer.rulesAt_withoutFixed {path : String}
    (hpath : path.endsWith fixedSuffix = false) :
    rulesAt t.withoutFixed path = rulesAt t path := by
  have hread := FileTree.read_withoutFixed h hpath
  unfold rulesAt
  cases hfound : t.read path <;> cases hfound' : t.withoutFixed.read path <;>
    simp_all [Except.toOption]

theorem IgnoreLayer.ofDirectory_withoutFixed : ofDirectory t.withoutFixed = ofDirectory t := by
  have hpath {path : String} (hends : ¬fixedSuffix.toList <:+ path.toList) :
      path.endsWith fixedSuffix = false := by
    rwa [← Bool.not_eq_true, Path.endsWith_iff]
  unfold ofDirectory
  rw [rulesAt_withoutFixed h (hpath (by decide)), rulesAt_withoutFixed h (hpath (by decide)),
    rulesAt_withoutFixed h (hpath (by decide)),
    FileTree.contains_withoutFixed h (hpath (by decide))]

theorem IgnoreScope.ofDirectory_withoutFixed : ofDirectory t.withoutFixed = ofDirectory t := by
  rw [ofDirectory, ofDirectory, IgnoreLayer.ofDirectory_withoutFixed h]

end Layers

/-- The documents among what a walk has come across. -/
def walkDocuments (entries : List WalkEntry) : List String :=
  (entries.filterMap WalkEntry.found?).filter isDocument

theorem walkDocuments_append (as bs : List WalkEntry) :
    walkDocuments (as ++ bs) = walkDocuments as ++ walkDocuments bs := by
  simp [walkDocuments]

theorem walkDocuments_found (path : String) (entries : List WalkEntry) :
    walkDocuments (.found path :: entries) =
      if isDocument path then path :: walkDocuments entries else walkDocuments entries := by
  rw [walkDocuments, List.filterMap_cons]
  exact List.filter_cons

theorem isDocument_eq_false {path : String} (h : path.endsWith fixedSuffix = true) :
    isDocument path = false := by
  by_contra hdocument
  rw [not_endsWith_fixedSuffix (Bool.not_eq_false _ ▸ hdocument)] at h
  cases h

namespace FileTree

theorem walkBelow_of_file {t : FileTree} (h : t.isDirectory = false) (scopes : IgnoreScopes)
    (base : String) : t.walkBelow scopes base = [] := by
  cases t with
  | directory entries => cases h
  | _ => rfl

mutual

theorem walkDocuments_walkBelow (scopes : IgnoreScopes) (base : String) {t : FileTree}
    (h : t.Proper) : walkDocuments (t.withoutFixed.walkBelow scopes base) =
      walkDocuments (t.walkBelow scopes base) := by
  match t with
  | .text _ => rfl
  | .binary => rfl
  | .directory entries =>
    cases h with
    | directory distinct names below => exact walkDocuments_walkEntries scopes base entries below

theorem walkDocuments_walkEntries (scopes : IgnoreScopes) (base : String)
    (entries : List (String × FileTree)) (h : ∀ e ∈ entries, e.2.Proper) :
    walkDocuments (walkEntries scopes base (withoutFixedEntries entries)) =
      walkDocuments (walkEntries scopes base entries) := by
  match entries with
  | [] => rfl
  | (name, t) :: rest =>
    have hrest := walkDocuments_walkEntries scopes base rest
      fun e he => h e (List.mem_cons_of_mem _ he)
    rw [withoutFixedEntries]
    split
    next hfixed =>
      -- Neither the fixed template nor anything inside of it is a document.
      have hends := Path.endsWith_join base (endsWith_of_isFixedTemplate hfixed)
      rw [hrest, walkEntries, walkBelow_of_file (not_isDirectory_of_isFixedTemplate hfixed)]
      split
      next => rfl
      next => rfl
      next =>
        rw [List.cons_append, walkDocuments_found, isDocument_eq_false hends]
        rfl
    next =>
      have hproper := h _ List.mem_cons_self
      have hbelow := walkDocuments_walkBelow (scopes.enter name t) (Path.join base name) hproper
      rw [walkEntries, walkEntries, isDirectory_withoutFixed]
      split
      next => exact hrest
      next => exact hrest
      next =>
        rw [List.cons_append, walkDocuments_found, List.cons_append, walkDocuments_found,
          walkDocuments_append, walkDocuments_append, hrest, ← hbelow, IgnoreScopes.enter,
          IgnoreScope.ofDirectory_withoutFixed hproper, ← IgnoreScopes.enter]

end

end FileTree

namespace Location

def withoutFixed (l : Location) : Location :=
  ⟨l.here.withoutFixed, l.name, l.above.map fun (name, t) => (name, t.withoutFixed)⟩

theorem Reached.proper {root : FileTree} {l : Location} (h : Reached root l)
    (hroot : root.Proper) : l.here.Proper ∧ ∀ e ∈ l.above, e.2.Proper := by
  induction h with
  | top => exact ⟨hroot, nofun⟩
  | @down l l' name hl hdown ih =>
    obtain ⟨t, hchild, rfl⟩ := Option.map_eq_some_iff.mp hdown
    exact ⟨ih.1.child hchild, List.forall_mem_cons.mpr ih⟩

/-- The location at a place without fixed templates. -/
theorem Reached.withoutFixed_eq {root : FileTree} {l l' : Location} (h : Reached root l)
    (hroot : root.Proper) (h' : Reached root.withoutFixed l') (hway : l'.way = l.way) :
    l' = l.withoutFixed := by
  induction h generalizing l' with
  | top =>
    cases h' with
    | top => rfl
    | down hl' hdown' =>
      rw [way_down hdown'] at hway
      exact absurd hway (List.append_ne_nil_of_right_ne_nil _ (List.cons_ne_nil _ _))
  | @down l₁ l name hl hdown ih =>
    cases h' with
    | top =>
      rw [way_down hdown] at hway
      exact absurd hway.symm (List.append_ne_nil_of_right_ne_nil _ (List.cons_ne_nil _ _))
    | @down l₁' _ name' hl' hdown' =>
      rw [way_down hdown, way_down hdown'] at hway
      obtain ⟨hup, hname⟩ := List.append_inj' hway rfl
      obtain rfl : name' = name := List.singleton_inj.mp hname
      obtain rfl := ih hl' hup
      obtain ⟨t, hchild, rfl⟩ := Option.map_eq_some_iff.mp hdown
      obtain ⟨t', hchild', rfl⟩ := Option.map_eq_some_iff.mp hdown'
      change l₁.here.withoutFixed.child? name' = some t' at hchild'
      rw [FileTree.child?_withoutFixed (hl.proper hroot).1, hchild, Option.filter_some] at hchild'
      split at hchild'
      next =>
        obtain rfl := Option.some.inj hchild'
        rfl
      next => cases hchild'

theorem scopesAbove_withoutFixed (path : String) (above : List (String × FileTree))
    (h : ∀ e ∈ above, e.2.Proper) :
    scopesAbove path (above.map fun (name, t) => (name, t.withoutFixed)) =
      scopesAbove path above := by
  induction above generalizing path with
  | nil => rfl
  | cons e above ih =>
    obtain ⟨hfirst, hrest⟩ := List.forall_mem_cons.mp h
    rw [List.map_cons, scopesAbove, scopesAbove, ih _ hrest,
      IgnoreLayer.ofDirectory_withoutFixed hfirst]

theorem Reached.scopes_withoutFixed {root : FileTree} {l : Location} (h : Reached root l)
    (hroot : root.Proper) : l.withoutFixed.scopes = l.scopes := by
  obtain ⟨hhere, habove⟩ := h.proper hroot
  unfold scopes withoutFixed
  rw [scopesAbove_withoutFixed _ _ habove, IgnoreScope.ofDirectory_withoutFixed hhere]

end Location

/-- A walk from a path comes across the same documents without fixed templates. -/
theorem FileTree.walkDocuments_walk {root : FileTree} (h : root.Proper) (path : String) :
    walkDocuments (root.withoutFixed.walk path) = walkDocuments (root.walk path) := by
  obtain ⟨hplace, hreached⟩ := root.locate_place? path
  obtain ⟨hplace', hreached'⟩ := root.withoutFixed.locate_place? path
  have hfind := find_withoutFixed h path
  have hfilter := filter_place?_withoutFixed h path
  unfold find at hfind
  unfold walk
  cases hl : root.locate path with
  | error e =>
    cases hl' : root.withoutFixed.locate path with
    | error e' => rfl
    | ok l' =>
      rw [hl, hl'] at hfind
      cases hfind
  | ok l =>
    have hl₁ := hreached l hl
    cases hl' : root.withoutFixed.locate path with
    | error e' =>
      rw [hl, hl'] at hfind
      change none = Option.map _ (Option.filter _ (some l.here)) at hfind
      rw [Option.filter_some] at hfind
      split at hfind
      next => cases hfind
      next hfixed =>
        rw [Bool.not_eq_true, Bool.or_eq_false_iff, Bool.not_eq_false'] at hfixed
        dsimp only
        rw [walkDocuments_found, isDocument_eq_false hfixed.2, walkBelow_of_file hfixed.1]
        rfl
    | ok l' =>
      have hl₂ := hreached' l' hl'
      have hhere : l'.here = l.here.withoutFixed := by
        rw [hl, hl'] at hfind
        change some l'.here = Option.map _ (Option.filter _ (some l.here)) at hfind
        rw [Option.filter_some] at hfind
        split at hfind
        next => exact Option.some.inj hfind
        next => cases hfind
      have hdirectory' : l'.here.isDirectory = l.here.isDirectory := by
        rw [hhere, isDirectory_withoutFixed]
      dsimp only
      rw [walkDocuments_found, walkDocuments_found]
      cases hdirectory : l.here.isDirectory with
      | false => rw [walkBelow_of_file hdirectory, walkBelow_of_file (hdirectory'.trans hdirectory)]
      | true =>
        have hway : l'.way = l.way := by
          rw [← hplace, ← hplace', hl, hl'] at hfilter
          change Option.filter _ (some l'.way) = Option.filter _ (some l.way) at hfilter
          rw [Option.filter_some, Option.filter_some, hl₁.hasDirectory_way, hdirectory,
            ← hasDirectory_withoutFixed h, hl₂.hasDirectory_way, hdirectory', hdirectory] at hfilter
          exact Option.some.inj hfilter
        rw [hl₁.withoutFixed_eq h hl₂ hway, hl₁.scopes_withoutFixed h, Location.withoutFixed,
          walkDocuments_walkBelow _ _ (hl₁.proper h).1]

theorem Documents.isGlob_eq (pattern : String) :
    isGlob pattern = pattern.toList.any fun c => c = '*' || c = '?' || c = '[' := by
  rw [isGlob, ← String.contains_bool_eq]
  rfl

/-- A file with the name of a document stands for itself. -/
theorem DocumentPath.documents_find {root t : FileTree} {path stem : String} {before : List String}
    (h : DocumentPath path before stem) (hglob : Documents.isGlob path = false)
    (hfind : (root.find path).toOption = some t) (hfile : t.isDirectory = false) :
    (Documents.find root path).documents = [path] := by
  have hwalk : root.walk path = [.found path] := by
    unfold FileTree.walk
    unfold FileTree.find at hfind
    cases hl : root.locate path with
    | error e =>
      rw [hl] at hfind
      cases hfind
    | ok l =>
      rw [hl] at hfind
      cases hfind
      dsimp only
      rw [FileTree.walkBelow_of_file hfile]
  rw [Documents.find, if_pos h.isInside, if_neg (hglob ▸ Bool.false_ne_true), hwalk]
  simp [Documents.Finding.documents, WalkEntry.found?, h.isDocument]

/-- Documents that are given one by one in the order of their paths. -/
theorem Documents.collect_of_sorted {root : FileTree} {paths : List String}
    (hpaths : ∀ path ∈ paths, (find root path).documents = [path])
    (hsorted : paths.Pairwise fun a b => isNotAfter a b = true) :
    collect root paths = withoutRepeats paths := by
  have hdocuments : (paths.map (find root)).flatMap Finding.documents = paths := by
    rw [List.flatMap_map, List.flatMap_congr hpaths]
    exact List.flatMap_singleton' paths
  rw [collect, ofFindings, hdocuments, List.mergeSort_of_pairwise hsorted]

/-- A document that is all that is asked for. -/
theorem DocumentPath.collect_singleton {root t : FileTree} {path stem : String}
    {before : List String} (h : DocumentPath path before stem)
    (hglob : Documents.isGlob path = false) (hfind : (root.find path).toOption = some t)
    (hfile : t.isDirectory = false) : Documents.collect root [path] = [path] :=
  Documents.collect_of_sorted (List.forall_mem_singleton.mpr (h.documents_find hglob hfind hfile))
    (List.pairwise_singleton _ _)

end TemplateLint.Files
