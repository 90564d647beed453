import TemplateLint.Proofs.Files.Globs

/-! Where the fixed template of a document is written: beside the document, and at a place that no
other document's fixed template has. -/
namespace TemplateLint.Files

/-- A document that can be read has the path of a file. -/
theorem exists_documentPath {root : FileTree} {path content : String}
    (hdocument : isDocument path = true) (hread : root.read path = .ok content) :
    ∃ before stem, DocumentPath path before stem := by
  have hfound : ((root.place? path).bind root.at?).bind FileTree.text? = some content := by
    rw [← FileTree.read_place?, hread]
    rfl
  obtain ⟨t, ht, htext⟩ := Option.bind_eq_some_iff.mp hfound
  obtain ⟨way, hplace, hway⟩ := Option.bind_eq_some_iff.mp ht
  have hfile : t.isDirectory = false := by
    cases t with
    | text content => rfl
    | _ => cases htext
  obtain ⟨before, last, hlast⟩ := exists_segments_concat path
  rw [FileTree.place?_concat hlast] at hplace
  split at hplace
  next => cases hplace
  next hhead =>
    obtain ⟨way', -, hstep⟩ := Option.bind_eq_some_iff.mp hplace
    rcases last_of_isDocument hdocument hlast with hblank | ⟨stem, rfl⟩
    · -- What ends with nothing of meaning is a directory.
      obtain ⟨rfl, hdirectory⟩ := FileTree.stepWay_blank hstep hblank
      rw [FileTree.hasDirectory, hway, Option.any_some, hfile] at hdirectory
      cases hdirectory
    · refine ⟨before, stem, hlast, fun hbefore => hhead ?_⟩
      rw [hlast, List.head?_append, hbefore]
      rfl

/-- The path of a fixed template: a name with its suffix, below the working directory. -/
structure FixedPath (path : String) : Prop where
  relative : (Path.segments path).head? ≠ some ""
  isName : IsName ((Path.segments path).getLastD "")
  suffix : ((Path.segments path).getLastD "").endsWith fixedSuffix = true

/-- A document in a tree, and where its fixed template is written. -/
structure Beside (root : FileTree) (path target : String) (way : List String) (stem : String) :
    Prop where
  fixedPath : fixedPath? path = some target
  isFixed : FixedPath target
  directory : ∃ before, Path.components path = before ++ [.name (stem ++ documentSuffix)] ∧
    Path.components target = before ++ [.name (stem ++ fixedSuffix)]
  document : root.place? path = some (way ++ [stem ++ documentSuffix])
  fixed : ∀ place, root.target? target = some place → place = way ++ [stem ++ fixedSuffix]

namespace DocumentPath
variable {path stem : String} {before : List String} (h : DocumentPath path before stem)
include h

theorem isName : IsName (stem ++ documentSuffix) := by
  have hmem : stem ++ documentSuffix ∈ Path.segments path := by
    rw [h.segments]
    exact List.mem_append_right _ List.mem_cons_self
  exact ⟨Path.isPlain_of_mem_segments hmem, componentOf?_append (by decide)⟩

/-- The way of a document goes on from that of the path that its fixed template stands in. -/
theorem exists_way {root t : FileTree} (hfind : (root.find path).toOption = some t) :
    ∃ way, (Path.trimSegments before).foldlM root.stepWay [] = some way ∧
      root.place? path = some (way ++ [stem ++ documentSuffix]) := by
  obtain ⟨place, hplace, -⟩ := Option.bind_eq_some_iff.mp (root.find_place? path ▸ hfind)
  rw [hplace]
  rw [FileTree.place?_concat h.segments] at hplace
  split at hplace
  next => cases hplace
  next =>
    obtain ⟨way, hway, hstep⟩ := Option.bind_eq_some_iff.mp hplace
    rw [FileTree.stepWay_of_isName h.isName] at hstep
    obtain ⟨blanks, hblanks, hall⟩ := Path.exists_eq_trimSegments_append before
    rw [hblanks, List.foldlM_append] at hway
    obtain ⟨way', hway', hkept⟩ := Option.bind_eq_some_iff.mp hway
    rw [FileTree.foldlM_stepWay_blanks hall] at hkept
    split at hkept
    next =>
      obtain rfl := Option.some.inj hkept
      split at hstep
      next => exact ⟨way', hway', hstep.symm⟩
      next => cases hstep
    next => cases hkept

theorem exists_beside {root t : FileTree} (hfind : (root.find path).toOption = some t) :
    ∃ target way, Beside root path target way stem := by
  obtain ⟨target, htarget, hsegments⟩ := h.exists_fixedPath?_eq
  obtain ⟨way, hway, hplace⟩ := h.exists_way hfind
  have hfixed : IsName (stem ++ fixedSuffix) := ⟨h.isPlain_fixed, componentOf?_append (by decide)⟩
  have hlast : (Path.segments target).getLastD "" = stem ++ fixedSuffix := by simp [hsegments]
  refine ⟨target, way, htarget, ⟨?_, ?_, ?_⟩, ⟨Path.frontComponents before, h.components_eq, ?_⟩,
    hplace, fun place htarget => ?_⟩
  · rw [hsegments]
    cases before with
    | nil => simpa [Path.trimSegments] using (Path.ne_of_componentOf? hfixed.2).1
    | cons first rest => exact h.relative
  · rw [hlast]
    exact hfixed
  · rw [hlast]
    exact Path.endsWith_iff.mpr (by simp)
  · rw [Path.components_of_segments hsegments hfixed.2, Path.frontComponents_trimSegments]
  · obtain ⟨way', hway', hwritten⟩ := Option.bind_eq_some_iff.mp htarget
    rw [hsegments, List.dropLast_concat, hway, Option.some.injEq] at hway'
    dsimp only at hwritten
    rw [hlast, ← hway'] at hwritten
    split at hwritten
    next => exact (Option.some.inj hwritten).symm
    next => cases hwritten

end DocumentPath

theorem append_suffix_inj {stem stem' suffix : String} (h : stem ++ suffix = stem' ++ suffix) :
    stem = stem' := by
  have hchars := congrArg String.toList h
  rw [String.toList_append, String.toList_append] at hchars
  exact String.toList_inj.mp (List.append_cancel_right hchars)

namespace Beside
variable {root : FileTree} {path path' target target' stem stem' : String}
  {way way' : List String} (h : Beside root path target way stem)
  (h' : Beside root path' target' way' stem')
include h h'

/-- Documents at different paths have their fixed templates at different paths. -/
theorem components_ne (hne : Path.components path ≠ Path.components path') :
    Path.components target ≠ Path.components target' := by
  obtain ⟨before, hpath, htarget⟩ := h.directory
  obtain ⟨before', hpath', htarget'⟩ := h'.directory
  rw [htarget, htarget']
  intro heq
  obtain ⟨hbefore, hname⟩ := List.append_inj' heq rfl
  have hstem := append_suffix_inj (Component.name.inj (List.singleton_inj.mp hname))
  exact hne (by rw [hpath, hpath', hbefore, hstem])

/-- Paths that lead to one fixed template are those of one document. -/
theorem place?_eq {place : List String} (htarget : root.target? target = some place)
    (htarget' : root.target? target' = some place) : root.place? path = root.place? path' := by
  have heq := (h.fixed place htarget).symm.trans (h'.fixed place htarget')
  obtain ⟨hway, hname⟩ := List.append_inj' heq rfl
  rw [h.document, h'.document, hway, append_suffix_inj (List.singleton_inj.mp hname)]

end Beside

/-- What was written at a path is found there. -/
theorem FixedPath.place?_eq {t : FileTree} {path : String} {place : List String}
    (h : FixedPath path) (htarget : t.target? path = some place)
    (hplace : (t.at? place).isSome = true) : t.place? path = some place := by
  obtain ⟨before, last, hlast⟩ := exists_segments_concat path
  obtain ⟨way, hway, hwritten⟩ := Option.bind_eq_some_iff.mp htarget
  have hname := h.isName
  rw [hlast, List.dropLast_concat] at hway
  rw [hlast, List.getLastD_concat] at hname hwritten
  dsimp only at hwritten
  split at hwritten
  next =>
    obtain rfl := Option.some.inj hwritten
    rw [FileTree.place?_concat hlast, if_neg h.relative, hway, Option.bind_some,
      FileTree.stepWay_of_isName hname, if_pos hplace]
  next => cases hwritten

/-! Trees with other fixed templates -/

/-- A tree that differs from another one in fixed templates at most. -/
structure Intact (root t : FileTree) : Prop where
  proper : t.Proper
  same : t.withoutFixed = root.withoutFixed

theorem Intact.refl {root : FileTree} (hroot : root.Proper) : Intact root root := ⟨hroot, rfl⟩

namespace Intact
variable {root t : FileTree} (h : Intact root t) (hroot : root.Proper)
include h hroot

theorem target?_eq (path : String) : t.target? path = root.target? path := by
  rw [← FileTree.target?_withoutFixed h.proper, h.same, FileTree.target?_withoutFixed hroot]

theorem read_eq {path : String} (hpath : path.endsWith fixedSuffix = false) :
    (t.read path).toOption = (root.read path).toOption := by
  rw [← FileTree.read_withoutFixed h.proper hpath, h.same, FileTree.read_withoutFixed hroot hpath]

theorem contains_eq {path : String} (hpath : path.endsWith fixedSuffix = false) :
    t.contains path = root.contains path := by
  rw [← FileTree.contains_withoutFixed h.proper hpath, h.same,
    FileTree.contains_withoutFixed hroot hpath]

theorem collect_eq (patterns : List String) :
    Documents.collect t patterns = Documents.collect root patterns := by
  rw [← Documents.collect_withoutFixed h.proper, h.same, Documents.collect_withoutFixed hroot]

end Intact

theorem Intact.insert {root t : FileTree} {path : String} {place : List String}
    (h : Intact root t) (hpath : FixedPath path) (htarget : t.target? path = some place)
    (content : String) : Intact root (t.insert place (.text content)) := by
  obtain ⟨hwritable, way, hplace⟩ := FileTree.writable_of_target? htarget
  have hlast : place.getLast? = some ((Path.segments path).getLastD "") := by
    rw [hplace, List.getLast?_concat]
  constructor
  · exact hwritable.proper_insert h.proper
      (fun name hname => Option.some.inj (hlast.symm.trans hname) ▸ hpath.isName) (.text content)
  · rw [FileTree.withoutFixed_insert hwritable h.proper
      (fun name hname => Option.some.inj (hlast.symm.trans hname) ▸ hpath.suffix), h.same]

end TemplateLint.Files
