import TemplateLint.Proofs.Files.Globs

/-! Documents that patterns come across are there: each path that is found has a place in the
tree. -/
namespace TemplateLint.Files

namespace FileTree
variable {root : FileTree}

theorem contains_of_find {t : FileTree} {path : String} (h : (root.find path).toOption = some t) :
    root.contains path = true := by
  rw [contains_eq, h]
  rfl

theorem exists_place_of_contains {path : String} (h : root.contains path = true) :
    ∃ way, root.place? path = some way := by
  rw [contains_eq, find_place?] at h
  obtain ⟨t, ht⟩ := Option.isSome_iff_exists.mp h
  obtain ⟨way, hplace, -⟩ := Option.bind_eq_some_iff.mp ht
  exact ⟨way, hplace⟩

mutual

theorem contains_of_mem_walkBelow {t : FileTree} {base : String} (scopes : IgnoreScopes)
    (h : t.Proper) (hbase : (root.find base).toOption = some t) {path : String}
    (hmem : .found path ∈ t.walkBelow scopes base) : root.contains path = true := by
  match t with
  | .text _ => cases hmem
  | .binary => cases hmem
  | .directory entries =>
    cases h with
    | directory distinct names below =>
      refine contains_of_mem_walkEntries scopes entries below (fun e he => ?_) hmem
      exact find_join hbase (lookup_of_mem distinct he) (names e he)

theorem contains_of_mem_walkEntries {base : String} (scopes : IgnoreScopes)
    (entries : List (String × FileTree)) (h : ∀ e ∈ entries, e.2.Proper)
    (hbase : ∀ e ∈ entries, (root.find (Path.join base e.1)).toOption = some e.2) {path : String}
    (hmem : .found path ∈ walkEntries scopes base entries) : root.contains path = true := by
  match entries with
  | [] => cases hmem
  | (name, t) :: rest =>
    obtain ⟨hfirst, hothers⟩ := List.forall_mem_cons.mp hbase
    obtain ⟨hproper, hpropers⟩ := List.forall_mem_cons.mp h
    have hrest (hmem : .found path ∈ walkEntries scopes base rest) : root.contains path = true :=
      contains_of_mem_walkEntries scopes rest hpropers hothers hmem
    rw [walkEntries] at hmem
    split at hmem
    next => exact hrest hmem
    next => exact hrest ((List.mem_cons.mp hmem).resolve_left (by simp))
    next =>
      rcases List.mem_append.mp hmem with hmem | hmem
      · rcases List.mem_cons.mp hmem with heq | hmem
        · cases heq
          exact contains_of_find hfirst
        · exact contains_of_mem_walkBelow (scopes.enter name t) hproper hfirst hmem
      · exact hrest hmem

end

theorem contains_of_mem_walk (h : root.Proper) {pattern path : String}
    (hmem : .found path ∈ root.walk pattern) : root.contains path = true := by
  have hlocate : root.find pattern = (root.locate pattern).map Location.here := rfl
  unfold walk at hmem
  split at hmem
  next l hl =>
    have hfind : (root.find pattern).toOption = some l.here := by
      rw [hlocate, hl]
      rfl
    rcases List.mem_cons.mp hmem with heq | hmem
    · cases heq
      exact contains_of_find hfind
    · exact contains_of_mem_walkBelow l.scopes (h.find hfind) hfind hmem
  next => cases hmem

end FileTree

namespace Glob
variable {root : FileTree}

/-- A single dot behind a directory leads nowhere else. -/
theorem contains_below_dot {directory : String} (h : root.isDirectoryAt directory = true) :
    root.contains (below directory ".") = true := by
  rw [FileTree.isDirectoryAt_eq] at h
  obtain ⟨t, hfind, hdirectory⟩ := (Option.any_eq_true ..).mp h
  unfold below
  split
  next hhere =>
    obtain rfl := eq_root_of_isHere hhere hfind
    have hstep : t.stepWay [] "." = some [] := by
      simp [FileTree.stepWay, FileTree.hasDirectory, hdirectory]
    have hplace : t.place? "." = some [] := by
      rw [FileTree.place?, Path.segments_of_isPlain (by decide), if_neg (by decide)]
      exact (bind_pure _).trans hstep
    rw [FileTree.contains_eq, FileTree.find_place?, hplace]
    rfl
  next =>
    obtain ⟨way, hplace, hway⟩ := Option.bind_eq_some_iff.mp (root.find_place? directory ▸ hfind)
    have hstep : root.stepWay way "." = some way := by
      simp [FileTree.stepWay, FileTree.hasDirectory, hway, hdirectory]
    rw [FileTree.contains_eq, FileTree.find_place?, FileTree.place?_join hplace (by decide), hstep,
      Option.bind_some, hway]
    rfl

/-- No document is called `..`. -/
theorem not_isDocument_below_dots (directory : String) :
    isDocument (below directory "..") = false := by
  obtain ⟨before, hlast⟩ : ∃ before, Path.segments (below directory "..") = before ++ [".."] := by
    unfold below
    split
    next => exact ⟨[], Path.segments_of_isPlain (by decide)⟩
    next =>
      rcases eq_or_ne directory "" with rfl | hne
      · have hjoin : Path.join "" ".." = ".." := by simp [Path.join]
        rw [hjoin]
        exact ⟨[], Path.segments_of_isPlain (by decide)⟩
      · have hplain : Path.IsPlain ".." := by decide
        rcases Path.segments_join hne hplain with ⟨-, hjoin⟩ | ⟨before, -, hjoin⟩
        · exact ⟨_, hjoin⟩
        · exact ⟨before, hjoin⟩
  rw [isDocument, Path.fileName?_of_segments hlast (c := .parent) rfl]
  rfl

variable (h : root.Proper)
include h

theorem contains_of_mem_nameHits {directory : String} {w : Wildcard} {hit : Hit}
    (hmem : hit ∈ nameHits root directory w) (hdocument : isDocument hit.1 = true) :
    root.contains hit.1 = true := by
  rcases find_of_mem_nameHits h hmem with hfind | hdot
  · exact FileTree.contains_of_find hfind
  · rcases hdot.path_eq with heq | heq
    · rw [heq]
      exact contains_below_dot hdot.isDirectoryAt
    · rw [heq, not_isDocument_below_dots] at hdocument
      cases hdocument

theorem contains_of_mem_hitsFrom {directory : String} {ss : List GlobSegment} {hit : Hit}
    (hmem : hit ∈ hitsFrom root directory ss) (hdocument : isDocument hit.1 = true) :
    root.contains hit.1 = true := by
  have hbelow {directory : String} {p : Hit → Bool}
      (hmem : hit ∈ (descendants root directory).filter p) : root.contains hit.1 = true :=
    FileTree.contains_of_find (find_of_mem_hits h (List.mem_of_mem_filter hmem))
  induction directory, ss using hitsFrom.induct root with
  | case1 directory => cases hmem
  | case2 directory =>
    rw [hitsFrom] at hmem
    exact hbelow hmem
  | case3 directory ss ih =>
    rw [hitsFrom] at hmem
    exact ih hmem
  | case4 directory w =>
    rw [hitsFrom] at hmem
    exact hbelow hmem
  | case5 directory w ss hss ih =>
    rw [hitsFrom_anyDepth hss] at hmem
    obtain ⟨found, -, hmem⟩ := List.mem_flatMap.mp hmem
    exact ih found.1 hmem
  | case6 directory w =>
    rw [hitsFrom] at hmem
    exact contains_of_mem_nameHits h hmem hdocument
  | case7 directory w ss hss ih =>
    rw [hitsFrom_name hss] at hmem
    obtain ⟨found, -, hmem⟩ := List.mem_flatMap.mp hmem
    exact ih found.1 hmem

end Glob

namespace Documents

/-- A document that a pattern comes across is in the tree. -/
theorem contains_of_mem_documents {root : FileTree} (h : root.Proper) {pattern path : String}
    (hmem : path ∈ (find root pattern).documents) : root.contains path = true := by
  unfold find at hmem
  split at hmem
  next =>
    split at hmem
    next =>
      cases hglob : Glob.ofString? pattern with
      | none =>
        rw [hglob] at hmem
        cases hmem
      | some g =>
        rw [hglob] at hmem
        obtain ⟨hpath, hkept⟩ := List.mem_filter.mp hmem
        obtain ⟨hit, hhit, rfl⟩ := List.mem_map.mp hpath
        exact Glob.contains_of_mem_hitsFrom h (List.mem_of_mem_filter hhit)
          (Bool.and_eq_true_iff.mp hkept).1
    next =>
      obtain ⟨entry, hentry, hpath⟩ := List.mem_filterMap.mp (List.mem_of_mem_filter hmem)
      cases entry with
      | found path' =>
        cases hpath
        exact FileTree.contains_of_mem_walk h hentry
      | hidden path' => cases hpath
  next => cases hmem

end Documents
end TemplateLint.Files
