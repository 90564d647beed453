import TemplateLint.Proofs.Files.Walks

/-! What a glob finds, with and without fixed templates: the same, but for the fixed templates
themselves. So the same documents are collected. -/
namespace TemplateLint.Files
namespace Glob

def isKept (hit : Hit) : Bool := hit.2.isDirectory || !hit.1.endsWith fixedSuffix

/-- Hits without the fixed templates among them, and in them. -/
def withoutFixed (hits : List Hit) : List Hit :=
  (hits.filter isKept).map fun (path, t) => (path, t.withoutFixed)

theorem withoutFixed_append (as bs : List Hit) :
    withoutFixed (as ++ bs) = withoutFixed as ++ withoutFixed bs := by
  simp [withoutFixed]

theorem withoutFixed_cons (path : String) (t : FileTree) (hits : List Hit) :
    withoutFixed ((path, t) :: hits) =
      if isKept (path, t) then (path, t.withoutFixed) :: withoutFixed hits
      else withoutFixed hits := by
  rw [withoutFixed, List.filter_cons]
  split <;> rfl

/-- A name in a path ends as the path does. -/
theorem endsWith_join {base name : String} (h : IsName name) :
    (Path.join base name).endsWith fixedSuffix = name.endsWith fixedSuffix := by
  rcases eq_or_ne base "" with rfl | hbase
  · simp [Path.join]
  · obtain ⟨before, hlast⟩ : ∃ before, Path.segments (Path.join base name) = before ++ [name] := by
      rcases Path.segments_join hbase h.1 with ⟨-, hjoin⟩ | ⟨before, -, hjoin⟩
      · exact ⟨_, hjoin⟩
      · exact ⟨before, hjoin⟩
    exact Bool.eq_iff_iff.mpr (Path.endsWith_iff_of_segments hlast isPlain_fixedSuffix)

theorem endsWith_below {directory name : String} (h : IsName name) :
    (below directory name).endsWith fixedSuffix = name.endsWith fixedSuffix := by
  unfold below
  split
  next => rfl
  next => exact endsWith_join h

/-- Dots are never the end of a fixed template. -/
theorem endsWith_dot {path : String} (h : ['.'] <:+ path.toList) :
    path.endsWith fixedSuffix = false := by
  rw [← Bool.not_eq_true, Path.endsWith_iff]
  intro hends
  rcases List.suffix_or_suffix_of_suffix h hends with hsuffix | hsuffix <;>
    exact absurd hsuffix (by decide)

theorem suffix_join {suffix : List Char} {base name : String} (h : suffix <:+ name.toList) :
    suffix <:+ (Path.join base name).toList := by
  rw [← String.toList_ofList (l := suffix)] at *
  exact Path.endsWith_iff.mp (Path.endsWith_join base (Path.endsWith_iff.mpr h))

theorem suffix_below {suffix : List Char} {directory name : String}
    (h : suffix <:+ name.toList) : suffix <:+ (below directory name).toList := by
  unfold below
  split
  next => exact h
  next => exact suffix_join h

theorem isKept_entry {directory name : String} {t : FileTree} (h : IsName name) :
    isKept (below directory name, t) = !FileTree.isFixedTemplate name t := by
  rw [isKept, endsWith_below h, FileTree.isFixedTemplate, Bool.not_and, Bool.not_not]

theorem descendants_of_file {t : FileTree} (h : t.isDirectory = false) (base : String) :
    t.descendants base = [] := by
  cases t with
  | directory entries => cases h
  | _ => rfl

mutual

theorem treeDescendants_withoutFixed (base : String) {t : FileTree} (h : t.Proper) :
    t.withoutFixed.descendants base = withoutFixed (t.descendants base) := by
  match t with
  | .text _ => rfl
  | .binary => rfl
  | .directory entries =>
    cases h with
    | directory distinct names below =>
      exact entryDescendants_withoutFixed base entries names below

theorem entryDescendants_withoutFixed (base : String) (entries : List (String × FileTree))
    (hnames : ∀ e ∈ entries, IsName e.1) (h : ∀ e ∈ entries, e.2.Proper) :
    FileTree.descendantsOfAll base (FileTree.withoutFixedEntries entries) =
      withoutFixed (FileTree.descendantsOfAll base entries) := by
  match entries with
  | [] => rfl
  | (name, t) :: rest =>
    have hrest := entryDescendants_withoutFixed base rest
      (fun e he => hnames e (List.mem_cons_of_mem _ he)) fun e he => h e (List.mem_cons_of_mem _ he)
    have hbelow := treeDescendants_withoutFixed (Path.join base name) (h _ List.mem_cons_self)
    have hkept : isKept (Path.join base name, t) = !FileTree.isFixedTemplate name t := by
      rw [isKept, endsWith_join (hnames _ List.mem_cons_self), FileTree.isFixedTemplate,
        Bool.not_and, Bool.not_not]
    rw [FileTree.withoutFixedEntries]
    cases hfixed : FileTree.isFixedTemplate name t with
    | true =>
      have hnone : t.descendants (Path.join base name) = [] :=
        descendants_of_file (FileTree.not_isDirectory_of_isFixedTemplate hfixed) _
      rw [if_pos rfl, FileTree.descendantsOfAll, hnone, List.cons_append, withoutFixed_cons,
        hkept, hfixed, hrest]
      rfl
    | false =>
      rw [if_neg Bool.false_ne_true, FileTree.descendantsOfAll, FileTree.descendantsOfAll, hrest,
        hbelow, List.cons_append, List.cons_append, withoutFixed_cons, hkept, hfixed,
        withoutFixed_append]
      rfl

end

theorem filter_withoutFixed {p : Hit → Bool} (hp : ∀ path t, p (path, t.withoutFixed) = p (path, t))
    (hits : List Hit) : (withoutFixed hits).filter p = withoutFixed (hits.filter p) := by
  rw [withoutFixed, withoutFixed, List.filter_map, List.filter_filter, List.filter_filter]
  refine congrArg _ (List.filter_congr fun hit _ => ?_)
  rw [Bool.and_comm]
  exact congrArg _ (hp hit.1 hit.2)

/-- Going on from hits, when nothing is found from those that are left out. -/
theorem flatMap_withoutFixed {hits : List Hit} {f f' : String → List Hit}
    (hf : ∀ path, f' path = withoutFixed (f path))
    (hdrop : ∀ hit ∈ hits, isKept hit = false → f hit.1 = []) :
    ((withoutFixed hits).flatMap fun hit => f' hit.1) =
      withoutFixed (hits.flatMap fun hit => f hit.1) := by
  induction hits with
  | nil => rfl
  | cons hit hits ih =>
    obtain ⟨path, t⟩ := hit
    have hrest := ih fun hit hmem => hdrop hit (List.mem_cons_of_mem _ hmem)
    rw [withoutFixed_cons, List.flatMap_cons, withoutFixed_append, ← hrest]
    cases hkept : isKept (path, t) with
    | true => rw [if_pos rfl, List.flatMap_cons, hf]
    | false =>
      rw [if_neg Bool.false_ne_true, hdrop _ List.mem_cons_self hkept]
      rfl

theorem isKept_dot {path : String} (h : ['.'] <:+ path.toList) (t : FileTree) :
    isKept (path, t) = true := by
  rw [isKept, endsWith_dot h]
  exact Bool.or_true _

theorem filterMap_withoutFixed {α : Type} {as : List α} {f f' : α → Option Hit}
    (hf : ∀ a ∈ as, (f' a).toList = withoutFixed (f a).toList) :
    as.filterMap f' = withoutFixed (as.filterMap f) := by
  induction as with
  | nil => rfl
  | cons a as ih =>
    obtain ⟨hfirst, hrest⟩ := List.forall_mem_cons.mp hf
    rw [List.filterMap_eq_flatMap_toList, List.filterMap_eq_flatMap_toList, List.flatMap_cons,
      List.flatMap_cons, withoutFixed_append, hfirst, ← List.filterMap_eq_flatMap_toList,
      ← List.filterMap_eq_flatMap_toList, ih hrest]

/-- Entries of a directory as hits. -/
theorem map_entries_withoutFixed (directory : String) (p : String → Bool)
    {entries : List (String × FileTree)} (hnames : ∀ e ∈ entries, IsName e.1) :
    ((FileTree.withoutFixedEntries entries).filter fun (name, _) => p name).map
        (fun (name, t) => (below directory name, t)) =
      withoutFixed ((entries.filter fun (name, _) => p name).map
        fun (name, t) => (below directory name, t)) := by
  induction entries with
  | nil => rfl
  | cons e entries ih =>
    obtain ⟨name, t⟩ := e
    obtain ⟨hname, hnames⟩ := List.forall_mem_cons.mp hnames
    have hkept : isKept (below directory name, t) = !FileTree.isFixedTemplate name t :=
      isKept_entry hname
    rw [FileTree.withoutFixedEntries, List.filter_cons]
    cases hfixed : FileTree.isFixedTemplate name t <;> rw [hfixed] at hkept <;>
      cases hp : p name
    case true.false =>
      rw [if_pos rfl, if_neg (by simp [hp])]
      exact ih hnames
    case true.true =>
      rw [if_pos rfl, if_pos hp, List.map_cons, withoutFixed_cons, hkept]
      exact ih hnames
    case false.false =>
      rw [if_neg Bool.false_ne_true, List.filter_cons, if_neg (by simp [hp]),
        if_neg (by simp [hp])]
      exact ih hnames
    case false.true =>
      rw [if_neg Bool.false_ne_true, List.filter_cons, if_pos hp, if_pos hp, List.map_cons,
        List.map_cons, withoutFixed_cons, hkept]
      exact congrArg _ (ih hnames)

theorem nameHits_eq {root : FileTree} {w : Wildcard} (h : w.literal? = none)
    (directory : String) : nameHits root directory w =
      match (root.find directory).toOption with
      | some (.directory entries) =>
        (entries.filter fun (name, _) => w.accepts name.toList).map
          (fun (name, t) => (below directory name, t)) ++ dotHits root directory w
      | _ => [] := by
  rw [nameHits, h]
  cases root.find directory with
  | error e => rfl
  | ok t => cases t <;> rfl

theorem descendants_eq (root : FileTree) (directory : String) : descendants root directory =
    match (root.find directory).toOption with
    | some t => t.descendants (if isHere directory then "" else directory)
    | none => [] := by
  rw [descendants]
  cases root.find directory <;> rfl

section Lookups
variable {root : FileTree} (h : root.Proper) (directory : String)
include h

/-- One path, with what is found there. -/
theorem toList_find_withoutFixed (path : String) :
    ((root.withoutFixed.find path).toOption.map (path, ·)).toList =
      withoutFixed ((root.find path).toOption.map (path, ·)).toList := by
  rw [FileTree.find_withoutFixed h]
  cases (root.find path).toOption with
  | none => rfl
  | some u =>
    rw [Option.filter_some, Option.map_some, Option.toList_some, withoutFixed_cons, isKept]
    split <;> rfl

theorem literalHit?_withoutFixed (name : String) :
    (literalHit? root.withoutFixed directory name).toList =
      withoutFixed (literalHit? root directory name).toList := by
  unfold literalHit?
  rw [FileTree.isDirectoryAt_withoutFixed h]
  split
  next hdots =>
    have hdot : ['.'] <:+ (below directory name).toList := by
      rw [Bool.or_eq_true, decide_eq_true_eq, decide_eq_true_eq] at hdots
      rcases hdots with rfl | rfl <;> exact suffix_below (by decide)
    split
    next =>
      dsimp only
      rw [FileTree.find_withoutFixed_of_endsWith h (endsWith_dot hdot), Option.toList_some,
        Option.toList_some, withoutFixed_cons, isKept_dot hdot]
      cases (root.find (below directory name)).toOption <;> rfl
    next => rfl
  next => exact toList_find_withoutFixed h _

theorem dotHits_withoutFixed (w : Wildcard) :
    dotHits root.withoutFixed directory w = withoutFixed (dotHits root directory w) := by
  unfold dotHits
  split
  next =>
    refine filterMap_withoutFixed fun name _ => ?_
    split
    next => exact toList_find_withoutFixed h _
    next => rfl
  next => rfl

theorem nameHits_withoutFixed (w : Wildcard) :
    nameHits root.withoutFixed directory w = withoutFixed (nameHits root directory w) := by
  cases hliteral : w.literal? with
  | some name =>
    rw [nameHits, nameHits, hliteral]
    exact literalHit?_withoutFixed h directory name
  | none =>
    rw [nameHits_eq hliteral, nameHits_eq hliteral, FileTree.find_withoutFixed h]
    cases hfind : (root.find directory).toOption with
    | none => rfl
    | some t =>
      rw [Option.filter_some]
      cases t with
      | directory entries =>
        cases h.find hfind with
        | directory distinct names below =>
          rw [withoutFixed_append, ← dotHits_withoutFixed h]
          exact congrArg (· ++ dotHits root.withoutFixed directory w)
            (map_entries_withoutFixed directory (fun name => w.accepts name.toList) names)
      | _ => cases directory.endsWith fixedSuffix <;> rfl

theorem descendants_withoutFixed :
    descendants root.withoutFixed directory = withoutFixed (descendants root directory) := by
  rw [descendants_eq, descendants_eq, FileTree.find_withoutFixed h]
  cases hfind : (root.find directory).toOption with
  | none => rfl
  | some t =>
    rw [Option.filter_some]
    cases hdirectory : t.isDirectory with
    | true => exact treeDescendants_withoutFixed _ (h.find hfind)
    | false =>
      have hnone (base : String) : t.withoutFixed.descendants base = [] :=
        descendants_of_file ((FileTree.isDirectory_withoutFixed t).trans hdirectory) base
      dsimp only
      rw [descendants_of_file hdirectory]
      cases directory.endsWith fixedSuffix with
      | true => rfl
      | false => exact hnone _

end Lookups

/-! Hits are what is found at their paths -/

theorem segments_of_isHere {path : String} (h : isHere path = true) :
    ∀ s ∈ Path.segments path, s = "" ∨ s = "." := by
  rw [isHere, decide_eq_true_eq] at h
  have hpath : path ≠ "" := by
    rintro rfl
    cases h
  rw [Path.components_eq hpath] at h
  cases hsegments : Path.segments path with
  | nil => exact absurd hsegments (Path.segments_ne_nil path)
  | cons first rest =>
    rw [hsegments, Path.frontComponents] at h
    split at h
    next => cases h
    next =>
      split at h
      next hfirst =>
        have hrest : rest.filterMap Path.componentOf? = [] := (List.cons.inj h).2
        refine List.forall_mem_cons.mpr ⟨.inr hfirst, fun s hs => ?_⟩
        exact Path.componentOf?_eq_none (List.filterMap_eq_nil_iff.mp hrest s hs)
      next hempty hdot =>
        cases hc : Path.componentOf? first with
        | none => exact absurd (Path.componentOf?_eq_none hc) (not_or.mpr ⟨hempty, hdot⟩)
        | some c =>
          rw [hc] at h
          exact absurd (List.cons.inj h).1 (Path.ne_current_of_componentOf? hc)

theorem eq_root_of_isHere {root t : FileTree} {path : String} (h : isHere path = true)
    (hfind : (root.find path).toOption = some t) : t = root := by
  obtain ⟨way, hplace, hway⟩ := Option.bind_eq_some_iff.mp (root.find_place? path ▸ hfind)
  rw [FileTree.place?] at hplace
  split at hplace
  next => cases hplace
  next =>
    rw [FileTree.foldlM_stepWay_blanks (segments_of_isHere h)] at hplace
    split at hplace
    next =>
      cases hplace
      exact (Option.some.inj hway).symm
    next => cases hplace

/-- The path of a place in the tree; the tree itself may have none. -/
def LeadsTo (root : FileTree) (base : String) (t : FileTree) : Prop :=
  base = "" ∧ t = root ∨ (root.find base).toOption = some t

theorem LeadsTo.find_join {root t u : FileTree} {base name : String} (h : LeadsTo root base t)
    (hchild : t.child? name = some u) (hname : IsName name) :
    (root.find (Path.join base name)).toOption = some u := by
  rcases h with ⟨rfl, rfl⟩ | hfind
  · have hjoin : Path.join "" name = name := by simp [Path.join]
    rw [hjoin, FileTree.find_name hname, hchild]
  · exact FileTree.find_join hfind hchild hname

theorem leadsTo_here {root t : FileTree} {directory : String}
    (h : (root.find directory).toOption = some t) :
    LeadsTo root (if isHere directory then "" else directory) t := by
  cases hhere : isHere directory with
  | true => exact .inl ⟨rfl, eq_root_of_isHere hhere h⟩
  | false => exact .inr h

theorem find_below {root t u : FileTree} {directory name : String}
    (h : (root.find directory).toOption = some t) (hchild : t.child? name = some u)
    (hname : IsName name) : (root.find (below directory name)).toOption = some u := by
  have hjoin := (leadsTo_here h).find_join hchild hname
  unfold below
  split at hjoin
  next hhere =>
    rw [if_pos hhere]
    simpa [Path.join] using hjoin
  next hhere =>
    rw [if_neg hhere]
    exact hjoin

mutual

theorem find_of_mem_descendants {root t : FileTree} {base : String} (h : t.Proper)
    (hbase : LeadsTo root base t) :
    ∀ hit ∈ t.descendants base, (root.find hit.1).toOption = some hit.2 := by
  match t with
  | .text _ => nofun
  | .binary => nofun
  | .directory entries =>
    cases h with
    | directory distinct names below =>
      refine find_of_mem_descendantsOfAll entries below fun e he => ?_
      exact hbase.find_join (lookup_of_mem distinct he) (names e he)

theorem find_of_mem_descendantsOfAll {root : FileTree} {base : String}
    (entries : List (String × FileTree)) (h : ∀ e ∈ entries, e.2.Proper)
    (hbase : ∀ e ∈ entries, (root.find (Path.join base e.1)).toOption = some e.2) :
    ∀ hit ∈ FileTree.descendantsOfAll base entries,
      (root.find hit.1).toOption = some hit.2 := by
  match entries with
  | [] => nofun
  | (name, t) :: rest =>
    obtain ⟨hfirst, hrest⟩ := List.forall_mem_cons.mp hbase
    obtain ⟨hproper, hpropers⟩ := List.forall_mem_cons.mp h
    intro hit hmem
    rcases List.mem_append.mp hmem with hmem | hmem
    · rcases List.mem_cons.mp hmem with rfl | hmem
      · exact hfirst
      · exact find_of_mem_descendants hproper (.inr hfirst) hit hmem
    · exact find_of_mem_descendantsOfAll rest hpropers hrest hit hmem

end

theorem find_of_mem_toList {root : FileTree} {path : String} {hit : Hit}
    (h : hit ∈ ((root.find path).toOption.map (path, ·)).toList) :
    (root.find hit.1).toOption = some hit.2 := by
  obtain ⟨t, ht, rfl⟩ := Option.map_eq_some_iff.mp (Option.mem_toList.mp h)
  exact ht

/-- A path that ends with `.` or `..` may be a hit of a directory though nothing is found there. -/
structure DotHit (root : FileTree) (directory : String) (path : String) : Prop where
  isDirectoryAt : root.isDirectoryAt directory = true
  path_eq : path = below directory "." ∨ path = below directory ".."

theorem DotHit.isKept {root : FileTree} {directory path : String} (h : DotHit root directory path)
    (t : FileTree) : isKept (path, t) = true := by
  apply isKept_dot
  rcases h.path_eq with rfl | rfl <;> exact suffix_below (by decide)

theorem find_of_mem_literalHit? {root : FileTree} {directory name : String} {hit : Hit}
    (h : hit ∈ (literalHit? root directory name).toList) :
    (root.find hit.1).toOption = some hit.2 ∨ DotHit root directory hit.1 := by
  unfold literalHit? at h
  split at h
  next hdots =>
    split at h
    next hdirectory =>
      obtain rfl := Option.mem_some_iff.mp (Option.mem_toList.mp h)
      refine .inr ⟨hdirectory, ?_⟩
      rw [Bool.or_eq_true, decide_eq_true_eq, decide_eq_true_eq] at hdots
      rcases hdots with rfl | rfl
      · exact .inl rfl
      · exact .inr rfl
    next => cases h
  next => exact .inl (find_of_mem_toList h)

theorem find_of_mem_nameHits {root : FileTree} (h : root.Proper) {directory : String}
    {w : Wildcard} {hit : Hit} (hmem : hit ∈ nameHits root directory w) :
    (root.find hit.1).toOption = some hit.2 ∨ DotHit root directory hit.1 := by
  cases hliteral : w.literal? with
  | some name =>
    rw [nameHits, hliteral] at hmem
    exact find_of_mem_literalHit? hmem
  | none =>
    rw [nameHits_eq hliteral] at hmem
    apply Or.inl
    split at hmem
    next entries hfind =>
      rcases List.mem_append.mp hmem with hmem | hmem
      · obtain ⟨e, he, rfl⟩ := List.mem_map.mp hmem
        have he := List.mem_of_mem_filter he
        cases h.find hfind with
        | directory distinct names below =>
          exact find_below hfind (lookup_of_mem distinct he) (names e he)
      · unfold dotHits at hmem
        split at hmem
        next =>
          obtain ⟨name, -, hname⟩ := List.mem_filterMap.mp hmem
          split at hname
          next => exact find_of_mem_toList (Option.mem_toList.mpr hname)
          next => cases hname
        next => cases hmem
    next => cases hmem

theorem find_of_mem_hits {root : FileTree} (h : root.Proper) {directory : String} {hit : Hit}
    (hmem : hit ∈ descendants root directory) : (root.find hit.1).toOption = some hit.2 := by
  rw [descendants_eq] at hmem
  split at hmem
  next t hfind => exact find_of_mem_descendants (h.find hfind) (leadsTo_here hfind) hit hmem
  next => cases hmem

theorem hitsFrom_anyDepth {ss : List GlobSegment} (hss : ss ≠ []) (root : FileTree)
    (directory : String) (w : Wildcard) : hitsFrom root directory (.anyDepth :: .name w :: ss) =
      ((descendants root directory).filter fun (path, _) =>
        (Path.fileName? path).any fun name => w.accepts name.toList).flatMap fun hit =>
          hitsFrom root hit.1 ss := by
  rw [hitsFrom]
  exact hss

theorem hitsFrom_name {ss : List GlobSegment} (hss : ss ≠ []) (root : FileTree)
    (directory : String) (w : Wildcard) : hitsFrom root directory (.name w :: ss) =
      (nameHits root directory w).flatMap fun hit => hitsFrom root hit.1 ss := by
  rw [hitsFrom]
  exact hss

section Files
variable {root t : FileTree} {path : String} (h : (root.find path).toOption = some t)
  (hfile : t.isDirectory = false)
include h hfile

theorem descendants_eq_nil : descendants root path = [] := by
  rw [descendants_eq, h]
  exact descendants_of_file hfile _

theorem nameHits_eq_nil (hends : path.endsWith fixedSuffix = true) (w : Wildcard) :
    nameHits root path w = [] := by
  have hsuffix : fixedSuffix.toList <:+ path.toList := Path.endsWith_iff.mp hends
  cases hliteral : w.literal? with
  | none =>
    rw [nameHits_eq hliteral, h]
    cases t with
    | directory entries => cases hfile
    | _ => rfl
  | some name =>
    have hhere : isHere path = false := by
      rw [← Bool.not_eq_true]
      intro hhere
      obtain ⟨before, last, hlast⟩ := exists_segments_concat path
      have hlast' : last.endsWith fixedSuffix = true :=
        (Path.endsWith_iff_of_segments hlast isPlain_fixedSuffix).mp hends
      rcases segments_of_isHere hhere last (by simp [hlast]) with rfl | rfl <;>
        exact absurd hlast' (by decide)
    have hseparator : path.endsWith "/" = false := by
      rw [← Bool.not_eq_true, Path.endsWith_iff]
      intro hslash
      rcases List.suffix_or_suffix_of_suffix hsuffix hslash with hsuffix | hsuffix <;>
        exact absurd hsuffix (by decide)
    have hdirectory : root.isDirectoryAt path = false := by
      rw [FileTree.isDirectoryAt_eq, h]
      exact hfile
    have hbelow : (root.find (below path name)).toOption = none := by
      rw [below, hhere]
      exact FileTree.find_join_of_file h hfile hseparator name
    rw [nameHits, hliteral]
    simp [literalHit?, hdirectory, hbelow]

/-- Nothing is found in a fixed template. -/
theorem hitsFrom_of_file (hends : path.endsWith fixedSuffix = true) {ss : List GlobSegment}
    (hss : ss ≠ []) : hitsFrom root path ss = [] := by
  have hbelow := descendants_eq_nil h hfile
  have hnames := nameHits_eq_nil h hfile hends
  match ss with
  | [] => exact absurd rfl hss
  | [.anyDepth] => rw [hitsFrom, hbelow]; rfl
  | .anyDepth :: .anyDepth :: ss =>
    rw [hitsFrom]
    exact hitsFrom_of_file hends (List.cons_ne_nil _ _)
  | [.anyDepth, .name w] => rw [hitsFrom, hbelow]; rfl
  | .anyDepth :: .name w :: s :: ss =>
    rw [hitsFrom_anyDepth (List.cons_ne_nil _ _), hbelow]
    rfl
  | [.name w] => rw [hitsFrom, hnames]
  | .name w :: s :: ss =>
    rw [hitsFrom_name (List.cons_ne_nil _ _), hnames]
    rfl

end Files

/-- A pattern finds the same without fixed templates, but for these. -/
theorem hitsFrom_withoutFixed {root : FileTree} (h : root.Proper) (directory : String)
    (ss : List GlobSegment) :
    hitsFrom root.withoutFixed directory ss = withoutFixed (hitsFrom root directory ss) := by
  have hdrop {hits : List Hit}
      (hfind : ∀ hit ∈ hits, isKept hit = false → (root.find hit.1).toOption = some hit.2)
      {ss : List GlobSegment} (hss : ss ≠ []) :
      ∀ hit ∈ hits, isKept hit = false → hitsFrom root hit.1 ss = [] := by
    intro hit hmem hkept
    have hfixed := hkept
    rw [isKept, Bool.or_eq_false_iff, Bool.not_eq_false'] at hfixed
    exact hitsFrom_of_file (hfind hit hmem hkept) hfixed.1 hfixed.2 hss
  induction directory, ss using hitsFrom.induct root with
  | case1 directory => rfl
  | case2 directory =>
    rw [hitsFrom, hitsFrom, descendants_withoutFixed h]
    exact filter_withoutFixed (fun path t => FileTree.isDirectory_withoutFixed t) _
  | case3 directory ss ih => rw [hitsFrom, hitsFrom, ih]
  | case4 directory w =>
    rw [hitsFrom, hitsFrom, descendants_withoutFixed h]
    exact filter_withoutFixed (fun path t => rfl) _
  | case5 directory w ss hss ih =>
    rw [hitsFrom_anyDepth hss, hitsFrom_anyDepth hss, descendants_withoutFixed h,
      filter_withoutFixed fun path t => rfl]
    refine flatMap_withoutFixed ih (hdrop (fun hit hmem _ => ?_) hss)
    exact find_of_mem_hits h (List.mem_of_mem_filter hmem)
  | case6 directory w => rw [hitsFrom, hitsFrom, nameHits_withoutFixed h]
  | case7 directory w ss hss ih =>
    rw [hitsFrom_name hss, hitsFrom_name hss, nameHits_withoutFixed h]
    refine flatMap_withoutFixed ih (hdrop (fun hit hmem hkept => ?_) hss)
    refine (find_of_mem_nameHits h hmem).resolve_right fun hdot => ?_
    rw [hdot.isKept] at hkept
    cases hkept

theorem hits_withoutFixed {root : FileTree} (h : root.Proper) (g : Glob) :
    g.hits root.withoutFixed = withoutFixed (g.hits root) := by
  rw [hits, hits, hitsFrom_withoutFixed h]
  refine filter_withoutFixed (fun path t => ?_) _
  dsimp only
  rw [FileTree.isDirectory_withoutFixed]

/-- No document is among the hits that are left out. -/
theorem filter_map_withoutFixed {p : String → Bool}
    (hp : ∀ path, p path = true → isDocument path = true) (hits : List Hit) :
    ((withoutFixed hits).map Prod.fst).filter p = (hits.map Prod.fst).filter p := by
  have hkept (hit : Hit) (hdocument : p hit.1 = true) : isKept hit = true := by
    rw [isKept, not_endsWith_fixedSuffix (hp hit.1 hdocument)]
    exact Bool.or_true _
  rw [withoutFixed, List.map_map, List.filter_map, List.filter_filter, List.filter_map]
  refine congrArg _ (List.filter_congr fun hit _ => ?_)
  exact Bool.and_eq_left_iff_imp.mpr (hkept hit)

end Glob

namespace Documents
variable {root : FileTree} (h : root.Proper)
include h

theorem documents_find_withoutFixed (pattern : String) :
    (find root.withoutFixed pattern).documents = (find root pattern).documents := by
  unfold find
  split
  next =>
    split
    next =>
      cases Glob.ofString? pattern with
      | none => rfl
      | some g =>
        dsimp only [Finding.documents]
        rw [Glob.hits_withoutFixed h]
        exact Glob.filter_map_withoutFixed (fun path hpath => (Bool.and_eq_true_iff.mp hpath).1) _
    next => exact FileTree.walkDocuments_walk h pattern
  next => rfl

/-- The documents that patterns stand for are the same without fixed templates. -/
theorem collect_withoutFixed (patterns : List String) :
    collect root.withoutFixed patterns = collect root patterns := by
  rw [collect, collect, ofFindings, ofFindings, List.flatMap_map, List.flatMap_map]
  simp only [documents_find_withoutFixed h]

end Documents
end TemplateLint.Files
