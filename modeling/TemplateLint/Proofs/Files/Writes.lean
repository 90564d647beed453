import TemplateLint.Proofs.Files.Places
import TemplateLint.Proofs.Named

/-! Trees as a file system has them, and what a written file changes: nothing but its own place. -/
namespace TemplateLint.Files

/-- The name of an entry, which is one component of a path. -/
def IsName (s : String) : Prop := Path.IsPlain s ∧ Path.componentOf? s = some (.name s)

instance (s : String) : Decidable (IsName s) :=
  inferInstanceAs (Decidable (Path.IsPlain s ∧ Path.componentOf? s = some (.name s)))

namespace FileTree

/-- No directory of the tree has two entries of one name, and all names are names. -/
inductive Proper : FileTree → Prop
  | text (content : String) : Proper (.text content)
  | binary : Proper .binary
  | directory {entries : List (String × FileTree)} (distinct : (entries.map Prod.fst).Nodup)
      (names : ∀ e ∈ entries, IsName e.1) (below : ∀ e ∈ entries, Proper e.2) :
      Proper (.directory entries)

theorem Proper.singleton {t : FileTree} {name : String} (hname : IsName name) (h : t.Proper) :
    Proper (.directory [(name, t)]) :=
  .directory (List.pairwise_singleton _ name) (List.forall_mem_singleton.mpr hname)
    (List.forall_mem_singleton.mpr h)

theorem Proper.child {t u : FileTree} {name : String} (h : t.Proper)
    (hchild : t.child? name = some u) : u.Proper := by
  cases h with
  | text content => cases hchild
  | binary => cases hchild
  | directory distinct names below => exact below _ (mem_of_lookup hchild)

theorem Proper.isName_of_child? {t u : FileTree} {name : String} (h : t.Proper)
    (hchild : t.child? name = some u) : IsName name := by
  cases h with
  | text content => cases hchild
  | binary => cases hchild
  | directory distinct names below => exact names _ (mem_of_lookup hchild)

theorem at?_cons_of_file {t : FileTree} (h : t.isDirectory = false) (name : String)
    (way : List String) : t.at? (name :: way) = none := by
  cases t with
  | directory entries => cases h
  | _ => rfl

theorem Proper.at? {t u : FileTree} {way : List String} (h : t.Proper)
    (hway : t.at? way = some u) : u.Proper := by
  induction way generalizing t with
  | nil =>
    cases hway
    exact h
  | cons name way ih =>
    obtain ⟨child, hchild, hway⟩ := Option.bind_eq_some_iff.mp (at?_cons t name way ▸ hway)
    exact ih (h.child hchild) hway

theorem Proper.find {t u : FileTree} {path : String} (h : t.Proper)
    (hfind : (t.find path).toOption = some u) : u.Proper := by
  obtain ⟨way, -, hway⟩ := Option.bind_eq_some_iff.mp (t.find_place? path ▸ hfind)
  exact h.at? hway

/-! Entries -/

theorem lookup_replace (entries : List (String × FileTree)) (name other : String)
    (new : FileTree) :
    (entries.map fun (n, old) => if n = name then (n, new) else (n, old)).lookup other =
      if other = name then (entries.lookup name).map fun _ => new else entries.lookup other := by
  induction entries with
  | nil => simp
  | cons entry entries ih =>
    obtain ⟨n, old⟩ := entry
    rw [List.map_cons]
    by_cases hother : other = n
    · subst hother
      by_cases hn : other = name
      · simp [hn]
      · simp [hn]
    · have hcons (t : FileTree) (es : List (String × FileTree)) :
          List.lookup other ((n, t) :: es) = es.lookup other := lookup_cons_of_ne hother t es
      by_cases hn : n = name
      · simp only [if_pos hn, hcons, ih, hn ▸ hother, if_false]
      · simp only [if_neg hn, hcons, ih, lookup_cons_of_ne (Ne.symm hn)]

theorem child?_put (t : FileTree) (name other : String) (new : FileTree) :
    (t.put name new).child? other = if other = name then some new else t.child? other := by
  unfold put
  split
  next h =>
    obtain ⟨old, hold⟩ := Option.isSome_iff_exists.mp h
    rw [child?, entries, lookup_replace, show t.entries.lookup name = some old from hold]
    rfl
  next h =>
    have hnone : t.entries.lookup name = none := Option.not_isSome_iff_eq_none.mp h
    rw [child?, entries, List.lookup_append]
    split
    next hother =>
      subst hother
      rw [hnone, List.lookup_cons_self]
      rfl
    next hother =>
      rw [lookup_cons_of_ne hother, List.lookup_nil, Option.or_none]
      rfl

theorem isDirectory_put (t : FileTree) (name : String) (new : FileTree) :
    (t.put name new).isDirectory = true := by
  unfold put
  split <;> rfl

/-- Putting what is there changes nothing, for there is one entry of the name. -/
theorem put_eq_self {t u : FileTree} {name : String} (h : t.Proper)
    (hchild : t.child? name = some u) : t.put name u = t := by
  cases h with
  | text content => cases hchild
  | binary => cases hchild
  | @directory entries distinct names below =>
    rw [put, hchild, Option.isSome_some, if_pos rfl]
    congr 1
    conv_rhs => rw [← List.map_id entries]
    refine List.map_congr_left fun entry hentry => ?_
    obtain ⟨n, old⟩ := entry
    dsimp only
    split
    next hn =>
      subst hn
      rw [Option.some.inj (hchild.symm.trans (lookup_of_mem distinct hentry))]
      rfl
    next => rfl

theorem Proper.put {t new : FileTree} {name : String} (h : t.Proper) (hname : IsName name)
    (hnew : new.Proper) : (t.put name new).Proper := by
  have hentries : (t.entries.map Prod.fst).Nodup ∧ (∀ e ∈ t.entries, IsName e.1) ∧
      ∀ e ∈ t.entries, e.2.Proper := by
    cases h with
    | directory distinct names below => exact ⟨distinct, names, below⟩
    | _ => exact ⟨List.nodup_nil, nofun, nofun⟩
  obtain ⟨distinct, names, below⟩ := hentries
  unfold FileTree.put
  split
  next =>
    have hnames : (t.entries.map fun (n, old) => if n = name then (n, new) else (n, old)).map
        Prod.fst = t.entries.map Prod.fst := by
      rw [List.map_map]
      refine List.map_congr_left fun entry _ => ?_
      dsimp only [Function.comp_apply]
      split <;> rfl
    refine .directory (hnames ▸ distinct) (fun e he => ?_) (fun e he => ?_)
    · obtain ⟨old, hold, hfst⟩ :=
        List.mem_map.mp (hnames ▸ List.mem_map_of_mem (f := Prod.fst) he)
      exact hfst ▸ names old hold
    · obtain ⟨old, hold, rfl⟩ := List.mem_map.mp he
      dsimp only
      split
      next => exact hnew
      next => exact below old hold
  next hnone =>
    refine .directory ?_ (fun e he => ?_) (fun e he => ?_)
    · rw [List.map_append, List.map_singleton, List.nodup_append]
      refine ⟨distinct, List.pairwise_singleton _ _, fun n hn m hm heq => ?_⟩
      obtain rfl : n = name := heq.trans (List.mem_singleton.mp hm)
      exact lookup_eq_none_iff.mp (Option.not_isSome_iff_eq_none.mp hnone) hn
    · rcases List.mem_append.mp he with he | he
      · exact names e he
      · exact List.mem_singleton.mp he ▸ hname
    · rcases List.mem_append.mp he with he | he
      · exact below e he
      · exact List.mem_singleton.mp he ▸ hnew

/-! What is found below a path -/

theorem stepWay_of_isName {t : FileTree} {name : String} (h : IsName name) (way : List String) :
    t.stepWay way name =
      if (t.at? (way ++ [name])).isSome then some (way ++ [name]) else none := by
  obtain ⟨hempty, hdot⟩ := Path.ne_of_componentOf? h.2
  have hdots : name ≠ ".." := by
    rintro rfl
    exact absurd h.2 (by decide)
  cases hat : t.at? (way ++ [name]) with
  | none => simp [stepWay, hempty, hdot, hdots, hat]
  | some u =>
    obtain ⟨v, hv, hchild⟩ := Option.bind_eq_some_iff.mp (at?_concat t way name ▸ hat)
    simp [stepWay, hempty, hdot, hdots, hat, hasDirectory, hv, isDirectory_of_child? hchild]

/-- One segment behind a path is one step from its place. -/
theorem place?_join {root : FileTree} {base name : String} {way : List String}
    (h : root.place? base = some way) (hname : Path.IsPlain name) :
    root.place? (Path.join base name) = root.stepWay way name := by
  have hbase : base ≠ "" := by
    rintro rfl
    cases h
  rcases Path.segments_join hbase hname with ⟨-, hjoin⟩ | ⟨before, hlast, hjoin⟩
  · rw [place?] at h
    split at h
    next => cases h
    next hhead =>
      rw [place?_concat hjoin, hjoin, List.head?_append_of_ne_nil _ (Path.segments_ne_nil base),
        if_neg hhead, h, Option.bind_some]
  · have hbefore : before ≠ [] := by
      rintro rfl
      rw [place?, hlast] at h
      cases h
    rw [place?_concat hlast, hlast, List.head?_append_of_ne_nil _ hbefore] at h
    split at h
    next => cases h
    next hhead =>
      obtain ⟨way', hway', hblank⟩ := Option.bind_eq_some_iff.mp h
      have hkept : way' = way := (stepWay_blank hblank (.inl rfl)).1.symm
      rw [place?_concat hjoin, hjoin, List.head?_append_of_ne_nil _ hbefore, if_neg hhead, hway',
        Option.bind_some, hkept]

/-- An entry is found below the path of its directory. -/
theorem find_join {root t u : FileTree} {base name : String}
    (h : (root.find base).toOption = some t) (hchild : t.child? name = some u)
    (hname : IsName name) : (root.find (Path.join base name)).toOption = some u := by
  obtain ⟨way, hplace, hway⟩ := Option.bind_eq_some_iff.mp (root.find_place? base ▸ h)
  have hat : root.at? (way ++ [name]) = some u := by rw [at?_concat, hway, Option.bind_some, hchild]
  rw [find_place?, place?_join hplace hname.1, stepWay_of_isName hname, hat, Option.isSome_some,
    if_pos rfl, Option.bind_some, hat]

theorem find_name {name : String} (hname : IsName name) (root : FileTree) :
    (root.find name).toOption = root.child? name := by
  have hat : root.at? [name] = root.child? name := by simp [at?]
  have hne : ¬ [name].head? = some "" := by simpa using (Path.ne_of_componentOf? hname.2).1
  have hfold : [name].foldlM root.stepWay [] = root.stepWay [] name := by simp
  rw [find_place?, place?, Path.segments_of_isPlain hname.1, if_neg hne, hfold,
    stepWay_of_isName hname, List.nil_append, hat]
  cases hchild : root.child? name with
  | none => rfl
  | some u => exact hat.trans hchild

/-- Nothing is found below the path of a file. -/
theorem find_join_of_file {root t : FileTree} {base : String}
    (h : (root.find base).toOption = some t) (hfile : t.isDirectory = false)
    (hends : base.endsWith "/" = false) (name : String) :
    (root.find (Path.join base name)).toOption = none := by
  have hbase : base.isEmpty = false := by
    rw [Bool.eq_false_iff]
    intro hempty
    rw [String.isEmpty_iff.mp hempty] at h
    cases h
  rw [find_place?]
  suffices hjoin : root.place? (Path.join base name) = none by rw [hjoin]; rfl
  obtain ⟨way, hplace, hway⟩ := Option.bind_eq_some_iff.mp (root.find_place? base ▸ h)
  cases habsolute : name.startsWith "/" with
  | true =>
    have hjoin : Path.join base name = name := by simp [Path.join, habsolute]
    rw [hjoin, place?, if_pos (Path.isEmpty_or_startsWith_iff.mp (by simp [habsolute]))]
  | false =>
    have hjoin : Path.join base name = base ++ "/" ++ name := by
      simp [Path.join, habsolute, hbase, hends]
    rw [place?] at hplace
    split at hplace
    next => cases hplace
    next hhead =>
      rw [hjoin, place?, Path.segments_append,
        List.head?_append_of_ne_nil _ (Path.segments_ne_nil base), if_neg hhead,
        List.foldlM_append, hplace]
      obtain ⟨first, rest, hsegments⟩ := List.exists_cons_of_ne_nil (Path.segments_ne_nil name)
      have hstep : root.stepWay way first = none := by simp [stepWay, hasDirectory, hway, hfile]
      rw [hsegments]
      simp [List.foldlM_cons, hstep]

/-! Files that can be written -/

/-- A place in a directory that is there, and where there is no directory. -/
inductive Writable : FileTree → List String → Prop
  | here {t : FileTree} {name : String} (hdirectory : t.isDirectory = true)
      (hold : ∀ old, t.child? name = some old → old.isDirectory = false) : Writable t [name]
  | inside {t u : FileTree} {name : String} {way : List String} (hchild : t.child? name = some u)
      (h : Writable u way) : Writable t (name :: way)

theorem writable_concat {t u : FileTree} {way : List String} {name : String}
    (hway : t.at? way = some u) (hdirectory : u.isDirectory = true)
    (hold : ∀ old, u.child? name = some old → old.isDirectory = false) :
    Writable t (way ++ [name]) := by
  induction way generalizing t with
  | nil =>
    cases hway
    exact .here hdirectory hold
  | cons first way ih =>
    obtain ⟨child, hchild, hway⟩ := Option.bind_eq_some_iff.mp (at?_cons t first way ▸ hway)
    exact .inside hchild (ih hway)

theorem writable_of_target? {t : FileTree} {path : String} {place : List String}
    (h : t.target? path = some place) :
    Writable t place ∧ ∃ way, place = way ++ [(Path.segments path).getLastD ""] := by
  obtain ⟨way, -, hplace⟩ := Option.bind_eq_some_iff.mp h
  dsimp only at hplace
  split at hplace
  next hdirectory =>
    rw [Bool.and_eq_true, Bool.not_eq_true', hasDirectory, Option.any_eq_true] at hdirectory
    obtain ⟨⟨u, hu, hdirectory⟩, hold⟩ := hdirectory
    cases hplace
    refine ⟨writable_concat hu hdirectory fun old hchild => ?_, way, rfl⟩
    rw [hasDirectory, at?_concat, hu, Option.bind_some, hchild] at hold
    exact hold
  next => cases hplace

namespace Writable
variable {t : FileTree} {place : List String} (h : Writable t place)
include h

theorem isDirectory : t.isDirectory = true := by
  cases h with
  | here hdirectory _ => exact hdirectory
  | inside hchild _ => exact isDirectory_of_child? hchild

theorem ne_nil : place ≠ [] := by
  cases h <;> exact List.cons_ne_nil _ _

theorem at?_insert_self (new : FileTree) : (t.insert place new).at? place = some new := by
  induction h with
  | here _ _ =>
    rw [insert, at?_cons, child?_put, if_pos rfl]
    rfl
  | inside hchild _ ih =>
    rw [insert_cons hchild, at?_cons, child?_put, if_pos rfl, Option.bind_some, ih]

/-- Files elsewhere are left as they are, and there are no new ones. -/
theorem at?_insert_of_ne {other : List String} {new : FileTree} (hnew : new.isDirectory = false)
    (hne : other ≠ place) : ((t.insert place new).at? other).filter (!·.isDirectory) =
      (t.at? other).filter (!·.isDirectory) := by
  induction h generalizing other with
  | @here t name hdirectory hold =>
    rw [insert, insert]
    cases other with
    | nil => simp [Option.filter_some, isDirectory_put, hdirectory]
    | cons n way =>
      rw [at?_cons, at?_cons, child?_put]
      split
      next hn =>
        -- Below the place there was nothing, since it was not a directory.
        subst hn
        cases way with
        | nil => exact absurd rfl hne
        | cons m way =>
          cases hchild : t.child? n with
          | none => rw [Option.bind_some, at?_cons_of_file hnew]; rfl
          | some child =>
            rw [Option.bind_some, Option.bind_some, at?_cons_of_file hnew,
              at?_cons_of_file (hold child hchild)]
      next => rfl
  | @inside t child name way hchild hway ih =>
    rw [insert_cons hchild]
    cases other with
    | nil => simp [Option.filter_some, isDirectory_put, isDirectory_of_child? hchild]
    | cons n other =>
      rw [at?_cons, at?_cons, child?_put]
      split
      next hn =>
        subst hn
        rw [hchild, Option.bind_some, Option.bind_some, ih fun heq => hne (heq ▸ rfl)]
      next => rfl

theorem insert_eq_self (hproper : t.Proper) {new : FileTree} (hnew : t.at? place = some new) :
    t.insert place new = t := by
  induction h with
  | @here t name _ _ =>
    obtain ⟨child, hchild, hway⟩ := Option.bind_eq_some_iff.mp (at?_cons t name [] ▸ hnew)
    cases hway
    exact put_eq_self hproper hchild
  | @inside t child name way hchild _ ih =>
    obtain ⟨child', hchild', hway⟩ := Option.bind_eq_some_iff.mp (at?_cons t name way ▸ hnew)
    obtain rfl : child' = child := Option.some.inj (hchild'.symm.trans hchild)
    rw [insert_cons hchild, ih (hproper.child hchild) hway, put_eq_self hproper hchild]

theorem proper_insert (hproper : t.Proper) (hname : ∀ name ∈ place.getLast?, IsName name)
    {new : FileTree} (hnew : new.Proper) : (t.insert place new).Proper := by
  induction h with
  | @here t name _ _ => exact hproper.put (hname name rfl) hnew
  | @inside t child name way hchild hway ih =>
    rw [insert_cons hchild]
    refine hproper.put (hproper.isName_of_child? hchild) (ih (hproper.child hchild) ?_)
    rwa [List.getLast?_cons_of_ne_nil hway.ne_nil] at hname

end Writable
end FileTree
end TemplateLint.Files
