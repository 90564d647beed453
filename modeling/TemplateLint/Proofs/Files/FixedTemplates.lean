import TemplateLint.Proofs.Files.Writes

/-! A tree apart from its fixed templates. Whatever is not read under the name of a fixed template
is the same without them, and writing one changes nothing else. -/
namespace TemplateLint.Files
namespace FileTree

/-- A file under the name of a fixed template. -/
def isFixedTemplate (name : String) (t : FileTree) : Bool :=
  !t.isDirectory && name.endsWith fixedSuffix

mutual

def withoutFixed : FileTree → FileTree
  | .directory entries => .directory (withoutFixedEntries entries)
  | t => t

def withoutFixedEntries : List (String × FileTree) → List (String × FileTree)
  | [] => []
  | (name, t) :: rest =>
    if isFixedTemplate name t then withoutFixedEntries rest
    else (name, t.withoutFixed) :: withoutFixedEntries rest

end

@[simp] theorem isDirectory_withoutFixed (t : FileTree) :
    t.withoutFixed.isDirectory = t.isDirectory := by
  cases t <;> rfl

@[simp] theorem text?_withoutFixed (t : FileTree) : t.withoutFixed.text? = t.text? := by
  cases t <;> rfl

theorem withoutFixedEntries_append (es fs : List (String × FileTree)) :
    withoutFixedEntries (es ++ fs) = withoutFixedEntries es ++ withoutFixedEntries fs := by
  induction es with
  | nil => rfl
  | cons e es ih =>
    obtain ⟨name, t⟩ := e
    rw [List.cons_append, withoutFixedEntries, withoutFixedEntries, ih]
    split <;> rfl

/-- An entry is there without the fixed templates, unless it is one. -/
theorem lookup_withoutFixedEntries {es : List (String × FileTree)}
    (hdistinct : (es.map Prod.fst).Nodup) (name : String) :
    (withoutFixedEntries es).lookup name =
      ((es.lookup name).filter fun t => !isFixedTemplate name t).map withoutFixed := by
  induction es with
  | nil => rfl
  | cons e es ih =>
    obtain ⟨n, t⟩ := e
    obtain ⟨hnot, hdistinct⟩ := List.nodup_cons.mp hdistinct
    have hrest := ih hdistinct
    rw [withoutFixedEntries]
    by_cases hname : name = n
    · subst hname
      rw [List.lookup_cons_self]
      split
      next hfixed =>
        rw [hrest, lookup_eq_none_iff.mpr hnot, Option.filter_some, hfixed]
        rfl
      next hfixed =>
        rw [List.lookup_cons_self, Option.filter_some, if_pos (by simp [hfixed])]
        rfl
    · rw [lookup_cons_of_ne hname]
      split
      next => exact hrest
      next => rw [lookup_cons_of_ne hname, hrest]

theorem child?_withoutFixed {t : FileTree} (h : t.Proper) (name : String) :
    t.withoutFixed.child? name =
      ((t.child? name).filter fun u => !isFixedTemplate name u).map withoutFixed := by
  cases h with
  | directory distinct names below => exact lookup_withoutFixedEntries distinct name
  | _ => rfl

theorem at?_of_file {t : FileTree} (h : t.isDirectory = false) {way : List String}
    (hway : way ≠ []) : t.at? way = none := by
  cases way with
  | nil => exact absurd rfl hway
  | cons name way =>
    cases t with
    | directory entries => cases h
    | _ => rfl

theorem not_isDirectory_of_isFixedTemplate {name : String} {t : FileTree}
    (h : isFixedTemplate name t = true) : t.isDirectory = false := by
  rw [isFixedTemplate, Bool.and_eq_true, Bool.not_eq_true'] at h
  exact h.1

theorem endsWith_of_isFixedTemplate {name : String} {t : FileTree}
    (h : isFixedTemplate name t = true) : name.endsWith fixedSuffix = true := by
  rw [isFixedTemplate, Bool.and_eq_true] at h
  exact h.2

/-- What is at the end of a way without the fixed templates. -/
theorem at?_withoutFixed {t : FileTree} (h : t.Proper) (way : List String) :
    t.withoutFixed.at? way = ((t.at? way).filter fun u =>
      !way.getLast?.any fun name => isFixedTemplate name u).map withoutFixed := by
  induction way generalizing t with
  | nil => rfl
  | cons name way ih =>
    rw [at?_cons, at?_cons, child?_withoutFixed h]
    cases hchild : t.child? name with
    | none => rfl
    | some u =>
      rw [Option.filter_some, Option.bind_some]
      rcases eq_or_ne way [] with rfl | hway
      · rw [at?_nil, Option.filter_some, List.getLast?_singleton, Option.any_some]
        split <;> rfl
      · cases hfixed : isFixedTemplate name u with
        | true =>
          rw [at?_of_file (not_isDirectory_of_isFixedTemplate hfixed) hway]
          rfl
        | false =>
          rw [List.getLast?_cons_of_ne_nil hway, ← ih (h.child hchild)]
          rfl

theorem hasDirectory_withoutFixed {t : FileTree} (h : t.Proper) (way : List String) :
    t.withoutFixed.hasDirectory way = t.hasDirectory way := by
  rw [hasDirectory, hasDirectory, at?_withoutFixed h]
  cases t.at? way with
  | none => rfl
  | some u =>
    rw [Option.filter_some, Option.any_some]
    cases hdirectory : u.isDirectory with
    | true =>
      have hkept : (!way.getLast?.any fun name => isFixedTemplate name u) = true := by
        simp [isFixedTemplate, hdirectory]
      rw [if_pos hkept]
      simp [hdirectory]
    | false => split <;> simp [hdirectory]

theorem at?_withoutFixed_concat {t : FileTree} (h : t.Proper) (way : List String)
    (name : String) : t.withoutFixed.at? (way ++ [name]) =
      ((t.at? (way ++ [name])).filter fun u => u.isDirectory || !name.endsWith fixedSuffix).map
        withoutFixed := by
  rw [at?_withoutFixed h, List.getLast?_concat]
  simp only [Option.any_some, isFixedTemplate, Bool.not_and, Bool.not_not]

theorem at?_withoutFixed_of_hasDirectory {t : FileTree} (h : t.Proper) {way : List String}
    (hdirectory : t.hasDirectory way = true) :
    t.withoutFixed.at? way = (t.at? way).map withoutFixed := by
  obtain ⟨u, hu, hdirectory⟩ := (Option.any_eq_true ..).mp hdirectory
  have hkept : (!way.getLast?.any fun name => isFixedTemplate name u) = true := by
    simp [isFixedTemplate, hdirectory]
  rw [at?_withoutFixed h, hu, Option.filter_some, if_pos hkept]

theorem hasDirectory_dropLast {t : FileTree} {way : List String}
    (h : t.hasDirectory way = true) (hway : way ≠ []) : t.hasDirectory way.dropLast = true := by
  obtain ⟨up, name, rfl⟩ := (List.eq_nil_or_concat' way).resolve_left hway
  obtain ⟨u, hu, -⟩ := (Option.any_eq_true ..).mp h
  obtain ⟨v, hv, hchild⟩ := Option.bind_eq_some_iff.mp (at?_concat t up name ▸ hu)
  rw [List.dropLast_concat, hasDirectory, hv]
  exact isDirectory_of_child? hchild

/-- One segment further there is the same without the fixed templates. -/
theorem step_withoutFixed {t : FileTree} (h : t.Proper) (way : List String) (segment : String) :
    (t.withoutFixed.stepWay way segment).bind t.withoutFixed.at? =
      (((t.stepWay way segment).bind t.at?).filter fun u =>
        u.isDirectory || !segment.endsWith fixedSuffix).map withoutFixed := by
  have hkept {way : List String} (hdirectory : t.hasDirectory way = true) :
      t.withoutFixed.at? way = ((t.at? way).filter fun u =>
        u.isDirectory || !segment.endsWith fixedSuffix).map withoutFixed := by
    rw [at?_withoutFixed_of_hasDirectory h hdirectory]
    obtain ⟨u, hu, hdirectory⟩ := (Option.any_eq_true ..).mp hdirectory
    rw [hu, Option.filter_some, if_pos (by rw [hdirectory]; rfl)]
  unfold stepWay
  rw [hasDirectory_withoutFixed h]
  cases hdirectory : t.hasDirectory way with
  | false => rfl
  | true =>
    rw [Bool.not_true, if_neg Bool.false_ne_true, if_neg Bool.false_ne_true]
    split
    next => exact hkept hdirectory
    next =>
      split
      next =>
        split
        next => rfl
        next hway => exact hkept (hasDirectory_dropLast hdirectory hway)
      next =>
        have hfound (v : FileTree) :
            (if (v.at? (way ++ [segment])).isSome then some (way ++ [segment]) else none).bind
              v.at? = v.at? (way ++ [segment]) := by
          cases hat : v.at? (way ++ [segment]) <;> simp [hat]
        rw [hfound, hfound, at?_withoutFixed_concat h]

theorem filter_stepWay_withoutFixed {t : FileTree} (h : t.Proper) (way : List String)
    (segment : String) : (t.withoutFixed.stepWay way segment).filter t.hasDirectory =
      (t.stepWay way segment).filter t.hasDirectory := by
  have hfound {v : FileTree} (hv : ∀ way, v.hasDirectory way = t.hasDirectory way)
      (way : List String) :
      (if (v.at? way).isSome then some way else none).filter t.hasDirectory =
        if t.hasDirectory way then some way else none := by
    rw [← hv, hasDirectory]
    cases hat : v.at? way with
    | none => rfl
    | some u =>
      have hway := hv way
      rw [hasDirectory, hat] at hway
      rw [Option.isSome_some, if_pos rfl, Option.filter_some, ← hway]
  unfold stepWay
  rw [hasDirectory_withoutFixed h]
  split
  next => rfl
  next =>
    split
    next => rfl
    next =>
      split
      next => rfl
      next => rw [hfound (hasDirectory_withoutFixed h), hfound fun _ => rfl]

theorem filter_foldlM_stepWay_of_file {t : FileTree} {way : List String}
    (h : t.hasDirectory way = false) (segments : List String) :
    (segments.foldlM t.stepWay way).filter t.hasDirectory = none := by
  cases segments with
  | nil => exact (Option.filter_some ..).trans (if_neg (h ▸ Bool.false_ne_true))
  | cons segment segments =>
    have hstep : t.stepWay way segment = none := by simp [stepWay, h]
    rw [List.foldlM_cons, hstep]
    rfl

/-- Only directories lead on. -/
theorem filter_foldlM_stepWay_cons (t : FileTree) (way : List String) (segment : String)
    (segments : List String) :
    ((segment :: segments).foldlM t.stepWay way).filter t.hasDirectory =
      ((t.stepWay way segment).filter t.hasDirectory).bind fun way =>
        (segments.foldlM t.stepWay way).filter t.hasDirectory := by
  rw [List.foldlM_cons]
  cases t.stepWay way segment with
  | none => rfl
  | some way =>
    rw [Option.filter_some]
    split
    next => rfl
    next hfile => exact filter_foldlM_stepWay_of_file (eq_false_of_ne_true hfile) segments

/-- Of a way that leads on, nothing changes without the fixed templates. -/
theorem foldlM_stepWay_withoutFixed {t : FileTree} (h : t.Proper) (segments way : List String) :
    (segments.foldlM t.withoutFixed.stepWay way).filter t.hasDirectory =
      (segments.foldlM t.stepWay way).filter t.hasDirectory := by
  have hdirectory : t.withoutFixed.hasDirectory = t.hasDirectory :=
    funext (hasDirectory_withoutFixed h)
  induction segments generalizing way with
  | nil => rfl
  | cons segment segments ih =>
    have hcons := filter_foldlM_stepWay_cons t.withoutFixed way segment segments
    rw [hdirectory, filter_stepWay_withoutFixed h] at hcons
    rw [hcons, filter_foldlM_stepWay_cons]
    simp only [ih]

theorem filter_place?_withoutFixed {t : FileTree} (h : t.Proper) (path : String) :
    (t.withoutFixed.place? path).filter t.hasDirectory =
      (t.place? path).filter t.hasDirectory := by
  unfold place?
  split
  next => rfl
  next => exact foldlM_stepWay_withoutFixed h _ _

/-- What is found at a path without the fixed templates. -/
theorem find_withoutFixed {t : FileTree} (h : t.Proper) (path : String) :
    (t.withoutFixed.find path).toOption = ((t.find path).toOption.filter fun u =>
      u.isDirectory || !path.endsWith fixedSuffix).map withoutFixed := by
  obtain ⟨before, last, hlast⟩ := exists_segments_concat path
  have hends : path.endsWith fixedSuffix = last.endsWith fixedSuffix :=
    Bool.eq_iff_iff.mpr (Path.endsWith_iff_of_segments hlast isPlain_fixedSuffix)
  rw [find_place?, find_place?, place?, place?, hlast]
  split
  next => rfl
  next =>
    have harrive (v : FileTree) (hv : ∀ way, v.hasDirectory way = t.hasDirectory way) :
        ((before ++ [last]).foldlM v.stepWay []).bind v.at? =
          ((before.foldlM v.stepWay []).filter t.hasDirectory).bind fun way =>
            (v.stepWay way last).bind v.at? := by
      rw [List.foldlM_append]
      cases before.foldlM v.stepWay [] with
      | none => rfl
      | some way =>
        have hsteps : [last].foldlM v.stepWay way = v.stepWay way last := by
          rw [List.foldlM_cons]
          exact bind_pure _
        have hbind : (some way >>= fun way => [last].foldlM v.stepWay way) =
            v.stepWay way last := hsteps
        rw [hbind, Option.filter_some]
        split
        next => rfl
        next hfile =>
          rw [stepWay, hv, eq_false_of_ne_true hfile]
          rfl
    rw [harrive _ (hasDirectory_withoutFixed h), harrive _ fun _ => rfl,
      foldlM_stepWay_withoutFixed h]
    cases (before.foldlM t.stepWay []).filter t.hasDirectory with
    | none => rfl
    | some way => rw [Option.bind_some, Option.bind_some, step_withoutFixed h, hends]

theorem target?_withoutFixed {t : FileTree} (h : t.Proper) (path : String) :
    t.withoutFixed.target? path = t.target? path := by
  have htarget (v : FileTree) (hv : v.hasDirectory = t.hasDirectory) : v.target? path =
      (((Path.segments path).dropLast.foldlM v.stepWay []).filter t.hasDirectory).bind fun way =>
        let place := way ++ [(Path.segments path).getLastD ""]
        if !t.hasDirectory place then some place else none := by
    rw [target?, hv]
    cases (Path.segments path).dropLast.foldlM v.stepWay [] with
    | none => rfl
    | some way =>
      rw [Option.bind_some, Option.filter_some]
      cases t.hasDirectory way <;> rfl
  rw [htarget _ (funext (hasDirectory_withoutFixed h)), htarget _ rfl,
    foldlM_stepWay_withoutFixed h]

section Reading
variable {t : FileTree} (h : t.Proper) {path : String}
include h

/-- A path that is not that of a fixed template. -/
theorem find_withoutFixed_of_endsWith (hpath : path.endsWith fixedSuffix = false) :
    (t.withoutFixed.find path).toOption = (t.find path).toOption.map withoutFixed := by
  rw [find_withoutFixed h, hpath]
  cases (t.find path).toOption with
  | none => rfl
  | some u => rw [Option.filter_some, if_pos (by simp)]

theorem read_withoutFixed (hpath : path.endsWith fixedSuffix = false) :
    (t.withoutFixed.read path).toOption = (t.read path).toOption := by
  rw [toOption_read, toOption_read, find_withoutFixed_of_endsWith h hpath]
  cases (t.find path).toOption with
  | none => rfl
  | some u => exact text?_withoutFixed u

theorem contains_withoutFixed (hpath : path.endsWith fixedSuffix = false) :
    t.withoutFixed.contains path = t.contains path := by
  rw [contains_eq, contains_eq, find_withoutFixed_of_endsWith h hpath, Option.isSome_map]

theorem isDirectoryAt_withoutFixed (path : String) :
    t.withoutFixed.isDirectoryAt path = t.isDirectoryAt path := by
  rw [isDirectoryAt_eq, isDirectoryAt_eq, find_withoutFixed h]
  cases (t.find path).toOption with
  | none => rfl
  | some u =>
    rw [Option.filter_some]
    cases hdirectory : u.isDirectory <;> split <;> simp_all

end Reading

/-! Writing a fixed template -/

theorem withoutFixedEntries_cons (e : String × FileTree) (es : List (String × FileTree)) :
    withoutFixedEntries (e :: es) = withoutFixedEntries [e] ++ withoutFixedEntries es :=
  withoutFixedEntries_append [e] es

theorem withoutFixedEntries_replace {es : List (String × FileTree)} {name : String}
    {new : FileTree} (h : ∀ old, (name, old) ∈ es →
      withoutFixedEntries [(name, new)] = withoutFixedEntries [(name, old)]) :
    withoutFixedEntries (es.map fun (n, old) => if n = name then (n, new) else (n, old)) =
      withoutFixedEntries es := by
  induction es with
  | nil => rfl
  | cons e es ih =>
    obtain ⟨n, old⟩ := e
    rw [List.map_cons, withoutFixedEntries_cons, withoutFixedEntries_cons (n, old),
      ih fun old hold => h old (List.mem_cons_of_mem _ hold)]
    dsimp only
    split
    next hn =>
      subst hn
      rw [h old List.mem_cons_self]
    next => rfl

/-- An entry that counts for nothing, in the place of another one. -/
theorem withoutFixed_put {t new : FileTree} {name : String} (h : t.Proper)
    (hdirectory : t.isDirectory = true)
    (hold : ∀ old, t.child? name = some old →
      withoutFixedEntries [(name, new)] = withoutFixedEntries [(name, old)])
    (hnone : t.child? name = none → withoutFixedEntries [(name, new)] = []) :
    (t.put name new).withoutFixed = t.withoutFixed := by
  cases h with
  | text content => cases hdirectory
  | binary => cases hdirectory
  | @directory entries distinct names below =>
    unfold put
    split
    next =>
      exact congrArg directory
        (withoutFixedEntries_replace fun old hmem => hold old (lookup_of_mem distinct hmem))
    next hchild =>
      have hadded :
          withoutFixedEntries (entries ++ [(name, new)]) = withoutFixedEntries entries := by
        rw [withoutFixedEntries_append, hnone (Option.not_isSome_iff_eq_none.mp hchild),
          List.append_nil]
      exact congrArg directory hadded

theorem isDirectory_insert (t : FileTree) {way : List String} (hway : way ≠ [])
    (new : FileTree) : (t.insert way new).isDirectory = true := by
  cases way with
  | nil => exact absurd rfl hway
  | cons name way => exact isDirectory_put t name _

theorem withoutFixed_insert {t : FileTree} {place : List String} (hplace : Writable t place)
    (h : t.Proper) (hname : ∀ name ∈ place.getLast?, name.endsWith fixedSuffix = true)
    (content : String) : (t.insert place (.text content)).withoutFixed = t.withoutFixed := by
  have hdrop {name : String} {u : FileTree} (hends : name.endsWith fixedSuffix = true)
      (hu : u.isDirectory = false) : withoutFixedEntries [(name, u)] = [] := by
    rw [withoutFixedEntries, isFixedTemplate, hu, hends]
    rfl
  have hkeep {name : String} {u : FileTree} (hu : u.isDirectory = true) :
      withoutFixedEntries [(name, u)] = [(name, u.withoutFixed)] := by
    rw [withoutFixedEntries, isFixedTemplate, hu]
    rfl
  induction hplace with
  | @here t name hdirectory hold =>
    have hends := hname name rfl
    refine withoutFixed_put h hdirectory (fun old hchild => ?_) fun _ => hdrop hends rfl
    rw [hdrop hends (hold old hchild)]
    exact hdrop hends rfl
  | @inside t child name way hchild hway ih =>
    rw [insert_cons hchild]
    refine withoutFixed_put h (isDirectory_of_child? hchild) (fun old hold => ?_) fun hnone => ?_
    · obtain rfl : child = old := Option.some.inj (hchild.symm.trans hold)
      rw [hkeep (isDirectory_insert child hway.ne_nil _), hkeep hway.isDirectory,
        ih (h.child hchild) (by rwa [List.getLast?_cons_of_ne_nil hway.ne_nil] at hname)]
    · rw [hnone] at hchild
      cases hchild

end FileTree
end TemplateLint.Files
