import Mathlib.Data.List.Infix
import TemplateLint.Files.Documents

/-! What stands between the separators of a path: the segments of paths that are put together, the
segment that a path ends with, and the path of a fixed template. -/
namespace TemplateLint.Files
namespace Path

theorem endsWith_iff {s suffix : String} :
    s.endsWith suffix = true ↔ suffix.toList <:+ s.toList := by
  rw [String.endsWith_eq_endsWith_toSlice, String.Slice.endsWith_string_iff, String.copy_toSlice]

theorem segments_ne_nil (path : String) : segments path ≠ [] := by simp [segments]

/-- A name that stands between separators. -/
def IsPlain (s : String) : Prop := '/' ∉ s.toList

instance (s : String) : Decidable (IsPlain s) := inferInstanceAs (Decidable ('/' ∉ s.toList))

theorem segments_of_isPlain {s : String} (h : IsPlain s) : segments s = [s] := by
  rw [segments, List.splitOn_eq_singleton h, List.map_singleton, String.ofList_toList]

theorem segments_append (a b : String) :
    segments (a ++ "/" ++ b) = segments a ++ segments b := by
  rw [segments, String.toList_append, String.toList_append,
    show "/".toList = ['/'] from rfl, List.append_assoc, List.singleton_append,
    List.splitOn_append_cons_self, List.map_append]
  rfl

theorem segments_intercalate {ss : List String} (h : ∀ s ∈ ss, IsPlain s) (hne : ss ≠ []) :
    segments ("/".intercalate ss) = ss := by
  have hplain : ∀ cs ∈ ss.map String.toList, '/' ∉ cs := by
    intro cs hcs
    obtain ⟨s, hs, rfl⟩ := List.mem_map.mp hcs
    exact h s hs
  rw [segments, String.toList_intercalate, show "/".toList = ['/'] from rfl,
    List.splitOn_intercalate '/' hplain (by simpa using hne), List.map_map]
  simp [Function.comp_def]

theorem intercalate_segments (path : String) : "/".intercalate (segments path) = path := by
  apply String.toList_inj.mp
  rw [String.toList_intercalate, segments, List.map_map]
  simp [Function.comp_def, show "/".toList = ['/'] from rfl]

theorem not_mem_of_mem_splitOn {α : Type} [DecidableEq α] {a : α} {as piece : List α}
    (h : piece ∈ as.splitOn a) : a ∉ piece := by
  induction as generalizing piece with
  | nil =>
    rw [List.splitOn_nil, List.mem_singleton] at h
    exact h ▸ List.not_mem_nil
  | cons b as ih =>
    rw [List.splitOn_cons_eq_if_modifyHead] at h
    split at h
    next =>
      rcases List.mem_cons.mp h with rfl | h
      · exact List.not_mem_nil
      · exact ih h
    next hb =>
      obtain ⟨first, rest, hsplit⟩ := List.exists_cons_of_ne_nil (List.splitOn_ne_nil a as)
      rw [hsplit, List.modifyHead_cons] at h
      rw [hsplit] at ih
      rcases List.mem_cons.mp h with rfl | h
      · rintro (_ | ⟨_, hmem⟩)
        · exact hb (beq_self_eq_true a)
        · exact ih List.mem_cons_self hmem
      · exact ih (List.mem_cons_of_mem _ h)

theorem isPlain_of_mem_segments {path s : String} (h : s ∈ segments path) : IsPlain s := by
  obtain ⟨cs, hcs, rfl⟩ := List.mem_map.mp h
  rw [IsPlain, String.toList_ofList]
  exact not_mem_of_mem_splitOn hcs

/-- A path by its last segment: there is nothing before it, or a separator. -/
theorem eq_of_segments_concat {path last : String} {before : List String}
    (h : segments path = before ++ [last]) :
    before = [] ∧ path = last ∨ ∃ base, path = base ++ "/" ++ last ∧ segments base = before := by
  have hpath : path = "/".intercalate (before ++ [last]) := h ▸ (intercalate_segments path).symm
  rcases eq_or_ne before [] with rfl | hne
  · exact .inl ⟨rfl, hpath.trans String.intercalate_singleton⟩
  · refine .inr ⟨"/".intercalate before, ?_, segments_intercalate (fun s hs => ?_) hne⟩
    · rw [hpath, String.intercalate_append_of_ne_nil hne (List.cons_ne_nil _ _),
        String.intercalate_singleton]
    · exact isPlain_of_mem_segments (h ▸ List.mem_append_left _ hs)

/-- How a path ends is how its last segment ends. -/
theorem endsWith_iff_of_segments {path last suffix : String} {before : List String}
    (h : segments path = before ++ [last]) (hsuffix : IsPlain suffix) :
    path.endsWith suffix = true ↔ last.endsWith suffix = true := by
  rcases eq_of_segments_concat h with ⟨-, rfl⟩ | ⟨base, rfl, -⟩
  · rfl
  · have hslash : (base ++ "/" ++ last).toList = base.toList ++ '/' :: last.toList := by
      simp [show "/".toList = ['/'] from rfl]
    rw [endsWith_iff, endsWith_iff, hslash]
    constructor
    · intro hends
      rcases List.suffix_or_suffix_of_suffix hends (List.suffix_append _ _) with hlast | hlast
      · rcases List.suffix_cons_iff.mp hlast with heq | hlast
        · exact absurd (heq ▸ List.mem_cons_self) hsuffix
        · exact hlast
      · exact absurd (hlast.subset List.mem_cons_self) hsuffix
    · exact fun hends => hends.trans ((List.suffix_cons _ _).trans (List.suffix_append _ _))

/-! Components -/

theorem componentOf?_name {s : String} (hempty : s ≠ "") (hdot : s ≠ ".")
    (hdots : s ≠ "..") : componentOf? s = some (.name s) := by
  simp [componentOf?, hempty, hdot, hdots]

theorem ne_of_componentOf? {s : String} {c : Component} (h : componentOf? s = some c) :
    s ≠ "" ∧ s ≠ "." := by
  constructor <;>
  · rintro rfl
    cases h

theorem componentOf?_eq_none {s : String} (h : componentOf? s = none) : s = "" ∨ s = "." := by
  by_contra hnot
  obtain ⟨hempty, hdot⟩ := not_or.mp hnot
  rw [componentOf?] at h
  split at h
  next hblank => simp [hempty, hdot] at hblank
  next => split at h <;> cases h

/-- Only the start of a path stands for the working directory. -/
theorem ne_current_of_componentOf? {s : String} {c : Component} (h : componentOf? s = some c) :
    c ≠ .current := by
  rintro rfl
  rw [componentOf?] at h
  split at h
  next => cases h
  next => split at h <;> cases h

/-- The components that segments stand for at the start of a path. -/
def frontComponents : List String → List Component
  | [] => []
  | first :: rest =>
    (if first = "" then [.root] else if first = "." then [.current]
      else (componentOf? first).toList) ++ rest.filterMap componentOf?

theorem components_eq {path : String} (h : path ≠ "") :
    components path = frontComponents (segments path) := by
  have hempty : path.isEmpty = false := by simpa using h
  unfold components frontComponents
  cases segments path with
  | nil => rfl
  | cons first rest =>
    dsimp only
    rw [hempty]
    split
    next => rfl
    next => split <;> rfl

theorem frontComponents_concat {before : List String} {last : String} {c : Component}
    (h : componentOf? last = some c) :
    frontComponents (before ++ [last]) = frontComponents before ++ [c] := by
  cases before with
  | nil => simp [frontComponents, ne_of_componentOf? h, h]
  | cons first before => simp [frontComponents, h]

theorem components_of_segments {path last : String} {before : List String} {c : Component}
    (h : segments path = before ++ [last]) (hc : componentOf? last = some c) :
    components path = frontComponents before ++ [c] := by
  have hpath : path ≠ "" := by
    rintro rfl
    have hlast : "" = last := by
      simpa using congrArg List.getLast? (show [""] = before ++ [last] from h)
    exact (ne_of_componentOf? hc).1 hlast.symm
  rw [components_eq hpath, h, frontComponents_concat hc]

theorem fileName?_of_segments {path last : String} {before : List String} {c : Component}
    (h : segments path = before ++ [last]) (hc : componentOf? last = some c) :
    fileName? path = match c with
      | .name s => some s
      | _ => none := by
  rw [fileName?, components_of_segments h hc, List.getLast?_concat]
  cases c <;> rfl

/-! Paths that are put together -/

/-- The paths that do not lead into the tree. -/
theorem isEmpty_or_startsWith_iff {path : String} :
    (path.isEmpty || path.startsWith "/") = true ↔ (segments path).head? = some "" := by
  rw [Bool.or_eq_true, String.startsWith_string_iff, show "/".toList = ['/'] from rfl, segments]
  cases hpath : path.toList with
  | nil =>
    rw [String.toList_eq_nil_iff] at hpath
    subst hpath
    exact iff_of_true (.inl rfl) rfl
  | cons c cs =>
    have hempty : ¬path.isEmpty = true := by
      rintro h
      rw [String.isEmpty_iff] at h
      simp [h] at hpath
    rw [List.splitOn_cons_eq_if_modifyHead, or_iff_right hempty]
    by_cases hc : c = '/'
    · simp [hc]
    · obtain ⟨first, rest, hsplit⟩ := List.exists_cons_of_ne_nil (List.splitOn_ne_nil '/' cs)
      simp [hc, Ne.symm hc, hsplit]

theorem IsPlain.startsWith_separator {name : String} (h : IsPlain name) :
    name.startsWith "/" = false := by
  rw [String.startsWith_string_eq_false_iff]
  exact fun hstarts => h (hstarts.subset List.mem_cons_self)

/-- A name inside a path is its last segment; an empty segment at the end of the path gives way. -/
theorem segments_join {base name : String} (hbase : base ≠ "") (hname : IsPlain name) :
    base.endsWith "/" = false ∧ segments (join base name) = segments base ++ [name] ∨
      ∃ before, segments base = before ++ [""] ∧ segments (join base name) = before ++ [name] := by
  have hempty : base.isEmpty = false := by simpa using hbase
  cases hends : base.endsWith "/" with
  | false =>
    have hjoin : join base name = base ++ "/" ++ name := by
      simp [join, hname.startsWith_separator, hempty, hends]
    exact .inl ⟨rfl, by rw [hjoin, segments_append, segments_of_isPlain hname]⟩
  | true =>
    obtain ⟨cs, hcs⟩ := endsWith_iff.mp hends
    obtain rfl : base = String.ofList cs ++ "/" ++ "" :=
      String.toList_inj.mp (by simp [← hcs])
    refine .inr ⟨segments (String.ofList cs), segments_append _ _, ?_⟩
    have hjoin : join (String.ofList cs ++ "/" ++ "") name = String.ofList cs ++ "/" ++ name := by
      rw [join, hname.startsWith_separator, hempty, hends]
      simp
    rw [hjoin, segments_append, segments_of_isPlain hname]

theorem trimSegments_concat {before : List String} {last : String} {c : Component}
    (h : componentOf? last = some c) : trimSegments (before ++ [last]) = before ++ [last] := by
  cases before with
  | nil => rfl
  | cons first before => simp [trimSegments, ne_of_componentOf? h]

/-- What is trimmed are segments that are no components. -/
theorem exists_eq_trimSegments_append (ss : List String) :
    ∃ blanks, ss = trimSegments ss ++ blanks ∧ ∀ s ∈ blanks, s = "" ∨ s = "." := by
  cases ss with
  | nil => exact ⟨[], rfl, nofun⟩
  | cons first rest =>
    refine ⟨(rest.reverse.takeWhile fun s => s = "" || s = ".").reverse, ?_, fun s hs => ?_⟩
    · rw [trimSegments, List.cons_append, ← List.reverse_append, List.takeWhile_append_dropWhile,
        List.reverse_reverse]
    · have hall := List.all_eq_true.mp List.all_takeWhile s (List.mem_reverse.mp hs)
      simpa using hall

theorem getLast?_trimSegments {first s : String} {rest : List String}
    (h : (trimSegments (first :: rest)).getLast? = some s) : s = first ∨ s ≠ "" ∧ s ≠ "." := by
  rw [trimSegments, List.getLast?_cons, List.getLast?_reverse, Option.some.injEq] at h
  cases hhead : (rest.reverse.dropWhile fun s => s = "" || s = ".").head? with
  | none =>
    rw [hhead] at h
    exact .inl h.symm
  | some t =>
    rw [hhead, Option.getD_some] at h
    have hnot := List.head?_dropWhile_not (fun s : String => s = "" || s = ".") rest.reverse
    rw [hhead] at hnot
    subst h
    exact .inr (by simpa using hnot)

theorem frontComponents_trimSegments (ss : List String) :
    frontComponents (trimSegments ss) = frontComponents ss := by
  cases ss with
  | nil => rfl
  | cons first rest =>
    obtain ⟨blanks, hblanks, hall⟩ := exists_eq_trimSegments_append (first :: rest)
    rw [trimSegments, List.cons_append, List.cons.injEq] at hblanks
    have hnone : blanks.filterMap componentOf? = [] :=
      List.filterMap_eq_nil_iff.mpr fun s hs => by
        rcases hall s hs with rfl | rfl <;> rfl
    conv_rhs => rw [hblanks.2]
    simp [frontComponents, trimSegments, hnone]

end Path

/-! Documents and their fixed templates -/

/-- A path below the working directory to a file with the name of a document: what stands before the
name, and the stem of the name. -/
structure DocumentPath (path : String) (before : List String) (stem : String) : Prop where
  segments : Path.segments path = before ++ [stem ++ documentSuffix]
  relative : before.head? ≠ some ""

theorem isPlain_fixedSuffix : Path.IsPlain fixedSuffix := by decide

theorem isDocument_fileName {path : String} (h : isDocument path = true) :
    ∃ name, Path.fileName? path = some name ∧ name.endsWith documentSuffix = true := by
  simpa [isDocument, Option.any_eq_true] using h

theorem exists_segments_concat (path : String) :
    ∃ before last, Path.segments path = before ++ [last] :=
  (List.eq_nil_or_concat' (Path.segments path)).resolve_left (Path.segments_ne_nil path)

/-- What the path of a document ends with: its name, or nothing of meaning behind that. -/
theorem last_of_isDocument {path last : String} {before : List String} (h : isDocument path = true)
    (hlast : Path.segments path = before ++ [last]) :
    (last = "" ∨ last = ".") ∨ ∃ stem, last = stem ++ documentSuffix := by
  obtain ⟨name, hname, hends⟩ := isDocument_fileName h
  by_cases hempty : last = ""
  · exact .inl (.inl hempty)
  by_cases hdot : last = "."
  · exact .inl (.inr hdot)
  by_cases hdots : last = ".."
  · rw [Path.fileName?_of_segments hlast (c := .parent) (hdots ▸ rfl)] at hname
    cases hname
  · rw [Path.fileName?_of_segments hlast (Path.componentOf?_name hempty hdot hdots),
      Option.some.injEq] at hname
    obtain ⟨cs, hcs⟩ := Path.endsWith_iff.mp (hname ▸ hends)
    exact .inr ⟨String.ofList cs, String.toList_inj.mp (by simp [← hcs])⟩

/-- No document is a fixed template. -/
theorem not_endsWith_fixedSuffix {path : String} (h : isDocument path = true) :
    path.endsWith fixedSuffix = false := by
  obtain ⟨before, last, hlast⟩ := exists_segments_concat path
  rw [← Bool.not_eq_true, Path.endsWith_iff_of_segments hlast isPlain_fixedSuffix]
  intro hfixed
  rcases last_of_isDocument h hlast with (rfl | rfl) | ⟨stem, rfl⟩
  · exact absurd hfixed (by decide)
  · exact absurd hfixed (by decide)
  · have hdocument : documentSuffix.toList <:+ (stem ++ documentSuffix).toList := by simp
    rcases List.suffix_or_suffix_of_suffix (Path.endsWith_iff.mp hfixed) hdocument with
      hsuffix | hsuffix <;>
      exact absurd hsuffix (by decide)

theorem componentOf?_append {stem suffix : String} (h : 2 < suffix.length) :
    Path.componentOf? (stem ++ suffix) = some (.name (stem ++ suffix)) := by
  have hlength : 2 < (stem ++ suffix).length := by
    rw [String.length_append]
    omega
  refine Path.componentOf?_name ?_ ?_ ?_ <;>
  · intro heq
    rw [heq] at hlength
    exact absurd hlength (by decide)

namespace DocumentPath
variable {path stem : String} {before : List String} (h : DocumentPath path before stem)
include h

theorem isPlain_fixed : Path.IsPlain (stem ++ fixedSuffix) := by
  have hplain : Path.IsPlain (stem ++ documentSuffix) :=
    Path.isPlain_of_mem_segments (h.segments ▸ List.mem_append_right _ List.mem_cons_self)
  have hfixed := isPlain_fixedSuffix
  unfold Path.IsPlain at *
  rw [String.toList_append, List.mem_append] at *
  exact not_or.mpr ⟨fun hstem => hplain (.inl hstem), hfixed⟩

theorem fileName?_eq : Path.fileName? path = some (stem ++ documentSuffix) :=
  Path.fileName?_of_segments h.segments (componentOf?_append (by decide))

theorem isDocument : isDocument path = true := by
  rw [Files.isDocument, h.fileName?_eq, Option.any_some]
  exact Path.endsWith_iff.mpr (by simp)

/-- The path of a document is looked for in the tree. -/
theorem isInside : Documents.isInside path = true := by
  have hrelative : ¬(path.isEmpty || path.startsWith "/") = true := by
    rw [Path.isEmpty_or_startsWith_iff, h.segments, List.head?_append]
    cases hhead : before.head? with
    | some first => exact fun heq => h.relative (hhead.trans heq)
    | none =>
      intro heq
      exact (Path.ne_of_componentOf? (componentOf?_append (by decide))).1 (Option.some.inj heq)
  have hname : path ≠ Documents.standardInput := by
    rintro rfl
    have hsegments := h.segments
    rw [Documents.standardInput, Path.segments_of_isPlain (by decide)] at hsegments
    have hlast := congrArg List.getLast? hsegments
    rw [List.getLast?_concat, List.getLast?_singleton, Option.some.injEq] at hlast
    have hsuffix : documentSuffix.toList <:+ "-".toList := by simp [hlast]
    exact absurd hsuffix (by decide)
  simp_all [Documents.isInside]

theorem components_eq :
    Path.components path = Path.frontComponents before ++ [.name (stem ++ documentSuffix)] :=
  Path.components_of_segments h.segments (componentOf?_append (by decide))

theorem parent_eq : Path.parent path = "/".intercalate (Path.trimSegments before) := by
  rw [Path.parent, h.segments, Path.trimSegments_concat (componentOf?_append (by decide)),
    List.dropLast_concat]

theorem segments_parent (hbefore : before ≠ []) :
    Path.segments (Path.parent path) = Path.trimSegments before := by
  rw [h.parent_eq]
  refine Path.segments_intercalate (fun s hs => ?_) ?_
  · obtain ⟨blanks, hblanks, -⟩ := Path.exists_eq_trimSegments_append before
    have hmem : s ∈ Path.segments path := by
      rw [h.segments, hblanks]
      exact List.mem_append_left _ (List.mem_append_left _ hs)
    exact Path.isPlain_of_mem_segments hmem
  · cases before with
    | nil => exact absurd rfl hbefore
    | cons first rest => exact List.cons_ne_nil _ _

/-- The fixed template stands beside the document, under its own name. -/
theorem exists_fixedPath?_eq : ∃ target, fixedPath? path = some target ∧
    Path.segments target = Path.trimSegments before ++ [stem ++ fixedSuffix] := by
  have hstem : ((stem ++ documentSuffix).dropEnd documentSuffix.length).toString = stem := by
    apply String.toList_inj.mp
    rw [show ∀ s : String.Slice, s.toString = s.copy from fun _ => rfl,
      String.toList_copy_dropEnd, String.toList_append, ← String.length_toList]
    simp
  have hends : (stem ++ documentSuffix).endsWith documentSuffix = true :=
    Path.endsWith_iff.mpr (by simp)
  refine ⟨Path.withFileName path (stem ++ fixedSuffix), ?_, ?_⟩
  · rw [fixedPath?, h.fileName?_eq]
    change (if _ then some _ else none) = _
    rw [if_pos hends, hstem]
  · rw [Path.withFileName]
    cases before with
    | nil =>
      have hjoin : Path.join (Path.parent path) (stem ++ fixedSuffix) = stem ++ fixedSuffix := by
        simp [h.parent_eq, Path.trimSegments, Path.join]
      rw [hjoin, Path.segments_of_isPlain h.isPlain_fixed]
      rfl
    | cons first rest =>
      have hparent := h.segments_parent (List.cons_ne_nil first rest)
      have hfirst : first ≠ "" := fun heq => h.relative (heq ▸ rfl)
      have hbase : Path.parent path ≠ "" := by
        intro hempty
        rw [hempty] at hparent
        exact hfirst (List.cons.inj (show [""] = _ from hparent)).1.symm
      rcases Path.segments_join hbase h.isPlain_fixed with ⟨-, hjoin⟩ | ⟨before', hlast, -⟩
      · rw [hjoin, hparent]
      · have hends : (Path.trimSegments (first :: rest)).getLast? = some "" := by
          rw [← hparent, hlast, List.getLast?_concat]
        rcases Path.getLast?_trimSegments hends with heq | ⟨hempty, -⟩
        · exact absurd heq.symm hfirst
        · exact absurd rfl hempty

end DocumentPath

end TemplateLint.Files
