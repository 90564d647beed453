import TemplateLint.Files.Tree
import TemplateLint.Proofs.Files.Segments

/-! Places in a tree, as ways of names from its top. A path leads to one place, and what is read or
written there depends on the place alone. -/
namespace TemplateLint.Files

namespace FileTree

/-- What is at the end of a way of names. -/
def at? (t : FileTree) (way : List String) : Option FileTree := way.foldlM child? t

@[simp] theorem at?_nil (t : FileTree) : t.at? [] = some t := rfl

theorem at?_cons (t : FileTree) (name : String) (way : List String) :
    t.at? (name :: way) = (t.child? name).bind (·.at? way) := rfl

theorem at?_concat (t : FileTree) (way : List String) (name : String) :
    t.at? (way ++ [name]) = (t.at? way).bind (·.child? name) := by
  simp [at?, List.foldlM_append]

theorem insert_cons {t u : FileTree} {name : String} (h : t.child? name = some u)
    (way : List String) (new : FileTree) :
    t.insert (name :: way) new = t.put name (u.insert way new) := by
  rw [insert, h, Option.getD_some]

/-- Adding an entry is putting the directory with the entry in its place. -/
theorem insert_concat {t u : FileTree} {way : List String} (h : t.at? way = some u)
    (name : String) (new : FileTree) :
    t.insert (way ++ [name]) new = t.insert way (u.put name new) := by
  induction way generalizing t with
  | nil =>
    cases h
    rfl
  | cons first way ih =>
    obtain ⟨child, hchild, hway⟩ := Option.bind_eq_some_iff.mp (at?_cons t first way ▸ h)
    rw [List.cons_append, insert_cons hchild, insert_cons hchild, ih hway]

/-- Whether there is a directory at the end of a way. -/
def hasDirectory (t : FileTree) (way : List String) : Bool := (t.at? way).any isDirectory

theorem isDirectory_of_child? {t u : FileTree} {name : String} (h : t.child? name = some u) :
    t.isDirectory = true := by
  cases t with
  | directory _ => rfl
  | _ => cases h

/-- One segment of a path further. -/
def stepWay (t : FileTree) (way : List String) (segment : String) : Option (List String) :=
  if !t.hasDirectory way then none
  else if segment = "" || segment = "." then some way
  else if segment = ".." then if way = [] then none else some way.dropLast
  else if (t.at? (way ++ [segment])).isSome then some (way ++ [segment]) else none

/-- The way of a path that does not lead out of the tree. -/
def place? (t : FileTree) (path : String) : Option (List String) :=
  if (Path.segments path).head? = some "" then none else (Path.segments path).foldlM t.stepWay []

theorem stepWay_blank {t : FileTree} {way way' : List String} {segment : String}
    (h : t.stepWay way segment = some way') (hblank : segment = "" ∨ segment = ".") :
    way' = way ∧ t.hasDirectory way = true := by
  cases hdirectory : t.hasDirectory way with
  | false => simp [stepWay, hdirectory] at h
  | true =>
    rcases hblank with rfl | rfl <;> simp [stepWay, hdirectory] at h <;> exact ⟨h.symm, rfl⟩

/-- Segments that are no components lead nowhere else, and only from a directory. -/
theorem foldlM_stepWay_blanks {t : FileTree} {blanks : List String}
    (h : ∀ s ∈ blanks, s = "" ∨ s = ".") (way : List String) :
    blanks.foldlM t.stepWay way =
      if blanks = [] ∨ t.hasDirectory way = true then some way else none := by
  induction blanks with
  | nil => rfl
  | cons s blanks ih =>
    obtain ⟨hs, hrest⟩ := List.forall_mem_cons.mp h
    have hstep : t.stepWay way s = if t.hasDirectory way then some way else none := by
      rcases hs with rfl | rfl <;> cases hdirectory : t.hasDirectory way <;>
        simp [stepWay, hdirectory]
    rw [List.foldlM_cons, hstep]
    cases hdirectory : t.hasDirectory way with
    | false => simp
    | true => simpa [hdirectory] using ih hrest

theorem place?_concat {t : FileTree} {path last : String} {before : List String}
    (h : Path.segments path = before ++ [last]) :
    t.place? path = if (Path.segments path).head? = some "" then none
      else (before.foldlM t.stepWay []).bind (t.stepWay · last) := by
  rw [place?, h, List.foldlM_append]
  simp [List.foldlM_cons, Option.bind_eq_bind]

end FileTree

namespace Location

/-- The names from the top of the tree. -/
def wayFrom (name : String) : List (String × FileTree) → List String
  | [] => []
  | (n, _) :: above => wayFrom n above ++ [name]

def way (l : Location) : List String := wayFrom l.name l.above

/-- The locations that can be reached from the top of a tree. -/
inductive Reached (root : FileTree) : Location → Prop
  | top : Reached root (.top root)
  | down {l l' : Location} {name : String} (h : Reached root l) (hdown : l.down? name = some l') :
    Reached root l'

theorem way_down {l l' : Location} {name : String} (h : l.down? name = some l') :
    l'.way = l.way ++ [name] := by
  obtain ⟨t, -, rfl⟩ := Option.map_eq_some_iff.mp h
  rfl

namespace Reached
variable {root : FileTree} {l : Location}

theorem at?_way (h : Reached root l) : root.at? l.way = some l.here := by
  induction h with
  | top => rfl
  | down _ hdown ih =>
    rw [way_down hdown, FileTree.at?_concat, ih]
    obtain ⟨t, hchild, rfl⟩ := Option.map_eq_some_iff.mp hdown
    exact hchild

theorem hasDirectory_way (h : Reached root l) : root.hasDirectory l.way = l.here.isDirectory := by
  rw [FileTree.hasDirectory, h.at?_way, Option.any_some]

/-- Going up leads back to where the location was reached from. -/
theorem up (h : Reached root l) :
    (l.up? = none ∧ l.way = []) ∨
      ∃ l' name, l.up? = some l' ∧ Reached root l' ∧ l.way = l'.way ++ [name] := by
  cases h with
  | top => exact .inl ⟨rfl, rfl⟩
  | down hl hdown =>
    refine .inr ⟨_, _, ?_, hl, way_down hdown⟩
    obtain ⟨t, -, rfl⟩ := Option.map_eq_some_iff.mp hdown
    rfl

/-- A step of a location is a step of its way. -/
theorem step (h : Reached root l) (segment : String) :
    (l.step segment).toOption.map way = root.stepWay l.way segment ∧
      ∀ l', l.step segment = .ok l' → Reached root l' := by
  unfold Location.step FileTree.stepWay
  rw [h.hasDirectory_way]
  split
  next => exact ⟨rfl, nofun⟩
  next =>
    split
    next =>
      refine ⟨rfl, fun l' hl' => ?_⟩
      cases hl'
      exact h
    next =>
      by_cases hparent : segment = ".."
      · rw [if_pos hparent, if_pos hparent]
        rcases h.up with ⟨hup, hway⟩ | ⟨l', name, hup, hl', hway⟩
        · rw [hup, hway]
          exact ⟨rfl, nofun⟩
        · rw [hup, hway]
          refine ⟨by simp [Except.toOption], fun l'' hl'' => ?_⟩
          cases hl''
          exact hl'
      · rw [if_neg hparent, if_neg hparent, FileTree.at?_concat, h.at?_way, Option.bind_some]
        cases hdown : l.down? segment with
        | none =>
          rw [Location.down?, Option.map_eq_none_iff] at hdown
          rw [hdown]
          exact ⟨rfl, nofun⟩
        | some l' =>
          obtain ⟨t, hchild, -⟩ := Option.map_eq_some_iff.mp hdown
          rw [hchild]
          refine ⟨congrArg some (way_down hdown), fun l'' hl'' => ?_⟩
          cases hl''
          exact h.down hdown

/-- Several steps of a location are steps of its way. -/
theorem foldlM_step (h : Reached root l) (segments : List String) :
    (segments.foldlM Location.step l).toOption.map way = segments.foldlM root.stepWay l.way ∧
      ∀ l', segments.foldlM Location.step l = .ok l' → Reached root l' := by
  induction segments generalizing l with
  | nil =>
    refine ⟨rfl, fun l' hl' => ?_⟩
    cases hl'
    exact h
  | cons segment segments ih =>
    obtain ⟨hway, hreached⟩ := h.step segment
    rw [List.foldlM_cons, List.foldlM_cons, ← hway]
    cases hstep : l.step segment with
    | error e => exact ⟨rfl, nofun⟩
    | ok l' => exact ih (hreached l' hstep)

/-- The whole tree with another one at the location. -/
theorem rebuild_eq (h : Reached root l) (new : FileTree) :
    rebuild new l.name l.above = root.insert l.way new := by
  induction h generalizing new with
  | top => rfl
  | down hl hdown ih =>
    rw [way_down hdown, FileTree.insert_concat hl.at?_way, ← ih]
    obtain ⟨t, -, rfl⟩ := Option.map_eq_some_iff.mp hdown
    rfl

end Reached
end Location

namespace FileTree
variable (root : FileTree)

theorem locate_eq (path : String) : root.locate path =
    if (Path.segments path).head? = some "" then .error .notFound
    else (Path.segments path).foldlM Location.step (.top root) := by
  rw [locate]
  exact if_congr Path.isEmpty_or_startsWith_iff rfl rfl

theorem locate_place? (path : String) :
    (root.locate path).toOption.map Location.way = root.place? path ∧
      ∀ l, root.locate path = .ok l → Location.Reached root l := by
  rw [locate_eq, place?]
  split
  next => exact ⟨rfl, nofun⟩
  next => exact Location.Reached.top.foldlM_step _

/-- What is found at a path is what is at its place. -/
theorem find_place? (path : String) :
    (root.find path).toOption = (root.place? path).bind root.at? := by
  obtain ⟨hplace, hreached⟩ := root.locate_place? path
  rw [find, ← hplace]
  cases hlocate : root.locate path with
  | error e => rfl
  | ok l => exact (hreached l hlocate).at?_way.symm

theorem isDirectoryAt_eq (path : String) :
    root.isDirectoryAt path = (root.find path).toOption.any isDirectory := by
  rw [isDirectoryAt]
  cases root.find path <;> rfl

theorem contains_eq (path : String) :
    root.contains path = (root.find path).toOption.isSome := by
  rw [contains]
  cases root.find path <;> rfl

/-- The content of a text file. -/
def text? : FileTree → Option String
  | .text content => some content
  | _ => none

theorem toOption_read (path : String) :
    (root.read path).toOption = (root.find path).toOption.bind text? := by
  rw [read]
  cases root.find path with
  | error e => rfl
  | ok t => cases t <;> rfl

theorem read_place? (path : String) :
    (root.read path).toOption = ((root.place? path).bind root.at?).bind text? := by
  rw [toOption_read, find_place?]

/-- The place where a path is written to: in a directory, and not a directory itself. -/
def target? (path : String) : Option (List String) :=
  ((Path.segments path).dropLast.foldlM root.stepWay []).bind fun way =>
    let place := way ++ [(Path.segments path).getLastD ""]
    if root.hasDirectory way && !root.hasDirectory place then some place else none

/-- Writing is putting a text at a place. -/
theorem write_target? (path content : String) :
    (root.write path content).toOption =
      (root.target? path).map fun way => root.insert way (.text content) := by
  obtain ⟨hway, hreached⟩ :
      ((Path.segments path).dropLast.foldlM Location.step (.top root)).toOption.map Location.way =
        (Path.segments path).dropLast.foldlM root.stepWay [] ∧ _ :=
    Location.Reached.top.foldlM_step _
  rw [write, target?, ← hway]
  cases hl : (Path.segments path).dropLast.foldlM Location.step (.top root) with
  | error e => rfl
  | ok l =>
    have hl := hreached l hl
    have hrebuild (name : String) (new : FileTree) :
        Location.rebuild (l.here.put name new) l.name l.above =
          root.insert (l.way ++ [name]) new := by
      rw [hl.rebuild_eq, insert_concat hl.at?_way]
    have hplace (name : String) :
        root.hasDirectory (l.way ++ [name]) = (l.here.child? name).any isDirectory := by
      rw [hasDirectory, at?_concat, hl.at?_way, Option.bind_some]
    simp only [bind, Except.bind, Except.toOption, Option.map_some, Option.bind_some, hplace,
      hl.hasDirectory_way]
    cases hdir : l.here.isDirectory with
    | false => rfl
    | true =>
      cases hchild : l.here.child? ((Path.segments path).getLastD "") with
      | none => exact congrArg some (hrebuild _ _)
      | some t =>
        cases t with
        | directory entries => rfl
        | _ => exact congrArg some (hrebuild _ _)

end FileTree

end TemplateLint.Files
