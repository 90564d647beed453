import Mathlib.Data.List.Pairwise
import TemplateLint.Proofs.Command.Counts
import TemplateLint.Proofs.Files.Found
import TemplateLint.Proofs.Files.Leads
import TemplateLint.Proofs.Lint.Events
import TemplateLint.Proofs.Template.RoundTrip

/-! When every document is linted once. Documents are told apart by the components of their paths,
and paths with different components may lead to one file. -/
namespace TemplateLint.Files

/-- The two paths lead to the same place of the tree. -/
def FileTree.SameFile (root : FileTree) (p q : String) : Prop :=
  ∃ way, root.place? p = some way ∧ root.place? q = some way

theorem FileTree.SameFile.symm {root : FileTree} {p q : String} (h : root.SameFile p q) :
    root.SameFile q p := by
  obtain ⟨way, hp, hq⟩ := h
  exact ⟨way, hq, hp⟩

namespace Documents

/-- All documents that patterns come across. -/
def found (root : FileTree) (patterns : List String) : List String :=
  (patterns.map (find root)).flatMap Finding.documents

section Found
variable {root : FileTree} {patterns : List String}

theorem mem_found_of_mem_collect {path : String} (h : path ∈ collect root patterns) :
    path ∈ found root patterns :=
  mem_of_mem_ofFindings h

theorem exists_mem_collect {path : String} (h : path ∈ found root patterns) :
    ∃ kept ∈ collect root patterns, Path.components kept = Path.components path :=
  exists_mem_ofFindings h

theorem components_ne_of_collect : (collect root patterns).Pairwise fun p q =>
    Path.components p ≠ Path.components q :=
  (ofFindings_pairwise _).imp Path.ne_of_isBefore

variable (h : root.Proper)
include h

theorem exists_place_of_mem_found {path : String} (hmem : path ∈ found root patterns) :
    ∃ way, root.place? path = some way := by
  obtain ⟨finding, hfinding, hpath⟩ := List.mem_flatMap.mp hmem
  obtain ⟨pattern, -, rfl⟩ := List.mem_map.mp hfinding
  exact FileTree.exists_place_of_contains (contains_of_mem_documents h hpath)

/-- Documents with the same components are the same file. -/
theorem sameFile_of_components {p q : String} (hp : p ∈ found root patterns)
    (hq : q ∈ found root patterns) (heq : Path.components p = Path.components q) :
    root.SameFile p q := by
  obtain ⟨way, hway⟩ := exists_place_of_mem_found h hp
  obtain ⟨way', hway'⟩ := exists_place_of_mem_found h hq
  obtain rfl := FileTree.place?_inj hway hway' heq
  exact ⟨way, hway, hway'⟩

theorem collect_pairwise_iff :
    ((collect root patterns).Pairwise fun p q => ¬ root.SameFile p q) ↔
      ∀ p ∈ found root patterns, ∀ q ∈ found root patterns, root.SameFile p q →
        Path.components p = Path.components q := by
  constructor
  · intro hpairwise p hp q hq hsame
    obtain ⟨p', hp', hcomponents⟩ := exists_mem_collect hp
    obtain ⟨q', hq', hcomponents'⟩ := exists_mem_collect hq
    have hsame' : root.SameFile p' q' := by
      obtain ⟨way, hway, hway'⟩ := hsame
      obtain ⟨way₁, h₁, h₁'⟩ := sameFile_of_components h (mem_found_of_mem_collect hp') hp
        hcomponents
      obtain ⟨way₂, h₂, h₂'⟩ := sameFile_of_components h (mem_found_of_mem_collect hq') hq
        hcomponents'
      obtain rfl := Option.some.inj (h₁'.symm.trans hway)
      obtain rfl := Option.some.inj (h₂'.symm.trans hway')
      exact ⟨_, h₁, h₂⟩
    have hsymm : Std.Symm fun p q => ¬ root.SameFile p q := ⟨fun _ _ hnot h => hnot h.symm⟩
    have heq : p' = q' := by
      by_contra hne
      exact hpairwise.forall hp' hq' hne hsame'
    rw [← hcomponents, ← hcomponents', heq]
  · intro hall
    refine components_ne_of_collect.imp_of_mem fun hp hq hne hsame => hne ?_
    exact hall _ (mem_found_of_mem_collect hp) _ (mem_found_of_mem_collect hq) hsame

/-- Where no path goes up, only a single dot in front can make two of one file. -/
theorem sameFile_imp_components_iff
    (hparent : ∀ p ∈ found root patterns, Component.parent ∉ Path.components p) :
    (∀ p ∈ found root patterns, ∀ q ∈ found root patterns, root.SameFile p q →
        Path.components p = Path.components q) ↔
      ∀ p ∈ found root patterns, ∀ q ∈ found root patterns,
        Path.components p ≠ .current :: Path.components q := by
  constructor
  · intro hall p hp q hq heq
    obtain ⟨way, hway⟩ := exists_place_of_mem_found h hp
    obtain ⟨way', hway'⟩ := exists_place_of_mem_found h hq
    have hlead : way = way' := by
      rw [FileTree.place?_eq_lead hway, FileTree.place?_eq_lead hway', heq]
      rfl
    have hsame := hall p hp q hq ⟨way, hway, hlead ▸ hway'⟩
    rw [heq] at hsame
    exact absurd (congrArg List.length hsame) (Nat.succ_ne_self _)
  · rintro hall p hp q hq ⟨way, hway, hway'⟩
    rcases FileTree.components_eq_of_place? hway (hparent p hp) with hp' | hp' <;>
      rcases FileTree.components_eq_of_place? hway' (hparent q hq) with hq' | hq'
    · rw [hp', hq']
    · exact absurd (hq'.trans (congrArg _ hp'.symm)) (hall q hq p hp)
    · exact absurd (hp'.trans (congrArg _ hq'.symm)) (hall p hp q hq)
    · rw [hp', hq']

end Found

end Documents
end TemplateLint.Files

namespace TemplateLint.Command
open Files (FileTree)

end TemplateLint.Command
