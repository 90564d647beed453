import Mathlib.Data.List.Perm.Subperm
import TemplateLint.Proofs.Text.Cuts
import TemplateLint.Text.LineIndex

/-! How large the line and the column of an offset can be. -/
namespace TemplateLint.Text

theorem length_le_byteLength (cs : List Char) : cs.length ≤ byteLength cs := by
  induction cs with
  | nil => exact Nat.le_refl 0
  | cons c cs ih =>
    have hsize := c.utf8Size_pos
    rw [List.length_cons, byteLength]
    omega

theorem lt_of_mem_lineStartsFrom {cs : List Char} {offset n : Nat}
    (h : n ∈ lineStartsFrom offset cs) : offset < n := by
  induction cs generalizing offset with
  | nil => cases h
  | cons c cs ih =>
    have hsize := c.utf8Size_pos
    rw [lineStartsFrom] at h
    split at h
    next =>
      rcases List.mem_cons.mp h with rfl | h
      · omega
      · have := ih h
        omega
    next =>
      have := ih h
      omega

theorem lineStartsFrom_pairwise (offset : Nat) (cs : List Char) :
    (lineStartsFrom offset cs).Pairwise (· < ·) := by
  induction cs generalizing offset with
  | nil => exact List.Pairwise.nil
  | cons c cs ih =>
    rw [lineStartsFrom]
    split
    next => exact List.pairwise_cons.mpr ⟨fun _ h => lt_of_mem_lineStartsFrom h, ih _⟩
    next => exact ih _

/-- Different numbers up to `n` are at most `n + 1` of them. -/
theorem length_le_of_pairwise_lt {ns : List Nat} {n : Nat} (h : ns.Pairwise (· < ·))
    (hle : ∀ m ∈ ns, m ≤ n) : ns.length ≤ n + 1 := by
  have hnodup : ns.Nodup := h.imp Nat.ne_of_lt
  have hsub : ns ⊆ List.range (n + 1) := fun m hm =>
    List.mem_range.mpr (Nat.lt_succ_of_le (hle m hm))
  have hlength := (List.Nodup.subperm hnodup hsub).length_le
  rwa [List.length_range] at hlength

namespace LineIndex

theorem starts_pairwise (text : List Char) : (ofText text).starts.Pairwise (· < ·) :=
  List.pairwise_cons.mpr ⟨fun _ h => lt_of_mem_lineStartsFrom h, lineStartsFrom_pairwise 0 text⟩

/-- Neither number gets larger than the offset, counted from one. -/
theorem lineColumn_le (text : List Char) (offset : Nat) :
    ((ofText text).lineColumn offset).1 ≤ offset + 1 ∧
      ((ofText text).lineColumn offset).2 ≤ offset + 1 := by
  have hstop : min offset (byteLength (ofText text).text) ≤ offset := Nat.min_le_left ..
  constructor
  · refine length_le_of_pairwise_lt
      ((starts_pairwise text).sublist (List.takeWhile_sublist _)) fun m hm => ?_
    have hbegun := List.all_eq_true.mp List.all_takeWhile m hm
    exact Nat.le_trans (of_decide_eq_true hbegun) hstop
  · unfold lineColumn
    dsimp only
    split
    next cs hcs =>
      obtain ⟨before, after, -, -, hlength⟩ := slice?_eq_some_iff.mp hcs
      have hle := length_le_byteLength cs
      omega
    next => exact Nat.succ_le_succ (Nat.le_trans (Nat.sub_le ..) hstop)

end LineIndex
end TemplateLint.Text
