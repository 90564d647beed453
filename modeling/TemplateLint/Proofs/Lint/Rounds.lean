import TemplateLint.Proofs.Lint.Relint
import TemplateLint.Proofs.Rule.Swaps

/-! Linting a template with one event binding, applying the fixes and cutting the attribute out of
the output, again and again. Every round swaps the box in the key of the attribute, until there is
none. -/
namespace TemplateLint
open BananaInBox Text

/-- An event binding, and the template in which it stands. -/
structure Site where
  source : String
  event : BoundEvent

/-- Behind the key comes the first `=`. -/
theorem BananaInBox.IsKey.dropWhile_eq {key rest : List Char} (h : IsKey (key ++ rest) key) :
    (key ++ rest).dropWhile (· ≠ '=') = rest := by
  have hparts : attributeKey (key ++ rest) ++ (key ++ rest).dropWhile (· ≠ '=') = key ++ rest :=
    List.takeWhile_append_dropWhile
  rw [h.eq] at hparts
  exact List.append_cancel_left hparts

namespace Site

def root (site : Site) : RootNode := .ofEvents site.source [site.event]

def diagnostics (site : Site) (filename : String) : List Diagnostic :=
  (Linter.recommended.lint site.root filename).diagnostics

/-- Lints, applies the fixes and takes the span of the attribute from the output. It begins where it
did, and there is as much text behind it as there was. -/
def round? (filename : String) (site : Site) : Option Site := do
  let outcome ← (Linter.recommended.lint site.root filename).applyFixes? site.source
  let behind := byteLength site.source.toList - site.event.span.stop.offset.toNat
  let stop := byteLength outcome.output.toList - behind
  let span ← SourceSpan.ofTemplate? outcome.output site.event.span.start.offset stop.toUInt32
  return ⟨outcome.output, { site.event with span }⟩

/-- The attribute of the site, cut out of the template between `before` and `after`, is `key` and
the rest of it, which begins with the first `=`. -/
structure Holds (site : Site) (before key rest after : List Char) : Prop where
  source_eq : site.source.toList = before ++ (key ++ rest) ++ after
  start_eq : site.event.span.start.offset.toNat = byteLength before
  text_eq : site.event.span.source.toList = key ++ rest
  span : site.event.span.IsOf site.source
  key : IsKey (key ++ rest) key

theorem exists_holds {source : String} {before key rest after : List Char} (event : BoundEvent)
    (hsource : source.toList = before ++ (key ++ rest) ++ after)
    (hsize : byteLength before + byteLength (key ++ rest) < UInt32.size)
    (hkey : IsKey (key ++ rest) key) :
    ∃ span, SourceSpan.ofTemplate? source (byteLength before).toUInt32
        (byteLength before + byteLength (key ++ rest)).toUInt32 = some span ∧
      Holds ⟨source, { event with span }⟩ before key rest after := by
  have hstart : (byteLength before).toUInt32.toNat = byteLength before :=
    UInt32.toNat_ofNat_of_lt' (by omega)
  have hstop : (byteLength before + byteLength (key ++ rest)).toUInt32.toNat =
      byteLength before + byteLength (key ++ rest) := UInt32.toNat_ofNat_of_lt' hsize
  have hslice : slice? source.toList (byteLength before).toUInt32.toNat
      (byteLength before + byteLength (key ++ rest)).toUInt32.toNat = some (key ++ rest) :=
    slice?_eq_some_iff.mpr ⟨before, after, hsource, hstart.symm, by rw [hstart, hstop]⟩
  obtain ⟨span, hspan⟩ : ∃ span, SourceSpan.ofTemplate? source (byteLength before).toUInt32
      (byteLength before + byteLength (key ++ rest)).toUInt32 = some span :=
    ⟨_, SourceSpan.ofTemplate?_of_slice? hslice⟩
  obtain ⟨hs, ht, hof⟩ := SourceSpan.isOf_of_ofTemplate? hspan
  have htext := hof.slice?
  rw [hs, ht, hslice, Option.some.injEq] at htext
  refine ⟨span, hspan, hsource, ?_, htext.symm, hof, hkey⟩
  dsimp only
  rw [hs, hstart]

theorem diagnostics_eq (site : Site) (filename : String) :
    site.diagnostics filename = found site.source filename site.event := by
  have hevents : site.root.events = [site.event] := rfl
  rw [diagnostics, Linter.diagnostics_recommended, hevents, List.flatMap_singleton]
  rfl

section Round
variable {site : Site} {before key rest after : List Char} (h : Holds site before key rest after)
include h

theorem Holds.stop_eq :
    site.event.span.stop.offset.toNat = byteLength before + byteLength (key ++ rest) := by
  obtain ⟨-, -, -, -, hstop⟩ := slice?_eq_some_iff.mp h.span.slice?
  rw [h.start_eq, h.text_eq] at hstop
  exact hstop.symm

theorem Holds.attributeKey_eq : attributeKey site.event.span.source.toList = key := by
  rw [h.text_eq]
  exact h.key.eq

theorem Holds.diagnostics_eq_nil_iff (filename : String) : site.diagnostics filename = [] ↔
    ¬ (detect site.event.name.toList = true ∧ swapOnce? key ≠ none) := by
  rw [diagnostics_eq, found_eq_nil_iff h.span, h.attributeKey_eq, ne_eq, swapOnce?_eq_none_iff,
    locate?_eq_none_iff, not_not]

/-- The template after the round is the template with the box of the key swapped. -/
theorem Holds.exists_outcome {key' : List Char} (filename : String)
    (hname : detect site.event.name.toList = true) (hswap : swapOnce? key = some key') :
    ∃ outcome, (Linter.recommended.lint site.root filename).applyFixes? site.source =
        some outcome ∧
      outcome.output.toList = before ++ (key' ++ rest) ++ after := by
  obtain ⟨left, inner, right, hsplit, rfl⟩ := exists_split_of_swapOnce? hswap
  have htext : site.event.span.source.toList = left ++ boxText inner ++ (right ++ rest) := by
    rw [h.text_eq, hsplit.key_eq_append, List.append_assoc _ right]
  obtain ⟨d, hfound, hedits, hrepairs, hleft, hright⟩ :=
    exists_found_of_split filename h.span hname (h.attributeKey_eq.symm ▸ hsplit) htext
  have hspans : ∀ event ∈ [site.event], event.span.IsOf site.source := by
    intro event hevent
    rw [List.mem_singleton.mp hevent]
    exact h.span
  have hone : [site.event].flatMap (found site.source filename) = [d] := by
    rw [List.flatMap_singleton, hfound]
  have hall : ∀ d' ∈ [d], ∃ inner, Repairs site.source.toList d' inner := by
    rw [← hone]
    exact exists_repairs_of_mem_found
  obtain ⟨outcome, edits, hrun, hperm, -, hsplice, -⟩ :=
    exists_applyFixes?_eq_splice? site.source (fix_pairwise_apart hall)
  have haccepted : (acceptedEdits site.source.toList [d]).Perm [swapEdit d inner] := by
    rw [← hedits, ← hone]
    exact acceptedEdits_perm hspans (List.pairwise_singleton _ _)
  have hedit : edits = [swapEdit d inner] := List.perm_singleton.mp (hperm.trans haccepted)
  have hfront : slice? site.source.toList 0 site.event.span.start.offset.toNat = some before :=
    slice?_eq_some_iff.mpr ⟨[], (key ++ rest) ++ after, by rw [h.source_eq]; simp, rfl,
      by rw [h.start_eq, Nat.zero_add]⟩
  have hback : slice? site.source.toList site.event.span.stop.offset.toNat
      (byteLength site.source.toList) = some after :=
    slice?_eq_some_iff.mpr ⟨before ++ (key ++ rest), [], by rw [h.source_eq]; simp,
      by rw [h.stop_eq, byteLength_append], by rw [h.stop_eq, h.source_eq]; simp; omega⟩
  have hout : TextEdit.splice? site.source.toList 0 (byteLength site.source.toList)
      [swapEdit d inner] =
        some (before ++ left ++ swappedText inner ++ ((right ++ rest) ++ after)) := by
    refine TextEdit.splice?_cons_eq_some_iff.mpr
      ⟨_, _, slice?_trans hfront hleft, slice?_trans hright hback, ?_⟩
    rw [swapEdit, String.toList_ofList]
  refine ⟨outcome, ?_, ?_⟩
  · unfold LintResult.applyFixes?
    rw [Linter.diagnostics_recommended, show site.root.events = [site.event] from rfl]
    change applyFixes? _ ([site.event].flatMap (found site.source filename)) = _
    rw [hone]
    exact hrun
  · rw [hedit, hout, Option.some.injEq] at hsplice
    rw [← hsplice]
    simp

/-- One round swaps the box in the key, and leaves everything else. -/
theorem Holds.exists_round? {key' : List Char} (filename : String)
    (hname : detect site.event.name.toList = true) (hswap : swapOnce? key = some key') :
    ∃ next, site.round? filename = some next ∧ Holds next before key' rest after ∧
      next.event = { site.event with span := next.event.span } := by
  obtain ⟨outcome, hrun, hout⟩ := h.exists_outcome filename hname hswap
  have hkey : IsKey (key' ++ rest) key' := by
    refine ⟨fun hmem => h.key.1 ((swapOnce?_lowers hswap).2 hmem), ?_⟩
    refine h.key.2.imp (fun hrest => ?_) fun ⟨value, hrest⟩ => ⟨value, ?_⟩
    · rw [List.append_cancel_left (hrest.trans (List.append_nil key).symm), List.append_nil]
    · rw [List.append_cancel_left hrest]
  have hshrink := byteLength_le_of_swapOnce? hswap
  have hstop := h.stop_eq
  have hlt := site.event.span.stop.offset.toNat_lt_size
  rw [byteLength_append] at hstop
  obtain ⟨span, hspan, hnext⟩ :=
    exists_holds site.event hout (by rw [byteLength_append]; omega) hkey
  have hstart : (byteLength before).toUInt32 = site.event.span.start.offset := by
    rw [← h.start_eq]
    exact UInt32.ofNat_toNat
  have hend : byteLength outcome.output.toList -
      (byteLength site.source.toList - site.event.span.stop.offset.toNat) =
        byteLength before + byteLength (key' ++ rest) := by
    rw [hout, h.source_eq, hstop]
    simp only [byteLength_append]
    omega
  rw [hstart] at hspan
  refine ⟨_, ?_, hnext, rfl⟩
  rw [round?, hrun]
  dsimp only [Option.bind_eq_bind, Option.bind_some]
  rw [hend, hspan]
  rfl

end Round

theorem Holds.exists_times?_round? {site : Site} {before key key' rest after : List Char}
    (h : Holds site before key rest after) (filename : String)
    (hname : detect site.event.name.toList = true) {n : Nat}
    (hswaps : times? swapOnce? n key = some key') :
    ∃ last, times? (round? filename) n site = some last ∧ Holds last before key' rest after ∧
      last.event = { site.event with span := last.event.span } := by
  induction n generalizing site key with
  | zero =>
    rw [times?, Option.some.injEq] at hswaps
    subst hswaps
    exact ⟨site, rfl, h, rfl⟩
  | succ n ih =>
    obtain ⟨next, hswap, hrest⟩ := times?_succ_eq_some_iff.mp hswaps
    obtain ⟨middle, hround, hmiddle, hevent⟩ := h.exists_round? filename hname hswap
    have hname' : detect middle.event.name.toList = true := by
      rw [hevent]
      exact hname
    obtain ⟨last, hrun, hlast, hevent'⟩ := ih hmiddle hname' hrest
    refine ⟨last, times?_succ_eq_some_iff.mpr ⟨middle, hround, hrun⟩, hlast, ?_⟩
    rw [hevent', hevent]

/-- Rounds come to a site that is clean, after as many swaps as the key has inversions at most. -/
theorem Holds.exists_clean {site : Site} {before key rest after : List Char}
    (h : Holds site before key rest after) (filename : String) :
    ∃ n ≤ inversions key, ∃ last key', times? (round? filename) n site = some last ∧
      last.diagnostics filename = [] ∧ Holds last before key' rest after ∧
      last.event = { site.event with span := last.event.span } := by
  by_cases hname : detect site.event.name.toList = true
  · obtain ⟨n, hn, key', hswaps, hsettled⟩ := exists_times?_settled key
    obtain ⟨last, hrun, hlast, hevent⟩ := h.exists_times?_round? filename hname hswaps
    refine ⟨n, hn, last, key', hrun, ?_, hlast, hevent⟩
    rw [hlast.diagnostics_eq_nil_iff, not_and_not_right, swapOnce?_eq_none_iff]
    exact fun _ => hsettled
  · refine ⟨0, Nat.zero_le _, site, key, rfl, ?_, h, rfl⟩
    rw [h.diagnostics_eq_nil_iff]
    exact fun hreported => hname hreported.1

/-- Fixing again and again comes to an end. A key loses one inversion with every swap, gets no `=`,
and comes to have no box. An attribute, whatever its text, is clean after as many rounds at most,
with the same value from its first `=` on, the same event and the same template around it. -/
theorem rounds_end_clean (filename : String) :
    (∀ key : List Char,
      (∃ n ≤ inversions key, ∃ key', times? swapOnce? n key = some key' ∧ locate? key' = none) ∧
        ∀ n key', times? swapOnce? n key = some key' → '=' ∉ key → '=' ∉ key') ∧
      ∀ (before text after : List Char) (event : BoundEvent),
        byteLength before + byteLength text < UInt32.size →
        let source := String.ofList (before ++ text ++ after)
        ∃ span, SourceSpan.ofTemplate? source (byteLength before).toUInt32
            (byteLength before + byteLength text).toUInt32 = some span ∧
          ∃ n ≤ inversions (attributeKey text), ∃ last text',
            times? (round? filename) n ⟨source, { event with span }⟩ = some last ∧
              last.diagnostics filename = [] ∧
              last.event = { event with span := last.event.span } ∧
              last.event.span.source.toList = text' ∧
              last.source.toList = before ++ text' ++ after ∧
              text'.dropWhile (· ≠ '=') = text.dropWhile (· ≠ '=') := by
  refine ⟨fun key => ⟨exists_times?_settled key, fun n key' hswaps hkey hmem =>
    hkey ((times?_swapOnce?_lowers hswaps).2 hmem)⟩, ?_⟩
  intro before text after event hsize source
  have hparts : attributeKey text ++ text.dropWhile (· ≠ '=') = text :=
    List.takeWhile_append_dropWhile
  have hkey := isKey_attributeKey text
  have hsource : source.toList =
      before ++ (attributeKey text ++ text.dropWhile (· ≠ '=')) ++ after := by
    rw [hparts]
    exact String.toList_ofList
  obtain ⟨span, hspan, hholds⟩ := exists_holds event hsource (by rwa [hparts]) (by rwa [hparts])
  rw [hparts] at hspan
  obtain ⟨n, hn, last, key', hrun, hclean, hlast, hevent⟩ := hholds.exists_clean filename
  refine ⟨span, hspan, n, hn, last, _, hrun, hclean, hevent, hlast.text_eq, hlast.source_eq, ?_⟩
  rw [hlast.key.dropWhile_eq]

/-- Two rounds for a box in parentheses: the first swap makes another box. -/
theorem rounds_end_clean_doubled :
    let before := ['<', 'x', ' ']
    let text := ['(', '(', '[', 'a', ']', ')', ')', '=', '"', 'b', '"']
    let event : BoundEvent := ⟨"([a])", .regular, "b", none, .stub, none⟩
    byteLength before + byteLength text < UInt32.size ∧
      times? swapOnce? 1 (attributeKey text) = some ['(', '[', '(', 'a', ')', ']', ')'] ∧
      times? swapOnce? 2 (attributeKey text) = some ['[', '(', '(', 'a', ')', ')', ']'] ∧
      ∃ span, SourceSpan.ofTemplate? (String.ofList (before ++ text ++ ['>'])) 3 14 = some span ∧
        ∃ n ≤ 2, ∃ last text',
          times? (round? "t") n ⟨String.ofList (before ++ text ++ ['>']), { event with span }⟩ =
            some last ∧
          last.diagnostics "t" = [] ∧ last.event = { event with span := last.event.span } ∧
          last.event.span.source.toList = text' ∧ last.source.toList = before ++ text' ++ ['>'] ∧
          text'.dropWhile (· ≠ '=') = ['=', '"', 'b', '"'] := by
  intro before text event
  have hsize : byteLength before + byteLength text < UInt32.size := by decide
  exact ⟨hsize, by decide, by decide, (rounds_end_clean "t").2 before text ['>'] event hsize⟩

end Site
end TemplateLint
