import ShaderComposer.Proofs.Templates
import ShaderComposer.Text.Identifier
import Mathlib.Data.List.Infix

/-!
# Words and lines inside a text

A word that is found by cutting a text apart is a piece of it.  The other way round a
piece of a text that is put together lies in one of its parts, unless it shares a
character with what stands between them.  Texts that are single lines are found again as
the lines of the text they are joined to.
-/

namespace ShaderComposer

namespace Text

/-- The names and numerals in a text: what stands between characters that belong to no
identifier. -/
def words (text : String) : List String :=
  ((text.toList.splitOnP fun c => !isIdentifierPart c).filter fun piece =>
    !piece.isEmpty).map String.ofList

section Pieces

variable {α : Type} {ends : α → Bool} {text : List α}

theorem prefix_of_splitOnP
    {first : List α} {rest : List (List α)} (hsplit : text.splitOnP ends = first :: rest) :
    first <+: text := by
  induction text generalizing first rest with
  | nil =>
      obtain ⟨rfl, -⟩ : [] = first ∧ [] = rest := by
        simpa using hsplit
      exact List.prefix_rfl
  | cons c text ih =>
      rw [List.splitOnP_cons_eq_if_modifyHead] at hsplit
      split at hsplit
      · obtain ⟨rfl, -⟩ := List.cons.inj hsplit
        exact List.nil_prefix
      · obtain ⟨piece, pieces, htext⟩ :=
          List.exists_cons_of_ne_nil (List.splitOnP_ne_nil ends text)
        rw [htext, List.modifyHead_cons] at hsplit
        obtain ⟨rfl, -⟩ := List.cons.inj hsplit
        exact List.cons_prefix_cons.mpr ⟨rfl, ih htext⟩

theorem infix_of_mem_splitOnP {piece : List α} (hpiece : piece ∈ text.splitOnP ends) :
    piece <:+: text := by
  induction text with
  | nil =>
      obtain rfl : piece = [] := by
        simpa using hpiece
      exact List.infix_rfl
  | cons c text ih =>
      have htail : text <:+: c :: text := (List.suffix_cons c text).isInfix
      obtain ⟨first, rest, hsplit⟩ :=
        List.exists_cons_of_ne_nil (List.splitOnP_ne_nil ends text)
      rw [List.splitOnP_cons_eq_if_modifyHead] at hpiece
      split at hpiece
      · rcases List.mem_cons.mp hpiece with rfl | hmem
        · exact List.nil_infix
        · exact (ih hmem).trans htail
      · rw [hsplit, List.modifyHead_cons] at hpiece
        rcases List.mem_cons.mp hpiece with rfl | hmem
        · exact (List.cons_prefix_cons.mpr ⟨rfl, prefix_of_splitOnP hsplit⟩).isInfix
        · exact (ih (hsplit ▸ List.mem_cons_of_mem first hmem)).trans htail

end Pieces

theorem infix_of_mem_words {text word : String} (hword : word ∈ words text) :
    word.toList <:+: text.toList := by
  obtain ⟨piece, hpiece, rfl⟩ := List.mem_map.mp hword
  rw [String.toList_ofList]
  exact infix_of_mem_splitOnP (List.mem_filter.mp hpiece).1

section Words

variable {α : Type} {word before middle after : List α} {c : α}

theorem prefix_of_prefix_append_cons
    (hc : c ∉ word) (hstarts : word <+: before ++ c :: after) : word <+: before := by
  have hmarked : before ++ [c] <+: before ++ c :: after := ⟨after, by simp⟩
  rcases List.prefix_or_prefix_of_prefix hstarts hmarked with hshort | hlong
  · rcases List.prefix_concat_iff.mp hshort with rfl | hbefore
    · simp at hc
    · exact hbefore
  · exact absurd (hlong.subset (by simp)) hc

/-- A word without some character lies on one side of it. -/
theorem infix_of_infix_append_cons
    (hc : c ∉ word) (hoccurs : word <:+: before ++ c :: after) :
    word <:+: before ∨ word <:+: after := by
  induction before with
  | nil =>
      rcases List.infix_cons_iff.mp hoccurs with hstarts | hafter
      · have hnone : word <+: [] := prefix_of_prefix_append_cons hc hstarts
        exact .inl hnone.isInfix
      · exact .inr hafter
  | cons head before ih =>
      rcases List.infix_cons_iff.mp hoccurs with hstarts | htail
      · have hfront : word <+: head :: before := prefix_of_prefix_append_cons hc hstarts
        exact .inl hfront.isInfix
      · rcases ih htail with hbefore | hafter
        · exact .inl (hbefore.trans (List.suffix_cons head before).isInfix)
        · exact .inr hafter

/-- A word lies on one side of a piece with which it has no character in common. -/
theorem infix_of_infix_append
    (hmiddle : middle ≠ []) (hdisjoint : ∀ c ∈ middle, c ∉ word)
    (hoccurs : word <:+: before ++ middle ++ after) :
    word <:+: before ∨ word <:+: after := by
  induction middle generalizing before with
  | nil =>
      contradiction
  | cons c middle ih =>
      have hc : c ∉ word := hdisjoint c List.mem_cons_self
      have hrest : ∀ d ∈ middle, d ∉ word :=
        fun d hd => hdisjoint d (List.mem_cons_of_mem c hd)
      rw [List.append_assoc, List.cons_append] at hoccurs
      rcases infix_of_infix_append_cons hc hoccurs with hbefore | hafter
      · exact .inl hbefore
      · by_cases hempty : middle = []
        · exact .inr (by simpa [hempty] using hafter)
        · have hmore : word <:+: [] ++ middle ++ after := hafter
          rcases ih hempty hrest hmore with hnone | hend
          · exact .inl (hnone.trans List.nil_infix)
          · exact .inr hend

end Words

theorem lines_joinWith {texts : List String}
    (hlines : ∀ text ∈ texts, text ≠ "" ∧ '\n' ∉ text.toList) :
    lines (joinWith "\n" texts).toList = texts.map String.toList := by
  induction texts with
  | nil =>
      rfl
  | cons text rest ih =>
      obtain ⟨hfilled, hline⟩ := hlines text List.mem_cons_self
      have hrest := ih fun other hother => hlines other (List.mem_cons_of_mem text hother)
      have hbreaks : ∀ c ∈ text.toList, c ≠ '\n' := by
        rintro c hc rfl
        exact hline hc
      have hfront := lines_append_of_ne (mt String.toList_eq_nil_iff.mp hfilled) hbreaks
      cases rest with
      | nil =>
          simpa [joinWith] using hfront []
      | cons next others =>
          rw [joinWith, String.toList_append, String.toList_append, List.append_assoc, hfront]
          have hbreak : ("\n".toList ++ (joinWith "\n" (next :: others)).toList) =
              '\n' :: (joinWith "\n" (next :: others)).toList := rfl
          rw [hbreak, lines, if_pos rfl, hrest]
          simp

end Text

end ShaderComposer
