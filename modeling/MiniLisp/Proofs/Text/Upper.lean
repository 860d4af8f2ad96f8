/-
# Upper case keeps quotes and backslashes apart

The image of a character is never empty, and a quote or a backslash comes from no character
but itself.  Both are read off the table.
-/
import Mathlib.Tactic.Lemma
import MiniLisp.Text.Upper

namespace MiniLisp.Text

/-- Whether the images of a run of characters stay clear of the quote and the backslash. -/
def CaseRun.isClear (run : CaseRun) : Bool :=
  92 < run.first + run.distance || (34 < run.first + run.distance && run.last + run.distance < 92)

lemma isClear_of_mem {run : CaseRun} (h : run ∈ caseRuns) : run.isClear := by
  have hall : caseRuns.all CaseRun.isClear := by decide +kernel
  exact List.all_eq_true.1 hall run h

/-- The short texts in the table are not empty, and have no quote and no backslash. -/
lemma clear_of_mem_caseExpansions {point : Nat} {image : List Nat}
    (h : (point, image) ∈ caseExpansions) : image ≠ [] ∧ 34 ∉ image ∧ 92 ∉ image := by
  have hall : caseExpansions.all fun entry =>
      !entry.2.isEmpty && !entry.2.contains 34 && !entry.2.contains 92 := by decide +kernel
  simpa [List.isEmpty_iff, and_assoc] using List.all_eq_true.1 hall _ h

lemma eq_toNat_of_ofNat_eq {n : Nat} {c : Char} (hc : c.toNat ≠ 0) (h : Char.ofNat n = c) :
    n = c.toNat := by
  by_cases hvalid : n.isValidChar
  · rw [Char.ofNat, dif_pos hvalid] at h
    rw [← h]
    rfl
  · rw [Char.ofNat, dif_neg hvalid] at h
    exact absurd (by rw [← h]; rfl) hc

lemma upperChar_ne_nil (c : Char) : upperChar c ≠ [] := by
  rw [upperChar]
  split
  · exact List.cons_ne_nil _ _
  · split
    · rename_i image hlookup
      obtain ⟨before, after, heq, -⟩ := List.lookup_eq_some_iff.1 hlookup
      have hclear := clear_of_mem_caseExpansions
        (heq ▸ List.mem_append_right before List.mem_cons_self)
      simpa using hclear.1
    · exact List.cons_ne_nil _ _

/-- A quote or a backslash in the image of a character is the character. -/
lemma eq_of_mem_upperChar {c d : Char} (hd : d = '"' ∨ d = '\\') (h : d ∈ upperChar c) :
    d = c := by
  have hpoint : d.toNat = 34 ∨ d.toNat = 92 := by
    rcases hd with rfl | rfl
    · exact Or.inl rfl
    · exact Or.inr rfl
  have hne : d.toNat ≠ 0 := by omega
  rw [upperChar] at h
  split at h
  · rename_i run hfind
    exfalso
    -- The code point of the image is that of a quote or a backslash, but the run stays clear.
    have hclear := isClear_of_mem (List.mem_of_find?_eq_some hfind)
    have hcontains := List.find?_some hfind
    have heq := eq_toNat_of_ofNat_eq hne (List.mem_singleton.1 h).symm
    simp only [CaseRun.contains, Bool.and_eq_true, decide_eq_true_eq] at hcontains
    simp only [CaseRun.isClear, Bool.or_eq_true, Bool.and_eq_true, decide_eq_true_eq] at hclear
    omega
  · split at h
    · rename_i image hlookup
      exfalso
      obtain ⟨before, after, heq, -⟩ := List.lookup_eq_some_iff.1 hlookup
      obtain ⟨-, hquote, hbackslash⟩ := clear_of_mem_caseExpansions
        (heq ▸ List.mem_append_right before List.mem_cons_self)
      obtain ⟨n, hn, himage⟩ := List.mem_map.1 h
      have hpointn := eq_toNat_of_ofNat_eq hne himage
      rcases hpoint with hpoint | hpoint
      · exact hquote (by rwa [← hpoint, ← hpointn])
      · exact hbackslash (by rwa [← hpoint, ← hpointn])
    · exact List.mem_singleton.1 h

@[simp] lemma upperChar_quote : upperChar '"' = ['"'] := by decide +kernel

@[simp] lemma upperChar_backslash : upperChar '\\' = ['\\'] := by decide +kernel

lemma toList_upper (s : String) : (upper s).toList = s.toList.flatMap upperChar :=
  String.toList_ofList

lemma flatMap_upperChar_ne_nil {chars : List Char} (h : chars ≠ []) :
    chars.flatMap upperChar ≠ [] := by
  obtain ⟨c, chars, rfl⟩ := List.exists_cons_of_ne_nil h
  rw [List.flatMap_cons]
  exact List.append_ne_nil_of_left_ne_nil (upperChar_ne_nil c) _

end MiniLisp.Text
