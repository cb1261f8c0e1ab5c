import Mathlib.Data.List.TakeWhile
import RecordQuery.Text.Blank

/-!
# Cutting text

`pieces` cuts a text at a separator and `words` at its blanks. They are the splits of lists that the
library knows (`pieces_eq_splitOn`, `words_eq_splitOnP`), from which it follows what is lost: the
separators, and the blanks together with the empty words.
-/

namespace RecordQuery

/-- The parts of a split consist of items that are no separators. -/
theorem List.mem_of_mem_splitOnP {α : Type} {p : α → Bool} {xs ys : List α}
    (h : ys ∈ xs.splitOnP p) : ∀ x ∈ ys, x ∈ xs ∧ p x = false := by
  induction xs generalizing ys with
  | nil =>
    rw [List.splitOnP_nil, List.mem_singleton] at h
    simp [h]
  | cons a xs ih =>
    have hmono (zs : List α) (hzs : ∀ x ∈ zs, x ∈ xs ∧ p x = false) :
        ∀ x ∈ zs, x ∈ a :: xs ∧ p x = false :=
      fun x hx => (hzs x hx).imp_left (List.mem_cons_of_mem a)
    rw [List.splitOnP_cons_eq_if_modifyHead] at h
    split at h
    · rcases List.mem_cons.1 h with rfl | h
      · nofun
      · exact hmono ys (ih h)
    · rename_i ha
      cases hsplit : xs.splitOnP p with
      | nil => exact absurd hsplit (List.splitOnP_ne_nil p xs)
      | cons zs rest =>
        rw [hsplit] at h ih
        rcases List.mem_cons.1 h with rfl | h
        · rintro x (_ | ⟨_, hx⟩)
          · exact ⟨List.mem_cons_self, Bool.eq_false_iff.2 ha⟩
          · exact hmono zs (ih List.mem_cons_self) x hx
        · exact hmono ys (ih (List.mem_cons_of_mem zs h))

namespace Text

variable {separator c : Char} {cs p w : List Char}

/-! ### Pieces -/

theorem pieces_eq_splitOn (separator : Char) (cs : List Char) :
    pieces separator cs = cs.splitOn separator := by
  induction cs with
  | nil => rfl
  | cons c cs ih =>
    rw [pieces, List.splitOn_cons_eq_if_modifyHead, ← ih]
    simp only [beq_iff_eq]
    split
    · rfl
    · cases hpieces : pieces separator cs with
      | nil => exact absurd hpieces (pieces_ne_nil separator cs)
      | cons p ps => rfl

/-- A piece consists of characters of the text that are not the separator. -/
theorem mem_of_mem_pieces (h : p ∈ pieces separator cs) (hc : c ∈ p) : c ∈ cs ∧ c ≠ separator := by
  rw [pieces_eq_splitOn, List.splitOn_eq_splitOnP] at h
  exact (List.mem_of_mem_splitOnP h c hc).imp_right (by simp)

/-- What is joined by a separator that occurs in none of the parts is cut into these parts. -/
theorem pieces_intercalate {ps : List (List Char)} (hne : ps ≠ [])
    (h : ∀ p ∈ ps, separator ∉ p) : pieces separator ([separator].intercalate ps) = ps := by
  rw [pieces_eq_splitOn, List.splitOn_intercalate separator h hne]

/-! ### Words -/

theorem words_eq_splitOnP (cs : List Char) :
    words cs = (cs.splitOnP isBlank).filter (!·.isEmpty) := by
  fun_induction words cs with
  | case1 => rfl
  | case2 c cs hc ih => simp [List.splitOnP_cons_eq_if_modifyHead, hc, ih]
  | case3 c hc => simp [List.splitOnP_cons_eq_if_modifyHead, hc]
  | case4 c hc d cs hd ih =>
    rw [ih]
    simp [List.splitOnP_cons_eq_if_modifyHead, hc, hd]
  | case5 c hc d cs hd hwords ih | case6 c hc d cs hd w ws hwords ih =>
    -- the first character of the rest is not blank, so the first part of its split is a word
    obtain ⟨p, ps, hsplit⟩ := List.exists_cons_of_ne_nil (List.splitOnP_ne_nil isBlank cs)
    rw [ih]
    simp [List.splitOnP_cons_eq_if_modifyHead, hc, hd, hsplit]

/-- A word is not empty and consists of characters of the text that are not blank. -/
theorem mem_of_mem_words (h : w ∈ words cs) :
    w ≠ [] ∧ ∀ c ∈ w, c ∈ cs ∧ isBlank c = false := by
  rw [words_eq_splitOnP, List.mem_filter] at h
  exact ⟨by simpa using h.2, List.mem_of_mem_splitOnP h.1⟩

theorem words_append_cons (as bs : List Char) (hc : isBlank c = true) :
    words (as ++ c :: bs) = words as ++ words bs := by
  simp only [words_eq_splitOnP, List.splitOnP_append_cons as bs hc, List.filter_append]

theorem words_eq_singleton (hne : cs ≠ []) (h : ∀ c ∈ cs, isBlank c = false) : words cs = [cs] := by
  simp [words_eq_splitOnP, List.splitOnP_eq_singleton h, hne]

/-! ### Blanks -/

theorem isBlankText_eq_false_iff : isBlankText cs = false ↔ ∃ c ∈ cs, isBlank c = false := by
  simp [isBlankText]

theorem trim_of_isBlankText (h : isBlankText cs = true) : trim cs = [] := by
  rw [trim, List.dropWhile_eq_nil_iff.2 (List.all_eq_true.1 h)]
  rfl

/-- Nothing is trimmed from a text without blanks. -/
theorem trim_eq_self (h : ∀ c ∈ cs, isBlank c = false) : trim cs = cs := by
  have hdrop (ds : List Char) (hds : ∀ c ∈ ds, isBlank c = false) :
      ds.dropWhile isBlank = ds := by
    cases ds with
    | nil => rfl
    | cons d ds => exact List.dropWhile_cons_of_neg (by simp [hds d List.mem_cons_self])
  rw [trim, hdrop cs h, hdrop cs.reverse (by simpa using h), List.reverse_reverse]

end Text
end RecordQuery
