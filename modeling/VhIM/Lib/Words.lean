import Mathlib

/-! # Words of a line

The words of a list are its maximal runs without the separator. A reader that
skips separators and takes a run meets them one after another. -/
namespace VhIM.Lib.Words

variable {α : Type*} [DecidableEq α] {sep : α}

def words (sep : α) (l : List α) : List (List α) := (l.splitOn sep).filter (!·.isEmpty)

@[simp] theorem words_nil : words sep [] = [] := by simp [words]

theorem words_cons_sep (l : List α) : words sep (sep :: l) = words sep l := by
  simp [words, List.splitOn_cons_eq_if_modifyHead]

theorem words_skip (l : List α) : words sep (l.dropWhile (· == sep)) = words sep l := by
  induction l with
  | nil => rfl
  | cons a l ih =>
    by_cases ha : a = sep
    · rw [ha, List.dropWhile_cons_of_pos (by simp), ih, words_cons_sep]
    · rw [List.dropWhile_cons_of_neg (by simpa using ha)]

/-- A run that a separator or the end follows is the first word. -/
theorem words_run {w rest : List α} (hw : w ≠ []) (hrun : sep ∉ w)
    (hrest : ∀ a ∈ rest.head?, a = sep) : words sep (w ++ rest) = w :: words sep rest := by
  cases rest with
  | nil => simp [words, List.splitOn_eq_singleton hrun, hw]
  | cons a rest =>
    obtain rfl : a = sep := hrest a rfl
    rw [words_cons_sep, words, List.splitOn_append_cons_self_of_not_mem hrun]
    simp [words, hw]

/-- What is left after skipping begins with a word or is empty. -/
theorem takeWhile_skip_eq_nil {l : List α} :
    (l.dropWhile (· == sep)).takeWhile (· != sep) = [] ↔ l.dropWhile (· == sep) = [] := by
  constructor
  · intro h
    cases hl : l.dropWhile (· == sep) with
    | nil => rfl
    | cons a rest =>
      have hne := List.head_dropWhile_not (· == sep) (l := l) (by simp [hl])
      simp only [hl, List.head_cons, beq_eq_false_iff_ne] at hne
      simp [hl, hne] at h
  · intro h
    rw [h]
    rfl

/-- The words, read by skipping separators and taking a run. -/
theorem words_eq (l : List α) :
    words sep l =
      match (l.dropWhile (· == sep)).takeWhile (· != sep) with
      | [] => []
      | w => w :: words sep ((l.dropWhile (· == sep)).dropWhile (· != sep)) := by
  rw [← words_skip l]
  split
  · next h => rw [takeWhile_skip_eq_nil.mp h, words_nil]
  · next hne =>
    set s := l.dropWhile (· == sep)
    conv_lhs => rw [← List.takeWhile_append_dropWhile (p := (· != sep)) (l := s)]
    refine words_run (fun h => hne h) ?_ ?_
    · intro hmem
      simpa using List.mem_takeWhile_imp hmem
    · intro a ha
      have hhead := List.head?_dropWhile_not (· != sep) s
      rw [Option.mem_def.mp ha] at hhead
      simpa using hhead

variable {w l : List α}

/-- Every word stands in the list as it is. -/
theorem mem_words_within (h : w ∈ words sep l) : w <:+: l := by
  have hpart : w ∈ l.splitOn sep := List.mem_of_mem_filter h
  have hjoin : [sep].intercalate (l.splitOn sep) = l := List.intercalate_splitOn sep
  rw [← hjoin]
  generalize l.splitOn sep = parts at hpart ⊢
  induction parts with
  | nil => cases hpart
  | cons part parts ih =>
    cases parts with
    | nil =>
      obtain rfl := List.mem_singleton.mp hpart
      simp
    | cons next parts =>
      rw [List.intercalate_cons_cons]
      rcases List.mem_cons.mp hpart with rfl | hpart
      · rw [List.append_assoc]
        exact (List.prefix_append _ _).isInfix
      · exact (ih hpart).trans (List.suffix_append _ _).isInfix

/-! ## The first word -/

theorem head_words_within (h : (words sep l).head? = some w) : w <:+: l :=
  mem_words_within (List.mem_of_head? h)

theorem sep_not_mem_head_words (h : (words sep l).head? = some w) : sep ∉ w := by
  rw [words_eq] at h
  split at h
  · cases h
  · cases h
    intro hmem
    simpa using List.mem_takeWhile_imp hmem

/-- It is the whole list only if nothing separates. -/
theorem head_words_eq_self (hne : l ≠ []) : (words sep l).head? = some l ↔ sep ∉ l := by
  constructor
  · exact sep_not_mem_head_words
  · intro h
    have hone := words_run hne h (by simp : ∀ a ∈ ([] : List α).head?, a = sep)
    rw [List.append_nil] at hone
    rw [hone, List.head?_cons]

end VhIM.Lib.Words
