import Mathlib.Data.List.Basic

/-!
The words of a text: what is between separators, without the empty pieces. A
word has no separator in it, so a text is its own first word exactly when it has
none.
-/

namespace Usahp.Library

variable {α : Type*} (separates : α → Bool)

def words (text : List α) : List (List α) :=
  (text.splitOnP separates).filter fun piece => !piece.isEmpty

theorem separates_of_mem_splitOnP {text piece : List α} (h : piece ∈ text.splitOnP separates) :
    ∀ letter ∈ piece, separates letter = false := by
  induction text generalizing piece with
  | nil =>
      rw [List.splitOnP_nil, List.mem_singleton] at h
      simp [h]
  | cons first rest ih =>
      rw [List.splitOnP_cons_eq_if_modifyHead] at h
      split_ifs at h with hfirst
      · rcases List.mem_cons.mp h with rfl | hrest
        · simp
        · exact ih hrest
      · cases hpieces : rest.splitOnP separates with
        | nil => exact absurd hpieces (List.splitOnP_ne_nil separates rest)
        | cons head tail =>
            rw [hpieces, List.modifyHead_cons] at h
            rw [hpieces] at ih
            rcases List.mem_cons.mp h with rfl | htail
            · intro letter hletter
              rcases List.mem_cons.mp hletter with rfl | hhead
              · simpa using hfirst
              · exact ih (by simp) letter hhead
            · exact ih (by simp [htail])

theorem separates_of_mem_words {text word : List α} (h : word ∈ words separates text) :
    ∀ letter ∈ word, separates letter = false :=
  separates_of_mem_splitOnP separates (List.mem_filter.mp h).1

theorem words_of_word {word : List α} (hword : ∀ letter ∈ word, separates letter = false)
    (hsome : word ≠ []) : words separates word = [word] := by
  unfold words
  rw [List.splitOnP_eq_singleton hword]
  simpa using hsome

theorem words_append {word : List α} (hword : ∀ letter ∈ word, separates letter = false)
    (hsome : word ≠ []) {separator : α} (hseparates : separates separator = true)
    (rest : List α) :
    words separates (word ++ separator :: rest) = word :: words separates rest := by
  unfold words
  rw [List.splitOnP_append_cons_of_forall_mem hword separator hseparates]
  simp [hsome]

/-- A text is its own first word when it is a word. -/
theorem head?_words_iff {text : List α} (hsome : text ≠ []) :
    (words separates text).head? = some text ↔ ∀ letter ∈ text, separates letter = false := by
  constructor
  · intro hhead
    exact separates_of_mem_words separates (List.mem_of_head? hhead)
  · intro hword
    rw [words_of_word separates hword hsome]
    rfl

end Usahp.Library
