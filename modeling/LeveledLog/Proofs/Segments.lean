/-
Texts without the blanks around them, and the segments between commas.

Trimming takes away blanks only, and all of them at both ends; a text without
blanks is what is left of it however it is surrounded.  A list is split at its
commas, and each segment is trimmed.
-/

import LeveledLog.Text.Blank
import Mathlib.Data.List.DropRight
import Mathlib.Data.List.TakeWhile

namespace LeveledLog

namespace Text

/-! ### Blanks around a text -/

/-- The rest of a text without the blanks at both of its ends. -/
structure Trims (text trimmed : String) : Prop where
  blanks : ∃ before after : List Char,
    text.toList = before ++ (trimmed.toList ++ after) ∧
      ∀ character, character ∈ before ∨ character ∈ after →
        isBlank character = true
  first : ∀ character, trimmed.toList.head? = some character →
    isBlank character = false
  last : ∀ character, trimmed.toList.getLast? = some character →
    isBlank character = false

private theorem head?_dropWhile_not_blank (characters : List Char)
    {first : Char}
    (begins : (characters.dropWhile isBlank).head? = some first) :
    isBlank first = false := by
  have stops := List.head?_dropWhile_not isBlank characters
  rw [begins] at stops
  simpa using stops

theorem trims_trim (text : String) : Trims text (trim text) := by
  have spelled : (trim text).toList = trimmed text.toList :=
    String.toList_ofList
  have inner : trimmed text.toList ++
        (text.toList.dropWhile isBlank).rtakeWhile isBlank =
      text.toList.dropWhile isBlank :=
    List.rdropWhile_append_rtakeWhile
  refine ⟨⟨text.toList.takeWhile isBlank,
    (text.toList.dropWhile isBlank).rtakeWhile isBlank, ?_, ?_⟩, ?_, ?_⟩
  · rw [spelled, inner, List.takeWhile_append_dropWhile]
  · rintro character (before | after)
    · exact List.mem_takeWhile_imp before
    · exact List.mem_rtakeWhile_imp after
  · intro character begins
    rw [spelled] at begins
    -- What begins the trimmed list begins the list without its first blanks.
    have starts : trimmed text.toList <+: text.toList.dropWhile isBlank :=
      ⟨_, inner⟩
    apply head?_dropWhile_not_blank text.toList
    obtain ⟨rest, whole⟩ := starts
    rw [← whole, List.head?_append, begins]
    rfl
  · intro character ends
    rw [spelled, trimmed, List.getLast?_reverse] at ends
    exact head?_dropWhile_not_blank _ ends

theorem trimmed_eq {before characters after : List Char}
    (outer : ∀ character, character ∈ before ∨ character ∈ after →
      isBlank character = true)
    (inner : ∀ character ∈ characters, isBlank character = false)
    (given : characters ≠ []) :
    trimmed (before ++ (characters ++ after)) = characters := by
  have stops {inside rest : List Char} (some : inside ≠ [])
      (solid : ∀ character ∈ inside, isBlank character = false) :
      (inside ++ rest).dropWhile isBlank = inside ++ rest := by
    obtain ⟨first, others, same⟩ := List.exists_cons_of_ne_nil some
    rw [same] at solid ⊢
    rw [List.cons_append, List.dropWhile_cons_of_neg]
    rw [solid first List.mem_cons_self]
    decide
  have reversed : characters.reverse ≠ [] := by
    rw [ne_eq, List.reverse_eq_nil_iff]
    exact given
  unfold trimmed
  rw [List.dropWhile_append_of_pos fun character member =>
      outer character (.inl member), stops given inner, List.reverse_append,
    List.dropWhile_append_of_pos fun character member =>
      outer character (.inr (List.mem_reverse.mp member)),
    ← List.append_nil characters.reverse, stops reversed, List.append_nil,
    List.reverse_reverse]
  intro character member
  exact inner character (List.mem_reverse.mp member)

/-! ### Segments -/

private theorem split_eq (characters : List Char) :
    commaParts characters = characters.splitOn ',' := by
  unfold commaParts List.splitOn
  induction characters with
  | nil =>
      rfl
  | cons character characters inductionHypothesis =>
      rw [List.splitOnP_cons_eq_if_modifyHead, ← inductionHypothesis, split]
      by_cases comma : character = ','
      · subst comma
        rfl
      · have other : (character == ',') = false := beq_eq_false_iff_ne.mpr comma
        simp [other]

theorem segments_eq (setting : String) :
    segments setting =
      (setting.toList.splitOn ',').map fun part =>
        trim (String.ofList part) := by
  unfold segments trim
  rw [split_eq]
  simp only [String.toList_ofList]

end Text

end LeveledLog
