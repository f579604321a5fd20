/-
What numerals and timestamps look like.

The decimal numeral of a word is the usual one, and a timestamp has the same
width whatever the instant.
-/

import LeveledLog.Proofs.Positional
import LeveledLog.Proofs.Truncation
import LeveledLog.Time.Timestamp

namespace LeveledLog

namespace Numeral

private theorem encode_digit {digit : Nat} (bound : digit < 10) :
    Text.encode [digit.digitChar] = [digitByte digit] := by
  have all : ∀ digit : Fin 10,
      Text.encode [digit.val.digitChar] = [digitByte digit.val] := by
    decide +kernel
  exact all ⟨digit, bound⟩

private theorem spells_toDigits (number : Nat) :
    Spells 10 (Text.encode (Nat.toDigits 10 number)) number := by
  induction number using Nat.strongRecOn with
  | ind number inductionHypothesis =>
      rw [Nat.toDigits_eq_if (by decide)]
      by_cases last : number < 10
      · rw [if_pos last, encode_digit last]
        exact Spells.single (by decide) last
      · have digit : number % 10 < 10 := Nat.mod_lt _ (by decide)
        have whole := (inductionHypothesis (number / 10) (by omega)).concat
          (by omega) (by decide) digit
        rw [Nat.mul_comm, Nat.div_add_mod] at whole
        rw [if_neg last, Text.encode_append, encode_digit digit]
        exact whole

/-- A decimal numeral takes up as many places as it has digits, and spells its
word. -/
theorem decimal?_eq (word : UInt64) :
    ∃ left, decimal? word = some { room := left, filled := decimal word } ∧
      left + (decimal word).length = decimalSize ∧
      Spells 10 (decimal word) word.toNat := by
  have places : word.toNat < 10 ^ decimalSize := by
    have bound := word.toNat_lt
    have enough : 2 ^ 64 < 10 ^ decimalSize := by
      decide
    omega
  obtain ⟨digits, left, fills, taken, spells⟩ :=
    fill?_spells ten_counts (by decide) places []
  rw [List.append_nil] at fills
  have same : decimal word = digits := by
    rw [decimal, decimal?, fills]
    rfl
  rw [same]
  exact ⟨left, fills, taken, spells⟩

theorem decimal_eq (word : UInt64) :
    decimal word = Text.utf8 (toString word.toNat) := by
  obtain ⟨_, _, _, spells⟩ := decimal?_eq word
  rw [Nat.toString_eq_ofList_toDigits, Text.utf8_ofList]
  exact spells.unique (spells_toDigits _) (by decide) (by decide)

end Numeral

theorem Timestamp.digits_succ (value width : Nat) :
    digits value (width + 1) =
      (48 + (value / 10 ^ width % 10).toUInt8) :: digits value width := rfl

private theorem Timestamp.digits_length (value width : Nat) :
    (digits value width).length = width := by
  induction width with
  | zero =>
      rfl
  | succ width inductionHypothesis =>
      rw [digits_succ, List.length_cons, inductionHypothesis]

theorem Instant.timestamp_length (instant : Instant) :
    instant.timestamp.length = 26 := by
  unfold timestamp
  simp only [List.length_append, Timestamp.digits_length]
  decide

end LeveledLog
