/-
The numerals of 64-bit words.

Twenty places are enough for the decimal numeral of a word, and eighteen for
its hexadecimal numeral with the mark in front.  Either numeral spells its word
the shortest way, so that words and numerals belong together one to one, and
decimal numerals are in the order of their words.  A numeral goes to its
destination in one write.
-/

import LeveledLog.Proofs.Numerals
import LeveledLog.Proofs.OutputCalls

namespace LeveledLog

namespace Numeral

/-! ### Numerals in their buffers -/

def hexadecimalMark : Bytes :=
  Text.utf8 "0x"

private theorem mem_decimal_digits {byte : UInt8} (bound : digitOf byte < 10) :
    byte ∈ Text.utf8 "0123456789" := by
  have all : ∀ digit : Fin 10,
      digitByte digit.val ∈ Text.utf8 "0123456789" := by
    decide +kernel
  rw [← digitByte_digitOf (by omega : digitOf byte < 16)]
  exact all ⟨_, bound⟩

private theorem mem_hexadecimal_digits {byte : UInt8}
    (bound : digitOf byte < 16) : byte ∈ Text.utf8 "0123456789abcdef" :=
  List.idxOf_lt_length_iff.mp bound

theorem hexadecimal?_eq (word : UInt64) :
    ∃ digits left,
      hexadecimal? word = some { room := left, filled := hexadecimal word } ∧
        hexadecimal word = hexadecimalMark ++ digits ∧
        left + (hexadecimal word).length = hexadecimalSize ∧
        digits.length ≤ 16 ∧ Spells 16 digits word.toNat := by
  have bound : word.toNat < 16 ^ 16 := word.toNat_lt
  have places : word.toNat < 16 ^ hexadecimalSize :=
    Nat.lt_trans bound (by decide)
  obtain ⟨digits, room, fills, taken, spells⟩ :=
    fill?_spells sixteen_counts (by decide) places []
  have short := spells.length_le (by decide) (by decide) bound
  rw [List.append_nil] at fills
  obtain ⟨left, rfl⟩ : ∃ left, room = left + 2 := by
    refine ⟨room - 2, ?_⟩
    unfold hexadecimalSize at taken
    omega
  have marks : hexadecimal? word =
      some { room := left, filled := hexadecimalMark ++ digits } := by
    rw [hexadecimal?, fills]
    rfl
  have same : hexadecimal word = hexadecimalMark ++ digits := by
    rw [hexadecimal, marks]
    rfl
  refine ⟨digits, left, ?_, same, ?_, short, spells⟩
  · rw [same]
    exact marks
  · rw [same, List.length_append]
    change left + (2 + digits.length) = hexadecimalSize
    omega

/-! ### Words and their numerals -/

/-- The decimal numeral of a word fits its twenty places and has at least one
digit; its digits have the word as their value, and the first of them is zero
for the word zero only.  Different words have different numerals, each row of
digits that spells a number in the range of words the shortest way is the
numeral of that number, and a lesser word has a shorter numeral, or one of the
same length that comes first.  A numeral is written in one call. -/
theorem decimal_numerals_spell_words :
    (∀ word : UInt64,
      (∃ left, decimal? word = some { room := left, filled := decimal word } ∧
        left + (decimal word).length = 20) ∧
      (1 ≤ (decimal word).length ∧ (decimal word).length ≤ 20) ∧
      (∀ byte ∈ decimal word, byte ∈ Text.utf8 "0123456789") ∧
      valueOf 10 (decimal word) = word.toNat ∧
      (if word = 0 then decimal word = Text.utf8 "0"
        else (decimal word).head? ≠ some zeroDigit) ∧
      ∀ world : World, (Logger.writeDecimal word).sinkCalls world =
        [{ delivery :=
            world.surroundings.delivery (world.get .destination) (decimal word)
           reaction := world.reactionAt (world.get .destination) 0 }]) ∧
      Function.Injective decimal ∧
      (∀ digits number, Spells 10 digits number → number < 2 ^ 64 →
        decimal (UInt64.ofNat number) = digits) ∧
      ∀ first second : UInt64, first < second ↔
        (decimal first).length < (decimal second).length ∨
          (decimal first).length = (decimal second).length ∧
            decimal first < decimal second := by
  have spelled (word : UInt64) : Spells 10 (decimal word) word.toNat := by
    obtain ⟨_, _, _, spells⟩ := decimal?_eq word
    exact spells
  refine ⟨?_, ?_, ?_, ?_⟩
  · intro word
    obtain ⟨left, fills, places, spells⟩ := decimal?_eq word
    have some := spells.length_positive
    have range : left + (decimal word).length = 20 := places
    refine ⟨⟨left, fills, range⟩, ⟨some, by omega⟩, ?_, spells.value,
      spells.leading (by decide) (by decide),
      Logger.writeRaw_sinkCalls spells.given⟩
    intro byte member
    exact mem_decimal_digits (spells.inBase byte member)
  · intro first second same
    apply UInt64.toNat_inj.mp
    rw [← (spelled first).value, ← (spelled second).value, same]
  · intro digits number spells range
    have numeral := spelled (UInt64.ofNat number)
    rw [UInt64.toNat_ofNat_of_lt' range] at numeral
    exact numeral.unique spells (by decide) (by decide)
  · intro first second
    rw [UInt64.lt_iff_toNat_lt]
    exact (spelled first).lt_iff (spelled second) (by decide) (by decide)

/-- The greatest word takes up all twenty places.  Of two numerals that differ
in length the longer one may come first. -/
theorem decimal_of_greatest_word :
    decimal (UInt64.ofNat 18446744073709551615) =
        Text.utf8 "18446744073709551615" ∧
      decimal 10 < decimal 9 ∧ (9 : UInt64) < 10 := by
  have spells : Spells 10 (Text.utf8 "18446744073709551615")
      18446744073709551615 := by
    constructor
    · decide
    · decide +kernel
    · decide +kernel
    · decide +kernel
  refine ⟨decimal_numerals_spell_words.2.2.1 _ _ spells (by decide),
    by decide +kernel, ?_⟩
  rw [decimal_numerals_spell_words.2.2.2]
  decide +kernel

/-- The hexadecimal numeral of a word fits its eighteen places, of which two
are taken up by the mark; its digits have the word as their value, and the
first of them is zero for the word zero only.  Different words have different
numerals, and the mark with a row of digits that spells a number in the range
of words the shortest way is the numeral of that number.  A numeral is written
in one call. -/
theorem hexadecimal_numerals_spell_words :
    (∀ word : UInt64,
      (∃ left,
        hexadecimal? word =
            some { room := left, filled := hexadecimal word } ∧
          left + (hexadecimal word).length = 18) ∧
      (∃ digits, hexadecimal word = Text.utf8 "0x" ++ digits ∧
        (1 ≤ digits.length ∧ digits.length ≤ 16) ∧
        (∀ byte ∈ digits, byte ∈ Text.utf8 "0123456789abcdef") ∧
        valueOf 16 digits = word.toNat ∧
        if word = 0 then digits = Text.utf8 "0"
          else digits.head? ≠ some zeroDigit) ∧
      ∀ world : World, (Logger.writeHexadecimal word).sinkCalls world =
        [{ delivery :=
            world.surroundings.delivery (world.get .destination)
              (hexadecimal word)
           reaction := world.reactionAt (world.get .destination) 0 }]) ∧
      Function.Injective hexadecimal ∧
      ∀ digits number, Spells 16 digits number → number < 2 ^ 64 →
        hexadecimal (UInt64.ofNat number) = Text.utf8 "0x" ++ digits := by
  refine ⟨?_, ?_, ?_⟩
  · intro word
    obtain ⟨digits, left, fills, same, places, short, spells⟩ :=
      hexadecimal?_eq word
    refine ⟨⟨left, fills, places⟩, ⟨digits, same,
      ⟨spells.length_positive, short⟩, ?_, spells.value,
      spells.leading (by decide) (by decide)⟩, ?_⟩
    · intro byte member
      exact mem_hexadecimal_digits (spells.inBase byte member)
    · apply Logger.writeRaw_sinkCalls
      rw [same]
      exact List.cons_ne_nil _ _
  · intro first second same
    obtain ⟨digits, _, _, marked, _, _, spells⟩ := hexadecimal?_eq first
    obtain ⟨others, _, _, markedOther, _, _, spelled⟩ := hexadecimal?_eq second
    have equal : digits = others := by
      apply List.append_cancel_left
      rw [← marked, ← markedOther, same]
    apply UInt64.toNat_inj.mp
    rw [← spells.value, ← spelled.value, equal]
  · intro digits number spells range
    obtain ⟨others, _, _, marked, _, _, spelled⟩ :=
      hexadecimal?_eq (UInt64.ofNat number)
    rw [UInt64.toNat_ofNat_of_lt' range] at spelled
    rw [marked, spelled.unique spells (by decide) (by decide)]
    rfl

/-- The greatest word takes up all eighteen places. -/
theorem hexadecimal_of_greatest_word :
    hexadecimal (UInt64.ofNat 18446744073709551615) =
      Text.utf8 "0x" ++ Text.utf8 "ffffffffffffffff" := by
  apply hexadecimal_numerals_spell_words.2.2
  · constructor
    · decide
    · decide +kernel
    · decide +kernel
    · decide +kernel
  · decide

end Numeral

end LeveledLog
