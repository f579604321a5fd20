/-
Levels that texts name and settings ask for.

A text names a level if its bytes are those of the label up to the case of
ASCII letters, so that no blank and no character outside ASCII occurs in it,
and no text names two levels.  A setting asks for the level that it names
between blanks, or else for the least severe one.
-/

import LeveledLog.Level
import LeveledLog.Proofs.Segments
import LeveledLog.Proofs.Truncation

namespace LeveledLog

/-! ### Bytes up to the case of letters -/

namespace Text

def foldByte (byte : UInt8) : UInt8 :=
  if 65 ≤ byte ∧ byte ≤ 90 then byte + 32 else byte

private theorem foldByte_of_le {byte : UInt8} (high : 128 ≤ byte.toNat) :
    foldByte byte = byte := by
  unfold foldByte
  rw [if_neg]
  rintro ⟨_, low⟩
  have bound : byte.toNat ≤ 90 := UInt8.le_iff_toNat_le.mp low
  omega

private theorem toLower_eq {character : Char}
    (other : ¬ (65 ≤ character.toNat ∧ character.toNat ≤ 90)) :
    character.toLower = character := by
  apply dif_neg
  rintro ⟨low, high⟩
  exact other
    ⟨UInt32.le_iff_toNat_le.mp low, UInt32.le_iff_toNat_le.mp high⟩

private theorem fold_encodeChar (character : Char) :
    (String.utf8EncodeChar character).map foldByte =
      String.utf8EncodeChar character.toLower := by
  by_cases outside : 128 ≤ character.toNat
  · rw [toLower_eq (by omega)]
    refine (List.map_congr_left ?_).trans (List.map_id _)
    intro byte member
    exact foldByte_of_le (encodeChar_high outside byte member)
  · have all : ∀ code : Fin 128,
        (String.utf8EncodeChar (Char.ofNat code.val)).map foldByte =
          String.utf8EncodeChar (Char.ofNat code.val).toLower := by
      decide +kernel
    have folds := all ⟨character.toNat, by omega⟩
    rw [Char.ofNat_toNat] at folds
    exact folds

private theorem fold_utf8 (text : String) :
    (utf8 text).map foldByte = encode (Level.folded text.toList) := by
  rw [utf8, encode, Level.folded, List.map_flatMap, List.flatMap_map]
  simp only [fold_encodeChar]

private theorem encode_injective {left right : List Char}
    (same : encode left = encode right) : left = right := by
  rw [← utf8_ofList, ← utf8_ofList] at same
  have texts := congrArg String.toList (utf8_injective same)
  rw [String.toList_ofList, String.toList_ofList] at texts
  exact texts

end Text

/-! ### Names of levels -/

namespace Level

/-- Whether a text has as many bytes as the label of a level, and the same
bytes up to the case of ASCII letters. -/
def Named (level : Level) (text : String) : Prop :=
  Text.size text = Text.size level.label ∧
    (Text.utf8 text).map Text.foldByte =
      (Text.utf8 level.label).map Text.foldByte

instance (level : Level) (text : String) : Decidable (level.Named text) :=
  inferInstanceAs (Decidable (_ ∧ _))

variable {level : Level} {text : String}

theorem parse_eq_ok_iff :
    parse text = .ok level ↔
      folded text.toList = folded level.label.toList := by
  constructor
  · intro reads
    unfold parse at reads
    split at reads
    · rename_i found first
      cases reads
      have same := List.find?_some first
      exact (eq_of_beq same).symm
    · cases reads
  · intro same
    have first : (all.find? fun other =>
        folded other.label.toList == folded level.label.toList) =
          some level := by
      cases level <;> decide +kernel
    unfold parse
    rw [same, first]

theorem named_iff :
    level.Named text ↔
      folded text.toList = folded level.label.toList := by
  unfold Named
  rw [Text.fold_utf8, Text.fold_utf8]
  constructor
  · intro named
    exact Text.encode_injective named.2
  · intro same
    have bytes := (Text.fold_utf8 text).trans
      ((congrArg Text.encode same).trans (Text.fold_utf8 level.label).symm)
    have lengths := congrArg List.length bytes
    rw [List.length_map, List.length_map] at lengths
    exact ⟨lengths, congrArg Text.encode same⟩

theorem parse_iff_named : parse text = .ok level ↔ level.Named text := by
  rw [parse_eq_ok_iff, named_iff]

theorem named_unique {first second : Level} (named : first.Named text)
    (other : second.Named text) : first = second := by
  rw [← parse_iff_named] at named other
  rw [named] at other
  cases other
  rfl

theorem parse_eq_error_iff {failure : UnknownLevel} :
    parse text = .error failure ↔
      failure = { text := text } ∧ ∀ level : Level, ¬ level.Named text := by
  constructor
  · intro refused
    constructor
    · unfold parse at refused
      split at refused
      · cases refused
      · cases refused
        rfl
    · intro level named
      rw [parse_iff_named.mpr named] at refused
      cases refused
  · rintro ⟨same, unnamed⟩
    subst same
    cases reads : parse text with
    | ok level =>
        exact absurd (parse_iff_named.mp reads) (unnamed level)
    | error failure =>
        unfold parse at reads
        split at reads
        · cases reads
        · exact reads.symm

/-- The characters of a name are ASCII characters, and no blanks. -/
theorem Named.solid (named : level.Named text) :
    ∀ character ∈ text.toList,
      Text.isBlank character = false ∧ character.toNat < 128 := by
  have letters : ((folded level.label.toList).all fun letter =>
      !Text.isBlank letter && decide (letter.toNat < 128)) = true := by
    clear named
    cases level <;> decide +kernel
  rw [named_iff] at named
  rw [← named, List.all_eq_true] at letters
  intro character member
  by_cases capital : 65 ≤ character.toNat ∧ character.toNat ≤ 90
  · refine ⟨?_, by omega⟩
    unfold Text.isBlank
    simp only [Bool.or_eq_false_iff, Bool.and_eq_false_iff, beq_eq_false_iff_ne,
      decide_eq_false_iff_not]
    omega
  · have folds := letters _ (List.mem_map_of_mem member)
    rw [Text.toLower_eq capital] at folds
    simpa using folds

private theorem Named.given (named : level.Named text) : text.toList ≠ [] := by
  rw [named_iff] at named
  intro empty
  rw [empty] at named
  cases level <;> cases named

/-! ### Levels that settings ask for -/

/-- Whether a setting is the name of a level, with or without blanks around
it. -/
def Spelled (level : Level) (setting : String) : Prop :=
  ∃ (before : List Char) (name : String) (after : List Char),
    setting.toList = before ++ (name.toList ++ after) ∧
      (∀ character, character ∈ before ∨ character ∈ after →
        Text.isBlank character = true) ∧
      level.Named name

variable {setting : String}

theorem spelled_iff :
    level.Spelled setting ↔ level.Named (Text.trim setting) := by
  constructor
  · rintro ⟨before, name, after, split, blanks, named⟩
    have inner : ∀ character ∈ name.toList,
        Text.isBlank character = false :=
      fun character member => (named.solid character member).1
    rw [Text.trim, split, Text.trimmed_eq blanks inner named.given,
      String.ofList_toList]
    exact named
  · intro named
    obtain ⟨before, after, split, blanks⟩ := (Text.trims_trim setting).blanks
    exact ⟨before, _, after, split, blanks, named⟩

/-- A setting asks for the level that it spells, or else for the least severe
one. -/
def AskedBy (level : Level) (setting : String) : Prop :=
  level.Spelled setting ∨
    level = .info ∧ ∀ other : Level, ¬ other.Spelled setting

theorem ofSetting_eq_iff :
    ofSetting setting = level ↔ level.AskedBy setting := by
  unfold AskedBy ofSetting
  simp only [spelled_iff]
  cases reads : parse (Text.trim setting) with
  | ok read =>
      have named := parse_iff_named.mp reads
      constructor
      · intro same
        rw [← same]
        exact .inl named
      · rintro (other | ⟨_, none⟩)
        · exact named_unique named other
        · exact absurd named (none read)
  | error failure =>
      have unnamed := (parse_eq_error_iff.mp reads).2
      constructor
      · intro same
        exact .inr ⟨same.symm, unnamed⟩
      · rintro (named | ⟨same, _⟩)
        · exact absurd named (unnamed level)
        · exact same.symm

end Level

end LeveledLog
