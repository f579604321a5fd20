/-
What is kept of a text that does not fit.

The bytes of a character are one that begins it and others that continue it.
A cut that moves back until it does not stand before a continuing byte
therefore ends where a character ends.  An inline text holds the longest start
of a text whose bytes fit.
-/

import LeveledLog.Proofs.Names

namespace LeveledLog

/-! ### The bytes of a character -/

namespace Text

def encode (characters : List Char) : Bytes :=
  characters.flatMap String.utf8EncodeChar

theorem utf8_ofList (characters : List Char) :
    utf8 (String.ofList characters) = encode characters := by
  rw [utf8, String.toList_ofList, encode]

theorem encode_append (earlier later : List Char) :
    encode (earlier ++ later) = encode earlier ++ encode later :=
  List.flatMap_append

theorem encodeChar_high {character : Char}
    (outside : 128 ≤ character.toNat) :
    ∀ byte ∈ String.utf8EncodeChar character, 128 ≤ byte.toNat := by
  have value : 128 ≤ character.val.toNat := outside
  have valid : character.val.toNat < 1114112 := by
    rcases character.valid with low | ⟨_, high⟩
    · exact Nat.lt_trans low (by decide)
    · exact high
  unfold String.utf8EncodeChar
  simp only
  split_ifs
  · omega
  all_goals
    simp only [List.forall_mem_cons, List.not_mem_nil, false_imp_iff,
      implies_true, UInt8.toNat_ofNat', and_true]
    omega

end Text

namespace InlineText

private theorem continues_ofNat {value : Nat} (bound : value < 256) :
    continues (UInt8.ofNat value) =
      decide (128 ≤ value ∧ value < 192) := by
  have all : ∀ value : Fin 256, continues (UInt8.ofNat value) =
      decide (128 ≤ value.val ∧ value.val < 192) := by
    decide +kernel
  exact all ⟨value, bound⟩

/-- One byte begins a character, and the others continue it. -/
private theorem encodeChar_eq (character : Char) :
    ∃ first others, String.utf8EncodeChar character = first :: others ∧
      continues first = false ∧
      ∀ byte ∈ others, continues byte = true := by
  have continuing (value : Nat) :
      continues (UInt8.ofNat (value % 64 + 128)) = true := by
    rw [continues_ofNat (by omega)]
    exact decide_eq_true (by omega)
  have beginning {value : Nat} (bound : value < 256)
      (outside : value < 128 ∨ 192 ≤ value) :
      continues (UInt8.ofNat value) = false := by
    rw [continues_ofNat bound]
    exact decide_eq_false (by omega)
  unfold String.utf8EncodeChar
  simp only
  split
  · refine ⟨_, _, rfl, beginning (by omega) (by omega), ?_⟩
    simp
  · split
    · refine ⟨_, _, rfl, beginning (by omega) (by omega), ?_⟩
      simp only [List.forall_mem_singleton, continuing]
    · split
      · refine ⟨_, _, rfl, beginning (by omega) (by omega), ?_⟩
        simp only [List.forall_mem_cons, continuing, true_and]
        exact List.forall_mem_nil _
      · refine ⟨_, _, rfl, beginning (by omega) (by omega), ?_⟩
        simp only [List.forall_mem_cons, continuing, true_and]
        exact List.forall_mem_nil _

/-! ### Where a cut ends -/

theorem boundary_eq {source : Bytes} {start place : Nat}
    (reached : start ≤ place)
    (begins : ∀ byte, source[start]? = some byte → continues byte = false)
    (inside : ∀ between, start < between → between ≤ place →
      ∃ byte, source[between]? = some byte ∧ continues byte = true) :
    boundary source place = start := by
  induction place with
  | zero =>
      rw [Nat.le_zero.mp reached]
      rfl
  | succ place inductionHypothesis =>
      rcases Nat.eq_or_lt_of_le reached with same | before
      · subst same
        unfold boundary
        cases there : source[place + 1]? with
        | none =>
            rfl
        | some byte =>
            simp [begins byte there]
      · obtain ⟨byte, there, continuing⟩ := inside _ before (Nat.le_refl _)
        unfold boundary
        simp only [there, continuing, if_true]
        apply inductionHypothesis (Nat.le_of_lt_succ before)
        intro between after upTo
        exact inside between after (Nat.le_succ_of_le upTo)

end InlineText

/-! ### The longest start that fits -/

namespace Text

def fittingStart : (room : Nat) → List Char → List Char
  | _, [] => []
  | room, character :: characters =>
      if character.utf8Size ≤ room then
        character :: fittingStart (room - character.utf8Size) characters
      else
        []

/-- What fits is followed by nothing, or by a character that does not fit. -/
theorem fittingStart_spec (room : Nat) (characters : List Char) :
    ∃ rest, characters = fittingStart room characters ++ rest ∧
      (encode (fittingStart room characters)).length ≤ room ∧
      ∀ next others, rest = next :: others →
        room < (encode (fittingStart room characters)).length +
          next.utf8Size := by
  induction characters generalizing room with
  | nil =>
      refine ⟨[], rfl, Nat.zero_le _, ?_⟩
      intro next others impossible
      cases impossible
  | cons character characters inductionHypothesis =>
      by_cases fits : character.utf8Size ≤ room
      · obtain ⟨rest, split, short, full⟩ :=
          inductionHypothesis (room - character.utf8Size)
        have longer (kept : List Char) :
            (encode (character :: kept)).length =
              character.utf8Size + (encode kept).length := by
          simp [encode]
        rw [fittingStart, if_pos fits]
        refine ⟨rest, congrArg (character :: ·) split, ?_, ?_⟩
        · rw [longer]
          omega
        · intro next others same
          have overfull := full next others same
          rw [longer]
          omega
      · rw [fittingStart, if_neg fits]
        refine ⟨character :: characters, rfl, Nat.zero_le _, ?_⟩
        intro next others same
        cases same
        simp only [encode, List.flatMap_nil, List.length_nil]
        omega

/-- The longest start of a text that takes up no more than `room` bytes. -/
structure LongestStart (room : Nat) (text kept : String) : Prop where
  starts : kept.toList <+: text.toList
  fits : size kept ≤ room
  longest : ∀ other : String, other.toList <+: text.toList →
    size other ≤ room → other.toList <+: kept.toList

theorem longestStart_fitting (room : Nat) (text : String) :
    LongestStart room text
      (String.ofList (fittingStart room text.toList)) := by
  obtain ⟨rest, split, short, full⟩ := fittingStart_spec room text.toList
  refine ⟨?_, ?_, ?_⟩
  · rw [String.toList_ofList]
    exact ⟨rest, split.symm⟩
  · rw [size, utf8_ofList]
    exact short
  · intro other starts fits
    rw [String.toList_ofList]
    have keptStarts : fittingStart room text.toList <+: text.toList :=
      ⟨rest, split.symm⟩
    rcases List.prefix_or_prefix_of_prefix starts keptStarts with
      shorter | ⟨more, same⟩
    · exact shorter
    -- If the other one is longer, the next character has to fit.
    cases more with
    | nil =>
        rw [List.append_nil] at same
        exact ⟨[], (List.append_nil _).trans same.symm⟩
    | cons next others =>
        obtain ⟨tail, whole⟩ := starts
        rw [← same, List.append_assoc] at whole
        have after : rest = next :: (others ++ tail) :=
          List.append_cancel_left (split.symm.trans whole.symm)
        have overfull := full next _ after
        rw [size, utf8, ← same] at fits
        simp only [encode, List.flatMap_append, List.flatMap_cons,
          List.length_append, String.length_utf8EncodeChar] at overfull fits
        omega

theorem LongestStart.eq_of_fits {room : Nat} {text kept : String}
    (longest : LongestStart room text kept) (fits : size text ≤ room) :
    kept = text := by
  apply String.toList_inj.mp
  apply longest.starts.eq_of_length_le
  exact (longest.longest text List.prefix_rfl fits).length_le

end Text

namespace InlineText

variable {capacity : Nat}

private theorem boundary_encode (room : Nat) (characters : List Char) :
    boundary (Text.encode characters)
        (min (Text.encode characters).length room) =
      (Text.encode (Text.fittingStart room characters)).length := by
  obtain ⟨rest, split, short, full⟩ :=
    Text.fittingStart_spec room characters
  cases rest with
  | nil =>
      rw [List.append_nil] at split
      rw [← split] at short ⊢
      rw [Nat.min_eq_left short, boundary_length]
  | cons next others =>
      have overfull := full next others rfl
      obtain ⟨first, continuing, encoded, begins, continues⟩ :=
        encodeChar_eq next
      have width : next.utf8Size = continuing.length + 1 := by
        rw [← String.length_utf8EncodeChar, encoded, List.length_cons]
      have source : Text.encode characters =
          Text.encode (Text.fittingStart room characters) ++
            (first :: (continuing ++ Text.encode others)) := by
        rw [split, Text.encode_append, ← split]
        exact congrArg _ (congrArg (· ++ _) encoded)
      have full : room < (Text.encode characters).length := by
        rw [source]
        simp only [List.length_append, List.length_cons]
        omega
      rw [Nat.min_eq_right (Nat.le_of_lt full)]
      refine boundary_eq short ?_ ?_
      · intro byte there
        rw [source, List.getElem?_append_right (Nat.le_refl _),
          Nat.sub_self] at there
        cases there
        exact begins
      · intro between after upTo
        obtain ⟨index, same⟩ := Nat.exists_eq_add_of_lt after
        have bound : index < continuing.length := by
          omega
        refine ⟨continuing.get ⟨index, bound⟩, ?_,
          continues _ (List.get_mem _ _)⟩
        rw [source, same, Nat.add_assoc,
          List.getElem?_append_right (Nat.le_add_right _ _),
          Nat.add_sub_cancel_left, List.getElem?_cons_succ,
          List.getElem?_append_left bound, List.getElem?_eq_getElem bound]
        rfl

theorem content_take (text : String) :
    (truncating text : InlineText capacity).content =
      (Text.utf8 text).take
        (boundary (Text.utf8 text)
          (min (Text.utf8 text).length (room capacity))) := by
  have before := boundary_le (Text.utf8 text)
    (min (Text.utf8 text).length (room capacity))
  have fits : room capacity ≤ capacity := Nat.sub_le capacity 1
  apply List.ext_getElem
  · simp only [content, truncating, List.length_take, Vector.length_toList]
    omega
  · intro place inContent inText
    rw [List.length_take] at inText
    have inCut : place < boundary (Text.utf8 text)
        (min (Text.utf8 text).length (room capacity)) := by
      omega
    have inSource : place < (Text.utf8 text).length := by
      omega
    simp only [content, truncating, List.getElem_take,
      Vector.getElem_toList, Vector.getElem_ofFn, inCut, if_true,
      List.getD_eq_getElem?_getD, List.getElem?_eq_getElem inSource,
      Option.getD_some]

/-- An inline text holds the longest start of its text that fits. -/
theorem exists_longestStart (text : String) :
    ∃ kept, Text.LongestStart (room capacity) text kept ∧
      (truncating text : InlineText capacity).content = Text.utf8 kept := by
  refine ⟨_, Text.longestStart_fitting (room capacity) text, ?_⟩
  obtain ⟨rest, split, _, _⟩ :=
    Text.fittingStart_spec (room capacity) text.toList
  have source : Text.utf8 text =
      Text.encode (Text.fittingStart (room capacity) text.toList) ++
        Text.encode rest := by
    rw [← Text.encode_append, ← split]
    rfl
  have cut : boundary (Text.utf8 text)
      (min (Text.utf8 text).length (room capacity)) = _ :=
    boundary_encode (room capacity) text.toList
  rw [content_take, cut, source, List.take_left, Text.utf8_ofList]

end InlineText

end LeveledLog
