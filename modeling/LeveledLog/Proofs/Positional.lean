/-
Numbers written in a base.

A row of digits, the most significant one first, spells its value, and spells
it the shortest way if it does not begin with a zero that could be left out.
Of two such rows the longer one spells the greater number, and rows of one
length are in the order of their bytes; so a number is spelled in one way
only.  Filling a buffer from its end spells a word, as long as there is room
for as many digits as the word can have.
-/

import LeveledLog.Numeral
import Mathlib.Algebra.GroupWithZero.Nat
import Mathlib.Data.List.GetD

namespace LeveledLog.Numeral

/-! ### Digits -/

def digitBytes : Bytes :=
  Text.utf8 "0123456789abcdef"

/-- What a byte counts as a digit; a byte that is none counts sixteen. -/
def digitOf (byte : UInt8) : Nat :=
  digitBytes.idxOf byte

def digitByte (digit : Nat) : UInt8 :=
  digitBytes.getD digit 0

def zeroDigit : UInt8 :=
  digitByte 0

private theorem digitOf_digitByte {digit : Nat} (bound : digit < 16) :
    digitOf (digitByte digit) = digit := by
  have all : ∀ digit : Fin 16, digitOf (digitByte digit.val) = digit.val := by
    decide +kernel
  exact all ⟨digit, bound⟩

theorem digitByte_digitOf {byte : UInt8} (bound : digitOf byte < 16) :
    digitByte (digitOf byte) = byte := by
  have inside : digitBytes.idxOf byte < digitBytes.length := bound
  unfold digitByte digitOf
  rw [List.getD_eq_getElem _ _ inside, List.getElem_idxOf]

private theorem digitByte_lt_iff {first second : Nat} (firstBound : first < 16)
    (secondBound : second < 16) :
    digitByte first < digitByte second ↔ first < second := by
  have all : ∀ first second : Fin 16,
      digitByte first.val < digitByte second.val ↔ first.val < second.val := by
    decide +kernel
  exact all ⟨first, firstBound⟩ ⟨second, secondBound⟩

private theorem byte_lt_iff {first second : UInt8}
    (firstBound : digitOf first < 16) (secondBound : digitOf second < 16) :
    first < second ↔ digitOf first < digitOf second := by
  rw [← digitByte_lt_iff firstBound secondBound,
    digitByte_digitOf firstBound, digitByte_digitOf secondBound]

private theorem eq_zeroDigit {byte : UInt8} (nothing : digitOf byte = 0) :
    byte = zeroDigit := by
  have bound : digitOf byte < 16 := by omega
  rw [← digitByte_digitOf bound, nothing, zeroDigit]

/-! ### The value of a row of digits -/

def valueOf (radix : Nat) : Bytes → Nat
  | [] => 0
  | byte :: bytes =>
      digitOf byte * radix ^ bytes.length + valueOf radix bytes

variable {radix : Nat}

private theorem valueOf_concat (digits : Bytes) (byte : UInt8) :
    valueOf radix (digits ++ [byte]) =
      valueOf radix digits * radix + digitOf byte := by
  induction digits with
  | nil =>
      simp [valueOf]
  | cons first digits inductionHypothesis =>
      rw [List.cons_append, valueOf, inductionHypothesis, valueOf,
        List.length_append, List.length_singleton, Nat.pow_succ, Nat.add_mul,
        Nat.mul_assoc, Nat.add_assoc]

private theorem valueOf_lt {digits : Bytes}
    (inBase : ∀ byte ∈ digits, digitOf byte < radix) :
    valueOf radix digits < radix ^ digits.length := by
  induction digits with
  | nil =>
      exact Nat.one_pos
  | cons first digits inductionHypothesis =>
      obtain ⟨firstInBase, others⟩ := List.forall_mem_cons.mp inBase
      have rest := inductionHypothesis others
      calc valueOf radix (first :: digits)
          < digitOf first * radix ^ digits.length + radix ^ digits.length :=
            Nat.add_lt_add_left rest _
        _ = (digitOf first + 1) * radix ^ digits.length :=
            (Nat.succ_mul _ _).symm
        _ ≤ radix * radix ^ digits.length :=
            Nat.mul_le_mul_right _ firstInBase
        _ = radix ^ (first :: digits).length := by
            rw [List.length_cons, Nat.pow_succ, Nat.mul_comm]

/-- The digit in front decides between rows of one length. -/
private theorem valueOf_cons_lt {first second : UInt8} {left right : Bytes}
    (sameLength : left.length = right.length)
    (leftInBase : ∀ byte ∈ left, digitOf byte < radix)
    (less : digitOf first < digitOf second) :
    valueOf radix (first :: left) < valueOf radix (second :: right) := by
  have rest := valueOf_lt leftInBase
  have more := Nat.mul_le_mul_right (radix ^ left.length) less
  rw [Nat.succ_mul] at more
  rw [valueOf, valueOf, ← sameLength]
  omega

theorem bytes_lt_iff {left right : Bytes} (small : radix ≤ 16)
    (sameLength : left.length = right.length)
    (leftInBase : ∀ byte ∈ left, digitOf byte < radix)
    (rightInBase : ∀ byte ∈ right, digitOf byte < radix) :
    left < right ↔ valueOf radix left < valueOf radix right := by
  induction left generalizing right with
  | nil =>
      rw [List.length_eq_zero_iff.mp sameLength.symm]
      exact iff_of_false (List.lt_irrefl []) (Nat.lt_irrefl _)
  | cons first left inductionHypothesis =>
      cases right with
      | nil =>
          cases sameLength
      | cons second right =>
          have restLength := Nat.succ.inj sameLength
          obtain ⟨firstInBase, leftRest⟩ := List.forall_mem_cons.mp leftInBase
          obtain ⟨secondInBase, rightRest⟩ :=
            List.forall_mem_cons.mp rightInBase
          have firstBound : digitOf first < 16 := by omega
          have secondBound : digitOf second < 16 := by omega
          rw [List.cons_lt_cons_iff, byte_lt_iff firstBound secondBound]
          rcases Nat.lt_trichotomy (digitOf first) (digitOf second) with
            leads | same | trails
          · exact iff_of_true (.inl leads)
              (valueOf_cons_lt restLength leftRest leads)
          · have equal : first = second := by
              rw [← digitByte_digitOf firstBound, same,
                digitByte_digitOf secondBound]
            subst equal
            rw [valueOf, valueOf, restLength,
              inductionHypothesis restLength leftRest rightRest]
            simp
          · have greater :=
              valueOf_cons_lt restLength.symm rightRest trails
            refine iff_of_false ?_ (Nat.lt_asymm greater)
            rintro (leads | ⟨equal, _⟩)
            · exact Nat.lt_asymm leads trails
            · rw [equal] at trails
              exact Nat.lt_irrefl _ trails

/-! ### The shortest row -/

/-- Digits of a base that spell a number the shortest way: there is one at
least, and the first is zero only if it is the only one. -/
structure Spells (radix : Nat) (digits : Bytes) (number : Nat) : Prop where
  given : digits ≠ []
  inBase : ∀ byte ∈ digits, digitOf byte < radix
  value : valueOf radix digits = number
  shortest : digits.head? = some zeroDigit → digits = [zeroDigit]

namespace Spells

variable {digits : Bytes} {number : Nat}

theorem single {digit : Nat} (small : radix ≤ 16) (bound : digit < radix) :
    Spells radix [digitByte digit] digit where
  given := List.cons_ne_nil _ _
  inBase := by
    rw [List.forall_mem_singleton, digitOf_digitByte (by omega)]
    exact bound
  value := by
    simp [valueOf, digitOf_digitByte (Nat.lt_of_lt_of_le bound small)]
  shortest := by
    intro leading
    rw [Option.some.inj leading]

theorem length_positive (spells : Spells radix digits number) :
    0 < digits.length :=
  List.length_pos_iff.mpr spells.given

private theorem head_ne_zero (spells : Spells radix digits number)
    (positive : 0 < number) : digits.head? ≠ some zeroDigit := by
  intro leading
  have value := spells.value
  rw [spells.shortest leading] at value
  have nothing : valueOf radix [zeroDigit] = 0 := by
    rw [valueOf, valueOf, zeroDigit, digitOf_digitByte (by decide),
      Nat.zero_mul]
  omega

theorem concat (spells : Spells radix digits number)
    (positive : 0 < number) {digit : Nat} (small : radix ≤ 16)
    (bound : digit < radix) :
    Spells radix (digits ++ [digitByte digit]) (number * radix + digit) where
  given := List.append_ne_nil_of_left_ne_nil spells.given _
  inBase := by
    rw [List.forall_mem_append]
    exact ⟨spells.inBase, (single small bound).inBase⟩
  value := by
    rw [valueOf_concat, spells.value, digitOf_digitByte (by omega)]
  shortest := by
    intro leading
    obtain ⟨first, others, same⟩ := List.exists_cons_of_ne_nil spells.given
    rw [same] at leading
    have impossible := spells.head_ne_zero positive
    rw [same] at impossible
    exact absurd leading impossible

private theorem lt_pow (spells : Spells radix digits number) :
    number < radix ^ digits.length := by
  rw [← spells.value]
  exact valueOf_lt spells.inBase

private theorem pow_le (spells : Spells radix digits number)
    (long : 1 < digits.length) : radix ^ (digits.length - 1) ≤ number := by
  cases digits with
  | nil =>
      cases long
  | cons first digits =>
      have leading : digitOf first ≠ 0 := by
        intro nothing
        have alone := spells.shortest (congrArg some (eq_zeroDigit nothing))
        rw [alone] at long
        exact Nat.lt_irrefl 1 long
      have more := Nat.mul_le_mul_right (radix ^ digits.length)
        (Nat.one_le_iff_ne_zero.mpr leading)
      rw [← spells.value, valueOf, List.length_cons, Nat.add_sub_cancel]
      omega

theorem length_le (spells : Spells radix digits number) (base : 1 < radix)
    {room : Nat} (positive : 0 < room) (fits : number < radix ^ room) :
    digits.length ≤ room := by
  apply Nat.le_of_not_lt
  intro longer
  have least := spells.pow_le (by omega)
  have wider : radix ^ room ≤ radix ^ (digits.length - 1) :=
    Nat.pow_le_pow_right (Nat.zero_lt_of_lt base) (by omega)
  omega

private theorem lt_of_length_lt {other : Nat} {others : Bytes}
    (spells : Spells radix digits number) (spelled : Spells radix others other)
    (base : 1 < radix) (shorter : digits.length < others.length) :
    number < other := by
  have positive := spells.length_positive
  calc number < radix ^ digits.length := spells.lt_pow
    _ ≤ radix ^ (others.length - 1) :=
        Nat.pow_le_pow_right (Nat.zero_lt_of_lt base) (by omega)
    _ ≤ other := spelled.pow_le (by omega)

/-- The shorter row spells the lesser number, and among rows of one length the
one that comes first. -/
theorem lt_iff {other : Nat} {others : Bytes}
    (spells : Spells radix digits number) (spelled : Spells radix others other)
    (base : 1 < radix) (small : radix ≤ 16) :
    number < other ↔
      digits.length < others.length ∨
        digits.length = others.length ∧ digits < others := by
  rcases Nat.lt_trichotomy digits.length others.length with
    shorter | sameLength | longer
  · exact iff_of_true (spells.lt_of_length_lt spelled base shorter)
      (.inl shorter)
  · rw [bytes_lt_iff small sameLength spells.inBase spelled.inBase,
      spells.value, spelled.value]
    simp [sameLength]
  · have greater := spelled.lt_of_length_lt spells base longer
    refine iff_of_false (Nat.lt_asymm greater) ?_
    rintro (shorter | ⟨sameLength, _⟩)
    · exact Nat.lt_asymm shorter longer
    · exact absurd sameLength (Nat.ne_of_gt longer)

theorem unique {others : Bytes} (spells : Spells radix digits number)
    (spelled : Spells radix others number) (base : 1 < radix)
    (small : radix ≤ 16) : digits = others := by
  have notBefore := mt (spells.lt_iff spelled base small).mpr
    (Nat.lt_irrefl number)
  have notAfter := mt (spelled.lt_iff spells base small).mpr
    (Nat.lt_irrefl number)
  have sameLength : digits.length = others.length := by
    rcases Nat.lt_trichotomy digits.length others.length with
      shorter | same | longer
    · exact absurd (.inl shorter) notBefore
    · exact same
    · exact absurd (.inl longer) notAfter
  refine List.le_antisymm ?_ ?_
  · intro less
    exact notAfter (.inr ⟨sameLength.symm, less⟩)
  · intro less
    exact notBefore (.inr ⟨sameLength, less⟩)

/-- Zero is one digit, and no other number begins with it. -/
theorem leading {word : UInt64} (spells : Spells radix digits word.toNat)
    (base : 1 < radix) (small : radix ≤ 16) :
    if word = 0 then digits = Text.utf8 "0"
      else digits.head? ≠ some zeroDigit := by
  split
  · rename_i zero
    rw [zero] at spells
    have alone := spells.unique (single small (Nat.zero_lt_of_lt base)) base
      small
    rw [alone]
    decide +kernel
  · rename_i other
    apply spells.head_ne_zero
    exact Nat.pos_of_ne_zero fun zero => other (UInt64.toNat_inj.mp zero)

end Spells

/-! ### Filling a buffer -/

/-- A base takes words apart as numbers are taken apart in a radix. -/
structure Base.Counts (base : Base) (radix : Nat) : Prop where
  one_lt : 1 < radix
  le_sixteen : radix ≤ 16
  lastDigit : ∀ word, base.lastDigit word = digitByte (word.toNat % radix)
  dropLast : ∀ word, (base.dropLast word).toNat = word.toNat / radix

/-- A word that is less than a power of the radix is spelled within as many
places.  The digits still to be written are those of the quotient, before the
ones that have been filled in. -/
theorem fill?_spells {base : Base} (counts : base.Counts radix) {room : Nat}
    {word : UInt64} (positive : 0 < room) (fits : word.toNat < radix ^ room)
    (filled : Bytes) :
    ∃ digits left, fill? base room word filled =
        some { room := left, filled := digits ++ filled } ∧
      left + digits.length = room ∧ Spells radix digits word.toNat := by
  induction room generalizing word filled with
  | zero =>
      cases positive
  | succ room inductionHypothesis =>
      have quotient := counts.dropLast word
      have bound : word.toNat % radix < radix :=
        Nat.mod_lt _ (Nat.zero_lt_of_lt counts.one_lt)
      rw [fill?, counts.lastDigit]
      by_cases last : base.dropLast word = 0
      · have single := Spells.single counts.le_sixteen bound
        rw [last] at quotient
        have less : word.toNat < radix :=
          (Nat.div_eq_zero_iff_lt (Nat.zero_lt_of_lt counts.one_lt)).mp
            quotient.symm
        rw [Nat.mod_eq_of_lt less] at single ⊢
        simp only [last, beq_self_eq_true, if_true]
        exact ⟨_, room, rfl, rfl, single⟩
      · have more : 0 < (base.dropLast word).toNat :=
          Nat.pos_of_ne_zero fun zero => last (UInt64.toNat_inj.mp zero)
        have shorter : (base.dropLast word).toNat < radix ^ room := by
          rw [quotient, Nat.div_lt_iff_lt_mul
            (Nat.zero_lt_of_lt counts.one_lt), ← Nat.pow_succ]
          exact fits
        have roomLeft : 0 < room := by
          rcases Nat.eq_zero_or_pos room with none | some
          · rw [none, Nat.pow_zero] at shorter
            omega
          · exact some
        obtain ⟨digits, left, fills, places, spells⟩ := inductionHypothesis
          roomLeft shorter (digitByte (word.toNat % radix) :: filled)
        have whole := spells.concat more counts.le_sixteen bound
        rw [quotient, Nat.mul_comm, Nat.div_add_mod] at whole
        refine ⟨_, left, ?_, ?_, whole⟩
        · rw [List.append_assoc]
          simp only [beq_iff_eq, last, if_false]
          exact fills
        · rw [List.length_append, List.length_singleton]
          omega

theorem ten_counts : ten.Counts 10 where
  one_lt := by decide
  le_sixteen := by decide
  lastDigit word := by
    have all : ∀ digit : Fin 10,
        UInt8.ofNat (48 + digit.val) = digitByte digit.val := by
      decide +kernel
    have same : ten.lastDigit word = UInt8.ofNat (48 + word.toNat % 10) := by
      apply UInt8.toNat_inj.mp
      simp [ten]
    rw [same]
    exact all ⟨_, Nat.mod_lt _ (by decide)⟩
  dropLast word := by
    simp [ten]

theorem sixteen_counts : sixteen.Counts 16 where
  one_lt := by decide
  le_sixteen := by decide
  lastDigit word := by
    have all : ∀ digit : Fin 16,
        nibbleByte (UInt64.ofNat digit.val) = digitByte digit.val := by
      decide +kernel
    have masked : (word &&& 0xF).toNat = word.toNat % 16 := by
      rw [UInt64.toNat_and]
      exact Nat.and_two_pow_sub_one_eq_mod word.toNat 4
    have nibble : word &&& 0xF = UInt64.ofNat (word.toNat % 16) := by
      rw [← masked, UInt64.ofNat_toNat]
    change nibbleByte (word &&& 0xF) = _
    rw [nibble]
    exact all ⟨_, Nat.mod_lt _ (by decide)⟩
  dropLast word := by
    change (word >>> 4).toNat = _
    rw [UInt64.toNat_shiftRight]
    exact Nat.shiftRight_eq_div_pow word.toNat 4

end LeveledLog.Numeral
