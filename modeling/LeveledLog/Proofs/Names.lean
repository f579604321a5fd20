/-
The module table as a list of names.

A table represents a list of names if its slots in use spell these names, in
order, each of them once.  Adding and removing a name does to the table what
it does to the list, so that the slots, the counter and the bytes need not be
looked at again.
-/

import LeveledLog.ModuleTable
import Mathlib.Data.List.InsertIdx
import Mathlib.Data.List.Nodup

namespace LeveledLog

namespace InlineText

variable {capacity : Nat}

theorem boundary_length (source : Bytes) :
    boundary source source.length = source.length := by
  cases source with
  | nil =>
      rfl
  | cons byte bytes =>
      simp [boundary]

private theorem content_truncating {text : String}
    (fits : Text.size text ≤ room capacity) :
    (truncating text : InlineText capacity).content = Text.utf8 text := by
  have short : (Text.utf8 text).length ≤ room capacity := fits
  have whole : boundary (Text.utf8 text)
      (min (Text.utf8 text).length (room capacity)) =
        (Text.utf8 text).length := by
    rw [Nat.min_eq_left short, boundary_length]
  unfold content truncating
  simp only [whole]
  apply List.ext_getElem
  · have bound : room capacity ≤ capacity := Nat.sub_le capacity 1
    simp only [List.length_take, Vector.length_toList]
    omega
  · intro place inTaken inText
    simp only [List.getElem_take, Vector.getElem_toList, Vector.getElem_ofFn,
      inText, if_true, List.getD_eq_getElem?_getD,
      List.getElem?_eq_getElem inText, Option.getD_some]

end InlineText

/-! ### Lists of names -/

def Names.enable (names : List String) (name : String) : List String :=
  if ModuleTable.acceptable name = true ∧ name ∉ names ∧
      names.length < moduleLimit then
    names ++ [name]
  else names

def Names.enableAll (names added : List String) : List String :=
  added.foldl Names.enable names

def Names.allows (names : List String) (name : String) : Bool :=
  names.isEmpty || names.contains name

/-! ### Tables that represent lists -/

namespace ModuleTable

/-- The slots in use spell the names of a list, which are distinct. -/
structure Represents (table : ModuleTable) (names : List String) : Prop where
  contents : table.members.map InlineText.content = names.map Text.utf8
  distinct : names.Nodup
  accepted : ∀ name ∈ names, acceptable name = true

theorem members_length (table : ModuleTable) :
    table.members.length = table.count := by
  have bound := table.count_le
  simp only [members, List.length_take, Vector.length_toList]
  omega

private theorem members_fill (table : ModuleTable) (member : ModuleName)
    (free : table.count < moduleLimit) :
    members
        { slots := table.slots.set table.count member free
          count := table.count + 1
          count_le := free } =
      table.members ++ [member] := by
  have bound : table.count < table.slots.toList.length := by
    rw [Vector.length_toList]
    exact free
  unfold members
  rw [Vector.toList_set, List.take_add_one, List.getElem?_set_self bound,
    List.take_set_of_le (Nat.le_refl _)]
  rfl

private theorem members_getElem (table : ModuleTable) {place : Nat}
    (used : place < table.members.length) (inside : place < moduleLimit) :
    table.members[place] = table.slots.get ⟨place, inside⟩ := by
  have usedSlot : place < (table.slots.toList.take table.count).length := used
  change (table.slots.toList.take table.count)[place] = _
  rw [List.getElem_take, Vector.getElem_toList]
  rfl

private theorem removeSlot_get (table : ModuleTable) {index place : Nat}
    (inside : place < moduleLimit) (further : place + 1 < moduleLimit)
    (used : place + 1 < table.count) :
    (table.removeSlot index).slots.get ⟨place, inside⟩ =
      if place < index then table.slots.get ⟨place, inside⟩
      else table.slots.get ⟨place + 1, further⟩ := by
  have notLast : place + 1 ≠ table.count := Nat.ne_of_lt used
  change (Vector.ofFn _)[place] = _
  rw [Vector.getElem_ofFn]
  simp only [notLast, if_false, used, and_true]
  by_cases before : place < index
  · rw [if_pos before, dif_neg (Nat.not_le_of_lt before)]
  · rw [if_neg before, dif_pos (Nat.le_of_not_lt before)]

private theorem members_removeSlot (table : ModuleTable) {index : Nat}
    (used : index < table.count) :
    (table.removeSlot index).members = table.members.eraseIdx index := by
  have bound := table.count_le
  apply List.ext_getElem
  · rw [members_length, List.length_eraseIdx, members_length, if_pos used]
    rfl
  · intro place inTable inList
    have short : place < table.count - 1 := by
      rw [members_length] at inTable
      exact inTable
    have inside : place < moduleLimit := by omega
    have further : place + 1 < moduleLimit := by omega
    rw [List.getElem_eraseIdx, members_getElem _ inTable inside,
      removeSlot_get table inside further (by omega)]
    by_cases before : place < index
    · rw [if_pos before, dif_pos before, members_getElem _ _ inside]
    · rw [if_neg before, dif_neg before, members_getElem _ _ further]

theorem represents_empty : empty.Represents [] where
  contents := rfl
  distinct := List.nodup_nil
  accepted := fun _ impossible => by cases impossible

namespace Represents

variable {table : ModuleTable} {names : List String}

theorem names_eq (represents : table.Represents names) :
    table.names = names := by
  have texts : table.names =
      (table.members.map InlineText.content).map fun content =>
        (Text.text? content).getD "" := by
    rw [List.map_map]
    rfl
  rw [texts, represents.contents, List.map_map]
  calc
    names.map ((fun content => (Text.text? content).getD "") ∘ Text.utf8)
        = names.map id := by
          apply List.map_congr_left
          intro name _
          simp [Text.text?_utf8]
    _ = names := List.map_id names

theorem length_eq (represents : table.Represents names) :
    names.length = table.count := by
  have lengths := congrArg List.length represents.contents
  rw [List.length_map, List.length_map, members_length] at lengths
  exact lengths.symm

theorem isActive_eq (represents : table.Represents names) :
    table.isActive = !names.isEmpty := by
  unfold isActive
  rw [← represents.length_eq]
  cases names with
  | nil | cons =>
      simp

theorem position?_eq (represents : table.Represents names) (name : String) :
    table.position? name = names.findIdx? fun other => other == name := by
  have spelled : table.position? name =
      (table.members.map InlineText.content).findIdx? fun content =>
        content == Text.utf8 name := by
    unfold position?
    rw [List.findIdx?_map]
    rfl
  rw [spelled, represents.contents, List.findIdx?_map]
  congr 1
  funext other
  rw [Function.comp_apply, Bool.eq_iff_iff, beq_iff_eq, beq_iff_eq,
    Text.utf8_eq_iff]

theorem contains_eq (represents : table.Represents names) (name : String) :
    table.contains name = names.contains name := by
  unfold contains
  rw [represents.position?_eq, List.findIdx?_isSome]
  rw [Bool.eq_iff_iff, List.contains_iff_mem, List.any_eq_true]
  constructor
  · rintro ⟨other, member, same⟩
    rw [← beq_iff_eq.mp same]
    exact member
  · intro member
    exact ⟨name, member, beq_self_eq_true name⟩

theorem allows_eq (represents : table.Represents names) (name : String) :
    table.allows name = Names.allows names name := by
  unfold allows Names.allows
  rw [represents.isActive_eq, represents.contains_eq, Bool.not_not]

private theorem fill (represents : table.Represents names)
    (free : table.count < moduleLimit) {name : String}
    (accepted : acceptable name = true) (fresh : name ∉ names) :
    Represents
      { slots := table.slots.set table.count (.truncating name) free
        count := table.count + 1
        count_le := free }
      (names ++ [name]) := by
  have fits : Text.size name ≤ InlineText.room moduleNameCapacity := by
    simp only [acceptable, Bool.and_eq_true, decide_eq_true_eq] at accepted
    exact accepted.2
  refine ⟨?_, ?_, ?_⟩
  · rw [members_fill, List.map_append, represents.contents, List.map_append,
      List.map_singleton, List.map_singleton,
      InlineText.content_truncating fits]
  · rw [List.nodup_append]
    refine ⟨represents.distinct, List.nodup_singleton name, ?_⟩
    intro other member last same
    rw [List.mem_singleton.mp same]
    intro again
    rw [again] at member
    exact fresh member
  · intro other member
    rcases List.mem_append.mp member with earlier | same
    · exact represents.accepted other earlier
    · rw [List.mem_singleton.mp same]
      exact accepted

theorem enable (represents : table.Represents names) (name : String) :
    (table.enable name).Represents (Names.enable names name) := by
  unfold ModuleTable.enable insert? Names.enable
  rw [represents.contains_eq, represents.length_eq]
  by_cases refused : name = "" ∨ name ∈ names
  · have kept : ¬ (acceptable name = true ∧ name ∉ names ∧
        table.count < moduleLimit) := by
      rintro ⟨acceptable, fresh, _⟩
      rcases refused with empty | held
      · subst empty
        cases acceptable
      · exact fresh held
    rw [if_neg kept, if_pos (by simpa using refused)]
    exact represents
  · obtain ⟨given, fresh⟩ := not_or.mp refused
    rw [if_neg (by simpa using refused)]
    by_cases free : table.count < moduleLimit
    · by_cases fits : Text.size name ≤ nameRoom
      · have accepted : acceptable name = true := by
          simp [acceptable, given, fits]
        have held : (InlineText.fitting? name : Option ModuleName) =
            some (.truncating name) := if_pos fits
        rw [dif_pos free, if_pos ⟨accepted, fresh, free⟩, held]
        exact represents.fill free accepted fresh
      · have refusal : ¬ (acceptable name = true ∧ name ∉ names ∧
            table.count < moduleLimit) := by
          rintro ⟨accepted, _, _⟩
          simp [acceptable, fits] at accepted
        have tooLong : (InlineText.fitting? name : Option ModuleName) =
            none := if_neg fits
        rw [dif_pos free, if_neg refusal, tooLong]
        exact represents
    · rw [dif_neg free, if_neg fun all => free all.2.2]
      exact represents

theorem enableAll (represents : table.Represents names)
    (added : List String) :
    (table.enableAll added).Represents (Names.enableAll names added) := by
  induction added generalizing table names with
  | nil =>
      exact represents
  | cons name added inductionHypothesis =>
      exact inductionHypothesis (represents.enable name)

theorem disable (represents : table.Represents names) (name : String) :
    (table.disable name).Represents (names.erase name) := by
  unfold ModuleTable.disable erase?
  rw [represents.position?_eq]
  cases found : names.findIdx? fun other => other == name with
  | none =>
      have absent : name ∉ names := by
        intro member
        have matched := List.findIdx?_eq_none_iff.mp found name member
        simp at matched
      rw [List.erase_of_not_mem absent]
      exact represents
  | some index =>
      obtain ⟨inNames, matched, _⟩ :=
        List.findIdx?_eq_some_iff_getElem.mp found
      have same : names[index] = name := beq_iff_eq.mp matched
      have used : index < table.count := by
        rw [← represents.length_eq]
        exact inNames
      have erased : names.erase name = names.eraseIdx index := by
        rw [← represents.distinct.erase_getElem index inNames, same]
      refine ⟨?_, represents.distinct.erase name, ?_⟩
      · change (table.removeSlot index).members.map _ = _
        rw [members_removeSlot table used, ← List.eraseIdx_map,
          represents.contents, erased, List.eraseIdx_map]
      · intro other member
        exact represents.accepted other (List.mem_of_mem_erase member)

end Represents

end ModuleTable

end LeveledLog
