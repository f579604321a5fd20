/-
The module table as a bounded set that keeps an order.

After any changes of an empty table its names are a list without repetition,
which adding and removing change as they would change a set of bounded size:
a name is added last if it is acceptable, new, and finds room, and is removed
from between the others.  The slots spell these names and no others, and the
slots behind them are blank.  Going through the slots step by step, with a
check before every access, does the same; no check fails.
-/

import LeveledLog.Proofs.ModuleNames

namespace LeveledLog

/-! ### Slots whose accesses are checked -/

namespace Slots

def used? (slots : List ModuleName) (count : Nat) :
    Option (List ModuleName) :=
  if count ≤ slots.length then some (slots.take count) else none

def put? (slots : List ModuleName) (place : Nat) (member : ModuleName) :
    Option (List ModuleName) :=
  if place < slots.length then some (slots.set place member) else none

/-- The slots with those from `first` up to `last` copied to the places from
`target` on, unless some of these places are missing. -/
def copy? (slots : List ModuleName) (first last target : Nat) :
    Option (List ModuleName) :=
  if first ≤ last ∧ last ≤ slots.length ∧
      target + (last - first) ≤ slots.length then
    some (slots.take target ++ (slots.take last).drop first ++
      slots.drop (target + (last - first)))
  else none

section Copy

variable {slots copied : List ModuleName} {first last target : Nat}
variable (copies : copy? slots first last target = some copied)
include copies

private theorem copy?_inside :
    first ≤ last ∧ last ≤ slots.length ∧
      target + (last - first) ≤ slots.length ∧
      copied = slots.take target ++ (slots.take last).drop first ++
        slots.drop (target + (last - first)) := by
  unfold copy? at copies
  split at copies
  · rename_i inside
    exact ⟨inside.1, inside.2.1, inside.2.2, (Option.some.inj copies).symm⟩
  · cases copies

private theorem copy?_length : copied.length = slots.length := by
  obtain ⟨forwards, inside, room, same⟩ := copy?_inside copies
  rw [same]
  simp only [List.length_append, List.length_take, List.length_drop]
  omega

private theorem copy?_getElem? (place : Nat) :
    copied[place]? =
      if target ≤ place ∧ place < target + (last - first) then
        slots[first + (place - target)]?
      else slots[place]? := by
  obtain ⟨forwards, inside, room, same⟩ := copy?_inside copies
  have short : (slots.take target).length = target := by
    rw [List.length_take]
    omega
  have moved : ((slots.take last).drop first).length = last - first := by
    rw [List.length_drop, List.length_take]
    omega
  rw [same, List.getElem?_append, List.getElem?_append, List.length_append,
    short, moved, List.getElem?_drop, List.getElem?_drop]
  by_cases before : place < target
  · rw [if_pos (by omega), if_pos before, if_neg (by omega),
      List.getElem?_take_of_lt before]
  · by_cases between : place < target + (last - first)
    · rw [if_pos between, if_neg before, if_pos (by omega),
        List.getElem?_take_of_lt (by omega)]
    · rw [if_neg between, if_neg (by omega)]
      congr 1
      omega

end Copy

end Slots

/-- Slots and a counter, about which nothing is known. -/
structure RawTable where
  slots : List ModuleName
  count : Nat

namespace RawTable

/-- Adds a name step by step, and tells whether the table changed; nothing
comes of it if a slot is missing. -/
def enable? (raw : RawTable) (name : String) : Option (Bool × RawTable) :=
  if name = "" then
    some (false, raw)
  else do
    let used ← Slots.used? raw.slots raw.count
    if (used.findIdx? fun member => member.holds name).isSome then
      some (false, raw)
    else if raw.count = moduleLimit then
      some (false, raw)
    else
      match InlineText.fitting? name with
      | none => some (false, raw)
      | some member => do
          let slots ← Slots.put? raw.slots raw.count member
          some (true, { slots := slots, count := raw.count + 1 })

/-- Removes a name step by step, and tells whether it was there; nothing comes
of it if a slot is missing or the counter stands at zero. -/
def disable? (raw : RawTable) (name : String) : Option (Bool × RawTable) := do
  let used ← Slots.used? raw.slots raw.count
  match used.findIdx? fun member => member.holds name with
  | none => some (false, raw)
  | some index => do
      let moved ← Slots.copy? raw.slots (index + 1) raw.count index
      let count ← if raw.count = 0 then none else some (raw.count - 1)
      let slots ← Slots.put? moved count InlineText.blank
      some (true, { slots := slots, count := count })

end RawTable

namespace ModuleTable

def raw (table : ModuleTable) : RawTable where
  slots := table.slots.toList
  count := table.count

private theorem used?_raw (table : ModuleTable) :
    Slots.used? table.raw.slots table.raw.count = some table.members := by
  apply if_pos
  rw [raw, Vector.length_toList]
  exact table.count_le

private theorem position?_lt {table : ModuleTable} {name : String} {index : Nat}
    (found : table.position? name = some index) : index < table.count := by
  obtain ⟨used, _⟩ := List.findIdx?_eq_some_iff_getElem.mp found
  rw [members_length] at used
  exact used

/-- No check fails while a name is added. -/
private theorem enable?_raw (table : ModuleTable) (name : String) :
    table.raw.enable? name =
      some ((table.insert? name).isSome, (table.enable name).raw) := by
  unfold RawTable.enable? enable insert?
  by_cases empty : name = ""
  · simp [empty]
  rw [if_neg empty, used?_raw]
  change (if table.contains name = true then _ else _) = _
  cases held : table.contains name with
  | true =>
      simp
  | false =>
      by_cases free : table.count < moduleLimit
      · have inside : table.raw.count < table.raw.slots.length := by
          rw [raw, Vector.length_toList]
          exact free
        have unfilled : table.raw.count ≠ moduleLimit := Nat.ne_of_lt free
        cases InlineText.fitting? name with
        | none =>
            simp [empty, free, unfilled]
        | some member =>
            simp [empty, free, unfilled, Slots.put?, inside]
            simp [raw, Vector.toList_set]
      · have full : table.raw.count = moduleLimit :=
          Nat.le_antisymm table.count_le (Nat.le_of_not_lt free)
        simp [empty, free, full]

theorem removeSlot_getElem? (table : ModuleTable) (index place : Nat) :
    (table.removeSlot index).slots.toList[place]? =
      if place + 1 = table.count then some InlineText.blank
      else if index ≤ place ∧ place + 1 < table.count then
        table.slots.toList[place + 1]?
      else table.slots.toList[place]? := by
  have bound := table.count_le
  have size : table.slots.toList.length = moduleLimit := Vector.length_toList
  have sizeAfter : (table.removeSlot index).slots.toList.length =
      moduleLimit := Vector.length_toList
  by_cases inside : place < moduleLimit
  · rw [List.getElem?_eq_getElem (by omega), Vector.getElem_toList]
    change some (Vector.ofFn _)[place] = _
    rw [Vector.getElem_ofFn]
    by_cases last : place + 1 = table.count
    · rw [if_pos last, if_pos last]
    rw [if_neg last, if_neg last]
    by_cases later : index ≤ place ∧ place + 1 < table.count
    · rw [dif_pos later, if_pos later, List.getElem?_eq_getElem (by omega),
        Vector.getElem_toList]
      rfl
    · rw [dif_neg later, if_neg later, List.getElem?_eq_getElem (by omega),
        Vector.getElem_toList]
      rfl
  · rw [List.getElem?_eq_none (by omega), if_neg (by omega),
      if_neg (by omega), List.getElem?_eq_none (by omega)]

private theorem removeSlot_slots (table : ModuleTable) {index : Nat}
    (used : index < table.count) {moved : List ModuleName}
    (moves : Slots.copy? table.slots.toList (index + 1) table.count index =
      some moved) :
    moved.set (table.count - 1) InlineText.blank =
      (table.removeSlot index).slots.toList := by
  have bound := table.count_le
  have copied := Slots.copy?_getElem? moves
  have long : moved.length = moduleLimit :=
    (Slots.copy?_length moves).trans Vector.length_toList
  apply List.ext_getElem?
  intro place
  rw [removeSlot_getElem?, List.getElem?_set]
  by_cases last : place + 1 = table.count
  · rw [if_pos (by omega), if_pos (by omega), if_pos last]
  rw [if_neg (by omega), if_neg last, copied]
  by_cases later : index ≤ place ∧ place + 1 < table.count
  · rw [if_pos (by omega), if_pos later]
    congr 1
    omega
  · rw [if_neg (by omega), if_neg later]

private theorem disable?_raw (table : ModuleTable) (name : String) :
    table.raw.disable? name =
      some ((table.erase? name).isSome, (table.disable name).raw) := by
  unfold RawTable.disable? disable erase?
  rw [used?_raw]
  change (match table.position? name with | none => _ | some index => _) = _
  cases found : table.position? name with
  | none =>
      rfl
  | some index =>
      have used := position?_lt found
      have bound := table.count_le
      have size : table.slots.toList.length = moduleLimit :=
        Vector.length_toList
      obtain ⟨moved, moves⟩ : ∃ moved, Slots.copy? table.slots.toList
          (index + 1) table.count index = some moved :=
        ⟨_, if_pos (by omega)⟩
      have long : moved.length = moduleLimit :=
        (Slots.copy?_length moves).trans size
      have blanks : Slots.put? moved (table.count - 1) InlineText.blank =
          some (table.removeSlot index).slots.toList := by
        rw [← table.removeSlot_slots used moves]
        exact if_pos (by omega)
      have nonzero : table.count ≠ 0 := by omega
      simp [raw, moves, nonzero, blanks]
      rfl

end ModuleTable

/-! ### Any number of changes -/

def Names.changeAll (names : List String) (changes : List ModuleChange) :
    List String :=
  changes.foldl (fun held change => change.onNames held) names

private theorem Names.mem_changeAll {names : List String}
    {changes : List ModuleChange} {name : String}
    (held : name ∈ changeAll names changes) :
    name ∈ names ∨ .enable name ∈ changes := by
  induction changes generalizing names with
  | nil =>
      exact .inl held
  | cons change changes inductionHypothesis =>
      rcases inductionHypothesis held with before | later
      · cases change with
        | enable added =>
            simp only [ModuleChange.onNames, enable] at before
            split at before
            · rcases List.mem_append.mp before with earlier | last
              · exact .inl earlier
              · rw [List.mem_singleton.mp last]
                exact .inr List.mem_cons_self
            · exact .inl before
        | disable removed =>
            exact .inl (List.mem_of_mem_erase before)
        | clear =>
            cases before
      · exact .inr (List.mem_cons_of_mem _ later)

namespace ModuleTable

def changeAll (table : ModuleTable) (changes : List ModuleChange) :
    ModuleTable :=
  changes.foldl (fun current change => change.apply current) table

/-- The slots that are not in use are blank. -/
def Tidy (table : ModuleTable) : Prop :=
  ∀ place, table.count ≤ place → place < moduleLimit →
    table.slots.toList[place]? = some InlineText.blank

theorem tidy_empty : empty.Tidy := by
  intro place _ inside
  have size : empty.slots.toList.length = moduleLimit := Vector.length_toList
  rw [List.getElem?_eq_getElem (by omega), Vector.getElem_toList]
  exact congrArg some (Vector.getElem_replicate inside)

private theorem Tidy.enable {table : ModuleTable} (tidy : table.Tidy)
    (name : String) : (table.enable name).Tidy := by
  unfold ModuleTable.enable insert?
  split
  · exact tidy
  split
  · rename_i free
    cases InlineText.fitting? name with
    | none =>
        exact tidy
    | some member =>
        intro place unused inside
        have later : table.count < place := unused
        change (table.slots.set table.count member free).toList[place]? = _
        rw [Vector.toList_set, List.getElem?_set_ne (Nat.ne_of_lt later)]
        exact tidy place (Nat.le_of_lt later) inside
  · exact tidy

private theorem Tidy.disable {table : ModuleTable} (tidy : table.Tidy)
    (name : String) : (table.disable name).Tidy := by
  unfold ModuleTable.disable erase?
  cases table.position? name with
  | none =>
      exact tidy
  | some index =>
      intro place unused inside
      have fewer : table.count - 1 ≤ place := unused
      change (table.removeSlot index).slots.toList[place]? = _
      rw [removeSlot_getElem?]
      by_cases last : place + 1 = table.count
      · rw [if_pos last]
      · rw [if_neg last, if_neg (by omega)]
        exact tidy place (by omega) inside

theorem Tidy.changeAll {table : ModuleTable} (tidy : table.Tidy)
    (changes : List ModuleChange) : (table.changeAll changes).Tidy := by
  induction changes generalizing table with
  | nil =>
      exact tidy
  | cons change changes inductionHypothesis =>
      apply inductionHypothesis
      cases change with
      | enable name =>
          exact tidy.enable name
      | disable name =>
          exact tidy.disable name
      | clear =>
          exact tidy_empty

private theorem insert?_count {table after : ModuleTable} {name : String}
    (added : table.insert? name = some after) :
    after.count = table.count + 1 := by
  unfold insert? at added
  split at added
  · cases added
  split at added
  · cases fits : (InlineText.fitting? name : Option ModuleName) with
    | none =>
        rw [fits] at added
        cases added
    | some member =>
        rw [fits] at added
        cases added
        rfl
  · cases added

theorem acceptable_iff {name : String} :
    acceptable name = true ↔ 1 ≤ Text.size name ∧ Text.size name ≤ 31 := by
  have given : name ≠ "" ↔ 1 ≤ Text.size name := by
    rw [ne_eq, ← Text.utf8_eq_nil_iff, ← List.length_eq_zero_iff,
      Text.size]
    omega
  unfold acceptable
  rw [Bool.and_eq_true, bne_iff_ne, given, decide_eq_true_eq]
  exact Iff.rfl

namespace Represents

variable {table : ModuleTable} {names : List String}

theorem changeAll (represents : table.Represents names)
    (changes : List ModuleChange) :
    (table.changeAll changes).Represents (Names.changeAll names changes) := by
  induction changes generalizing table names with
  | nil =>
      exact represents
  | cons change changes inductionHypothesis =>
      exact inductionHypothesis (change.represents represents)

theorem insert?_isSome (represents : table.Represents names)
    (name : String) :
    (table.insert? name).isSome = true ↔
      acceptable name = true ∧ name ∉ names ∧ names.length < moduleLimit := by
  have after := represents.enable name
  unfold ModuleTable.enable Names.enable at after
  cases added : table.insert? name with
  | none =>
      rw [added] at after
      split at after
      · have same := represents.names_eq.symm.trans after.names_eq
        have longer := congrArg List.length same
        rw [List.length_append, List.length_singleton] at longer
        omega
      · rename_i refused
        exact iff_of_false (by simp) refused
  | some larger =>
      rw [added] at after
      have more := insert?_count added
      have longer := after.length_eq
      split at after
      · rename_i accepted
        exact iff_of_true rfl accepted
      · have sameLength := after.length_eq
        have length := represents.length_eq
        change names.length = larger.count at sameLength
        omega

private theorem erase?_isSome (represents : table.Represents names)
    (name : String) :
    (table.erase? name).isSome = true ↔ name ∈ names := by
  unfold erase?
  rw [Option.isSome_map, ← List.contains_iff_mem, ← represents.contains_eq]
  rfl

/-- A slot in use is taken for the name that it spells and for no other. -/
theorem holds_iff (represents : table.Represents names) {member : ModuleName}
    (used : member ∈ table.members) (other : String) :
    member.holds other = true ↔ other = member.text := by
  have spelled := List.mem_map_of_mem (f := InlineText.content) used
  rw [represents.contents] at spelled
  obtain ⟨name, _, same⟩ := List.mem_map.mp spelled
  have shows : member.text = name := by
    rw [InlineText.text, ← same, Text.text?_utf8]
    rfl
  rw [InlineText.holds, beq_iff_eq, ← same, Text.utf8_eq_iff, shows]
  exact eq_comm

end Represents

end ModuleTable

/-! ### The table as a bounded set -/

/-- A table after any changes of an empty one, and what it answers to the next.
Its names are those that the changes leave in a list; they are distinct, none
of them is empty or cut, and there are no more than fit.  The slots in use
spell them, and are taken for no other text; the others are blank.  Adding and
removing tells whether the list has changed, which otherwise stays as it is,
and going through the slots with a check before every access does the same. -/
theorem table_is_bounded_set (changes : List ModuleChange) :
    let table := ModuleTable.empty.changeAll changes
    let held := table.names
    (held = Names.changeAll [] changes ∧ held.Nodup ∧
        ∀ name ∈ held, .enable name ∈ changes ∧ 1 ≤ Text.size name ∧
          Text.size name ≤ 31) ∧
      (table.count = held.length ∧ held.length ≤ 32 ∧
        table.isActive = !held.isEmpty ∧ table.isEmpty = held.isEmpty) ∧
      (table.members.map InlineText.content = held.map Text.utf8 ∧
        (∀ member ∈ table.members, ∀ other,
          member.holds other = true ↔ other = member.text) ∧
        ∀ place, held.length ≤ place → place < 32 →
          table.slots.toList[place]? = some InlineText.blank) ∧
      (∀ name,
        ((table.insert? name).isSome = true ↔
          1 ≤ Text.size name ∧ Text.size name ≤ 31 ∧ name ∉ held ∧
            held.length < 32) ∧
        ((table.insert? name).isSome = true →
          (table.enable name).names = held ++ [name]) ∧
        (table.insert? name = none → table.enable name = table)) ∧
      (∀ name,
        ((table.erase? name).isSome = true ↔ name ∈ held) ∧
        (table.disable name).names = held.erase name ∧
        (table.erase? name = none → table.disable name = table)) ∧
      (ModuleChange.clear.apply table).names = [] ∧
      (∀ name, table.allows name = true ↔ held = [] ∨ name ∈ held) ∧
      ∀ name,
        table.raw.enable? name =
            some ((table.insert? name).isSome, (table.enable name).raw) ∧
          table.raw.disable? name =
            some ((table.erase? name).isSome, (table.disable name).raw) ∧
          (InlineText.truncating name : ModuleName).length ≤
            min (Text.size name) 31 := by
  intro table held
  have represents : table.Represents (Names.changeAll [] changes) :=
    ModuleTable.represents_empty.changeAll changes
  have tidy : table.Tidy := ModuleTable.tidy_empty.changeAll changes
  have lists : held = Names.changeAll [] changes := represents.names_eq
  rw [← lists] at represents
  have count : held.length = table.count := represents.length_eq
  have bound := table.count_le
  refine ⟨⟨lists, represents.distinct, ?_⟩, ⟨count.symm, ?_,
    represents.isActive_eq, ?_⟩, ⟨represents.contents,
      fun _ used => represents.holds_iff used, ?_⟩, ?_, ?_, ?_, ?_, ?_⟩
  · intro name member
    have accepted := ModuleTable.acceptable_iff.mp
      (represents.accepted name member)
    rw [lists] at member
    rcases Names.mem_changeAll member with impossible | added
    · cases impossible
    · exact ⟨added, accepted⟩
  · rw [count]
    exact bound
  · rw [ModuleTable.isEmpty, ← count]
    cases held with
    | nil | cons =>
        rfl
  · intro place unused inside
    rw [count] at unused
    exact tidy place unused inside
  · intro name
    have adds := represents.insert?_isSome name
    refine ⟨?_, ?_, ?_⟩
    · rw [adds, ModuleTable.acceptable_iff, and_assoc]
      exact Iff.rfl
    · intro added
      rw [(represents.enable name).names_eq]
      exact if_pos (adds.mp added)
    · intro refused
      rw [ModuleTable.enable, refused]
      rfl
  · intro name
    refine ⟨represents.erase?_isSome name, (represents.disable name).names_eq,
      ?_⟩
    intro absent
    rw [ModuleTable.disable, absent]
    rfl
  · exact ModuleTable.represents_empty.names_eq
  · intro name
    rw [represents.allows_eq, Names.allows, Bool.or_eq_true,
      List.isEmpty_iff, List.contains_iff_mem]
  · intro name
    exact ⟨table.enable?_raw name, table.disable?_raw name,
      InlineText.boundary_le _ _⟩

end LeveledLog
