/-
The last word on a name.

Some changes of a module table concern a name: adding it, removing it, and
emptying the table.  As long as no name is turned away from a full table, the
last change that concerns a name decides whether the table holds it, in
whichever order other names come and go.  Adding a name and removing it at
once leaves every slot as it was.
-/

import LeveledLog.Proofs.BoundedSet

namespace LeveledLog

/-! ### Changes that concern a name -/

def ModuleChange.concerns (name : String) : ModuleChange → Bool
  | .enable other | .disable other => other == name
  | .clear => true

def lastWord? (changes : List ModuleChange) (name : String) :
    Option ModuleChange :=
  (changes.filter (ModuleChange.concerns name)).getLast?

/-- Whether a change turns no acceptable name away for want of a free slot. -/
def ModuleChange.findsRoom (table : ModuleTable) : ModuleChange → Bool
  | .enable name =>
      !ModuleTable.acceptable name || table.names.contains name ||
        table.names.length != moduleLimit
  | .disable _ | .clear => true

/-- Whether changes, made one after the other, all find room. -/
def ModuleTable.givesRoom (table : ModuleTable) : List ModuleChange → Bool
  | [] => true
  | change :: changes =>
      change.findsRoom table && (change.apply table).givesRoom changes

private theorem lastWord?_cons (change : ModuleChange)
    (changes : List ModuleChange) (name : String) :
    lastWord? (change :: changes) name =
      (lastWord? changes name).or
        (if change.concerns name then some change else none) := by
  unfold lastWord?
  rw [List.filter_cons]
  split
  · rw [List.getLast?_cons]
    cases (changes.filter (ModuleChange.concerns name)).getLast? with
    | none | some =>
        rfl
  · rw [Option.or_none]

private theorem Names.mem_enable {names : List String} {added name : String} :
    name ∈ enable names added ↔
      name ∈ names ∨
        name = added ∧ ModuleTable.acceptable added = true ∧
          names.length < moduleLimit := by
  unfold enable
  split
  · rename_i accepted
    rw [List.mem_append, List.mem_singleton]
    exact or_congr_right (iff_self_and.mpr fun _ => ⟨accepted.1, accepted.2.2⟩)
  · rename_i refused
    refine ⟨.inl, ?_⟩
    rintro (held | ⟨same, acceptable, free⟩)
    · exact held
    · subst same
      by_contra absent
      exact refused ⟨acceptable, absent, free⟩

namespace ModuleTable

variable {table : ModuleTable} {names : List String} {name : String}

/-- One change settles whether the table holds a name that it concerns, and
leaves it open for any other name. -/
theorem Represents.mem_onNames (represents : table.Represents names)
    (accepted : acceptable name = true) {change : ModuleChange}
    (room : change.findsRoom table = true) :
    name ∈ change.onNames names ↔
      if change.concerns name then change = .enable name
      else name ∈ names := by
  cases change with
  | clear =>
      simp [ModuleChange.onNames, ModuleChange.concerns]
  | disable removed =>
      rw [ModuleChange.onNames, represents.distinct.mem_erase_iff]
      by_cases same : removed = name
      · simp [ModuleChange.concerns, same]
      · simp [ModuleChange.concerns, same, Ne.symm same]
  | enable added =>
      rw [ModuleChange.onNames, Names.mem_enable]
      by_cases same : added = name
      · subst same
        have bound : names.length ≤ moduleLimit := by
          rw [represents.length_eq]
          exact table.count_le
        simp only [ModuleChange.findsRoom, accepted, represents.names_eq,
          Bool.not_true, Bool.false_or, Bool.or_eq_true,
          List.contains_iff_mem, bne_iff_ne] at room
        simp only [ModuleChange.concerns, beq_self_eq_true, if_true,
          accepted, true_and, iff_true]
        exact room.imp_right (Nat.lt_of_le_of_ne bound)
      · simp [ModuleChange.concerns, same, Ne.symm same]

/-- A name is held after changes if the last word on it adds it, or if it has
been held before and there is no word on it. -/
theorem Represents.mem_changeAll (represents : table.Represents names)
    (accepted : acceptable name = true) {changes : List ModuleChange}
    (room : table.givesRoom changes = true) :
    name ∈ Names.changeAll names changes ↔
      lastWord? changes name = some (.enable name) ∨
        lastWord? changes name = none ∧ name ∈ names := by
  induction changes generalizing table names with
  | nil =>
      simp [lastWord?, Names.changeAll]
  | cons change changes inductionHypothesis =>
      obtain ⟨first, others⟩ := Bool.and_eq_true_iff.mp room
      have later := inductionHypothesis (change.represents represents) others
      change name ∈ Names.changeAll (change.onNames names) changes ↔ _
      rw [later, represents.mem_onNames accepted first, lastWord?_cons]
      cases lastWord? changes name with
      | some word =>
          simp
      | none =>
          cases change.concerns name with
          | false | true =>
              simp

private theorem mem_names_iff_lastWord {changes : List ModuleChange}
    (accepted : acceptable name = true)
    (room : empty.givesRoom changes = true) :
    name ∈ (empty.changeAll changes).names ↔
      lastWord? changes name = some (.enable name) := by
  rw [(represents_empty.changeAll changes).names_eq,
    represents_empty.mem_changeAll accepted room]
  simp

private theorem Represents.allows_iff (represents : table.Represents names) :
    table.allows name = true ↔ table.names = [] ∨ name ∈ table.names := by
  rw [represents.allows_eq, represents.names_eq, Names.allows,
    Bool.or_eq_true, List.isEmpty_iff, List.contains_iff_mem]

/-! ### Adding a name and removing it at once -/

def fill (table : ModuleTable) (free : table.count < moduleLimit)
    (member : ModuleName) : ModuleTable where
  slots := table.slots.set table.count member free
  count := table.count + 1
  count_le := free

private theorem exists_of_insert? {added : ModuleTable}
    (inserts : table.insert? name = some added) :
    ∃ (free : table.count < moduleLimit) (member : ModuleName),
      added = table.fill free member := by
  unfold insert? at inserts
  split at inserts
  · cases inserts
  split at inserts
  · rename_i free
    cases fits : (InlineText.fitting? name : Option ModuleName) with
    | none =>
        rw [fits] at inserts
        cases inserts
    | some member =>
        rw [fits] at inserts
        exact ⟨free, member, (Option.some.inj inserts).symm⟩
  · cases inserts

private theorem eq_of_slots {first second : ModuleTable}
    (slots : first.slots.toList = second.slots.toList)
    (count : first.count = second.count) : first = second := by
  rcases first with ⟨firstSlots, firstCount, firstBound⟩
  rcases second with ⟨secondSlots, secondCount, secondBound⟩
  cases Vector.toList_inj.mp slots
  cases count
  rfl

/-- A name that has been added stands behind all others. -/
theorem Represents.position?_of_insert?
    (represents : table.Represents names) {added : ModuleTable}
    (inserts : table.insert? name = some added) :
    added.position? name = some table.count := by
  obtain ⟨accepted, absent, free⟩ :=
    (represents.insert?_isSome name).mp (by rw [inserts]; rfl)
  have after := represents.enable name
  rw [ModuleTable.enable, inserts, Option.getD_some, Names.enable,
    if_pos ⟨accepted, absent, free⟩] at after
  have before : (names.findIdx? fun other => other == name) = none := by
    rw [List.findIdx?_eq_none_iff]
    intro other member
    exact beq_false_of_ne fun same => absent (same ▸ member)
  rw [after.position?_eq, List.findIdx?_append, before,
    represents.length_eq]
  simp

private theorem Tidy.removeSlot_fill (tidy : table.Tidy)
    (free : table.count < moduleLimit) (member : ModuleName) :
    (table.fill free member).removeSlot table.count = table := by
  have more : (table.fill free member).count = table.count + 1 := rfl
  have slots : (table.fill free member).slots.toList =
      table.slots.toList.set table.count member := Vector.toList_set free
  refine eq_of_slots (List.ext_getElem? ?_) (Nat.add_sub_cancel _ 1)
  intro place
  rw [removeSlot_getElem?, more, slots]
  by_cases last : place = table.count
  · subst last
    rw [if_pos rfl]
    exact (tidy _ (Nat.le_refl _) free).symm
  · rw [if_neg (by omega), if_neg (by omega),
      List.getElem?_set_ne (Ne.symm last)]

theorem Represents.erase?_of_insert? (represents : table.Represents names)
    (tidy : table.Tidy) {added : ModuleTable}
    (inserts : table.insert? name = some added) :
    added.erase? name = some table := by
  rw [erase?, represents.position?_of_insert? inserts]
  obtain ⟨free, member, same⟩ := exists_of_insert? inserts
  rw [same]
  exact congrArg some (tidy.removeSlot_fill free member)

end ModuleTable

/-! ### The last word -/

/-- The names of a table after changes that all find room are those on which
the last word adds them; so two such sequences of changes with the same last
words come to the same names and let the same modules through.  After any
changes, removing a name that has just been added restores the table. -/
theorem last_word_decides (changes : List ModuleChange) :
    let table := ModuleTable.empty.changeAll changes
    (ModuleTable.empty.givesRoom changes = true →
        (∀ name, 1 ≤ Text.size name → Text.size name ≤ 31 →
          (name ∈ table.names ↔
            lastWord? changes name = some (.enable name))) ∧
        ∀ others : List ModuleChange,
          ModuleTable.empty.givesRoom others = true →
          (∀ name, 1 ≤ Text.size name → Text.size name ≤ 31 →
            lastWord? changes name = lastWord? others name) →
          let other := ModuleTable.empty.changeAll others
          (∀ name, name ∈ table.names ↔ name ∈ other.names) ∧
            ∀ name, table.allows name = other.allows name) ∧
      ∀ name added, table.insert? name = some added →
        added.erase? name = some table := by
  intro table
  have represents := ModuleTable.represents_empty.changeAll changes
  have tidy : table.Tidy := ModuleTable.tidy_empty.changeAll changes
  refine ⟨?_, fun name added => represents.erase?_of_insert? tidy⟩
  intro room
  have decides (changes : List ModuleChange)
      (room : ModuleTable.empty.givesRoom changes = true) (name : String)
      (given : 1 ≤ Text.size name) (fits : Text.size name ≤ 31) :
      name ∈ (ModuleTable.empty.changeAll changes).names ↔
        lastWord? changes name = some (.enable name) :=
    ModuleTable.mem_names_iff_lastWord
      (ModuleTable.acceptable_iff.mpr ⟨given, fits⟩) room
  refine ⟨decides changes room, ?_⟩
  intro others roomOther same other
  have representsOther := ModuleTable.represents_empty.changeAll others
  have members (name : String) : name ∈ table.names ↔ name ∈ other.names := by
    by_cases accepted : ModuleTable.acceptable name = true
    · obtain ⟨given, fits⟩ := ModuleTable.acceptable_iff.mp accepted
      rw [decides changes room name given fits,
        decides others roomOther name given fits, same name given fits]
    · refine iff_of_false (fun held => accepted ?_) fun held => accepted ?_
      · rw [represents.names_eq] at held
        exact represents.accepted name held
      · rw [representsOther.names_eq] at held
        exact representsOther.accepted name held
  refine ⟨members, ?_⟩
  intro name
  have empty : table.names = [] ↔ other.names = [] := by
    rw [List.eq_nil_iff_forall_not_mem, List.eq_nil_iff_forall_not_mem]
    exact forall_congr' fun name => not_congr (members name)
  rw [Bool.eq_iff_iff, represents.allows_iff, representsOther.allows_iff]
  exact or_congr empty (members name)

/-- A table that has been full holds a name that has been let in after another
one has left, and not the one that has left last; removing the name that was
let in last restores the table.  Two names may be added in either order. -/
theorem last_words_after_full_table :
    let names := (List.range 32).map fun number => "m" ++ toString number
    let changes :=
      names.map ModuleChange.enable ++
        [.disable "m3", .enable "net", .enable "", .disable "m5"]
    let table := ModuleTable.empty.changeAll changes
    let netFirst : List ModuleChange :=
      [.enable "ui", .clear, .enable "net", .enable "db"]
    let dbFirst : List ModuleChange := [.clear, .enable "db", .enable "net"]
    ("net" ∈ table.names ∧ "m5" ∉ table.names) ∧
      (table.enable "ui").erase? "ui" = some table ∧
      ∀ name, (ModuleTable.empty.changeAll netFirst).allows name =
        (ModuleTable.empty.changeAll dbFirst).allows name := by
  intro names changes table netFirst dbFirst
  have room : ModuleTable.empty.givesRoom changes = true := by
    decide +kernel
  have decides := ((last_word_decides changes).1 room).1
  refine ⟨?_, ?_, ?_⟩
  · rw [decides "net" (by decide) (by decide),
      decides "m5" (by decide) (by decide)]
    decide +kernel
  · apply (last_word_decides changes).2
    have found : (table.insert? "ui").isSome = true := by
      decide +kernel
    rw [ModuleTable.enable, Option.getD_of_ne_none
      (Option.isSome_iff_ne_none.mp found)]
  · have roomFirst : ModuleTable.empty.givesRoom netFirst = true := by
      decide +kernel
    have roomOther : ModuleTable.empty.givesRoom dbFirst = true := by
      decide +kernel
    apply (((last_word_decides netFirst).1 roomFirst).2 dbFirst roomOther
      ?_).2
    intro name _ _
    by_cases net : "net" = name
    · subst net
      decide
    · by_cases db : "db" = name
      · subst db
        decide
      · simp [lastWord?, netFirst, dbFirst, ModuleChange.concerns, net, db]

end LeveledLog
