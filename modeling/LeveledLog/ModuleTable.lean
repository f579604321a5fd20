/-
The table of module names that a logger lets through.

A table has a fixed number of slots, each an inline text, of which the first
`count` are in use, in the order in which their names were added.  An empty
table lets every module through; any other table lets through the modules it
holds.  A name is added at most once, only if it is not empty, fits a slot and
finds one free; removing a name moves the later names up by one slot and
blanks the slot that falls free.
-/

import LeveledLog.Defaults
import LeveledLog.Text.Inline

namespace LeveledLog

abbrev ModuleName := InlineText moduleNameCapacity

/-- Slots for module names, the first `count` of them in use. -/
structure ModuleTable where
  slots : Vector ModuleName moduleLimit
  count : Nat
  count_le : count ≤ moduleLimit
deriving DecidableEq

namespace ModuleTable

def nameRoom : Nat :=
  InlineText.room moduleNameCapacity

def acceptable (name : String) : Bool :=
  name != "" && Text.size name ≤ nameRoom

def empty : ModuleTable where
  slots := Vector.replicate moduleLimit InlineText.blank
  count := 0
  count_le := Nat.zero_le _

def members (table : ModuleTable) : List ModuleName :=
  table.slots.toList.take table.count

def names (table : ModuleTable) : List String :=
  table.members.map InlineText.text

def isActive (table : ModuleTable) : Bool :=
  0 < table.count

def isEmpty (table : ModuleTable) : Bool :=
  table.count == 0

def position? (table : ModuleTable) (name : String) : Option Nat :=
  table.members.findIdx? fun member => member.holds name

def contains (table : ModuleTable) (name : String) : Bool :=
  (table.position? name).isSome

def allows (table : ModuleTable) (name : String) : Bool :=
  !table.isActive || table.contains name

/-- The table with `name` added last, or nothing if that changes no table:
the name is empty, already held or too long, or no slot is free. -/
def insert? (table : ModuleTable) (name : String) : Option ModuleTable :=
  if name = "" || table.contains name then
    none
  else if free : table.count < moduleLimit then
    match InlineText.fitting? name with
    | some member =>
        some
          { slots := table.slots.set table.count member free
            count := table.count + 1
            count_le := free }
    | none => none
  else
    none

def removeSlot (table : ModuleTable) (index : Nat) : ModuleTable where
  slots := Vector.ofFn fun place =>
    if place.val + 1 = table.count then
      InlineText.blank
    else if later : index ≤ place.val ∧ place.val + 1 < table.count then
      table.slots.get
        ⟨place.val + 1, Nat.lt_of_lt_of_le later.2 table.count_le⟩
    else
      table.slots.get place
  count := table.count - 1
  count_le := Nat.le_trans (Nat.sub_le _ _) table.count_le

def erase? (table : ModuleTable) (name : String) : Option ModuleTable :=
  (table.position? name).map table.removeSlot

def enable (table : ModuleTable) (name : String) : ModuleTable :=
  (table.insert? name).getD table

def disable (table : ModuleTable) (name : String) : ModuleTable :=
  (table.erase? name).getD table

def enableAll (table : ModuleTable) (names : List String) : ModuleTable :=
  names.foldl enable table

end ModuleTable

end LeveledLog
