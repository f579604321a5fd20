/-
The module names that a setting lists.

A setting is split at its commas, and its segments lose their outer blanks.  Of
the segments that a table accepts, the first occurrences are added to an empty
table, as many as it has room for: a segment that is refused or that stands in
the table takes up no place.  This is what a logger whose table nobody has
claimed makes of the setting when it applies the defaults.
-/

import LeveledLog.Proofs.BoundedSet
import LeveledLog.Proofs.Reachable
import LeveledLog.Proofs.Segments
import Mathlib.Data.List.Induction
import Mathlib.Data.List.TakeWhile

namespace LeveledLog

/-! ### Adding names one after the other -/

namespace Names

variable {names : List String} {name : String}

/-- The names that a table takes out of a list: those that are acceptable, each
once, as many as there is room for. -/
def kept (added : List String) : List String :=
  (added.filter ModuleTable.acceptable).eraseDups.take moduleLimit

private theorem enable_of_refused
    (refused : ModuleTable.acceptable name ≠ true) :
    enable names name = names :=
  if_neg fun all => refused all.1

private theorem eraseDups_concat_of_mem (present : name ∈ names) :
    (names ++ [name]).eraseDups = names.eraseDups := by
  rw [List.eraseDups_append]
  simp [List.removeAll, present]

private theorem eraseDups_concat_of_not_mem (fresh : name ∉ names) :
    (names ++ [name]).eraseDups = names.eraseDups ++ [name] := by
  rw [List.eraseDups_append]
  simp [List.removeAll, fresh, List.eraseDups_cons]

private theorem enable_take_of_mem (present : name ∈ names) :
    enable (names.take moduleLimit) name = names.take moduleLimit := by
  refine if_neg ?_
  rintro ⟨_, absent, room⟩
  rw [List.length_take] at room
  have short : names.length ≤ moduleLimit := by omega
  rw [List.take_of_length_le short] at absent
  exact absent present

private theorem enable_take_of_not_mem
    (accepted : ModuleTable.acceptable name = true) (fresh : name ∉ names) :
    enable (names.take moduleLimit) name =
      (names ++ [name]).take moduleLimit := by
  have absent : name ∉ names.take moduleLimit :=
    fun member => fresh (List.mem_of_mem_take member)
  by_cases room : names.length < moduleLimit
  · have short : names.take moduleLimit = names :=
      List.take_of_length_le (Nat.le_of_lt room)
    rw [short] at absent ⊢
    rw [List.take_of_length_le (List.length_append.trans_le room)]
    exact if_pos ⟨accepted, absent, room⟩
  · have full : moduleLimit ≤ names.length := Nat.le_of_not_lt room
    rw [List.take_append_of_le_length full]
    refine if_neg ?_
    rintro ⟨_, _, free⟩
    rw [List.length_take] at free
    omega

/-- Adding the names of a list in turn to an empty table keeps the acceptable
ones, each once, as many as there is room for. -/
theorem enableAll_nil (added : List String) :
    enableAll [] added = kept added := by
  unfold kept
  induction added using List.reverseRecOn with
  | nil =>
      rfl
  | append_singleton added name inductionHypothesis =>
      have last : enableAll [] (added ++ [name]) =
          enable (enableAll [] added) name :=
        List.foldl_append
      rw [last, inductionHypothesis, List.filter_append]
      by_cases accepted : ModuleTable.acceptable name = true
      · rw [List.filter_cons_of_pos accepted, List.filter_nil]
        by_cases present : name ∈ added.filter ModuleTable.acceptable
        · rw [eraseDups_concat_of_mem present]
          exact enable_take_of_mem (List.mem_eraseDups.mpr present)
        · rw [eraseDups_concat_of_not_mem present]
          exact enable_take_of_not_mem accepted
            fun member => present (List.mem_eraseDups.mp member)
      · rw [List.filter_cons_of_neg accepted, List.filter_nil,
          List.append_nil]
        exact enable_of_refused accepted

private theorem mem_of_kept {added : List String} (member : name ∈ kept added) :
    name ∈ added ∧ ModuleTable.acceptable name = true :=
  List.mem_filter.mp
    (List.mem_eraseDups.mp (List.mem_of_mem_take member))

private theorem kept_isEmpty (added : List String) :
    (kept added).isEmpty = !added.any ModuleTable.acceptable := by
  unfold kept
  cases accepted : added.filter ModuleTable.acceptable with
  | nil =>
      have nobody : added.any ModuleTable.acceptable = false := by
        rw [List.any_eq_false]
        exact List.filter_eq_nil_iff.mp accepted
      rw [nobody]
      rfl
  | cons first others =>
      have somebody : added.any ModuleTable.acceptable = true := by
        have member : first ∈ added.filter ModuleTable.acceptable := by
          rw [accepted]
          exact List.mem_cons_self
        obtain ⟨listed, acceptable⟩ := List.mem_filter.mp member
        exact List.any_eq_true.mpr ⟨first, listed, acceptable⟩
      rw [somebody, List.eraseDups_cons]
      rfl

/-- A name finds a place if fewer acceptable names than there is room for
stand before its first occurrence. -/
theorem mem_kept_iff {earlier later : List String}
    (accepted : ModuleTable.acceptable name = true)
    (first : name ∉ earlier) :
    name ∈ kept (earlier ++ name :: later) ↔
      (earlier.filter ModuleTable.acceptable).eraseDups.length <
        moduleLimit := by
  have fresh : name ∉ earlier.filter ModuleTable.acceptable :=
    fun member => first (List.mem_filter.mp member).1
  obtain ⟨rest, split⟩ : ∃ rest,
      ((earlier ++ name :: later).filter
          ModuleTable.acceptable).eraseDups =
        (earlier.filter ModuleTable.acceptable).eraseDups ++
          name :: rest := by
    rw [List.filter_append, List.filter_cons_of_pos accepted,
      List.eraseDups_append]
    simp only [List.removeAll]
    rw [List.filter_cons_of_pos (by simp [first]), List.eraseDups_cons]
    exact ⟨_, rfl⟩
  unfold kept
  rw [split]
  constructor
  · intro member
    by_contra full
    rw [List.take_append_of_le_length (Nat.le_of_not_lt full)] at member
    exact fresh (List.mem_eraseDups.mp (List.mem_of_mem_take member))
  · intro room
    obtain ⟨free, sum⟩ := Nat.exists_eq_add_of_lt room
    rw [List.take_append, List.mem_append]
    refine .inr ?_
    have remaining : moduleLimit -
        (earlier.filter ModuleTable.acceptable).eraseDups.length =
          free + 1 := by
      omega
    rw [remaining, List.take_succ_cons]
    exact List.mem_cons_self

end Names

/-! ### Loggers that have not applied the defaults -/

/-- Nobody changes the module table before the defaults have been applied. -/
theorem World.pending_invariant :
    Invariant fun _ world => world.initialisation = .pending →
      world.get .modules = ModuleTable.empty where
  frame := by
    intro calls before after core kept pending
    rw [core.cells .modules rfl]
    exact kept (core.initialisation.symm.trans pending)
  plays := by
    intro calls call outcome rest kept runs played
    cases played with
    | outside =>
        exact kept
    | settled _ complete =>
        intro pending
        rw [Role.effect_initialisation, Role.claim_initialisation,
          complete] at pending
        cases pending
    | applied _ _ attempt passed =>
        intro pending
        rw [Role.effect_initialisation, attempt.initialisation,
          passed] at pending
        cases pending
    | failed _ pending attempt fault =>
        intro _
        rw [attempt.modules, nextModules, modulesReading_of_fault fault]
        exact (Role.claim_get _ _ (fun same => by cases same)
          (fun same => by cases same)).trans (kept pending)

private theorem World.Reachable.modules_of_pending {world : World}
    (reachable : world.Reachable)
    (pending : world.initialisation = .pending) :
    world.get .modules = ModuleTable.empty := by
  have steady : ∃ calls, Steady (fun _ world =>
      world.initialisation = .pending →
        world.get .modules = ModuleTable.empty) calls world := by
    clear pending
    induction reachable with
    | fresh surroundings =>
        exact ⟨[], World.atRest_fresh surroundings, fun _ => rfl⟩
    | call reachable command inductionHypothesis =>
        obtain ⟨calls, before⟩ := inductionHypothesis
        exact ⟨_, (World.pending_invariant.runs command before).along.at_end⟩
  obtain ⟨calls, steady⟩ := steady
  exact steady.holds pending

private theorem Claims.modulesReading_of_asked {claims : Claims}
    {environment : Environment} (unclaimed : claims.modules = false)
    (level : (claims.levelReading environment).fault? = none) :
    claims.modulesReading environment = (environment .modules).head := by
  unfold modulesReading asksModules
  rw [unclaimed, level]
  rfl

private theorem Role.onNames_of_not_claiming {role : Role}
    (leaves : role.claimsModules = false) (names : List String) :
    role.onNames names = names := by
  cases role with
  | peripheral | initialises | setsLevel =>
      rfl
  | changesModules =>
      cases leaves

private theorem Role.Played.lists_setting {role : Role} {world : World}
    {outcome : Outcome Unit} {setting : String}
    (played : role.Played world outcome)
    (initialising : role.initialising = true)
    (pending : world.initialisation = .pending) (lists : world.Lists [])
    (unclaimed : (role.claim world).claims.modules = false)
    (level : ((role.claim world).claims.levelReading
      world.surroundings.environment).fault? = none)
    (given : (world.surroundings.environment .modules).head = .text setting) :
    outcome.ending = .returned () ∧
      outcome.world.initialisation = .complete ∧
      outcome.world.Lists (Names.kept (Text.segments setting)) := by
  have reading : (role.claim world).claims.modulesReading
      (role.claim world).surroundings.environment = .text setting := by
    rw [Role.claim_surroundings,
      Claims.modulesReading_of_asked unclaimed level, given]
  have passes : (role.claim world).fault? = none := by
    unfold World.fault? Claims.fault?
    rw [reading, Role.claim_surroundings, level]
    rfl
  have leaves : role.claimsModules = false := by
    rw [Role.claim_claims] at unclaimed
    exact (Bool.or_eq_false_iff.mp unclaimed).2
  cases played with
  | outside peripheral =>
      rw [initialising] at peripheral
      cases peripheral
  | settled _ complete =>
      rw [pending] at complete
      cases complete
  | failed _ _ _ fault =>
      rw [passes] at fault
      cases fault
  | applied _ _ attempt _ =>
      refine ⟨rfl, ?_, ?_⟩
      · rw [Role.effect_initialisation, attempt.initialisation, passes]
        rfl
      · have after := ((lists.claim role).attempt attempt).effect role
        rw [reading, Role.onNames_of_not_claiming leaves] at after
        rw [← Names.enableAll_nil]
        exact after

/-- The module table that a setting leaves on a logger whose table nobody has
claimed, whichever call applies the defaults: the names that the segments of
the setting spell, less those that are empty or too long, each at its first
occurrence, and as many as there is room for. -/
theorem names_of_setting {world : World} (reachable : world.Reachable)
    (pending : world.initialisation = .pending) (role : Role)
    (initialising : role.initialising = true)
    (unclaimed : (role.claim world).claims.modules = false)
    (level : ((role.claim world).claims.levelReading
      world.surroundings.environment).fault? = none)
    (setting : String)
    (given : (world.surroundings.environment .modules).head = .text setting) :
    let parts := setting.toList.splitOn ','
    let segments := parts.map fun part => Text.trim (String.ofList part)
    let valid := fun name => decide (1 ≤ Text.size name ∧ Text.size name ≤ 31)
    let outcome := role.script.run world
    let table := outcome.world.get .modules
    (outcome.ending = .returned () ∧
        outcome.world.initialisation = .complete) ∧
      (∀ part ∈ parts, Text.Trims (String.ofList part)
        (Text.trim (String.ofList part))) ∧
      table.names = (segments.filter valid).eraseDups.take 32 ∧
      outcome.world.get .filterActive = table.isActive ∧
      table.isActive = segments.any valid ∧
      (∀ name ∈ table.names, name ∈ segments ∧ valid name = true) ∧
      ∀ earlier name later, segments = earlier ++ name :: later →
        name ∉ earlier → valid name = true →
        (name ∈ table.names ↔
          (earlier.filter valid).eraseDups.length < 32) := by
  intro parts segments valid outcome table
  have empty := reachable.modules_of_pending pending
  have lists : world.Lists [] :=
    { represents := by
        rw [empty]
        exact ModuleTable.represents_empty
      mirror := reachable.mirror }
  obtain ⟨ending, complete, after⟩ :=
    (role.played reachable.atRest).lists_setting initialising pending lists
      unclaimed level given
  have same : ModuleTable.acceptable = valid := by
    funext name
    rw [Bool.eq_iff_iff, ModuleTable.acceptable_iff]
    exact decide_eq_true_iff.symm
  have listed : table.names = Names.kept segments := by
    rw [after.represents.names_eq, Text.segments_eq]
  rw [← same]
  refine ⟨⟨ending, complete⟩, fun part _ => Text.trims_trim _, listed,
    after.mirror, ?_, ?_, ?_⟩
  · rw [after.represents.isActive_eq, Text.segments_eq, Names.kept_isEmpty,
      Bool.not_not]
  · intro name held
    rw [listed] at held
    exact Names.mem_of_kept held
  · intro earlier name later split first accepted
    rw [listed, split]
    exact Names.mem_kept_iff accepted first

/-- A segment that is empty, repeated or too long takes up no place. -/
theorem names_of_untidy_setting :
    let host : Host := { processId := 1, terminal := false }
    let setting := "net,, db ,net,a-name-that-no-table-has-room-for,ui"
    let environment : Environment := fun asked =>
      match asked with
      | .level => Tape.constant .unset
      | .modules => Tape.constant (.text setting)
    let world := World.fresh (Surroundings.start host environment)
    let table := (Logger.initOnce.run world).world.get .modules
    table.names = ["net", "db", "ui"] ∧ table.isActive = true := by
  intro host setting environment world table
  obtain ⟨_, _, names, _, active, _⟩ := names_of_setting
    (.fresh (Surroundings.start host environment)) rfl .initialises rfl rfl
    rfl setting rfl
  constructor
  · exact names.trans (by decide +kernel)
  · exact active.trans (by decide +kernel)

end LeveledLog
