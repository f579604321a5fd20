/-
What colours add to an output.

An output is made of groups of fragments.  With colours each fragment that
paints is a write of its own, and all other writes are those without colours,
in the same order.  A group that paints turns colours on and turns them all
off again before the next group starts; the last group, which is the blank
before a message and the message itself, does not paint.
-/

import LeveledLog.Proofs.OutputCalls

namespace LeveledLog

/-! ### Fragments that paint -/

/-- Colours that are turned on in a row and then turned off, or none. -/
def Color.Balanced (colors : List Color) : Prop :=
  colors = [] ∨
    ∃ opened, opened ≠ [] ∧ Color.reset ∉ opened ∧ colors = opened ++ [.reset]

private theorem Color.escape_ne_nil (color : Color) :
    Text.utf8 color.escape ≠ [] := by
  have last : Text.utf8 "m" ≠ [] := by
    decide
  unfold escape
  rw [Text.utf8_append]
  exact List.append_ne_nil_of_right_ne_nil _ last

namespace Fragment

def color? : Fragment → Option Color
  | .paint color => some color
  | .raw _ => none

def paints (fragment : Fragment) : Bool :=
  fragment.color?.isSome

def colors (fragments : List Fragment) : List Color :=
  fragments.filterMap color?

def isWritten : Fragment → Bool
  | .paint _ => true
  | .raw bytes => bytes ≠ []

private theorem writes_colored (fragments : List Fragment) :
    writes true fragments =
      (fragments.filter isWritten).map (bytes true) := by
  have shows (fragment : Fragment) :
      (decide (fragment.bytes true ≠ [])) = fragment.isWritten := by
    cases fragment with
    | paint color =>
        exact decide_eq_true color.escape_ne_nil
    | raw bytes =>
        rfl
  unfold writes
  rw [List.filter_map]
  exact congrArg _ (List.filter_congr fun fragment _ => shows fragment)

/-- Without colours nothing is written for the fragments that paint, and the
same as before for all others. -/
theorem writes_plain (fragments : List Fragment) :
    writes false fragments =
      ((fragments.filter isWritten).filter fun fragment =>
        !fragment.paints).map (bytes true) := by
  induction fragments with
  | nil =>
      rfl
  | cons fragment fragments inductionHypothesis =>
      have split : writes false (fragment :: fragments) =
          writes false [fragment] ++ writes false fragments :=
        writes_append false [fragment] fragments
      rw [split, inductionHypothesis]
      cases fragment with
      | paint color =>
          rfl
      | raw bytes =>
          cases bytes with
          | nil | cons =>
              rfl

end Fragment

/-! ### The groups of an output -/

namespace Output

variable {world : World}

def level : Output → Level
  | .line entry _ => entry.level
  | .heading level => level

def lastGroup : Output → List Fragment
  | .line _ message => Line.messageGroup message
  | .heading _ => [.text " "]

private theorem lastGroup_colors (output : Output) :
    Fragment.colors output.lastGroup = [] := by
  cases output with
  | line | heading =>
      rfl

def firstGroups (world : World) (stamp : List Fragment) :
    List (List Fragment) :=
  [stamp, Line.processGroup world.surroundings.host.processId,
    Line.prefixGroup (world.get .linePrefix)]

def laterGroups (world : World) : Output → List (List Fragment)
  | .line entry _ =>
      [if world.get .sourceLocation then Line.siteGroup entry.site else [],
        entry.moduleName.elim [] Line.moduleGroup]
  | .heading _ => []

def stamp? (world : World) : Output → Option (List Fragment)
  | .line _ _ => world.stamp?
  | .heading _ => some []

/-- The groups of fragments of an output that starts now; there are none if
it does not get past its timestamp. -/
def groups (world : World) (output : Output) : List (List Fragment) :=
  match output.stamp? world with
  | some stamp =>
      firstGroups world stamp ++ [Line.levelGroup output.level] ++
        output.laterGroups world ++ [output.lastGroup]
  | none => []

private theorem writes_groups (world : World) (output : Output) :
    output.writes world =
      Fragment.writes world.colored (output.groups world).flatten := by
  cases output with
  | heading level =>
      simp [writes, World.headingWrites, groups, stamp?, firstGroups,
        laterGroups, lastGroup, Line.heading, Output.level]
  | line entry message =>
      simp only [writes, World.lineWrites, World.lineFragments, groups,
        stamp?]
      cases world.stamp? with
      | none =>
          rfl
      | some stamp =>
          simp [firstGroups, laterGroups, lastGroup, Line.body, Line.heading,
            Output.level]

private theorem groups_setColorMode (world : World) (mode : ColorMode)
    (output : Output) :
    output.groups (world.set .colorMode mode) = output.groups world := by
  cases output with
  | line | heading =>
      rfl

private theorem stamp?_isSome (output : Output) :
    (output.stamp? world).isSome = true ↔ output.Starts world := by
  cases output with
  | line entry message =>
      exact World.stamp?_isSome
  | heading level =>
      exact iff_of_true rfl trivial

private theorem stamp?_colors {output : Output} {stamp : List Fragment}
    (stamped : output.stamp? world = some stamp) :
    Fragment.colors stamp = [] := by
  cases output with
  | heading level =>
      cases stamped
      rfl
  | line entry message =>
      revert stamped
      unfold Output.stamp? World.stamp?
      cases world.get .timestamps with
      | false =>
          intro stamped
          cases stamped
          rfl
      | true =>
          cases world.surroundings.clock.read with
          | error fault =>
              intro impossible
              cases impossible
          | ok now =>
              intro stamped
              cases stamped
              rfl

private theorem levelGroup_balanced (level : Level) :
    Color.Balanced (Fragment.colors (Line.levelGroup level)) := by
  refine .inr ⟨[level.color], by simp, ?_, rfl⟩
  cases level with
  | info | warn | error =>
      decide

private theorem laterGroups_balanced (world : World) (output : Output) :
    ∀ group ∈ output.laterGroups world,
      Color.Balanced (Fragment.colors group) := by
  have dims : Color.Balanced [.dim, .reset] :=
    .inr ⟨[.dim], by decide, by decide, rfl⟩
  cases output with
  | heading level =>
      intro group impossible
      cases impossible
  | line entry message =>
      simp only [laterGroups, List.forall_mem_cons, List.not_mem_nil,
        false_implies, implies_true, and_true]
      constructor
      · cases world.get .sourceLocation with
        | false =>
            exact .inl rfl
        | true =>
            exact dims
      · cases entry.moduleName with
        | none =>
            exact .inl rfl
        | some name =>
            exact dims

theorem groups_balanced (world : World) (output : Output) :
    ∀ group ∈ output.groups world,
      Color.Balanced (Fragment.colors group) := by
  unfold groups
  cases stamped : output.stamp? world with
  | none =>
      intro group impossible
      cases impossible
  | some stamp =>
      simp only [List.forall_mem_append, firstGroups, List.forall_mem_cons,
        List.not_mem_nil, false_implies, implies_true, and_true]
      refine ⟨⟨⟨⟨.inl (stamp?_colors stamped), ?_, ?_⟩,
        levelGroup_balanced _⟩, output.laterGroups_balanced world⟩, .inl ?_⟩
      · exact .inr ⟨[.dim], by decide, by decide, rfl⟩
      · exact .inr ⟨[.gray, .italic], by decide, by decide, rfl⟩
      · exact output.lastGroup_colors

end Output

/-! ### Sinks that are called for an output -/

/-- Destinations are called for the listed writes, in order, up to the first
call in which one panics. -/
structure World.CallsFor (world : World) (calls : List SinkCall)
    (writes : List Bytes) : Prop where
  begins : calls.map SinkCall.delivery <+: writes.map world.delivers
  whole : (∀ call ∈ calls, call.panic? = none) →
    calls.map SinkCall.delivery = writes.map world.delivers

private theorem Output.callsFor {world : World} (rest : world.AtRest)
    (output : Output) :
    world.CallsFor (output.script.sinkCalls world) (output.writes world) := by
  rw [output.sinkCalls_eq rest]
  exact ⟨world.callsMade_prefix _ _, World.callsMade_whole⟩

private theorem Logger.log_callsFor {world : World} (rest : world.AtRest)
    {entry : Entry} {message : Message} {text : String}
    (asked : ((wouldLog entry.level entry.moduleName).run world).ending =
      .returned true) (inert : message.isInert = true)
    (rendered : message.rendering = some text) (nonempty : text ≠ "") :
    world.CallsFor ((log entry message.render).sinkCalls world)
      (world.lineWrites entry text) := by
  have delivers : world.ready.surroundings.delivery
      (world.get .destination) = world.delivers :=
    World.ready_delivery rest _
  rw [log_sinkCalls_of_inert rest inert asked, if_pos rfl, rendered,
    World.renderedWrites, if_neg nonempty]
  constructor
  · rw [← delivers]
    exact World.callsMade_prefix _ _ _
  · intro calm
    rw [← delivers]
    exact World.callsMade_whole calm

/-! ### Colours and the calls of sinks -/

/-- An output of a logger in a colour mode with colours and in one without.
With colours each fragment that is not empty is a write, and without them each
of these that does not paint, so that leaving out the writes of the fragments
that paint, each of which is the escape sequence of a colour, gives the other
list.  Every group that paints turns its colours off at its end; the level
group starts with the colour of the level, and the last group, with the blank
and the message, does not paint.  In either mode destinations are called for
these writes, by the output itself, by every call to log that comes to it and
whose message makes no calls, and by any other call to log after the rendering
of its message. -/
theorem colours_only_decorate {world : World} (reachable : world.Reachable)
    {bright plain : ColorMode}
    (on : bright.enabled world.surroundings.host.terminal = true)
    (off : plain.enabled world.surroundings.host.terminal = false)
    (output : Output) :
    let colored := world.set .colorMode bright
    let uncolored := world.set .colorMode plain
    let groups := output.groups world
    let written := groups.flatten.filter Fragment.isWritten
    (output.writes colored = written.map (Fragment.bytes true) ∧
        output.writes uncolored =
          (written.filter fun fragment => !fragment.paints).map
            (Fragment.bytes true)) ∧
      (∀ group ∈ groups, Color.Balanced (Fragment.colors group)) ∧
      (output.Starts world → ∃ earlier later,
        groups =
          earlier ++
            [[.paint output.level.color, .text "[",
              .text output.level.label, .text "]", .paint .reset]] ++
            later ++ [output.lastGroup]) ∧
      Fragment.colors output.lastGroup = [] ∧
      ∀ now, now = colored ∨ now = uncolored →
        now.CallsFor (output.script.sinkCalls now) (output.writes now) ∧
          (∀ (entry : Entry) (message : Message) (text : String),
            ((Logger.wouldLog entry.level entry.moduleName).run
              now).ending = .returned true →
            message.isInert = true → message.rendering = some text →
            text ≠ "" → output = .line entry text →
            now.CallsFor ((Logger.log entry message.render).sinkCalls now)
              (output.writes now)) ∧
          ∀ (caller : World) (entry : Entry) (message : Message)
            (text : String), caller.Reachable →
            ((Logger.wouldLog entry.level entry.moduleName).run
              caller).ending = .returned true →
            (message.render.run caller.ready).ending =
              .returned (some text) →
            (message.render.run caller.ready).world = now →
            text ≠ "" → output = .line entry text →
            ∃ calls,
              (Logger.log entry message.render).sinkCalls caller =
                message.render.sinkCalls caller.ready ++ calls ∧
              now.CallsFor calls (output.writes now) := by
  intro colored uncolored groups written
  refine ⟨⟨?_, ?_⟩, output.groups_balanced world, ?_,
    output.lastGroup_colors, ?_⟩
  · have shows : colored.colored = true := on
    rw [output.writes_groups, shows, output.groups_setColorMode,
      Fragment.writes_colored]
  · have shows : uncolored.colored = false := off
    rw [output.writes_groups, shows, output.groups_setColorMode,
      Fragment.writes_plain]
  · intro starts
    obtain ⟨stamp, stamped⟩ :=
      Option.isSome_iff_exists.mp (output.stamp?_isSome.mpr starts)
    refine ⟨Output.firstGroups world stamp, output.laterGroups world, ?_⟩
    simp only [groups, Output.groups, stamped]
    rfl
  · intro now variant
    have reachableNow : now.Reachable := by
      rcases variant with same | same
      · rw [same]
        exact reachable.call (.setColorMode bright)
      · rw [same]
        exact reachable.call (.setColorMode plain)
    have calls := output.callsFor reachableNow.atRest
    refine ⟨calls, ?_, ?_⟩
    · intro entry message text asked inert rendered nonempty line
      rw [line]
      exact Logger.log_callsFor reachableNow.atRest asked inert rendered
        nonempty
    · intro caller entry message text reachableCaller asked rendered led
        nonempty line
      refine ⟨_, Logger.log_sinkCalls_of_rendered reachableCaller.atRest
        asked rendered nonempty, ?_⟩
      rw [led, ← line]
      exact calls

/-- The calls of a sink for a line with colours. -/
theorem colours_of_line :
    let host : Host := { processId := 7, terminal := false }
    let world :=
      (World.fresh (Surroundings.start host Environment.empty)).afterAll
        [.enable, .setPrefix "svc", .setDestination (.sink "file"),
          .initOnce]
    let colored := world.set .colorMode .always
    let entry := (Entry.untagged .warn { file := none, line := 1 }).withModule
      "net"
    let calls :=
      (Logger.log entry (Message.literal "text").render).sinkCalls colored
    (calls.map fun call => call.delivery.bytes).flatten =
      Text.utf8 ("\x1b[2m|7|\x1b[0m \x1b[90m\x1b[3msvc \x1b[0m" ++
        "\x1b[33m[WARN]\x1b[0m \x1b[2m(net)\x1b[0m text") := by
  intro host world colored entry calls
  have reachable : world.Reachable := World.Reachable.afterAll (.fresh _) _
  have on (terminal : Bool) : ColorMode.always.enabled terminal = true := rfl
  have off (terminal : Bool) : ColorMode.never.enabled terminal = false := rfl
  obtain ⟨⟨writes, _⟩, _, _, _, shows⟩ :=
    colours_only_decorate reachable (on _) (off _) (.line entry "text")
  have free : colored.configLock.holder = none :=
    (reachable.call (.setColorMode .always)).atRest.configFree
  have complete : colored.initialisation = .complete := by
    decide +kernel
  have opens : colored.opens entry.level entry.moduleName = true := by
    decide +kernel
  have asked := congrArg Outcome.ending
    (Logger.run_wouldLog free complete entry.level entry.moduleName)
  rw [opens] at asked
  have rendered : (Message.literal "text").rendering = some "text" := by
    rw [Message.rendering, Message.render]
    rfl
  have made : colored.CallsFor calls _ := (shows colored (.inl rfl)).2.1 entry
    (.literal "text") "text" asked rfl rendered (by decide) rfl
  have calm : ∀ call ∈ calls, call.panic? = none := by
    decide +kernel
  have delivered := congrArg (List.map Delivery.bytes) (made.whole calm)
  rw [List.map_map, List.map_map, writes] at delivered
  change (calls.map (Delivery.bytes ∘ SinkCall.delivery)).flatten = _
  rw [delivered]
  decide +kernel

end LeveledLog
