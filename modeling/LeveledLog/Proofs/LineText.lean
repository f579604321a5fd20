/-
What a line reads.

Without colours the writes of a line, one after the other, are the timestamp,
if lines begin with one, and a text that is put together from the number of
the process, the line prefix, the level, the place of the call, the module and
the message.  The message is the last write of the line, and no write is
empty.
-/

import LeveledLog.Proofs.GateLaw
import LeveledLog.Proofs.Numerals
import LeveledLog.Proofs.PrefixHistory

namespace LeveledLog

/-- A line without its timestamp and without colours. -/
def Line.text (processId : UInt32) (prefixText : String) (entry : Entry)
    (showsSite : Bool) (message : String) : String :=
  "|" ++ toString processId.toNat ++ "| " ++ prefixText ++ " " ++
    "[" ++ entry.level.label ++ "]" ++
    (if showsSite then
      " " ++ entry.site.basename ++ ":" ++ toString entry.site.line.toNat
    else "") ++
    (match entry.moduleName with
      | some name => " (" ++ name ++ ")"
      | none => "") ++
    " " ++ message

namespace Fragment

theorem writes_flatten (fragments : List Fragment) :
    (writes false fragments).flatten =
      fragments.flatMap (Fragment.bytes false) := by
  rw [writes, List.flatten_filter_ne_nil, List.flatMap_def]

end Fragment

namespace Line

private theorem siteGroup_bytes (site : CallSite) :
    (siteGroup site).flatMap (Fragment.bytes false) =
      Text.utf8 (" " ++ site.basename ++ ":" ++ toString site.line.toNat) := by
  simp [siteGroup, Fragment.text, Fragment.bytes, Numeral.decimal_eq,
    Text.utf8_append]

private theorem moduleGroup_bytes (name : String) :
    (moduleGroup name).flatMap (Fragment.bytes false) =
      Text.utf8 (" (" ++ name ++ ")") := by
  have parenthesis : Text.utf8 " (" = Text.utf8 " " ++ Text.utf8 "(" := by
    decide
  simp [moduleGroup, Fragment.text, Fragment.bytes, Text.utf8_append,
    parenthesis]

private theorem heading_bytes (processId : UInt32) {linePrefix : LinePrefix}
    {prefixText : String} (held : linePrefix.content = Text.utf8 prefixText)
    (level : Level) :
    (heading processId linePrefix level).flatMap (Fragment.bytes false) =
      Text.utf8 ("|" ++ toString processId.toNat ++ "| " ++ prefixText ++
        " " ++ "[" ++ level.label ++ "]") := by
  have bar : Text.utf8 "| " = Text.utf8 "|" ++ Text.utf8 " " := by
    decide
  simp [heading, processGroup, prefixGroup, levelGroup, Fragment.text,
    Fragment.bytes, Numeral.decimal_eq, Text.utf8_append, held, bar]

private theorem body_bytes (processId : UInt32) {linePrefix : LinePrefix}
    {prefixText : String} (held : linePrefix.content = Text.utf8 prefixText)
    (entry : Entry) (showsSite : Bool) (message : String) :
    (body processId linePrefix entry showsSite message).flatMap
        (Fragment.bytes false) =
      Text.utf8 (text processId prefixText entry showsSite message) := by
  have site : (if showsSite then siteGroup entry.site else []).flatMap
        (Fragment.bytes false) =
      Text.utf8 (if showsSite then
        " " ++ entry.site.basename ++ ":" ++ toString entry.site.line.toNat
      else "") := by
    cases showsSite with
    | false =>
        rfl
    | true =>
        exact siteGroup_bytes entry.site
  have module : (entry.moduleName.elim [] moduleGroup).flatMap
        (Fragment.bytes false) =
      Text.utf8 (match entry.moduleName with
        | some name => " (" ++ name ++ ")"
        | none => "") := by
    cases entry.moduleName with
    | none =>
        rfl
    | some name =>
        exact moduleGroup_bytes name
  have shown : (messageGroup message).flatMap (Fragment.bytes false) =
      Text.utf8 " " ++ Text.utf8 message := by
    simp [messageGroup, Fragment.text, Fragment.bytes]
  rw [body, text, List.flatMap_append, List.flatMap_append,
    List.flatMap_append, heading_bytes processId held, site, module, shown]
  simp only [Text.utf8_append, List.append_assoc]

end Line

private theorem World.stamp_bytes {world : World} {stamp : List Fragment}
    (stamped : world.stamp? = some stamp) :
    (world.get .timestamps = false →
        stamp.flatMap (Fragment.bytes false) = []) ∧
      (world.get .timestamps = true →
        ∃ now, world.surroundings.clock.read = .ok now ∧
          stamp.flatMap (Fragment.bytes false) = now.timestamp) := by
  revert stamped
  unfold stamp?
  cases world.get .timestamps with
  | false =>
      intro stamped
      cases stamped
      simp
  | true =>
      cases reads : world.surroundings.clock.read with
      | error fault =>
          intro impossible
          cases impossible
      | ok now =>
          intro stamped
          cases stamped
          simp [Fragment.bytes]

theorem World.lineWrites_flatten {world : World} {stamp : List Fragment}
    (stamped : world.stamp? = some stamp) (plain : world.colored = false)
    {prefixText : String}
    (held : (world.get .linePrefix).content = Text.utf8 prefixText)
    (entry : Entry) (message : String) :
    (world.lineWrites entry message).flatten =
      stamp.flatMap (Fragment.bytes false) ++
        Text.utf8 (Line.text world.surroundings.host.processId prefixText
          entry (world.get .sourceLocation) message) := by
  rw [lineWrites, plain, Fragment.writes_flatten, lineFragments, stamped,
    List.flatMap_append, Line.body_bytes _ held]

/-! ### The layout of lines -/

/-- What is written for a message that passes and makes no calls, to a sink
that neither panics nor changes anything, while a clock that lines show can be
read.  All of it goes to the current destination, no write is empty, and the
message is the last one; without colours the writes are the timestamp and the
text of the line, with as much of the last prefix that was set as fits; and a
literal message is written like a rendered one. -/
theorem lines_read_as_laid_out (surroundings : Surroundings)
    (commands : List Command) {entry : Entry} {message : Message}
    {text : String} :
    let start := World.fresh surroundings
    let world := start.afterAll commands
    let prefixText :=
      (start.prefixTexts commands).getLast?.getD defaultPrefix
    ((Logger.wouldLog entry.level entry.moduleName).run world).ending =
        .returned true →
      message.isInert = true → message.rendering = some text → text ≠ "" →
      world.Heeds (world.get .destination) (fun _ => []) → world.Stamps →
      let outcome := (Logger.log entry message.render).run world
      outcome.ending = .returned () ∧
        (Logger.log entry (Message.literal text).render).run world =
          outcome ∧
        ∃ earlier writes,
          writes = earlier ++ [Text.utf8 text] ∧
          (∀ bytes ∈ writes, bytes ≠ []) ∧
          outcome.accepted = writes.map world.delivers ∧
          (world.colored = false →
            ∃ stamp shown,
              Text.LongestStart 63 prefixText shown ∧
              (world.get .timestamps = false → stamp = []) ∧
              (world.get .timestamps = true →
                ∃ now, world.surroundings.clock.read = .ok now ∧
                  stamp = now.timestamp ∧ stamp.length = 26) ∧
              writes.flatten =
                stamp ++
                  Text.utf8 (Line.text world.surroundings.host.processId
                    shown entry (world.get .sourceLocation) text)) := by
  intro start world prefixText asked inert rendered nonempty quiet stamps
    outcome
  have rest : world.AtRest :=
    (World.Reachable.afterAll (.fresh surroundings) commands).atRest
  have writes : world.renderedWrites entry (some text) =
      world.lineWrites entry text := if_neg nonempty
  have runs : outcome = _ :=
    Logger.run_log_of_inert rest quiet stamps inert asked
  have literalIsInert : (Message.literal text).isInert = true := rfl
  have runsLiteral :=
    Logger.run_log_of_inert rest quiet stamps literalIsInert asked
  have literal : (Message.literal text).rendering = some text := by
    rw [Message.rendering, Message.render]
    rfl
  rw [rendered, writes] at runs
  rw [literal, writes] at runsLiteral
  refine ⟨by rw [runs], by rw [runs, runsLiteral],
    Fragment.writes world.colored (world.leadingFragments entry) ++
      [Text.utf8 " "], world.lineWrites entry text, ?_,
    Fragment.writes_nonempty _ _, by rw [runs], ?_⟩
  · rw [World.lineWrites_eq stamps entry nonempty, List.append_assoc]
    rfl
  intro plain
  obtain ⟨shown, longest, held⟩ :
      ∃ shown, Text.LongestStart (InlineText.room prefixCapacity) prefixText
          shown ∧
        (world.get .linePrefix).content = Text.utf8 shown := by
    rw [World.linePrefix_of_fresh surroundings commands]
    exact InlineText.exists_longestStart prefixText
  obtain ⟨stamp, stamped⟩ :=
    Option.isSome_iff_exists.mp (World.stamp?_isSome.mpr stamps)
  obtain ⟨off, on⟩ := World.stamp_bytes stamped
  refine ⟨stamp.flatMap (Fragment.bytes false), shown, longest, off, ?_,
    World.lineWrites_flatten stamped plain held entry text⟩
  intro shows
  obtain ⟨now, reads, same⟩ := on shows
  refine ⟨now, reads, same, ?_⟩
  rw [same, now.timestamp_length]

/-- A line with all its groups, as a sink receives it. -/
theorem line_of_two_parts :
    let host : Host := { processId := 7, terminal := false }
    let start := World.fresh (Surroundings.start host Environment.empty)
    let world := start.afterAll
      [.enable, .setPrefix "first", .setTimestamps true,
        .setSourceLocation true, .setDestination (.sink "kept"),
        .setPrefix "svc"]
    let entry := (Entry.untagged .warn
      { file := some "src/net/tcp.rs", line := 42 }).withModule "net"
    let message : Message := .rendered [.text "two ", .text "parts"]
    (((Logger.log entry message.render).run world).accepted.map
        Delivery.bytes).flatten =
      Text.utf8 ("[1970-01-01T00:00:00.000] |7| svc [WARN] tcp.rs:42 (net) " ++
        "two parts") := by
  intro host start world entry message
  have quiet : world.Heeds (world.get .destination) fun _ => [] := by
    apply World.Heeds.of_capturing
    intro name kept
    cases kept
    rfl
  have stamps : world.Stamps := by
    intro _
    exact ⟨_, ClockTime.read_epoch⟩
  have asked : ((Logger.wouldLog entry.level entry.moduleName).run
      world).ending = .returned true := rfl
  have inert : message.isInert = true := rfl
  have rendered : message.rendering = some "two parts" := by
    decide +kernel
  have nonempty : "two parts" ≠ "" := by
    decide
  obtain ⟨_, _, _, writes, _, _, accepted, reads⟩ :=
    lines_read_as_laid_out _ _ asked inert rendered nonempty quiet stamps
  obtain ⟨stamp, shown, longest, _, on, read⟩ := reads rfl
  obtain ⟨now, reading, stamped, _⟩ := on rfl
  have atStart : now = Instant.epoch :=
    Except.ok.inj (reading.symm.trans ClockTime.read_epoch)
  have last : (start.prefixTexts [.enable, .setPrefix "first",
      .setTimestamps true, .setSourceLocation true,
      .setDestination (.sink "kept"), .setPrefix "svc"]).getLast?.getD
        defaultPrefix = "svc" := by
    decide +kernel
  rw [last] at longest
  have whole : shown = "svc" := longest.eq_of_fits (by decide)
  have bytes : writes.map (Delivery.bytes ∘ world.delivers) = writes :=
    List.map_id writes
  rw [accepted, List.map_map, bytes, read, stamped, atStart, whole]
  decide +kernel

end LeveledLog
