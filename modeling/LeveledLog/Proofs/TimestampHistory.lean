/-
Timestamps grow along every run.

If the clock never goes back, lines begin at times that do not go back either,
in the order in which they are written, also if messages log lines of their
own: a line reads the clock when its message has been rendered.  What a
destination receives first of a line is its timestamp, and timestamps are in
the order of the times that they show.
-/

import LeveledLog.Proofs.TimestampOrder
import LeveledLog.Proofs.WrittenLines

namespace LeveledLog

/-! ### Times of the clock -/

namespace ClockTime

def instant (time : ClockTime) : Instant where
  seconds := time.seconds
  nanoseconds := time.nanoseconds

def NotAfter (first second : ClockTime) : Prop :=
  first.instant.NotAfter second.instant

instance (first second : ClockTime) : Decidable (first.NotAfter second) :=
  inferInstanceAs (Decidable (first.instant.NotAfter second.instant))

private theorem notAfter_refl (time : ClockTime) : time.NotAfter time :=
  .inr ⟨rfl, Nat.le_refl _⟩

private theorem read_eq {time : ClockTime} {now : Instant}
    (reads : time.read = .ok now) : now = time.instant := by
  unfold read at reads
  split at reads
  · cases reads
  split at reads
  · cases reads
  cases found : Instant.of? time.seconds time.nanoseconds with
  | none =>
      rw [found] at reads
      cases reads
  | some instant =>
      rw [found] at reads
      cases reads
      obtain ⟨seconds, nanoseconds⟩ := Instant.eq_of_of? found
      cases now
      rw [ClockTime.instant, ← seconds, ← nanoseconds]

end ClockTime

/-- The times that the clock shows during a run: the one at its start, and
those to which it is set. -/
def World.times (world : World) (commands : List Command) : List ClockTime :=
  world.clock :: (world.pieces commands).filterMap Piece.time?

namespace Piece

def begins? : Piece → Option ClockTime
  | .line start _ _ => some start.clock
  | .other _ | .clock _ => none

/-- What a destination receives first of a line that begins with a
timestamp. -/
def stamp? (destination : Destination) : Piece → Option Bytes
  | .line start entry message =>
      if start.get .timestamps then
        ((Piece.line start entry message).accepted.find? fun delivery =>
          delivery.destination == destination).map Delivery.bytes
      else
        none
  | .other _ | .clock _ => none

end Piece

/-! ### When lines begin -/

/-- A line begins at one of the times that the clock shows, and if the clock
does not go back, not earlier than the lines before it. -/
theorem ClockRuns.begins {now last : ClockTime} {pieces : List Piece}
    (runs : ClockRuns now pieces last)
    (forward : (now :: pieces.filterMap Piece.time?).Pairwise
      ClockTime.NotAfter) :
    (∀ time ∈ pieces.filterMap Piece.begins?,
        time ∈ now :: pieces.filterMap Piece.time?) ∧
      (pieces.filterMap Piece.begins?).Pairwise ClockTime.NotAfter := by
  induction pieces generalizing now with
  | nil =>
      exact ⟨fun _ impossible => (by cases impossible), .nil⟩
  | cons piece pieces inductionHypothesis =>
      cases piece with
      | other deliveries =>
          exact inductionHypothesis runs forward
      | line start entry message =>
          obtain ⟨begins, later⟩ := runs
          obtain ⟨shown, ordered⟩ := inductionHypothesis later forward
          change (∀ time ∈ start.clock :: pieces.filterMap Piece.begins?,
              time ∈ now :: pieces.filterMap Piece.time?) ∧
            (start.clock :: pieces.filterMap Piece.begins?).Pairwise _
          rw [begins]
          constructor
          · intro time member
            rcases List.mem_cons.mp member with same | inLater
            · rw [same]
              exact List.mem_cons_self
            · exact shown time inLater
          · refine .cons ?_ ordered
            intro time member
            rcases List.mem_cons.mp (shown time member) with same | set
            · rw [same]
              exact now.notAfter_refl
            · exact List.rel_of_pairwise_cons forward set
      | clock time =>
          have later : ClockRuns time pieces last := runs
          obtain ⟨shown, ordered⟩ :=
            inductionHypothesis later (List.Pairwise.of_cons forward)
          refine ⟨?_, ordered⟩
          intro other member
          exact List.mem_cons_of_mem now (shown other member)

/-! ### What is received first of a line -/

section Stamp

variable {start : World} {entry : Entry} {message : String}
variable {destination : Destination} {bytes : Bytes}

private theorem World.lineWrites_head (on : start.get .timestamps = true)
    {first : Bytes} {others : List Bytes}
    (writes : start.lineWrites entry message = first :: others) :
    ∃ now, start.clock.read = .ok now ∧ first = now.timestamp := by
  unfold World.lineWrites World.lineFragments World.stamp? at writes
  rw [on, if_pos rfl] at writes
  cases reads : start.surroundings.clock.read with
  | error fault =>
      rw [reads] at writes
      cases writes
  | ok now =>
      rw [reads] at writes
      have shown : now.timestamp ≠ [] := by
        intro empty
        have width := now.timestamp_length
        rw [empty] at width
        cases width
      rw [Fragment.writes_append] at writes
      have stamp : Fragment.writes start.colored [.raw now.timestamp] =
          [now.timestamp] := by
        simp [Fragment.writes, Fragment.bytes, shown]
      rw [stamp] at writes
      cases writes
      exact ⟨now, reads, rfl⟩

private theorem Logger.writeLine_accepted_first (rest : start.AtRest)
    {first : Delivery} {others : List Delivery}
    (accepted : ((writeLine entry message).run start).accepted =
      first :: others) :
    (∀ delivery ∈ first :: others,
        delivery.destination = start.get .destination) ∧
      ∃ later, start.lineWrites entry message = first.bytes :: later := by
  have copied := (writeLine_clock_accepted rest entry message).2
  rw [accepted] at copied
  constructor
  · intro delivery member
    obtain ⟨_, _, same⟩ := List.mem_map.mp (copied.subset member)
    rw [← same]
    rfl
  · cases writes : start.lineWrites entry message with
    | nil =>
        rw [writes] at copied
        cases List.eq_nil_of_prefix_nil copied
    | cons shown later =>
        rw [writes] at copied
        rw [(List.cons_prefix_cons.mp copied).1]
        exact ⟨later, rfl⟩

/-- What a destination receives first of a line that begins with a timestamp
is the timestamp of the time at which the line begins. -/
theorem Piece.stamp?_eq_some (rest : start.AtRest)
    (received : (Piece.line start entry message).stamp? destination =
      some bytes) :
    ∃ now, start.clock.read = .ok now ∧ bytes = now.timestamp := by
  rw [stamp?] at received
  cases on : start.get .timestamps with
  | false =>
      rw [on] at received
      cases received
  | true =>
      rw [on, if_pos rfl] at received
      obtain ⟨delivery, found, same⟩ := Option.map_eq_some_iff.mp received
      change List.find? _
        ((Logger.writeLine entry message).run start).accepted = _ at found
      cases accepted : ((Logger.writeLine entry message).run
        start).accepted with
      | nil =>
          rw [accepted] at found
          cases found
      | cons first others =>
          obtain ⟨places, later, writes⟩ :=
            Logger.writeLine_accepted_first rest accepted
          rw [accepted] at found
          have place := places delivery (List.mem_of_find?_eq_some found)
          have firstPlace := places first List.mem_cons_self
          have chosen := List.find?_some found
          rw [place, ← firstPlace] at chosen
          have taken : (first :: others).find? (fun delivery =>
              delivery.destination == destination) = some first :=
            List.find?_cons_of_pos chosen
          rw [taken] at found
          cases found
          rw [← same]
          exact World.lineWrites_head on writes

private theorem Piece.begins_of_stamp? {piece : Piece} (rests : piece.Rests)
    (received : piece.stamp? destination = some bytes) :
    ∃ time, piece.begins? = some time ∧
      ∃ now, time.read = .ok now ∧ bytes = now.timestamp := by
  cases piece with
  | line start entry message =>
      exact ⟨start.clock, rfl, Piece.stamp?_eq_some rests received⟩
  | other | clock =>
      cases received

end Stamp

/-! ### Timestamps along a run -/

/-- Timestamps are in the order of their instants, as long as four digits can
write the years, and equal just for the same millisecond, a leap second being
shown as the last of its second.  In a run whose clock does not go back, what
a destination receives first of the lines that begin with a timestamp are
timestamps of the times at which the lines begin, in this order. -/
theorem timestamps_sort_chronologically :
    (∀ {firstSeconds secondSeconds : Int}
        {firstNanoseconds secondNanoseconds : Nat} {first second : Instant},
      Instant.of? firstSeconds firstNanoseconds = some first →
      Instant.of? secondSeconds secondNanoseconds = some second →
      first.HasShownYear → second.HasShownYear →
        (firstSeconds < secondSeconds ∨
            firstSeconds = secondSeconds ∧
              firstNanoseconds ≤ secondNanoseconds →
          first.timestamp ≤ second.timestamp) ∧
        (first.timestamp = second.timestamp ↔
          firstSeconds = secondSeconds ∧
            min (firstNanoseconds / 1000000) 999 =
              min (secondNanoseconds / 1000000) 999)) ∧
      ∀ {start : World}, start.Reachable → ∀ commands : List Command,
        (start.times commands).Pairwise ClockTime.NotAfter →
        (∀ time ∈ start.times commands, time.instant.HasShownYear) →
          let pieces := start.pieces commands
          start.acceptedAll commands = pieces.flatMap Piece.accepted ∧
            (∀ line entry message destination bytes,
              .line line entry message ∈ pieces →
              (Piece.line line entry message).stamp? destination =
                  some bytes →
                ∃ now, line.clock.read = .ok now ∧
                  bytes = now.timestamp) ∧
            ∀ destination,
              (pieces.filterMap (Piece.stamp? destination)).Pairwise
                fun earlier later => earlier ≤ later := by
  constructor
  · intro firstSeconds secondSeconds firstNanoseconds secondNanoseconds first
      second firstFound secondFound firstShown secondShown
    obtain ⟨rfl, rfl⟩ := Instant.eq_of_of? firstFound
    obtain ⟨rfl, rfl⟩ := Instant.eq_of_of? secondFound
    exact ⟨Instant.timestamp_le firstShown secondShown,
      Instant.timestamp_eq_iff firstShown secondShown⟩
  · intro start reachable commands forward shown pieces
    obtain ⟨accepted, clock, rests⟩ := reachable.hasPieces commands
    obtain ⟨begins, ordered⟩ := clock.begins forward
    refine ⟨accepted, ?_, ?_⟩
    · intro line entry message destination bytes member received
      exact Piece.stamp?_eq_some (rests _ member) received
    · intro destination
      rw [List.pairwise_filterMap] at ordered ⊢
      apply ordered.imp_of_mem
      intro earlier later inEarlier inLater timesOrdered bytes received others
        receivedLater
      obtain ⟨time, begun, now, reads, same⟩ :=
        Piece.begins_of_stamp? (rests earlier inEarlier) received
      obtain ⟨timeLater, begunLater, nowLater, readsLater, sameLater⟩ :=
        Piece.begins_of_stamp? (rests later inLater) receivedLater
      have atTime := begins time
        (List.mem_filterMap.mpr ⟨earlier, inEarlier, begun⟩)
      have atTimeLater := begins timeLater
        (List.mem_filterMap.mpr ⟨later, inLater, begunLater⟩)
      rw [same, sameLater, ClockTime.read_eq reads,
        ClockTime.read_eq readsLater]
      exact Instant.timestamp_le (shown time atTime)
        (shown timeLater atTimeLater) (timesOrdered time begun _ begunLater)

/-- The leap second at the end of 2016 comes before the year after it, and a
line comes after the lines that its message logs, also if the clock is set in
between. -/
theorem timestamps_sort_across_nesting :
    let leap : Instant := { seconds := 1483228799, nanoseconds := 1500000000 }
    let year : Instant := { seconds := 1483228800, nanoseconds := 0 }
    let host : Host := { processId := 7, terminal := false }
    let start := World.fresh (Surroundings.start host Environment.empty)
    let entry := Entry.untagged .info { file := none, line := 1 }
    let inner : Part := .calls (.log entry (.literal "inner"))
    let later : ClockTime := { seconds := 7, nanoseconds := 250000000 }
    let commands : List Command :=
      [.enable, .setTimestamps true, .setDestination (.sink "first"),
        .log entry (.rendered [inner, .calls (.setClock later), .text "out"]),
        .log entry (.literal "last")]
    let stamps := (start.pieces commands).filterMap
      (Piece.stamp? (.sink "first"))
    leap.timestamp ≤ year.timestamp ∧
      stamps.Pairwise (fun earlier later => earlier ≤ later) ∧
      stamps = [Text.utf8 "[1970-01-01T00:00:00.000] ",
        Text.utf8 "[1970-01-01T00:00:07.250] ",
        Text.utf8 "[1970-01-01T00:00:07.250] "] := by
  intro leap year host start entry inner later commands stamps
  have leapFound : Instant.of? 1483228799 1500000000 = some leap := by
    decide +kernel
  have yearFound : Instant.of? 1483228800 0 = some year := by
    decide +kernel
  have times : start.times commands = [ClockTime.epoch, later] := by
    decide +kernel
  obtain ⟨ordered, runs⟩ := timestamps_sort_chronologically
  obtain ⟨_, _, sorted⟩ := runs (World.Reachable.fresh _) commands
    (by rw [times]; decide +kernel) (by rw [times]; decide +kernel)
  refine ⟨?_, sorted (.sink "first"), by decide +kernel⟩
  exact (ordered leapFound yearFound (by decide +kernel)
    (by decide +kernel)).1 (.inl (by decide))

end LeveledLog
