/-
Inline texts as starts of texts.

What an inline text holds of a text is the longest start of it that fits, which
is all of it if it fits whole.  Cutting in two steps is cutting once, and the
bytes after the held ones are zero, so that a text which is taken out of an
inline text and put back gives the same inline text.  The line prefix of a
logger is such a text.
-/

import LeveledLog.Proofs.PrefixHistory
import LeveledLog.Proofs.Truncation

namespace LeveledLog

/-! ### Longest starts -/

namespace Text.LongestStart

variable {room : Nat} {text kept : String}

theorem unique {other : String} (longest : LongestStart room text kept)
    (longestToo : LongestStart room text other) : kept = other := by
  have shorter := longestToo.longest kept longest.starts longest.fits
  have longer := longest.longest other longestToo.starts longestToo.fits
  exact String.toList_inj.mp (shorter.eq_of_length_le longer.length_le)

/-- A longest start of a longest start is one of the whole text. -/
theorem trans {smaller : Nat} {short : String}
    (outer : LongestStart room text kept)
    (inner : LongestStart smaller kept short) (less : smaller ≤ room) :
    LongestStart smaller text short where
  starts := inner.starts.trans outer.starts
  fits := inner.fits
  longest other starts fits :=
    inner.longest other
      (outer.longest other starts (Nat.le_trans fits less)) fits

theorem eq_iff (longest : LongestStart room text kept) :
    kept = text ↔ size text ≤ room := by
  constructor
  · intro whole
    rw [← whole]
    exact longest.fits
  · exact longest.eq_of_fits

/-- What is left free is less than the next character takes up. -/
theorem min_le (longest : LongestStart room text kept) :
    min (size text) room ≤ size kept + 3 := by
  obtain ⟨rest, split⟩ := longest.starts
  cases rest with
  | nil =>
      rw [List.append_nil] at split
      rw [String.toList_inj.mp split]
      omega
  | cons next others =>
      have narrow := Char.utf8Size_le_four next
      have longer : size (String.ofList (kept.toList ++ [next])) =
          size kept + next.utf8Size := by
        rw [size, utf8_ofList, encode_append, List.length_append]
        simp [encode, size, utf8]
      have starts : (String.ofList (kept.toList ++ [next])).toList <+:
          text.toList := by
        rw [String.toList_ofList, ← split]
        exact ⟨others, by simp⟩
      by_cases fits : size kept + next.utf8Size ≤ room
      · have shorter := longest.longest _ starts (le_of_eq_of_le longer fits)
        rw [String.toList_ofList] at shorter
        have lengths := shorter.length_le
        rw [List.length_append, List.length_singleton] at lengths
        omega
      · omega

private theorem utf8_prefix (longest : LongestStart room text kept) :
    utf8 kept <+: utf8 text := by
  obtain ⟨rest, split⟩ := longest.starts
  refine ⟨encode rest, ?_⟩
  rw [utf8, utf8, ← split, List.flatMap_append]
  rfl

end Text.LongestStart

/-! ### What an inline text holds -/

namespace InlineText

variable {capacity : Nat}

private theorem content_length (held : InlineText capacity) :
    held.content.length = held.length := by
  have bound := held.length_le
  simp only [content, List.length_take, Vector.length_toList]
  omega

theorem truncating_spec (capacity : Nat) (text : String) :
    Text.LongestStart (room capacity) text
        (truncating text : InlineText capacity).text ∧
      (truncating text : InlineText capacity).content =
        Text.utf8 (truncating text : InlineText capacity).text := by
  obtain ⟨kept, longest, spelled⟩ :
      ∃ kept, Text.LongestStart (room capacity) text kept ∧
        (truncating text : InlineText capacity).content = Text.utf8 kept :=
    exists_longestStart text
  have shows : (truncating text : InlineText capacity).text = kept := by
    rw [InlineText.text, spelled, Text.text?_utf8]
    rfl
  rw [shows]
  exact ⟨longest, spelled⟩

/-- The bytes that are not in use are zero. -/
theorem truncating_bytes (text : String) {place : Nat}
    (inside : place < capacity) :
    (truncating text : InlineText capacity).bytes[place] =
      (truncating text : InlineText capacity).content.getD place 0 := by
  rw [content_take, List.getD_eq_getElem?_getD, List.getElem?_take]
  simp only [truncating, Vector.getElem_ofFn, List.getD_eq_getElem?_getD]
  split
  · rfl
  · rfl

private theorem truncating_congr {first second : String}
    (same : (truncating first : InlineText capacity).content =
      (truncating second : InlineText capacity).content) :
    (truncating first : InlineText capacity) = truncating second := by
  have lengths : (truncating first : InlineText capacity).length =
      (truncating second : InlineText capacity).length := by
    rw [← content_length, same, content_length]
  have bytes : (truncating first : InlineText capacity).bytes =
      (truncating second : InlineText capacity).bytes := by
    apply Vector.ext
    intro place inside
    rw [truncating_bytes first inside, truncating_bytes second inside, same]
  revert lengths bytes
  rcases (truncating first : InlineText capacity) with ⟨bytes, length, _⟩
  rcases (truncating second : InlineText capacity) with ⟨bytesToo, _, _⟩
  intro sameLength sameBytes
  cases sameLength
  cases sameBytes
  rfl

theorem truncating_text {smaller : Nat} (text : String)
    (less : smaller ≤ capacity) :
    (truncating (truncating text : InlineText capacity).text :
        InlineText smaller) = truncating text := by
  obtain ⟨outer, _⟩ := truncating_spec capacity text
  obtain ⟨inner, spelled⟩ := truncating_spec smaller
    (truncating text : InlineText capacity).text
  obtain ⟨once, spelledOnce⟩ := truncating_spec smaller text
  apply truncating_congr
  rw [spelled, spelledOnce]
  exact congrArg Text.utf8
    ((outer.trans inner (Nat.sub_le_sub_right less 1)).unique once)

private theorem holds_truncating (text other : String) :
    (truncating text : InlineText capacity).holds other = true ↔
      (truncating text : InlineText capacity).text = other := by
  rw [holds, (truncating_spec capacity text).2, beq_iff_eq, Text.utf8_eq_iff]

end InlineText

/-! ### The line prefix of a logger -/

private theorem World.set_get (world : World) (cell : Cell) :
    world.set cell (world.get cell) = world := by
  cases cell with
  | _ =>
      rfl

private theorem World.Reachable.linePrefix_eq {world : World}
    (reachable : world.Reachable) :
    ∃ text, world.get .linePrefix = InlineText.truncating text := by
  induction reachable with
  | fresh surroundings =>
      exact ⟨defaultPrefix, rfl⟩
  | call reachable command inductionHypothesis =>
      obtain ⟨text, before⟩ := inductionHypothesis
      have after := command.setsPrefix reachable
      unfold Script.SetsPrefix at after
      rw [before, prefixAfter_eq] at after
      exact ⟨_, after⟩

namespace Logger

variable {world : World}

private theorem run_setPrefix_prefixText (free : world.configLock.holder = none)
    (text : String) :
    ((setPrefix text >>= fun _ => prefixText).run world).ending =
      .returned (InlineText.truncating text : LinePrefix).text := by
  have freeAfter : (world.set .linePrefix
      (InlineText.truncating text)).configLock.holder = none := free
  rw [Script.run_bind, run_setPrefix free]
  simp only [Outcome.andThen, run_prefixText freeAfter, Outcome.after,
    World.get_set_same]

/-- Setting the prefix to what it is changes nothing. -/
theorem run_prefixText_setPrefix (reachable : world.Reachable) :
    (prefixText >>= setPrefix).run world =
      { ending := .returned (), world := world, accepted := [] } := by
  have free := reachable.atRest.configFree
  obtain ⟨text, current⟩ := reachable.linePrefix_eq
  have same : InlineText.truncating (world.get .linePrefix).text =
      world.get .linePrefix := by
    rw [current]
    exact InlineText.truncating_text text (Nat.le_refl _)
  rw [Script.run_bind, run_prefixText free]
  simp only [Outcome.andThen, run_setPrefix free, Outcome.after, same,
    World.set_get, List.append_nil]

end Logger

/-! ### Cutting a text -/

/-- An inline text of any capacity holds the longest start of its text that
ends where a character ends and leaves one byte of the capacity free.  It falls
short of that by three bytes at most, is the whole text if that fits and only
then, equals just the text that it holds, and does not depend on earlier cuts
to more.  The line prefix of a logger is such a start of what it was set to,
and setting it to itself changes nothing. -/
theorem cut_is_longest_start (capacity : Nat) (text : String) :
    let held : InlineText capacity := InlineText.truncating text
    (Text.text? held.content = some held.text ∧
        held.content <+: Text.utf8 text) ∧
      (Text.LongestStart (capacity - 1) text held.text ∧
        min (Text.size text) (capacity - 1) ≤ Text.size held.text + 3) ∧
      (held.text = text ↔ Text.size text ≤ capacity - 1) ∧
      (((InlineText.fitting? text : Option (InlineText capacity)).isSome =
            true ↔ Text.size text ≤ capacity - 1) ∧
        ∀ whole : InlineText capacity,
          InlineText.fitting? text = some whole → whole.text = text) ∧
      (∀ other, held.holds other = true ↔ held.text = other) ∧
      (∀ smaller ≤ capacity,
        (InlineText.truncating held.text : InlineText smaller) =
          InlineText.truncating text) ∧
      ∀ world : World, world.Reachable →
        ((Logger.setPrefix text >>= fun _ => Logger.prefixText).run
            world).ending =
            .returned (InlineText.truncating text : LinePrefix).text ∧
          Text.LongestStart 63 text
            (InlineText.truncating text : LinePrefix).text ∧
          (Logger.prefixText >>= Logger.setPrefix).run world =
            { ending := .returned (), world := world, accepted := [] } := by
  intro held
  obtain ⟨longest, spelled⟩ :=
    InlineText.truncating_spec capacity text
  have fitting : (InlineText.fitting? text : Option (InlineText capacity)) =
      if Text.size text ≤ capacity - 1 then some held else none := rfl
  refine ⟨⟨?_, ?_⟩, ⟨longest, longest.min_le⟩, longest.eq_iff, ⟨?_, ?_⟩,
    InlineText.holds_truncating text,
    fun smaller less => InlineText.truncating_text text less, ?_⟩
  · rw [spelled, Text.text?_utf8]
  · rw [spelled]
    exact longest.utf8_prefix
  · rw [fitting]
    split
    · rename_i fits
      exact iff_of_true rfl fits
    · rename_i tooLong
      exact iff_of_false (by simp) tooLong
  · intro whole holds
    rw [fitting] at holds
    split at holds
    · rename_i fits
      cases holds
      exact longest.eq_iff.mpr fits
    · cases holds
  · intro world reachable
    exact ⟨Logger.run_setPrefix_prefixText reachable.atRest.configFree text,
      (InlineText.truncating_spec prefixCapacity text).1,
      Logger.run_prefixText_setPrefix reachable⟩

/-- A cut before a character of two bytes, and a smaller one inside another
such character. -/
theorem cut_before_wide_characters :
    let held : InlineText 8 := InlineText.truncating "aébcdéé"
    let world := World.fresh
      (Surroundings.start { processId := 1, terminal := false }
        Environment.empty)
    held.text = "aébcd" ∧
      (InlineText.truncating held.text : InlineText 3) =
        InlineText.truncating "aébcdéé" ∧
      (InlineText.truncating held.text : InlineText 3).text = "a" ∧
      (Logger.prefixText >>= Logger.setPrefix).run world =
        { ending := .returned (), world := world, accepted := [] } := by
  intro held world
  obtain ⟨_, _, _, _, shows, again, onLoggers⟩ :=
    cut_is_longest_start 8 "aébcdéé"
  obtain ⟨_, _, _, _, showsSmaller, _, _⟩ :=
    cut_is_longest_start 3 held.text
  have spells : held.text = "aébcd" :=
    (shows "aébcd").mp (by decide +kernel)
  refine ⟨spells, again 3 (by decide), ?_,
    (onLoggers world (.fresh _)).2.2⟩
  rw [spells] at showsSmaller ⊢
  exact (showsSmaller "a").mp (by decide +kernel)

end LeveledLog
