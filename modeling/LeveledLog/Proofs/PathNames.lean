/-
What a path ends in.

The last segment of a list holds no separator, and what stands before it is
empty or ends in one.  A search from the right finds it, and no list has two.
A call site shows the last segment of its path, or a placeholder if there is
no path.  The separators of paths are ASCII characters, whose bytes occur in
no other character, so that the bytes of a path end in the same segment.
-/

import LeveledLog.Entry
import LeveledLog.Proofs.Truncation
import Mathlib.Data.List.DropRight

namespace LeveledLog

/-! ### Behind the last separator -/

namespace Text

section

variable {α : Type} {separators whole segment : List α}

def Ended (separators before : List α) : Prop :=
  ∀ last ∈ before.getLast?, last ∈ separators

def Undivided (separators segment : List α) : Prop :=
  ∀ item ∈ segment, item ∉ separators

/-- The part of a list behind its last separator, which is the whole list if
it holds no separator. -/
structure LastSegment (separators whole segment : List α) : Prop where
  undivided : Undivided separators segment
  behind : ∃ before, whole = before ++ segment ∧ Ended separators before

private theorem ended_nil : Ended separators [] := by
  intro last impossible
  cases impossible

variable [DecidableEq α]

instance (separators before : List α) : Decidable (Ended separators before) :=
  inferInstanceAs (Decidable (∀ last ∈ before.getLast?, _))

instance (separators segment : List α) :
    Decidable (Undivided separators segment) :=
  inferInstanceAs (Decidable (∀ item ∈ segment, _))

/-- What a search from the right collects before it meets a separator is the
last segment. -/
private theorem lastSegment_rtakeWhile (separators whole : List α) :
    LastSegment separators whole
      (whole.rtakeWhile fun item => !separators.contains item) where
  undivided item member := by
    simpa using List.mem_rtakeWhile_imp member
  behind := by
    refine ⟨_, List.rdropWhile_append_rtakeWhile.symm, ?_⟩
    intro last ends
    obtain ⟨given, same⟩ := List.mem_getLast?_eq_getLast ends
    have stops := List.rdropWhile_last_not _ _ given
    rw [← same] at stops
    simpa using stops

private theorem LastSegment.found
    (last : LastSegment separators whole segment) :
    (whole.rtakeWhile fun item => !separators.contains item) = segment := by
  obtain ⟨undivided, before, same, ended⟩ := last
  subst same
  induction segment using List.reverseRecOn with
  | nil =>
      rw [List.append_nil, List.rtakeWhile_eq_nil_iff]
      intro given
      have separates := ended _ (List.getLast?_eq_some_getLast given)
      simpa using separates
  | append_singleton segment item inductionHypothesis =>
      have inside := undivided item (List.mem_append_right _ (.head _))
      rw [← List.append_assoc, List.rtakeWhile_concat_pos, inductionHypothesis]
      · intro earlier member
        exact undivided earlier (List.mem_append_left _ member)
      · simpa using inside

theorem LastSegment.unique {other : List α}
    (last : LastSegment separators whole segment)
    (lastToo : LastSegment separators whole other) : segment = other := by
  rw [← last.found, lastToo.found]

end

/-! ### The bytes of a last segment -/

/-- The only byte of an ASCII character is its code. -/
private theorem toNat_of_mem_encodeChar {character : Char} {byte : UInt8}
    (ascii : character.toNat < 128)
    (member : byte ∈ String.utf8EncodeChar character) :
    byte.toNat = character.toNat := by
  have single : character.utf8Size = 1 :=
    Char.utf8Size_eq_one_iff.mpr
      (UInt32.le_iff_toNat_le.mpr (Nat.le_of_lt_succ ascii))
  rw [String.utf8EncodeChar_eq_singleton single, List.mem_singleton] at member
  rw [member, UInt32.toNat_toUInt8]
  exact Nat.mod_eq_of_lt (Nat.lt_trans ascii (by decide))

private theorem eq_of_mem_encodeChar {simple character : Char} {byte : UInt8}
    (ascii : simple.toNat < 128)
    (only : byte ∈ String.utf8EncodeChar simple)
    (shared : byte ∈ String.utf8EncodeChar character) :
    character = simple := by
  have code := toNat_of_mem_encodeChar ascii only
  by_cases outside : 128 ≤ character.toNat
  · have high := encodeChar_high outside byte shared
    omega
  · have sameCode :=
      toNat_of_mem_encodeChar (Nat.lt_of_not_le outside) shared
    exact Char.toNat_inj.mp (sameCode.symm.trans code)

variable {separators : List Char}

private theorem Undivided.encoded {segment : List Char}
    (ascii : ∀ separator ∈ separators, separator.toNat < 128)
    (undivided : Undivided separators segment) :
    Undivided (encode separators) (encode segment) := by
  intro byte inside separates
  obtain ⟨character, member, spells⟩ := List.mem_flatMap.mp inside
  obtain ⟨separator, among, spelled⟩ := List.mem_flatMap.mp separates
  have same := eq_of_mem_encodeChar (ascii separator among) spelled spells
  rw [← same] at among
  exact undivided character member among

private theorem Ended.encoded {before : List Char}
    (ended : Ended separators before) :
    Ended (encode separators) (encode before) := by
  rcases before.eq_nil_or_concat with empty | ⟨others, last, same⟩
  · subst empty
    exact ended_nil
  · rw [List.concat_eq_append] at same
    subst same
    intro byte ends
    have among : last ∈ separators := ended last List.getLast?_concat
    have spelled : String.utf8EncodeChar last ≠ [] :=
      String.utf8EncodeChar_ne_nil
    rw [encode_append, encode, encode, List.flatMap_singleton,
      List.getLast?_append_of_ne_nil _ spelled] at ends
    exact List.mem_flatMap.mpr ⟨last, among, List.mem_of_getLast? ends⟩

/-- If the separators are ASCII characters, the bytes of the last segment are
the last segment of the bytes, so that no character is cut. -/
theorem LastSegment.encoded {whole segment : List Char}
    (ascii : ∀ separator ∈ separators, separator.toNat < 128)
    (last : LastSegment separators whole segment) :
    LastSegment (encode separators) (encode whole) (encode segment) := by
  obtain ⟨undivided, before, same, ended⟩ := last
  refine ⟨undivided.encoded ascii, encode before, ?_, ended.encoded⟩
  rw [same, encode_append]

end Text

/-! ### The file that a call site shows -/

namespace CallSite

open Text (Ended LastSegment Undivided)

def separators : List Char :=
  ['/', '\x5c']

private theorem separators_ascii :
    ∀ separator ∈ separators, separator.toNat < 128 := by
  rw [separators, List.forall_mem_cons, List.forall_mem_singleton]
  decide

private theorem separates_eq (character : Char) :
    separates character = separators.contains character := by
  rw [separators, List.contains_cons, List.contains_cons, List.contains_nil,
    Bool.or_false]
  rfl

private theorem lastSegment_eq (path : List Char) :
    lastSegment path =
      path.rtakeWhile fun character => !separators.contains character := by
  simp only [lastSegment, separates_eq, List.rtakeWhile]

variable {site : CallSite} {path name : String}

theorem basename_eq_iff (known : site.file = some path) (given : path ≠ "") :
    site.basename = name ↔
      LastSegment separators path.toList name.toList := by
  have shown : site.basename.toList =
      path.toList.rtakeWhile fun character =>
        !separators.contains character := by
    simp only [basename, known, if_neg given, String.toList_ofList,
      lastSegment_eq]
  constructor
  · intro same
    rw [← same, shown]
    exact Text.lastSegment_rtakeWhile separators path.toList
  · intro last
    apply String.toList_inj.mp
    rw [shown, last.found]

private theorem utf8_basename_eq_iff (known : site.file = some path)
    (given : path ≠ "") {bytes : Bytes} :
    Text.utf8 site.basename = bytes ↔
      LastSegment (Text.encode separators) (Text.utf8 path) bytes := by
  have last := ((basename_eq_iff known given).mp rfl).encoded separators_ascii
  constructor
  · intro same
    rw [← same]
    exact last
  · intro lastToo
    exact last.unique lastToo

/-- Nothing is shown of a path that ends in a separator. -/
theorem basename_eq_empty_iff (known : site.file = some path)
    (given : path ≠ "") :
    site.basename = "" ↔
      ∃ separator ∈ separators, path.toList.getLast? = some separator := by
  rw [basename_eq_iff known given]
  constructor
  · rintro ⟨_, before, same, ended⟩
    rw [String.toList_empty, List.append_nil] at same
    subst same
    have some : path.toList ≠ [] := String.toList_eq_nil_iff.not.mpr given
    have ends := List.getLast?_eq_some_getLast some
    exact ⟨_, ended _ ends, ends⟩
  · rintro ⟨separator, among, ends⟩
    refine ⟨List.forall_mem_nil _, path.toList, (List.append_nil _).symm, ?_⟩
    intro last endsToo
    rw [Option.mem_def, ends] at endsToo
    cases endsToo
    exact among

/-- The directory of a path does not matter. -/
theorem basename_append {directory : String}
    (known : site.file = some (directory ++ name))
    (ended : Ended separators directory.toList)
    (undivided : Undivided separators name.toList) (given : name ≠ "") :
    site.basename = name := by
  have path : directory ++ name ≠ "" := by
    intro empty
    exact given (String.append_eq_empty_iff.mp empty).2
  rw [basename_eq_iff known path]
  exact ⟨undivided, directory.toList, String.toList_append, ended⟩

theorem basename_of_unknown
    (unknown : site.file = none ∨ site.file = some "") :
    site.basename = unknownFile := by
  rcases unknown with none | empty
  · simp [basename, none]
  · simp [basename, empty]

private theorem known_or_unknown (site : CallSite) :
    (∃ path, site.file = some path ∧ path ≠ "") ∨
      (site.file = none ∨ site.file = some "") := by
  cases file : site.file with
  | none =>
      exact .inr (.inl rfl)
  | some path =>
      by_cases empty : path = ""
      · exact .inr (.inr (congrArg some empty))
      · exact .inl ⟨path, rfl, empty⟩

private theorem basename_undivided (site : CallSite) :
    Undivided separators site.basename.toList := by
  rcases site.known_or_unknown with ⟨path, known, given⟩ | unknown
  · exact ((basename_eq_iff known given).mp rfl).undivided
  · rw [basename_of_unknown unknown]
    decide

/-- What a call site shows is shown again if it is taken for a path. -/
theorem basename_of_basename {other : CallSite}
    (known : other.file = some site.basename) (given : site.basename ≠ "") :
    other.basename = site.basename := by
  have joined : other.file = some ("" ++ site.basename) := by
    rw [known, String.empty_append]
  exact basename_append joined Text.ended_nil site.basename_undivided given

private theorem basename_eq_placeholder_iff :
    site.basename = unknownFile ↔
      site.file = none ∨ site.file = some "" ∨
        ∃ path, site.file = some path ∧
          LastSegment separators path.toList unknownFile.toList := by
  constructor
  · intro shown
    rcases site.known_or_unknown with ⟨path, known, given⟩ | none | empty
    · exact .inr (.inr ⟨path, known, (basename_eq_iff known given).mp shown⟩)
    · exact .inl none
    · exact .inr (.inl empty)
  · rintro (none | empty | ⟨path, known, last⟩)
    · exact basename_of_unknown (.inl none)
    · exact basename_of_unknown (.inr empty)
    · by_cases empty : path = ""
      · subst empty
        exact basename_of_unknown (.inr known)
      · exact (basename_eq_iff known empty).mpr last

/-- What a call site shows of a path is the only text that holds no separator
and stands behind nothing or behind a separator; its bytes are found in the
same way among those of the path, so that no character is cut.  It is empty
just for a path that ends in a separator.  Without a path the placeholder is
shown, and else only if it is the last segment itself.  A name is shown without
the directory that it stands in, whatever the separators in that, and alone it
is shown as it is. -/
theorem basename_is_last_segment :
    (∀ (site : CallSite) (path : String),
      site.file = some path → path ≠ "" →
        (∀ name, site.basename = name ↔
          LastSegment separators path.toList name.toList) ∧
        (∀ bytes, Text.utf8 site.basename = bytes ↔
          LastSegment (Text.encode separators) (Text.utf8 path) bytes) ∧
        (site.basename = "" ↔
          ∃ separator ∈ separators,
            path.toList.getLast? = some separator)) ∧
      (∀ site : CallSite, site.basename = "<unknown>" ↔
        site.file = none ∨ site.file = some "" ∨
          ∃ path, site.file = some path ∧
            LastSegment separators path.toList "<unknown>".toList) ∧
      (∀ (directory name : String) (line : UInt32),
        Ended separators directory.toList →
        Undivided separators name.toList → name ≠ "" →
          basename { file := some (directory ++ name), line := line } =
            name) ∧
      ∀ (site : CallSite) (line : UInt32), site.basename ≠ "" →
        basename { file := some site.basename, line := line } =
          site.basename := by
  refine ⟨?_, ?_, ?_, ?_⟩
  · intro site path known given
    exact ⟨fun name => basename_eq_iff known given,
      fun bytes => utf8_basename_eq_iff known given,
      basename_eq_empty_iff known given⟩
  · intro site
    exact basename_eq_placeholder_iff
  · intro directory name line ended undivided given
    exact basename_append rfl ended undivided given
  · intro site line given
    exact basename_of_basename rfl given

/-- Two letters whose codes end in those of the separators are kept whole
behind a directory that mixes the separators. -/
theorem basename_behind_mixed_separators :
    let site : CallSite :=
      { file := some "C:\x5csrc/\x5cnet/įŜ.rs", line := 7 }
    site.basename = "įŜ.rs" ∧
      Text.utf8 site.basename =
        [0xC4, 0xAF, 0xC5, 0x9C, 0x2E, 0x72, 0x73] ∧
      basename { file := some site.basename, line := 8 } = "įŜ.rs" ∧
      basename { file := some "src/net\x5c", line := 9 } = "" ∧
      basename { file := some "src/<unknown>", line := 9 } = "<unknown>" := by
  intro site
  obtain ⟨ofPaths, placeholders, ofNames, again⟩ := basename_is_last_segment
  have shown : site.basename = "įŜ.rs" :=
    ofNames "C:\x5csrc/\x5cnet/" "įŜ.rs" 7 (by decide) (by decide) (by decide)
  have given : site.basename ≠ "" := by
    rw [shown]
    decide
  refine ⟨shown, ?_, (again site 8 given).trans shown, ?_, ?_⟩
  · obtain ⟨_, inBytes, _⟩ := ofPaths site _ rfl (by decide)
    apply (inBytes _).mpr
    exact ⟨by decide +kernel, Text.utf8 "C:\x5csrc/\x5cnet/",
      by decide +kernel, by decide +kernel⟩
  · obtain ⟨_, _, empty⟩ :=
      ofPaths { file := some "src/net\x5c", line := 9 } "src/net\x5c" rfl
        (by decide)
    exact empty.mpr ⟨'\x5c', by decide, by decide⟩
  · apply (placeholders _).mpr
    refine .inr (.inr ⟨_, rfl, by decide, "src/".toList, ?_, by decide⟩)
    decide

end CallSite

end LeveledLog
