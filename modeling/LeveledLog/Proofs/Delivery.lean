/-
Deliveries through a writer that may take only a part.

A delivery offers, call after call, what the writer has not accepted yet.  What
it accepts in all is a start of what is to be delivered, and is all of it
unless the writer accepts nothing or fails, which ends the delivery at once.
An interruption costs one more call and nothing else.
-/

import LeveledLog.Output.Retry
import Mathlib.Data.List.Basic

namespace LeveledLog.Retry

/-! ### What a writer has accepted after some calls -/

def Answer.stops : Answer → Bool
  | .accepts most => most == 0
  | .interrupted => false
  | .fails => true

/-- The part of an offer that is accepted with an answer, or by a writer that
has no answer left. -/
def partOf (offer : Bytes) : Option Answer → Bytes
  | some (.accepts most) => offer.take most
  | some .interrupted => []
  | some .fails => []
  | none => offer

/-- What a writer has accepted after a number of calls, each of which offers
what it had not accepted before. -/
def sent (answers : List Answer) (bytes : Bytes) : (calls : Nat) → Bytes
  | 0 => []
  | calls + 1 =>
      sent answers bytes calls ++
        partOf (bytes.drop (sent answers bytes calls).length) answers[calls]?

def remaining (answers : List Answer) (bytes : Bytes) (calls : Nat) : Bytes :=
  bytes.drop (sent answers bytes calls).length

private theorem partOf_starts (offer : Bytes) (answer : Option Answer) :
    partOf offer answer <+: offer := by
  cases answer with
  | none =>
      exact List.prefix_rfl
  | some answer =>
      cases answer with
      | accepts most =>
          exact List.take_prefix most offer
      | interrupted | fails =>
          exact List.nil_prefix

private theorem partOf_of_stops {answer : Answer} (stops : answer.stops = true)
    (offer : Bytes) : partOf offer (some answer) = [] := by
  cases answer with
  | accepts most =>
      have none : most = 0 := by simpa [Answer.stops] using stops
      rw [partOf, none, List.take_zero]
  | interrupted | fails =>
      rfl

private theorem sent_starts (answers : List Answer) (bytes : Bytes)
    (calls : Nat) : sent answers bytes calls <+: bytes := by
  induction calls with
  | zero =>
      exact List.nil_prefix
  | succ calls inductionHypothesis =>
      have whole := List.prefix_iff_eq_append.mp inductionHypothesis
      have longer := (List.prefix_append_right_inj
        (sent answers bytes calls)).mpr
          (partOf_starts (bytes.drop (sent answers bytes calls).length)
            answers[calls]?)
      rw [whole] at longer
      exact longer

private theorem sent_append_remaining (answers : List Answer) (bytes : Bytes)
    (calls : Nat) :
    sent answers bytes calls ++ remaining answers bytes calls = bytes :=
  List.prefix_iff_eq_append.mp (sent_starts answers bytes calls)

private theorem sent_cons (answer : Answer) (answers : List Answer)
    (bytes : Bytes) (calls : Nat) :
    sent (answer :: answers) bytes (calls + 1) =
      partOf bytes (some answer) ++
        sent answers (bytes.drop (partOf bytes (some answer)).length)
          calls := by
  induction calls with
  | zero =>
      simp [sent]
  | succ calls inductionHypothesis =>
      rw [sent, inductionHypothesis, List.getElem?_cons_succ, sent,
        List.length_append, ← List.drop_drop, List.append_assoc]

private theorem remaining_cons (answer : Answer) (answers : List Answer)
    (bytes : Bytes) (calls : Nat) :
    remaining (answer :: answers) bytes (calls + 1) =
      remaining answers (bytes.drop (partOf bytes (some answer)).length)
        calls := by
  unfold remaining
  rw [sent_cons, List.length_append, ← List.drop_drop]

/-! ### One call of a delivery -/

private theorem deliver_nil (answers : List Answer) :
    deliver answers [] = Report.idle answers := by
  cases answers with
  | nil | cons =>
      rfl

private theorem deliver_unscripted {bytes : Bytes} (some : bytes ≠ []) :
    deliver [] bytes = (Report.idle []).after bytes bytes := by
  cases bytes with
  | nil =>
      exact absurd rfl some
  | cons =>
      rfl

private theorem deliver_cons {bytes : Bytes} (remains : bytes ≠ [])
    (answer : Answer) (answers : List Answer) :
    deliver (answer :: answers) bytes =
      if answer.stops then (Report.idle answers).after bytes []
      else
        (deliver answers
            (bytes.drop (partOf bytes (some answer)).length)).after bytes
          (partOf bytes (some answer)) := by
  cases bytes with
  | nil =>
      exact absurd rfl remains
  | cons byte bytes =>
      cases answer with
      | interrupted | fails =>
          rfl
      | accepts most =>
          have dropped : (byte :: bytes).drop
              (partOf (byte :: bytes) (some (.accepts most))).length =
                (byte :: bytes).drop most := by
            rw [partOf, List.length_take, ← List.drop_eq_drop_min]
          rw [dropped, Answer.stops, beq_eq_decide]
          simp only [deliver, decide_eq_true_eq]
          rfl

/-! ### Whole deliveries -/

/-- A report tells what a delivery to a writer with the listed answers does:
which calls it makes, what it offers in each, and when it ends. -/
structure Report.Tells (report : Report) (answers : List Answer)
    (bytes : Bytes) : Prop where
  few : report.offers.length ≤ answers.length + 1
  unused : report.unused = answers.drop report.offers.length
  starts : report.offers.length = 0 ↔ bytes = []
  offered : report.offers =
    (List.range report.offers.length).map (remaining answers bytes)
  given : ∀ offer ∈ report.offers, offer ≠ []
  accepted : report.accepted = sent answers bytes report.offers.length
  ends : ∀ call < report.offers.length,
    call + 1 = report.offers.length ↔
      remaining answers bytes (call + 1) = [] ∨
        answers[call]?.any Answer.stops = true

namespace Report.Tells

variable {answers : List Answer} {bytes : Bytes}

private theorem idle (answers : List Answer) :
    (idle answers).Tells answers [] where
  few := Nat.zero_le _
  unused := rfl
  starts := ⟨fun _ => rfl, fun _ => rfl⟩
  offered := rfl
  given _ impossible := by cases impossible
  accepted := rfl
  ends _ impossible := absurd impossible (Nat.not_lt_zero _)

private theorem unscripted (remains : bytes ≠ []) :
    ((Report.idle []).after bytes bytes).Tells [] bytes where
  few := Nat.le_refl 1
  unused := rfl
  starts := iff_of_false (Nat.succ_ne_zero _) remains
  offered := rfl
  given offer member := by
    rw [List.mem_singleton.mp member]
    exact remains
  accepted := (List.append_nil bytes).trans rfl
  ends call only := by
    have first : call = 0 := Nat.lt_one_iff.mp only
    subst first
    refine iff_of_true rfl (.inl ?_)
    exact List.drop_length

private theorem stopped (remains : bytes ≠ []) {answer : Answer}
    (stops : answer.stops = true) (answers : List Answer) :
    ((Report.idle answers).after bytes []).Tells (answer :: answers)
      bytes where
  few := Nat.succ_le_succ (Nat.zero_le _)
  unused := rfl
  starts := iff_of_false (Nat.succ_ne_zero _) remains
  offered := rfl
  given offer member := by
    rw [List.mem_singleton.mp member]
    exact remains
  accepted := by
    change [] = sent (answer :: answers) bytes 1
    rw [sent_cons, partOf_of_stops stops]
    rfl
  ends call only := by
    have first : call = 0 := Nat.lt_one_iff.mp only
    subst first
    exact iff_of_true rfl (.inr stops)

private theorem goesOn (remains : bytes ≠ []) {answer : Answer}
    (goes : answer.stops = false) {report : Report}
    (tells : report.Tells answers
      (bytes.drop (partOf bytes (some answer)).length)) :
    (report.after bytes (partOf bytes (some answer))).Tells
      (answer :: answers) bytes where
  few := Nat.succ_le_succ tells.few
  unused := tells.unused
  starts := iff_of_false (Nat.succ_ne_zero _) remains
  offered := by
    have later : ∀ call, remaining (answer :: answers) bytes (call + 1) = _ :=
      remaining_cons answer answers bytes
    change bytes :: report.offers =
      (List.range (report.offers.length + 1)).map _
    rw [List.range_succ_eq_map, List.map_cons, List.map_map]
    simp only [Function.comp_def, Nat.succ_eq_add_one, later]
    exact congrArg (bytes :: ·) tells.offered
  given offer member := by
    rcases List.mem_cons.mp member with now | later
    · rw [now]
      exact remains
    · exact tells.given offer later
  accepted := by
    change partOf bytes (some answer) ++ report.accepted = _
    rw [tells.accepted]
    exact (sent_cons answer answers bytes _).symm
  ends call made := by
    change call + 1 = report.offers.length + 1 ↔ _
    rw [remaining_cons]
    cases call with
    | zero =>
        have ended : remaining answers
            (bytes.drop (partOf bytes (some answer)).length) 0 =
              bytes.drop (partOf bytes (some answer)).length := rfl
        rw [ended, ← tells.starts, List.getElem?_cons_zero, Option.any_some,
          goes]
        simp
    | succ call =>
        rw [List.getElem?_cons_succ,
          ← tells.ends call (Nat.lt_of_succ_lt_succ made)]
        exact Nat.add_right_cancel_iff

end Report.Tells

theorem deliver_tells (answers : List Answer) (bytes : Bytes) :
    (deliver answers bytes).Tells answers bytes := by
  induction answers generalizing bytes with
  | nil =>
      by_cases remains : bytes = []
      · rw [remains, deliver_nil]
        exact .idle []
      · rw [deliver_unscripted remains]
        exact .unscripted remains
  | cons answer answers inductionHypothesis =>
      by_cases remains : bytes = []
      · rw [remains, deliver_nil]
        exact .idle (answer :: answers)
      · rw [deliver_cons remains]
        cases stops : answer.stops with
        | true =>
            exact .stopped remains stops answers
        | false =>
            exact .goesOn remains stops (inductionHypothesis _)

theorem Report.Tells.accepted_eq_iff {report : Report}
    {answers : List Answer} {bytes : Bytes}
    (tells : report.Tells answers bytes) :
    report.accepted = bytes ↔
      ∀ call < report.offers.length,
        answers[call]?.any Answer.stops = false := by
  have whole : report.accepted = bytes ↔
      remaining answers bytes report.offers.length = [] := by
    have both :=
      sent_append_remaining answers bytes report.offers.length
    rw [tells.accepted]
    constructor
    · intro all
      rw [all] at both
      exact List.append_right_eq_self.mp both
    · intro none
      rw [none, List.append_nil] at both
      exact both
  rw [whole]
  constructor
  · intro none call made
    -- A call that is answered by a stop leaves what it was offered.
    cases stops : answers[call]?.any Answer.stops with
    | false =>
        rfl
    | true =>
        have last := (tells.ends call made).mpr (.inr stops)
        obtain ⟨answer, there, isStop⟩ := (Option.any_eq_true _ _).mp stops
        have same : sent answers bytes (call + 1) =
            sent answers bytes call := by
          rw [sent, there, partOf_of_stops isStop, List.append_nil]
        have offer : remaining answers bytes call ∈ report.offers := by
          rw [tells.offered]
          exact List.mem_map_of_mem (List.mem_range.mpr made)
        rw [← last, remaining, same] at none
        exact absurd none (tells.given _ offer)
  · intro calm
    cases calls : report.offers.length with
    | zero =>
        rw [tells.starts.mp calls]
        exact List.drop_nil
    | succ call =>
        have made : call < report.offers.length := by
          rw [calls]
          exact Nat.lt_succ_self call
        rcases (tells.ends call made).mp calls.symm with none | stops
        · exact none
        · rw [calm call made] at stops
          cases stops

/-! ### Interruptions -/

private theorem deliver_interrupted {bytes : Bytes} (remains : bytes ≠ [])
    (answers : List Answer) :
    deliver (.interrupted :: answers) bytes =
      (deliver answers bytes).after bytes [] := by
  rw [deliver_cons remains]
  rfl

def interruptions (answers : List Answer) (bytes : Bytes) : Nat :=
  (answers.take (deliver answers bytes).offers.length).count .interrupted

/-- A delivery without interruptions accepts the same in fewer calls. -/
theorem deliver_filter (answers : List Answer) (bytes : Bytes) :
    (deliver answers bytes).accepted =
        (deliver (answers.filter (· ≠ .interrupted)) bytes).accepted ∧
      (deliver answers bytes).offers.length =
        (deliver (answers.filter (· ≠ .interrupted)) bytes).offers.length +
          interruptions answers bytes := by
  unfold interruptions
  induction answers generalizing bytes with
  | nil =>
      simp
  | cons answer answers inductionHypothesis =>
      by_cases remains : bytes = []
      · subst remains
        simp [deliver_nil, Report.idle]
      by_cases interrupted : answer = .interrupted
      · subst interrupted
        obtain ⟨accepted, calls⟩ := inductionHypothesis bytes
        have skipped : (Answer.interrupted :: answers).filter
            (· ≠ .interrupted) = answers.filter (· ≠ .interrupted) := rfl
        rw [skipped, deliver_interrupted remains]
        simp only [Report.after, List.length_cons, List.nil_append,
          List.take_succ_cons, List.count_cons_self]
        exact ⟨accepted, by omega⟩
      · have kept : (answer :: answers).filter (· ≠ .interrupted) =
            answer :: answers.filter (· ≠ .interrupted) :=
          List.filter_cons_of_pos (decide_eq_true interrupted)
        have other : (answer == .interrupted) = false :=
          beq_eq_false_iff_ne.mpr interrupted
        rw [kept, deliver_cons remains, deliver_cons remains]
        cases answer.stops with
        | true =>
            simp [Report.after, Report.idle, List.count_cons, other]
        | false =>
            obtain ⟨accepted, calls⟩ := inductionHypothesis
              (bytes.drop (partOf bytes (some answer)).length)
            simp only [Bool.false_eq_true, if_false, Report.after,
              List.length_cons, List.take_succ_cons, List.count_cons, other,
              Nat.add_zero]
            exact ⟨congrArg _ accepted, by omega⟩

/-- A place in a script is reached whether or not interruptions stand there;
if it is, they add their number of calls and change nothing else. -/
theorem deliver_insert (earlier later : List Answer) (times : Nat)
    (bytes : Bytes) :
    let shorter := deliver (earlier ++ later) bytes
    let longer :=
      deliver (earlier ++ (List.replicate times .interrupted ++ later)) bytes
    (earlier.length < longer.offers.length ↔
        earlier.length < shorter.offers.length) ∧
      (earlier.length < shorter.offers.length →
        longer.accepted = shorter.accepted ∧
          longer.unused = shorter.unused ∧
          longer.offers.length = shorter.offers.length + times) := by
  induction earlier generalizing bytes with
  | nil =>
      by_cases remains : bytes = []
      · subst remains
        simp [deliver_nil, Report.idle]
      have begins (answers : List Answer) :
          0 < (deliver answers bytes).offers.length := by
        rw [Nat.pos_iff_ne_zero, ne_eq, (deliver_tells answers bytes).starts]
        exact remains
      refine ⟨iff_of_true (begins _) (begins _), fun _ => ?_⟩
      simp only [List.nil_append]
      induction times with
      | zero =>
          exact ⟨rfl, rfl, rfl⟩
      | succ times inductionHypothesis =>
          rw [List.replicate_succ, List.cons_append,
            deliver_interrupted remains]
          obtain ⟨accepted, unused, calls⟩ := inductionHypothesis
          exact ⟨accepted, unused, congrArg (· + 1) calls⟩
  | cons answer earlier inductionHypothesis =>
      by_cases remains : bytes = []
      · subst remains
        simp [deliver_nil, Report.idle]
      simp only [List.cons_append, deliver_cons remains]
      cases answer.stops with
      | true =>
          simp [Report.after, Report.idle]
      | false =>
          obtain ⟨reached, same⟩ := inductionHypothesis
            (bytes.drop (partOf bytes (some answer)).length)
          simp only [Bool.false_eq_true, if_false, Report.after,
            List.length_cons, Nat.add_lt_add_iff_right]
          refine ⟨reached, ?_⟩
          intro consumed
          obtain ⟨accepted, unused, calls⟩ := same consumed
          exact ⟨congrArg _ accepted, unused, by omega⟩

/-! ### What a writer receives -/

/-- A delivery to a writer with any answers ends, after at most one call more
than there are answers.  Each call offers what has not been accepted, the next
one is made unless nothing remains or the answer stops the delivery, and the
answers after that are not asked for.  What is accepted in all is a start of
what was to be delivered, and all of it unless an answer has stopped the
delivery.  Answers that differ by interruptions only lead to the same, with as
many more calls as there are more interruptions. -/
theorem delivery_is_a_start (answers : List Answer) (bytes : Bytes) :
    let report := deliver answers bytes
    let calls := report.offers.length
    (calls ≤ answers.length + 1 ∧ report.unused = answers.drop calls ∧
        (calls = 0 ↔ bytes = [])) ∧
      (report.offers = (List.range calls).map (remaining answers bytes) ∧
        ∀ call, sent answers bytes call ++ remaining answers bytes call =
          bytes) ∧
      (report.accepted = sent answers bytes calls ∧
        report.accepted <+: bytes) ∧
      (∀ call < calls, call + 1 = calls ↔
        remaining answers bytes (call + 1) = [] ∨
          answers[call]?.any Answer.stops = true) ∧
      (report.accepted = bytes ↔
        ∀ call < calls, answers[call]?.any Answer.stops = false) ∧
      (∀ other : List Answer,
        other.filter (· ≠ .interrupted) =
            answers.filter (· ≠ .interrupted) →
          (deliver other bytes).accepted = report.accepted ∧
            (deliver other bytes).offers.length +
                interruptions answers bytes =
              calls + interruptions other bytes) ∧
      ∀ earlier later times, answers = earlier ++ later →
        let longer := deliver
          (earlier ++ (List.replicate times .interrupted ++ later)) bytes
        (earlier.length < longer.offers.length ↔ earlier.length < calls) ∧
          (earlier.length < calls →
            longer.accepted = report.accepted ∧
              longer.unused = report.unused ∧
              longer.offers.length = calls + times) := by
  intro report calls
  have tells : report.Tells answers bytes := deliver_tells answers bytes
  refine ⟨⟨tells.few, tells.unused, tells.starts⟩,
    ⟨tells.offered, sent_append_remaining answers bytes⟩,
    ⟨tells.accepted, ?_⟩, tells.ends, tells.accepted_eq_iff, ?_, ?_⟩
  · rw [tells.accepted]
    exact sent_starts answers bytes _
  · intro other same
    obtain ⟨accepted, made⟩ := deliver_filter answers bytes
    obtain ⟨acceptedToo, madeToo⟩ := deliver_filter other bytes
    rw [same] at acceptedToo madeToo
    refine ⟨acceptedToo.trans accepted.symm, ?_⟩
    rw [madeToo, show calls = _ from made]
    omega
  · intro earlier later times split
    have inserted := deliver_insert earlier later times bytes
    rw [← split] at inserted
    exact inserted

/-- Interruptions in front of a short write and of a failure make a delivery
longer, and do not change what is delivered. -/
theorem delivery_despite_interruptions :
    let answers : List Answer := [.interrupted, .accepts 2, .fails]
    let bytes : Bytes := [1, 2, 3]
    (deliver [.accepts 2, .interrupted, .fails] bytes).accepted = [1, 2] ∧
      (deliver ([.interrupted, .accepts 2] ++
        (List.replicate 4 .interrupted ++ [.fails])) bytes).accepted =
          [1, 2] ∧
      (deliver ([.interrupted, .accepts 2] ++
        (List.replicate 4 .interrupted ++ [.fails])) bytes).offers.length =
          (deliver answers bytes).offers.length + 4 := by
  intro answers bytes
  obtain ⟨_, _, _, _, _, others, longer⟩ := delivery_is_a_start answers bytes
  have accepted : (deliver answers bytes).accepted = [1, 2] := by decide
  obtain ⟨same, _⟩ := others [.accepts 2, .interrupted, .fails] (by decide)
  obtain ⟨kept, _, calls⟩ :=
    (longer [.interrupted, .accepts 2] [.fails] 4 rfl).2 (by decide)
  exact ⟨same.trans accepted, kept.trans accepted, calls⟩

end LeveledLog.Retry
