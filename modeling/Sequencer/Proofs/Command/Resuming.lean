import Sequencer.Proofs.Command.Passing
import Sequencer.Proofs.Command.Words

/-!
# Reading on behind errors

A reader that is called again goes on with what the call before it has left. A call that ends in an
error has passed something (`Program.size_rest_lt_of_error`), and one that ends well has left
nothing but the end of input (`Program.parse_rest_of_ok`). So the calls share out the lexemes of a
source between them, only so many of them end in errors, the errors go forward, and a reader that is
called often enough finishes (`Program.resumes_ofText`), with places in words as long as the length
of the source is a word (`Program.resumes_ofText?`).
-/

namespace Sequencer

open Sequencer.Source Sequencer.Text

namespace Program

variable {limits : Limits} {stream : Stream}

/-! ## One call -/

/-- A call that ends in an error passes at least one lexeme. -/
theorem size_rest_lt_of_error {error : ParseError}
    (failed : (parse limits stream).answer = .error error) :
    (parse limits stream).rest.size < stream.size := by
  fun_induction parse limits stream with
  | case1 stream cause span after view => exact Stream.size_rest_lt_of_view_broken view
  | case2 => cases failed
  | case3 stream found span after view notEnd separates inductionHypothesis =>
      exact Nat.lt_trans (inductionHypothesis failed)
        (Stream.size_rest_lt_of_view_token view notEnd)
  | case4 stream found span after view notEnd | case8 stream found span after view notEnd =>
      exact Statement.size_parse_lt limits view notEnd
  | case5 stream found span after view notEnd inner parsed statement answered cause span' after'
      view' =>
      exact Nat.lt_trans (Stream.size_rest_lt_of_view_broken view')
        (Statement.size_parse_lt limits view notEnd)
  | case6 => cases failed
  | case7 stream found span after view notEnd inner parsed statement answered found' span' after'
      view' notEnd' separates inductionHypothesis =>
      exact Nat.lt_of_le_of_lt (stops limits after').behind.size_le
        (Nat.lt_trans (Stream.size_rest_lt_of_view_token view' notEnd')
          (Statement.size_parse_lt limits view notEnd))

/-- Behind a call that ends well a call finds nothing more to read. -/
theorem parse_rest_of_ok {statements : List Statement}
    (done : (parse limits stream).answer = .ok statements) :
    parse limits (parse limits stream).rest = .success [] (parse limits stream).rest := by
  obtain ⟨tree, -, ⟨span, after, ended⟩, -⟩ :=
    exists_tree_of_parse (Parsed.eq_success_of_answer done)
  exact parse_of_view_endOfInput ended

/-- The statements that a call reads stand where the stream begins or behind it. -/
theorem position_le_start {statements : List Statement} (ascends : stream.Ascends)
    (done : (parse limits stream).answer = .ok statements) :
    ∀ statement ∈ statements, stream.position ≤ statement.span.start := by
  fun_induction parse limits stream generalizing statements with
  | case1 => cases done
  | case2 =>
      cases done
      simp
  | case3 stream found span after view notEnd separates inductionHypothesis =>
      have behind := Stream.isBehind_of_view_token view
      intro statement inside
      exact Nat.le_trans (behind.position_le ascends)
        (inductionHypothesis (behind.ascends ascends) done statement inside)
  | case4 => cases done
  | case5 => cases done
  | case6 stream found span after view notEnd inner parsed statement answered =>
      cases done
      rw [List.forall_mem_singleton]
      exact Nat.le_of_eq
        (Statement.start_eq_position ascends (Parsed.eq_success_of_answer answered)).symm
  | case7 stream found span after view notEnd inner parsed statement answered found' span' after'
      view' notEnd' separates =>
      rename_i inductionHypothesis
      obtain ⟨others, read, rfl⟩ :=
        Parsed.map_eq_success_iff.mp (Parsed.eq_success_of_answer done)
      have behind := (Stream.isBehind_of_view_token view').trans
        (Statement.stops limits stream).behind
      have first :=
        Statement.start_eq_position ascends (Parsed.eq_success_of_answer answered)
      rw [List.forall_mem_cons]
      refine ⟨Nat.le_of_eq first.symm, ?_⟩
      intro other inside
      exact Nat.le_trans (behind.position_le ascends)
        (inductionHypothesis (behind.ascends ascends) (congrArg Parsed.answer read) other inside)
  | case8 => cases done

/-! ## Calls one behind the other -/

section

variable (limits : Limits) (stream : Stream)

/-- The stream that stands before a call, counted from zero. -/
def standing : Nat → Stream
  | 0 => stream
  | call + 1 => (parse limits (standing call)).rest

/-- What a call answers. -/
def answer (call : Nat) : Except ParseError (List Statement) :=
  (parse limits (standing limits stream call)).answer

/-- Whether a call ends in an error. -/
def fails (call : Nat) : Bool :=
  match answer limits stream call with
  | .error _ => true
  | .ok _ => false

/-- The lexemes that a call passes. -/
def passed (call : Nat) : List Lexeme :=
  (standing limits stream call).lexemes.take
    ((standing limits stream call).size - (standing limits stream (call + 1)).size)

/-- A reader can be called again and again, and it finishes. -/
structure Resumes : Prop where
  /-- No lexeme is passed by two calls, nor left out between them. -/
  shares : ∀ count, stream.lexemes =
    (List.range count).flatMap (passed limits stream) ++ (standing limits stream count).lexemes
  /-- A call that ends in an error passes something. -/
  passes : ∀ call, fails limits stream call → passed limits stream call ≠ []
  /-- No more calls end in errors than there are lexemes. -/
  failures : ∀ count,
    (List.range count).countP (fails limits stream) ≤ stream.lexemes.length
  /-- One of the first calls ends well. -/
  finishes : ∃ call ≤ stream.lexemes.length, ∃ statements,
    answer limits stream call = .ok statements
  /-- No error is about something in front of an earlier error. -/
  forward : ∀ {call later error error'}, call < later →
    answer limits stream call = .error error → answer limits stream later = .error error' →
    error.span.start ≤ error'.span.start
  /-- No statement stands in front of an earlier error. -/
  behind : ∀ {call later error statements}, call < later →
    answer limits stream call = .error error → answer limits stream later = .ok statements →
    ∀ statement ∈ statements, error.span.start ≤ statement.span.start
  /-- Behind a call that ends well nothing is left to read. -/
  settles : ∀ {call later statements}, call < later →
    answer limits stream call = .ok statements → answer limits stream later = .ok []

end

theorem standing_isBehind (limits : Limits) (stream : Stream) {call later : Nat}
    (order : call ≤ later) :
    (standing limits stream later).IsBehind (standing limits stream call) := by
  induction order with
  | refl => exact .refl _
  | step order inductionHypothesis => exact (stops ..).behind.trans inductionHypothesis

theorem lexemes_standing (limits : Limits) (stream : Stream) (call : Nat) :
    (standing limits stream call).lexemes =
      passed limits stream call ++ (standing limits stream (call + 1)).lexemes := by
  obtain ⟨first, split⟩ := standing_isBehind limits stream (Nat.le_add_right call 1)
  rw [passed, split]
  simp [Stream.size]

theorem lexemes_eq_flatMap_passed (limits : Limits) (stream : Stream) (count : Nat) :
    stream.lexemes = (List.range count).flatMap (passed limits stream) ++
      (standing limits stream count).lexemes := by
  induction count with
  | zero => simp [standing]
  | succ count inductionHypothesis =>
      rw [inductionHypothesis, List.range_succ, List.flatMap_append, lexemes_standing,
        List.append_assoc]
      simp

theorem size_standing_lt_of_fails {call : Nat} (failed : fails limits stream call) :
    (standing limits stream (call + 1)).size < (standing limits stream call).size := by
  cases answered : answer limits stream call with
  | error error => exact size_rest_lt_of_error answered
  | ok statements => simp [fails, answered] at failed

/-- Every error takes something from what is left. -/
theorem countP_fails_add_size_le (limits : Limits) (stream : Stream) (count : Nat) :
    (List.range count).countP (fails limits stream) + (standing limits stream count).size ≤
      stream.size := by
  induction count with
  | zero => simp [standing]
  | succ count inductionHypothesis =>
      rw [List.range_succ, List.countP_append, List.countP_singleton]
      cases failed : fails limits stream count with
      | true =>
          have less := size_standing_lt_of_fails failed
          simp only [if_true]
          omega
      | false =>
          have left := (standing_isBehind limits stream (Nat.le_add_right count 1)).size_le
          simp only [Bool.false_eq_true, if_false]
          omega

theorem exists_answer_eq_ok (limits : Limits) (stream : Stream) :
    ∃ call ≤ stream.size, ∃ statements, answer limits stream call = .ok statements := by
  by_contra never
  have failing : ∀ call ∈ List.range (stream.size + 1), fails limits stream call := by
    intro call inside
    cases answered : answer limits stream call with
    | error error => simp [fails, answered]
    | ok statements =>
        have early := Nat.le_of_lt_succ (List.mem_range.mp inside)
        exact absurd ⟨call, early, statements, answered⟩ never
  have all := List.countP_eq_length.mpr failing
  have bound := countP_fails_add_size_le limits stream (stream.size + 1)
  rw [all, List.length_range] at bound
  omega

/-- A call that ends in an error goes up to the place of the error at least. -/
theorem start_le_position_of_error (ascends : stream.Ascends) {call later : Nat}
    {error : ParseError} (order : call < later)
    (failed : answer limits stream call = .error error) :
    error.span.start ≤ (standing limits stream later).position := by
  have before := (standing_isBehind limits stream (Nat.zero_le call)).ascends ascends
  have next := (standing_isBehind limits stream (Nat.le_add_right call 1)).ascends before
  have stopped := ((stops limits (standing limits stream call)).position_le before).2
  rw [Parsed.reached_of_error failed] at stopped
  exact Nat.le_trans stopped ((standing_isBehind limits stream order).position_le next)

theorem answer_of_ok {call later : Nat} {statements : List Statement} (order : call < later)
    (done : answer limits stream call = .ok statements) :
    answer limits stream later = .ok [] := by
  have again := parse_rest_of_ok done
  have same : standing limits stream later = standing limits stream (call + 1) := by
    induction order with
    | refl => rfl
    | step order inductionHypothesis =>
        rw [standing, inductionHypothesis, standing, again]
        rfl
  rw [answer, same]
  exact congrArg Parsed.answer again

/-- Reading a source can be taken up again behind every error, and it finishes. -/
theorem resumes_ofText (limits : Limits) (source : Nat) (text : List Char) :
    Resumes limits (Stream.ofText source text) := by
  have ascends := Stream.ascends_ofText source text
  generalize Stream.ofText source text = stream at ascends
  have ascending (call : Nat) : (standing limits stream call).Ascends :=
    (standing_isBehind limits stream (Nat.zero_le call)).ascends ascends
  refine ⟨lexemes_eq_flatMap_passed limits stream, ?passes,
    fun count => Nat.le_of_add_right_le (countP_fails_add_size_le limits stream count),
    exists_answer_eq_ok limits stream, ?forward, ?behind, answer_of_ok⟩
  case passes =>
    intro call failed nothing
    have less := size_standing_lt_of_fails failed
    have split := congrArg List.length (lexemes_standing limits stream call)
    rw [nothing, List.nil_append] at split
    exact absurd split (Nat.ne_of_gt less)
  case forward =>
    intro call later error error' order failed failed'
    have reached := ((stops limits (standing limits stream later)).position_le (ascending later)).1
    rw [Parsed.reached_of_error failed'] at reached
    exact Nat.le_trans (start_le_position_of_error ascends order failed) reached
  case behind =>
    intro call later error statements order failed done statement inside
    exact Nat.le_trans (start_le_position_of_error ascends order failed)
      (position_le_start (ascending later) done statement inside)

/-- Reading a source shorter than `2 ^ 32` bytes can be taken up again behind every error, and it
finishes. -/
theorem resumes_ofText? (limits : Limits) (source : Nat) {text : List Char}
    (short : byteLength text < 2 ^ 32) :
    ∃ stream, Stream.ofText? source text = some stream ∧ Resumes limits stream :=
  ⟨_, Stream.ofText?_eq source short, resumes_ofText limits source text⟩

theorem resumes_ofText?_three_errors :
    byteLength "wait(\nclock(300); wait(1)".toList < 2 ^ 32 ∧
      ∃ stream, Stream.ofText? 0 "wait(\nclock(300); wait(1)".toList = some stream ∧
        Resumes {} stream := by
  have short : byteLength "wait(\nclock(300); wait(1)".toList < 2 ^ 32 := by decide +kernel
  exact ⟨short, resumes_ofText? {} 0 short⟩

-- The first error has taken the line end with it, the second leaves the rest of its command.
example : (List.range 5).map
      (answer {} (Stream.ofText 0 "wait(\nclock(300); wait(1)".toList)) =
    [.error ⟨⟨0, 5, 6⟩, .expectedQuantity .waitDuration .endOfLine⟩,
      .error ⟨⟨0, 12, 15⟩, .quantityOutOfRange .clockPeriod 300⟩,
      .error ⟨⟨0, 15, 16⟩, .expectedCommand .rightParen⟩,
      .ok [⟨⟨.wait, 1⟩, ⟨0, 18, 25⟩⟩], .ok []] := by
  decide +kernel

/-- The second error stands at the end of a source of `2 ^ 32` bytes, which has the place of its
start, in front of the first error. -/
theorem not_resumes_indented :
    byteLength (indented (2 ^ 32 - 4) "?ttl".toList) = 2 ^ 32 ∧
      ∃ stream, Stream.ofText? 0 (indented (2 ^ 32 - 4) "?ttl".toList) = some stream ∧
        answer {} stream 0 =
          .error ⟨⟨0, 2 ^ 32 - 4, 2 ^ 32 - 3⟩, .lexical (.unexpectedCharacter '?')⟩ ∧
        answer {} stream 1 = .error ⟨⟨0, 0, 0⟩, .expectedMark .leftParen .endOfInput⟩ ∧
        ¬ Resumes {} stream := by
  have single : '\n' ∉ "?ttl".toList := by decide
  obtain ⟨stream, made, first, second⟩ :
      ∃ stream, Stream.ofText? 0 (indented (2 ^ 32 - 4) "?ttl".toList) = some stream ∧
        answer {} stream 0 =
          .error ⟨⟨0, 2 ^ 32 - 4, 2 ^ 32 - 3⟩, .lexical (.unexpectedCharacter '?')⟩ ∧
        answer {} stream 1 = .error ⟨⟨0, 0, 0⟩, .expectedMark .leftParen .endOfInput⟩ :=
    ⟨_, Stream.ofText?_indented 0 _ single, by decide +kernel, by decide +kernel⟩
  refine ⟨byteLength_indented .., stream, made, first, second, fun resumes => ?_⟩
  exact absurd (resumes.forward Nat.zero_lt_one first second) (by decide)

end Program

end Sequencer
