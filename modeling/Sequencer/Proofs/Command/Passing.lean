import Sequencer.Proofs.Command.Reading

/-!
# What reading passes

Reading passes the first lexemes of a stream and leaves the others. An error is about a lexeme that
stands behind those that were passed before, and what is left begins with that lexeme or behind it
(`Parsed.Stops`). Nothing but the mark or the end that was found in the place of another is left
(`Form.parse_eq_of_view_token`). So in a stream whose lexemes stand in their order, neither an error
nor what is left stands in front of the stream (`Parsed.Stops.position_le`).

A statement has the place from its first lexeme to the last that was passed
(`Statement.exists_passed`).
-/

namespace Sequencer

open Sequencer.Source Sequencer.Text

/-! ## Streams behind streams -/

namespace Stream

/-- A stream with lexemes in front of it. -/
def prepend (passed : List Lexeme) (stream : Stream) : Stream :=
  ⟨passed ++ stream.lexemes, stream.stop⟩

@[simp]
theorem lexemes_prepend (stream : Stream) (passed : List Lexeme) :
    (stream.prepend passed).lexemes = passed ++ stream.lexemes :=
  rfl

theorem prepend_prepend (stream : Stream) (first second : List Lexeme) :
    (stream.prepend second).prepend first = stream.prepend (first ++ second) := by
  simp [prepend]

/-- A stream that is left behind the first lexemes of another. -/
def IsBehind (rest stream : Stream) : Prop := ∃ passed, stream = rest.prepend passed

variable {stream middle rest : Stream} {found : Token} {error : LexicalError} {span : Span}

theorem IsBehind.refl (stream : Stream) : stream.IsBehind stream := ⟨[], rfl⟩

theorem IsBehind.trans (second : rest.IsBehind middle) (first : middle.IsBehind stream) :
    rest.IsBehind stream := by
  obtain ⟨passed, rfl⟩ := first
  obtain ⟨passed', rfl⟩ := second
  exact ⟨passed ++ passed', prepend_prepend ..⟩

theorem eq_prepend_of_view_broken (seen : stream.view = .broken error span rest) :
    stream = rest.prepend [⟨span, .error error⟩] := by
  rcases stream with ⟨_ | ⟨⟨place, _ | token⟩, others⟩, stop⟩ <;> cases seen
  rfl

theorem eq_prepend_of_view_token (seen : stream.view = .token found span rest)
    (real : found ≠ .endOfInput) : stream = rest.prepend [⟨span, .ok found⟩] := by
  rcases stream with ⟨_ | ⟨⟨place, _ | token⟩, others⟩, stop⟩ <;> cases seen
  · exact absurd rfl real
  · rfl

theorem isBehind_of_view_broken (seen : stream.view = .broken error span rest) :
    rest.IsBehind stream :=
  ⟨_, eq_prepend_of_view_broken seen⟩

theorem IsBehind.size_le (behind : rest.IsBehind stream) : rest.size ≤ stream.size := by
  obtain ⟨passed, rfl⟩ := behind
  simp [size]

/-- The end of input is not passed. -/
theorem isBehind_of_view_token (seen : stream.view = .token found span rest) :
    rest.IsBehind stream := by
  rcases stream with ⟨_ | ⟨⟨place, _ | token⟩, others⟩, stop⟩ <;> cases seen
  · exact .refl _
  · exact ⟨[_], rfl⟩

/-! ### Positions -/

/-- The offset of what stands next in a stream. -/
def position (stream : Stream) : Nat := stream.front.span.start

/-- The lexemes of a stream stand in their order, in front of its end. -/
def Ascends (stream : Stream) : Prop :=
  (stream.lexemes.map (·.span.start) ++ [stream.stop.start]).Pairwise (· ≤ ·)

theorem position_mem (stream : Stream) :
    stream.position ∈ stream.lexemes.map (·.span.start) ++ [stream.stop.start] := by
  rcases stream with ⟨_ | ⟨lexeme, others⟩, stop⟩
  · exact List.mem_singleton_self _
  · exact List.mem_cons_self

theorem Ascends.prepend {passed : List Lexeme} (ascends : (rest.prepend passed).Ascends) :
    rest.Ascends ∧ ∀ lexeme ∈ passed, lexeme.span.start ≤ rest.position := by
  rw [Ascends, lexemes_prepend, List.map_append, List.append_assoc, List.pairwise_append] at ascends
  obtain ⟨-, others, earlier⟩ := ascends
  exact ⟨others, fun lexeme inside =>
    earlier _ (List.mem_map_of_mem inside) _ rest.position_mem⟩

theorem IsBehind.ascends (behind : rest.IsBehind stream) (ascends : stream.Ascends) :
    rest.Ascends := by
  obtain ⟨passed, rfl⟩ := behind
  exact ascends.prepend.1

theorem IsBehind.position_le (behind : rest.IsBehind stream) (ascends : stream.Ascends) :
    stream.position ≤ rest.position := by
  obtain ⟨passed, rfl⟩ := behind
  cases passed with
  | nil => exact Nat.le_refl _
  | cons first others => exact ascends.prepend.2 first List.mem_cons_self

theorem pairwise_place (source : Nat) {offset stop : Nat} {items : List Item}
    (inside : offset + byteLength (Scan.textOf items) ≤ stop) :
    ((place source offset items).map (·.span.start) ++ [stop]).Pairwise (· ≤ ·) ∧
      ∀ start ∈ (place source offset items).map (·.span.start) ++ [stop], offset ≤ start := by
  induction items generalizing offset with
  | nil => simpa [place] using inside
  | cons item others inductionHypothesis =>
      simp only [Scan.textOf_cons, byteLength_append, ← Nat.add_assoc] at inside
      obtain ⟨ascends, behind⟩ := inductionHypothesis inside
      simp only [place, List.map_cons, List.cons_append, List.pairwise_cons, List.forall_mem_cons]
      refine ⟨⟨fun start within => ?_, ascends⟩, Nat.le_add_right .., fun start within => ?_⟩ <;>
        have later := behind start within <;> omega

theorem ascends_ofText (source : Nat) (text : List Char) : (ofText source text).Ascends := by
  have whole := congrArg byteLength (Scan.text_ofText text)
  rw [Scan.text, byteLength_append, ← Scan.textOf] at whole
  have inside : 0 + byteLength (Scan.textOf (Scan.ofText text).items) ≤ byteLength text := by
    omega
  exact (pairwise_place source inside).1

end Stream

/-! ## Where reading stops -/

/-- How far reading got: to the error, or to what is left. -/
def Parsed.reached {α : Type} (parsed : Parsed α) : Nat :=
  match parsed.answer with
  | .ok _ => parsed.rest.position
  | .error error => error.span.start

theorem Parsed.reached_of_error {α : Type} {parsed : Parsed α} {error : ParseError}
    (failed : parsed.answer = .error error) : parsed.reached = error.span.start := by
  rw [reached, failed]

/-- Reading stops behind the first lexemes of a stream. An error is about what stands behind some of
them, and what is left begins there or behind that. -/
structure Parsed.Stops {α : Type} (stream : Stream) (parsed : Parsed α) : Prop where
  behind : parsed.rest.IsBehind stream
  error : ∀ error, parsed.answer = .error error → ∃ middle : Stream,
    middle.IsBehind stream ∧ parsed.rest.IsBehind middle ∧ error.span = middle.front.span

namespace Parsed

variable {α β : Type} {stream middle rest : Stream} {parsed : Parsed α}

theorem stops_success (value : α) (behind : rest.IsBehind stream) :
    (success value rest).Stops stream :=
  ⟨behind, nofun⟩

theorem stops_failure {span : Span} (cause : ParseError.Cause) (behind : middle.IsBehind stream)
    (left : rest.IsBehind middle) (place : span = middle.front.span) :
    (failure span cause rest : Parsed α).Stops stream := by
  refine ⟨left.trans behind, ?_⟩
  rintro _ ⟨⟩
  exact ⟨middle, behind, left, place⟩

theorem Stops.of_isBehind (stops : parsed.Stops middle) (behind : middle.IsBehind stream) :
    parsed.Stops stream := by
  refine ⟨stops.behind.trans behind, fun error failed => ?_⟩
  obtain ⟨place, reached, left, same⟩ := stops.error error failed
  exact ⟨place, reached.trans behind, left, same⟩

theorem Stops.map (stops : parsed.Stops stream) (change : α → β) :
    (parsed.map change).Stops stream := by
  refine ⟨stops.behind, fun error failed => stops.error error ?_⟩
  rcases parsed with ⟨_ | value, rest⟩ <;> cases failed
  rfl

theorem Stops.position_le (stops : parsed.Stops stream) (ascends : stream.Ascends) :
    stream.position ≤ parsed.reached ∧ parsed.reached ≤ parsed.rest.position := by
  rw [reached]
  split
  · exact ⟨stops.behind.position_le ascends, Nat.le_refl _⟩
  · rename_i error failed
    obtain ⟨middle, behind, left, place⟩ := stops.error error failed
    rw [place]
    exact ⟨behind.position_le ascends, left.position_le (behind.ascends ascends)⟩

end Parsed

namespace Form

variable {limits : Limits} {stream rest : Stream}

theorem stops (limits : Limits) (form : Form) (last : Span) (stream : Stream) :
    (form.parse limits last stream).Stops stream := by
  induction form using goesOn_induction generalizing last stream with
  | done instruction => exact Parsed.stops_success _ (.refl stream)
  | goOn form asks inductionHypothesis =>
      cases view : stream.view with
      | broken error span after =>
          rw [parse_eq_of_view_broken view asks]
          refine Parsed.stops_failure _ (.refl stream) (Stream.isBehind_of_view_broken view) ?_
          rw [Stream.front_of_view_broken view]
      | token found span after =>
          have behind := Stream.isBehind_of_view_token view
          rw [parse_eq_of_view_token limits view]
          cases judged : form.judge limits found with
          | read next =>
              exact (inductionHypothesis next (goesOn_of_judge asks (.inl judged)) span after)
                |>.of_isBehind behind
          | leave next =>
              exact inductionHypothesis next (goesOn_of_judge asks (.inr judged)) last stream
          | refuse cause =>
              refine Parsed.stops_failure _ (.refl stream) ?_ ?_
              · split
                · exact .refl stream
                · exact behind
              · rw [Stream.front_of_view_token view]

/-- The last place that was read is that of the last lexeme that was passed. -/
theorem IsInner.exists_passed {form : Form} (inner : form.IsInner) {last last' : Span}
    {instruction : Instruction}
    (done : form.parse limits last stream = .success (instruction, last') rest) :
    ∃ passed, stream = rest.prepend passed ∧
      last' = (passed.map Lexeme.span).getLastD last := by
  induction form using goesOn_induction generalizing last stream with
  | done complete =>
      cases done
      exact ⟨[], rfl, rfl⟩
  | goOn form asks inductionHypothesis =>
      cases view : stream.view with
      | broken error span after =>
          rw [parse_eq_of_view_broken view asks] at done
          exact absurd done Parsed.failure_ne_success
      | token found span after =>
          rw [parse_eq_of_view_token limits view] at done
          cases judged : form.judge limits found with
          | read next =>
              rw [judged] at done
              have goesOn := goesOn_of_judge asks (.inl judged)
              obtain ⟨passed, rfl, place⟩ :=
                inductionHypothesis next goesOn (inner.goesOn goesOn) done
              have first :=
                Stream.eq_prepend_of_view_token view (inner.of_read asks judged).2
              refine ⟨⟨span, .ok found⟩ :: passed, ?_, ?_⟩
              · rw [first, Stream.prepend_prepend]
                rfl
              · rw [place, List.map_cons, List.getLastD_cons]
          | leave next =>
              rw [judged] at done
              have goesOn := goesOn_of_judge asks (.inr judged)
              exact inductionHypothesis next goesOn (inner.goesOn goesOn) done
          | refuse cause =>
              rw [judged] at done
              exact absurd done Parsed.failure_ne_success

end Form

namespace Statement

variable {limits : Limits} {stream rest : Stream} {statement : Statement}

theorem stops (limits : Limits) (stream : Stream) :
    (Statement.parse limits stream).Stops stream := by
  unfold Statement.parse
  split
  · rename_i error span after view
    refine Parsed.stops_failure _ (.refl stream) (Stream.isBehind_of_view_broken view) ?_
    rw [Stream.front_of_view_broken view]
  · rename_i name span after view
    have behind := Stream.isBehind_of_view_token view
    split
    · refine Parsed.stops_failure _ (.refl stream) behind ?_
      rw [Stream.front_of_view_token view]
    · exact ((Form.stops ..).of_isBehind behind).map _
  · rename_i found span after view
    refine Parsed.stops_failure _ (.refl stream) (Stream.isBehind_of_view_token view) ?_
    rw [Stream.front_of_view_token view]

/-- A statement goes from its first lexeme to the last that was passed. -/
theorem exists_passed (done : Statement.parse limits stream = .success statement rest) :
    ∃ first more, stream = rest.prepend (first :: more) ∧
      statement.span = first.span.join ((more.map Lexeme.span).getLastD first.span) := by
  unfold Statement.parse at done
  split at done
  · exact absurd done Parsed.failure_ne_success
  · rename_i name span after view
    split at done
    · exact absurd done Parsed.failure_ne_success
    · rename_i form named
      obtain ⟨⟨instruction, last⟩, read, rfl⟩ := Parsed.map_eq_success_iff.mp done
      obtain ⟨passed, rfl, rfl⟩ := (Form.isInner_of_ofName? named).exists_passed read
      refine ⟨⟨span, .ok (.word name)⟩, passed, ?_, rfl⟩
      rw [Stream.eq_prepend_of_view_token view nofun, Stream.prepend_prepend]
      rfl
  · exact absurd done Parsed.failure_ne_success

/-- A statement begins where the stream does. -/
theorem start_eq_position (ascends : stream.Ascends)
    (done : Statement.parse limits stream = .success statement rest) :
    statement.span.start = stream.position := by
  obtain ⟨first, more, rfl, span⟩ := exists_passed done
  have later : ∀ place ∈ first.span :: more.map Lexeme.span, first.span.start ≤ place.start := by
    rw [List.forall_mem_cons, List.forall_mem_map]
    refine ⟨Nat.le_refl _, fun lexeme inside => ?_⟩
    rw [Stream.Ascends, Stream.lexemes_prepend, List.cons_append, List.map_cons, List.cons_append,
      List.pairwise_cons] at ascends
    exact ascends.1 _ (List.mem_append_left _ (List.mem_map_of_mem (List.mem_append_left _ inside)))
  rw [span]
  exact Nat.min_eq_left (later _ List.getLastD_mem_cons)

end Statement

namespace Program

variable {limits : Limits} {stream rest : Stream}

/-- Behind a statement reading goes on with what the statement has left. -/
theorem stops_followed {parsed : Parsed Statement} {statement : Statement}
    (done : parsed.answer = .ok statement)
    (following : ∀ found span after, parsed.rest.view = .token found span after →
      found ≠ .endOfInput → (parse limits after).Stops after) :
    (followed limits parsed).Stops parsed.rest := by
  rw [followed, done]
  dsimp only
  split
  · rename_i error span after view
    refine Parsed.stops_failure _ (.refl _) (Stream.isBehind_of_view_broken view) ?_
    rw [Stream.front_of_view_broken view]
  · rename_i found span after view
    split
    · exact Parsed.stops_success _ (.refl _)
    rename_i notEnd
    split
    · exact ((following found span after view notEnd).of_isBehind
        (Stream.isBehind_of_view_token view)).map _
    · refine Parsed.stops_failure _ (.refl _) (.refl _) ?_
      rw [Stream.front_of_view_token view]

theorem stops (limits : Limits) (stream : Stream) : (parse limits stream).Stops stream := by
  induction stream using parse_induction with
  | @broken stream error span after view =>
      rw [parse_of_view_broken view]
      refine Parsed.stops_failure _ (.refl stream) (Stream.isBehind_of_view_broken view) ?_
      rw [Stream.front_of_view_broken view]
  | @ended stream span after view =>
      rw [parse_of_view_endOfInput view]
      exact Parsed.stops_success _ (.refl stream)
  | @separated stream separator span after view inductionHypothesis =>
      rw [parse_of_view_separator view]
      exact inductionHypothesis.of_isBehind (Stream.isBehind_of_view_token view)
  | @stated stream found span after view inner inductionHypothesis =>
      have first := Statement.stops limits stream
      rw [parse_of_view_inner view inner]
      cases answered : (Statement.parse limits stream).answer with
      | error error =>
          rw [followed, answered]
          refine ⟨first.behind, ?_⟩
          rintro _ ⟨⟩
          exact first.error error answered
      | ok statement =>
          refine (stops_followed answered ?_).of_isBehind first.behind
          exact fun found' span' after' => inductionHypothesis limits

/-- Where a program is read from a token that stands inside of statements on, a statement is read,
and the others from what it has left. -/
theorem exists_first_of_parse {found : Token} {span : Span} {after : Stream}
    {statements : List Statement} (view : stream.view = .token found span after)
    (inner : found.IsInner) (done : parse limits stream = .success statements rest) :
    ∃ statement others middle, statements = statement :: others ∧
      Statement.parse limits stream = .success statement middle ∧
      parse limits middle = .success others rest := by
  rw [parse_of_view_inner view inner] at done
  cases answered : (Statement.parse limits stream).answer with
  | error error =>
      have failed := followed_of_error limits answered
      rw [done] at failed
      cases failed
  | ok statement =>
      have first := Parsed.eq_success_of_answer answered
      rw [followed, answered] at done
      dsimp only at done
      split at done
      · exact absurd done Parsed.failure_ne_success
      · rename_i found' span' after' view'
        split at done
        · rename_i atEnd
          subst atEnd
          cases done
          exact ⟨statement, [], _, rfl, first, parse_of_view_endOfInput view'⟩
        split at done
        · rename_i separates
          obtain ⟨separator, rfl⟩ := Token.isSeparator_iff.mp separates
          obtain ⟨others, read, rfl⟩ := Parsed.map_eq_success_iff.mp done
          exact ⟨statement, others, _, rfl, first, (parse_of_view_separator view').trans read⟩
        · exact absurd done Parsed.failure_ne_success

end Program

end Sequencer
