import Sequencer.Proofs.Command.Passing
import Sequencer.Proofs.Compiler.Words

/-!
# Reading under wider limits

The limits say only which channel numbers are refused. So reading under narrower limits comes to the
same as under wider ones, or it stops at a channel number that the wider limits allow or refuse for
other words, which the reading under the wider limits has come up to as well (`Parsed.Precedes`).
This holds of a form by its judgement of the next token, and through statements of programs
(`Program.precedes`).

So what is read and compiled under some limits is the same under wider ones, and a source that is
refused under the wider limits is refused under the narrower ones, and no later. With places in
words this is so as long as the length of the source is a word (`Limits.widens`).
-/

namespace Sequencer

open Sequencer.Source Sequencer.Text

/-! ## Wider limits -/

/-- Limits that allow no channel that others refuse. -/
def Limits.IsWithin (limits wider : Limits) : Prop :=
  ∀ device : Device, device.count limits ≤ device.count wider

namespace Limits

variable {limits wider : Limits}

theorem isWithin_of_le (ttl : limits.ttl ≤ wider.ttl) (dds : limits.dds ≤ wider.dds)
    (dac : limits.dac ≤ wider.dac) : limits.IsWithin wider := by
  intro device
  rw [UInt8.le_iff_toNat_le] at ttl dds dac
  cases device <;> simp only [Device.count] <;> omega

/-- More than thirty-two TTL lines are not to be had. -/
theorem count_ttl (limits : Limits) {count : UInt8} (many : 32 ≤ count) (device : Device) :
    device.count { limits with ttl := count } = device.count { limits with ttl := 32 } := by
  rw [UInt8.le_iff_toNat_le] at many
  cases device with
  | ttl => exact Nat.min_eq_right many
  | dds | dac => rfl

end Limits

/-! ## Forms -/

/-- Wider limits change the judgement of nothing but of channel numbers that are refused. -/
theorem Form.judge_eq_or_refuse {limits wider : Limits} (within : limits.IsWithin wider)
    (form : Form) (token : Token) :
    form.judge limits token = form.judge wider token ∨
      (∃ device : Device, device.count limits ≠ device.count wider) ∧
        ∃ cause, form.judge limits token = .refuse cause := by
  cases form with
  | channel device next =>
      cases token with
      | number number =>
          by_cases small : number < device.count limits
          · have allowed : number < device.count wider := Nat.lt_of_lt_of_le small (within device)
            exact .inl (by rw [judge, judge, if_pos small, if_pos allowed])
          by_cases same : device.count limits = device.count wider
          · exact .inl (by rw [judge, judge, same])
          · exact .inr ⟨⟨device, same⟩, _, by rw [judge, if_neg small]⟩
      | _ => exact .inl rfl
  | amount quantity next => cases token <;> exact .inl rfl
  | extraWait instruction => cases token <;> exact .inl rfl
  | _ => exact .inl rfl

/-- Reading under some limits comes to the same as under wider ones, or it stops at an error. The
error is not behind what the reading under the wider limits has come up to. -/
def Parsed.Precedes {α : Type} (limits wider : Limits) (parsed wide : Parsed α) : Prop :=
  parsed = wide ∨
    (∃ device : Device, device.count limits ≠ device.count wider) ∧
      ∃ error, parsed.answer = .error error ∧ error.span.start ≤ wide.reached

section

variable {limits wider : Limits} {stream rest : Stream}

theorem Parsed.reached_map {α β : Type} (parsed : Parsed α) (change : α → β) :
    (parsed.map change).reached = parsed.reached := by
  rcases parsed with ⟨_ | value, rest⟩ <;> rfl

theorem Parsed.Precedes.map {α β : Type} {parsed wide : Parsed α}
    (precedes : parsed.Precedes limits wider wide) (change : α → β) :
    (parsed.map change).Precedes limits wider (wide.map change) := by
  rcases precedes with rfl | ⟨different, error, failed, before⟩
  · exact .inl rfl
  · refine .inr ⟨different, error, ?_, ?_⟩
    · rw [Parsed.map, failed]
      rfl
    · rwa [Parsed.reached_map]

theorem Form.precedes (within : limits.IsWithin wider) (form : Form) (last : Span)
    (ascends : stream.Ascends) :
    (form.parse limits last stream).Precedes limits wider (form.parse wider last stream) := by
  induction form using goesOn_induction generalizing last stream with
  | done instruction => exact .inl rfl
  | goOn form asks inductionHypothesis =>
      cases view : stream.view with
      | broken error span after =>
          rw [parse_eq_of_view_broken view asks, parse_eq_of_view_broken view asks]
          exact .inl rfl
      | token found span after =>
          have start : span.start = stream.position :=
            congrArg (·.span.start) (Stream.front_of_view_token view).symm
          have reached := ((stops wider form last stream).position_le ascends).1
          rcases judge_eq_or_refuse within form found with same | ⟨different, cause, refused⟩
          · rw [parse_eq_of_view_token limits view, parse_eq_of_view_token wider view, same]
            cases judged : form.judge wider found with
            | read next =>
                exact inductionHypothesis next (goesOn_of_judge asks (.inl judged)) span
                  ((Stream.isBehind_of_view_token view).ascends ascends)
            | leave next =>
                exact inductionHypothesis next (goesOn_of_judge asks (.inr judged)) last ascends
            | refuse cause => exact .inl rfl
          · rw [parse_eq_of_view_token limits view, refused]
            exact .inr ⟨different, ⟨span, cause⟩, rfl, start ▸ reached⟩

/-! ## Programs -/

theorem Statement.precedes (within : limits.IsWithin wider) (ascends : stream.Ascends) :
    (Statement.parse limits stream).Precedes limits wider (Statement.parse wider stream) := by
  unfold Statement.parse
  split
  · exact .inl rfl
  · rename_i name span after view
    split
    · exact .inl rfl
    · exact (Form.precedes within _ span
        ((Stream.isBehind_of_view_token view).ascends ascends)).map _
  · exact .inl rfl

namespace Program

/-- What is read behind a statement is read behind what the statement has come up to. -/
theorem reached_le_reached_followed (limits : Limits) {parsed : Parsed Statement}
    (ascends : parsed.rest.Ascends) : parsed.reached ≤ (followed limits parsed).reached := by
  cases answered : parsed.answer with
  | error error =>
      have failed := followed_of_error limits answered
      exact Nat.le_of_eq ((Parsed.reached_of_error answered).trans
        (Parsed.reached_of_error failed).symm)
  | ok statement =>
      rw [Parsed.reached, answered]
      have behind := stops_followed answered fun found span after view notEnd =>
        stops limits after
      exact (behind.position_le ascends).1

/-- Behind a statement that is the same under wider limits everything precedes, if it does behind a
separator there. -/
theorem precedes_followed (parsed : Parsed Statement)
    (following : ∀ found span after, parsed.rest.view = .token found span after →
      found ≠ .endOfInput → (parse limits after).Precedes limits wider (parse wider after)) :
    (followed limits parsed).Precedes limits wider (followed wider parsed) := by
  cases answered : parsed.answer with
  | error error => exact .inl (by simp [followed, answered])
  | ok statement =>
      rw [followed, followed, answered]
      cases view : parsed.rest.view with
      | broken error span after => exact .inl rfl
      | token found span after =>
          dsimp only
          split
          · exact .inl rfl
          rename_i notEnd
          split
          · exact (following found span after view notEnd).map _
          · exact .inl rfl

theorem precedes (within : limits.IsWithin wider) (ascends : stream.Ascends) :
    (parse limits stream).Precedes limits wider (parse wider stream) := by
  induction stream using parse_induction with
  | broken view =>
      rw [parse_of_view_broken view, parse_of_view_broken view]
      exact .inl rfl
  | ended view =>
      rw [parse_of_view_endOfInput view, parse_of_view_endOfInput view]
      exact .inl rfl
  | separated view inductionHypothesis =>
      rw [parse_of_view_separator view, parse_of_view_separator view]
      exact inductionHypothesis ((Stream.isBehind_of_view_token view).ascends ascends)
  | @stated stream found span after view inner inductionHypothesis =>
      have left := (Statement.stops wider stream).behind
      rw [parse_of_view_inner view inner, parse_of_view_inner view inner]
      rcases Statement.precedes within ascends with same | ⟨different, error, failed, before⟩
      · rw [same]
        refine precedes_followed _ fun found' span' after' view' notEnd => ?_
        have behind := (Stream.isBehind_of_view_token view').trans left
        exact inductionHypothesis wider view' notEnd (behind.ascends ascends)
      · refine .inr ⟨different, error, followed_of_error limits failed, ?_⟩
        exact Nat.le_trans before (reached_le_reached_followed wider (left.ascends ascends))

/-! ## Sources -/

theorem ofText_precedes (within : limits.IsWithin wider) (text : List Char) :
    (parse limits (Stream.ofText 0 text)).Precedes limits wider
      (parse wider (Stream.ofText 0 text)) :=
  precedes within (Stream.ascends_ofText 0 text)

/-- The limits say nothing but how many channels there are. -/
theorem ofText_congr (same : ∀ device : Device, device.count limits = device.count wider)
    (text : List Char) : ofText limits text = ofText wider text := by
  rcases ofText_precedes (fun device => Nat.le_of_eq (same device)) text with
    equal | ⟨⟨device, different⟩, -⟩
  · exact congrArg Parsed.answer equal
  · exact absurd (same device) different

end Program

namespace Limits

section

variable (limits wider : Limits) (text : List Char)

/-- Nothing is lost with limits that allow more channels, and a refusal under these is no earlier
than one under the narrower limits. -/
structure Widens : Prop where
  /-- The source is read under both limits, or there is an error in it. -/
  answers : (∃ answer, Program.ofText? limits text = some answer) ∧
    ∃ answer, Program.ofText? wider text = some answer
  /-- What is read stays the same, with all places. -/
  reads : ∀ statements, Program.ofText? limits text = some (.ok statements) →
    Program.ofText? wider text = some (.ok statements)
  /-- What is compiled stays the same. -/
  compiles : ∀ compiled, compile? limits text = some (.ok compiled) →
    compile? wider text = some (.ok compiled)
  /-- What the wider limits refuse is refused, and no later. -/
  refuses : ∀ error, Program.ofText? wider text = some (.error error) →
    ∃ error', Program.ofText? limits text = some (.error error') ∧
      error'.span.start ≤ error.span.start
  /-- More than thirty-two TTL lines are the same as thirty-two. -/
  many : ∀ count : UInt8, 32 ≤ count →
    Program.ofText? { limits with ttl := count } text =
        Program.ofText? { limits with ttl := 32 } text ∧
      compile? { limits with ttl := count } text = compile? { limits with ttl := 32 } text

end

/-- Reading and compiling a source shorter than `2 ^ 32` bytes under wider limits. -/
theorem widens (ttl : limits.ttl ≤ wider.ttl) (dds : limits.dds ≤ wider.dds)
    (dac : limits.dac ≤ wider.dac) {text : List Char} (short : byteLength text < 2 ^ 32) :
    Widens limits wider text := by
  have precedes := Program.ofText_precedes (isWithin_of_le ttl dds dac) text
  have words (limits : Limits) := Program.ofText?_eq limits short
  have reads : ∀ statements, Program.ofText? limits text = some (.ok statements) →
      Program.ofText? wider text = some (.ok statements) := by
    intro statements done
    rw [words, Option.some.injEq] at done ⊢
    rcases precedes with same | ⟨-, error, failed, -⟩
    · exact (congrArg Parsed.answer same).symm.trans done
    · cases done.symm.trans failed
  refine ⟨⟨⟨_, words limits⟩, _, words wider⟩, reads, ?compiles, ?refuses, ?many⟩
  case compiles =>
    intro compiled done
    obtain ⟨statements, read, rfl⟩ := exists_ofText?_of_compile? done
    exact compile?_of_ok (reads statements read)
  case refuses =>
    intro error failed
    rw [words] at failed ⊢
    rw [Option.some.injEq] at failed
    rcases precedes with same | ⟨-, error', failed', before⟩
    · exact ⟨error, congrArg some ((congrArg Parsed.answer same).trans failed), Nat.le_refl _⟩
    · exact ⟨error', congrArg some failed', Parsed.reached_of_error failed ▸ before⟩
  case many =>
    intro count enough
    have same : Program.ofText? { limits with ttl := count } text =
        Program.ofText? { limits with ttl := 32 } text := by
      rw [words, words, Program.ofText_congr (limits.count_ttl enough) text]
    exact ⟨same, by rw [compile?, compile?, same]⟩

/-- A source with an error that the wider limits leave, behind one that they do not leave. -/
theorem widens_two_errors :
    ((4 : UInt8) ≤ 32 ∧ (1 : UInt8) ≤ 22 ∧ (4 : UInt8) ≤ 4 ∧
        byteLength "freq(3) = 5\nttl(7) = 2".toList < 2 ^ 32) ∧
      Program.ofText? ⟨4, 1, 4⟩ "freq(3) = 5\nttl(7) = 2".toList =
        some (.error ⟨⟨0, 5, 6⟩, .channelOutOfRange .dds 3 1⟩) ∧
      Program.ofText? ⟨32, 22, 4⟩ "freq(3) = 5\nttl(7) = 2".toList =
        some (.error ⟨⟨0, 21, 22⟩, .levelOutOfRange 2⟩) ∧
      Widens ⟨4, 1, 4⟩ ⟨32, 22, 4⟩ "freq(3) = 5\nttl(7) = 2".toList :=
  ⟨by decide +kernel, by decide +kernel, by decide +kernel,
    widens (by decide) (by decide) (by decide) (by decide +kernel)⟩

/-- The wider limits leave no error but that at the end of a source of `2 ^ 32` bytes, which has the
place of its start. -/
theorem not_widens_indented :
    byteLength (indented (2 ^ 32 - 12) "dac(2)=0;ttl".toList) = 2 ^ 32 ∧
      Program.ofText? ⟨32, 22, 2⟩ (indented (2 ^ 32 - 12) "dac(2)=0;ttl".toList) =
        some (.error ⟨⟨0, 2 ^ 32 - 8, 2 ^ 32 - 7⟩, .channelOutOfRange .dac 2 2⟩) ∧
      Program.ofText? ⟨32, 22, 4⟩ (indented (2 ^ 32 - 12) "dac(2)=0;ttl".toList) =
        some (.error ⟨⟨0, 0, 0⟩, .expectedMark .leftParen .endOfInput⟩) ∧
      ¬ Widens ⟨32, 22, 2⟩ ⟨32, 22, 4⟩ (indented (2 ^ 32 - 12) "dac(2)=0;ttl".toList) := by
  have narrow : Program.ofText? ⟨32, 22, 2⟩ (indented (2 ^ 32 - 12) "dac(2)=0;ttl".toList) =
      some (.error ⟨⟨0, 2 ^ 32 - 8, 2 ^ 32 - 7⟩, .channelOutOfRange .dac 2 2⟩) := by
    rw [Program.ofText?_indented _ _ (by decide), Option.some.injEq]
    decide +kernel
  have wide : Program.ofText? ⟨32, 22, 4⟩ (indented (2 ^ 32 - 12) "dac(2)=0;ttl".toList) =
      some (.error ⟨⟨0, 0, 0⟩, .expectedMark .leftParen .endOfInput⟩) := by
    rw [Program.ofText?_indented _ _ (by decide), Option.some.injEq]
    decide +kernel
  refine ⟨byteLength_indented .., narrow, wide, fun widens => ?_⟩
  obtain ⟨error, refused, before⟩ := widens.refuses _ wide
  cases narrow.symm.trans refused
  exact absurd before (by decide)

end Limits

end

end Sequencer
