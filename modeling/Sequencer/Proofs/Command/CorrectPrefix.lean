import Sequencer.Proofs.Command.Words

/-!
# Errors at the first hopeless token

Reading passes a token only if something can follow it, as long as there is a channel of every
kind: whatever is left of a form can be completed (`Form.exists_completion`). So the tokens in front
of an error are the beginning of a program, and as what reading comes to depends on the tokens only,
no program goes on with the token at which reading failed.

The error of a source stands in the same place: the text in front of it scans to these tokens, and
what is found there is what was refused (`Program.FailsAt`), with places in words as long as the
length of the source is a word (`Program.failsAt_ofText?`).
-/

namespace Sequencer

open Sequencer.Source Sequencer.Text

/-! ## Completing what was read -/

namespace Form

variable {limits : Limits}

/-- Every form that asks for anything reads some token, if there is a channel of every kind. -/
theorem exists_read (channels : ∀ device : Device, 0 < device.count limits) {form : Form}
    (asks : form.IsOpen) : ∃ token next, form.judge limits token = .read next := by
  cases form with
  | done instruction => exact absurd rfl (asks instruction)
  | mark token next => exact ⟨token, next, if_pos rfl⟩
  | channel device next => exact ⟨.number 0, _, if_pos (channels device)⟩
  | amount quantity next => exact ⟨.number 0, next 0, by rw [judge, if_pos (Nat.zero_le _)]⟩
  | level next => exact ⟨.number 0, _, rfl⟩
  | extraWait instruction =>
      refine ⟨.number 0, .done { instruction with wait := instruction.wait + UInt32.ofNat 0 }, ?_⟩
      have fits : instruction.wait.toNat + 0 < UInt32.size := instruction.wait.toNat_lt
      rw [judge, if_neg (Nat.not_lt_zero _), if_pos fits]
  | choice token taken skipped => exact ⟨token, taken, if_pos rfl⟩

/-- Every form can be completed. -/
theorem exists_completion (channels : ∀ device : Device, 0 < device.count limits) (form : Form) :
    ∃ tokens instruction, form.Gives limits tokens (.ok .endOfInput) (.ok instruction) := by
  induction form using goesOn_induction with
  | done instruction => exact ⟨[], instruction, .done instruction _⟩
  | goOn form asks inductionHypothesis =>
      obtain ⟨token, next, judged⟩ := exists_read channels asks
      obtain ⟨tokens, instruction, gives⟩ :=
        inductionHypothesis next (goesOn_of_judge asks (.inl judged))
      exact ⟨token :: tokens, instruction, .read asks judged gives⟩

/-- The tokens that a form passes can be completed. -/
theorem Gives.exists_completion (channels : ∀ device : Device, 0 < device.count limits)
    {form : Form} {tokens : List Token} {found : Except LexicalError Token}
    {answer : Except ParseError.Cause Instruction}
    (gives : form.Gives limits tokens found answer) :
    ∃ more instruction, form.Gives limits (tokens ++ more) (.ok .endOfInput) (.ok instruction) := by
  induction gives with
  | done | broken | refuse => exact Form.exists_completion channels _
  | read asks judged following inductionHypothesis =>
      obtain ⟨more, instruction, completed⟩ := inductionHypothesis
      exact ⟨more, instruction, .read asks judged completed⟩
  | @leave form next token tokens found answer asks judged shown following inductionHypothesis =>
      cases tokens with
      | nil => exact Form.exists_completion channels form
      | cons first others =>
          -- The token that was left to what follows is passed there.
          obtain ⟨more, instruction, completed⟩ := inductionHypothesis
          exact ⟨more, instruction, .leave asks judged shown completed⟩

end Form

/-- The tokens that a statement passes can be completed. -/
theorem Statement.Gives.exists_completion {limits : Limits}
    (channels : ∀ device : Device, 0 < device.count limits) {tokens : List Token}
    {found : Except LexicalError Token} {answer : Except ParseError.Cause Instruction}
    (gives : Statement.Gives limits tokens found answer) :
    ∃ more instruction,
      Statement.Gives limits (tokens ++ more) (.ok .endOfInput) (.ok instruction) := by
  cases gives with
  | notCommand | unknown =>
      obtain ⟨form, named⟩ : ∃ form, Form.ofName? "wait" = some form := ⟨_, rfl⟩
      obtain ⟨more, instruction, completed⟩ := Form.exists_completion channels form
      exact ⟨.word "wait" :: more, instruction, .command named completed⟩
  | command named behind =>
      obtain ⟨more, instruction, completed⟩ := behind.exists_completion channels
      exact ⟨more, instruction, .command named completed⟩

namespace Program

variable {limits : Limits} {tokens : List Token}

/-- The tokens that a program passes can be completed. -/
theorem Gives.exists_completion (channels : ∀ device : Device, 0 < device.count limits)
    {found : Except LexicalError Token} {answer : Except ParseError.Cause (List Instruction)}
    (gives : Gives limits tokens found answer) :
    ∃ more instructions, Gives limits (tokens ++ more) (.ok .endOfInput) (.ok instructions) := by
  induction gives with
  | done | broken => exact ⟨[], [], .done⟩
  | empty separator following inductionHypothesis =>
      obtain ⟨more, instructions, completed⟩ := inductionHypothesis
      exact ⟨more, instructions, .empty separator completed⟩
  | refuse statement | last statement | brokenBehind statement | notEnded inner statement =>
      obtain ⟨more, instruction, completed⟩ := statement.exists_completion channels
      exact ⟨more, [instruction], .last completed⟩
  | @line tokens others separator found instruction answer statement following
      inductionHypothesis =>
      obtain ⟨more, instructions, completed⟩ := inductionHypothesis
      refine ⟨more, instruction :: instructions, ?_⟩
      rw [List.append_assoc]
      exact .line statement completed

end Program

/-! ## Lists of tokens -/

/-- A stream of tokens that stand in no source. -/
def Stream.ofTokens (tokens : List Token) : Stream :=
  ⟨tokens.map fun token => ⟨default, .ok token⟩, default⟩

namespace Stream

theorem leads_ofTokens (first second : List Token) :
    (ofTokens (first ++ second)).Leads first (ofTokens second) := by
  induction first with
  | nil => exact .here _
  | cons token others inductionHypothesis => exact .step rfl inductionHypothesis

theorem content_front_ofTokens {tokens : List Token} {token : Token}
    (shown : (tokens ++ [Token.endOfInput]).head? = some token) :
    (ofTokens tokens).front.content = .ok token := by
  cases tokens <;> cases shown <;> rfl

end Stream

namespace Program

variable {limits : Limits} {tokens : List Token}

/-- Tokens that are read as a program. -/
def Accepts (limits : Limits) (tokens : List Token) : Prop :=
  ∃ statements, (parse limits (Stream.ofTokens tokens)).answer = .ok statements

/-- Tokens are read as a program exactly if they have a derivation within the limits. -/
theorem accepts_iff_derivation (notEnd : ∀ token ∈ tokens, token ≠ .endOfInput) :
    Accepts limits tokens ↔ ∃ tree : ProgramTree, tree.yield = tokens ∧ tree.Within limits := by
  have real : ∀ lexeme ∈ (Stream.ofTokens tokens).lexemes, lexeme.content ≠ .ok .endOfInput := by
    rintro lexeme inside
    obtain ⟨token, within, rfl⟩ := List.mem_map.mp inside
    exact fun same => notEnd token within (Except.ok.inj same)
  have contents : (Stream.ofTokens tokens).lexemes.map Lexeme.content = tokens.map .ok := by
    simp [Stream.ofTokens]
  constructor
  · rintro ⟨statements, read⟩
    obtain ⟨tree, leads, ⟨span, after, ended⟩, within, -⟩ :=
      exists_tree_of_parse (Parsed.eq_success_of_answer read)
    have same := (Stream.leads_to_end_iff real fun _ => ProgramTree.ne_endOfInput_of_mem_yield).mp
      ⟨_, span, after, leads, ended⟩
    rw [contents, List.map_inj_right fun _ _ => Except.ok.inj] at same
    exact ⟨tree, same.symm, within⟩
  · rintro ⟨tree, rfl, within⟩
    obtain ⟨rest, span, after, leads, ended⟩ := (Stream.leads_to_end_iff real notEnd).mpr contents
    obtain ⟨statements, done, -⟩ := exists_parse_of_tree leads ended within
    exact ⟨statements, congrArg Parsed.answer done⟩

theorem accepts_of_gives {instructions : List Instruction}
    (gives : Gives limits tokens (.ok .endOfInput) (.ok instructions)) :
    Accepts limits tokens := by
  have leads := Stream.leads_ofTokens tokens []
  rw [List.append_nil] at leads
  obtain ⟨statements, done, -⟩ := gives.answers leads rfl
  exact ⟨statements, congrArg Parsed.answer done⟩

/-- No program begins with the tokens that were passed in front of a token that was refused, and
with that token. -/
theorem not_accepts_of_gives {token : Token} {cause : ParseError.Cause} {accepted : List Token}
    (gives : Gives limits tokens (.ok token) (.error cause))
    (begins : tokens ++ [token] <+: accepted ++ [.endOfInput]) : ¬ Accepts limits accepted := by
  rintro ⟨statements, read⟩
  obtain ⟨later, rfl, shown⟩ : ∃ later, accepted = tokens ++ later ∧
      (later ++ [Token.endOfInput]).head? = some token := by
    obtain ⟨others, whole⟩ := begins
    rw [List.append_assoc, List.append_eq_append_iff] at whole
    rcases whole with ⟨later, rfl, same⟩ | ⟨missing, rfl, same⟩
    · exact ⟨later, rfl, same ▸ rfl⟩
    · cases missing with
      | nil => exact ⟨[], by simp, same ▸ rfl⟩
      | cons first missing => simp at same
  have answers := gives.answers (Stream.leads_ofTokens tokens later)
    (Stream.content_front_ofTokens shown)
  rw [Parsed.Answers, read] at answers
  cases answers

end Program

/-! ## Errors of a source -/

namespace Stream

open Scan

/-- The lexemes that begin in front of an offset. -/
def before (stream : Stream) (offset : Nat) : List Lexeme :=
  stream.lexemes.takeWhile fun lexeme => lexeme.span.start < offset

/-- The first lexeme that does not begin in front of an offset, or the end of input. -/
def foundAt (stream : Stream) (offset : Nat) : Lexeme :=
  (Stream.mk (stream.lexemes.dropWhile fun lexeme => lexeme.span.start < offset) stream.stop).front

theorem start_lt_of_mem_place {source offset : Nat} {items : List Item}
    (filled : ∀ item ∈ items, item.text ≠ []) :
    ∀ lexeme ∈ place source offset items,
      lexeme.span.start < offset + byteLength (textOf items) := by
  induction items generalizing offset with
  | nil => simp [place]
  | cons item items inductionHypothesis =>
      rw [List.forall_mem_cons] at filled
      have longer : 0 < byteLength item.text := by
        cases text : item.text with
        | nil => exact absurd text filled.1
        | cons c rest => exact Nat.add_pos_left c.utf8Size_pos _
      simp only [place, List.forall_mem_cons, textOf_cons, byteLength_append]
      refine ⟨by omega, fun lexeme inside => ?_⟩
      have later := inductionHypothesis filled.2 lexeme inside
      omega

/-- Lexemes that begin in front of the first of the others are those in front of it. -/
theorem before_eq_foundAt_eq {first second : List Lexeme} {stop : Span} {offset : Nat}
    (earlier : ∀ lexeme ∈ first, lexeme.span.start < offset)
    (place : (Stream.mk second stop).front.span.start = offset) :
    (Stream.mk (first ++ second) stop).before offset = first ∧
      (Stream.mk (first ++ second) stop).foundAt offset = (Stream.mk second stop).front := by
  have holds : ∀ lexeme ∈ first, decide (lexeme.span.start < offset) = true := by
    simpa using earlier
  rw [before, foundAt, List.takeWhile_append_of_pos holds, List.dropWhile_append_of_pos holds]
  cases second with
  | nil => simp
  | cons lexeme others =>
      have same : lexeme.span.start = offset := place
      simp [same]

end Stream

namespace Program

open Scan

variable {limits : Limits} {source : List Char} {error : ParseError} {tokens : List Token}

/-- An error stands at the first token that makes a source hopeless; `tokens` are those in front of
it. -/
structure FailsAt (limits : Limits) (source : List Char) (error : ParseError)
    (tokens : List Token) : Prop where
  /-- The text in front of the error is cut into tokens. -/
  scans : ∃ text rest, source = text ++ rest ∧ byteLength text = error.span.start ∧
    (Scan.ofText text).tokens = .ok tokens
  /-- They are the tokens of the source that begin there. -/
  before : ((Stream.ofText 0 source).before error.span.start).map Lexeme.content =
    tokens.map .ok
  /-- The error is about what is found behind them. -/
  span : ((Stream.ofText 0 source).foundAt error.span.start).span = error.span
  /-- Some program begins with them. -/
  possible : ∃ accepted, Accepts limits accepted ∧ tokens <+: accepted ∧
    ∀ token ∈ accepted, token ≠ .endOfInput
  /-- No program begins with them and the token that is found, if it is one. -/
  hopeless : ∀ token, ((Stream.ofText 0 source).foundAt error.span.start).content = .ok token →
    ∀ accepted, Accepts limits accepted → ¬ tokens ++ [token] <+: accepted ++ [.endOfInput]
  /-- If it is none, that is the error. -/
  lexical : ∀ fault, ((Stream.ofText 0 source).foundAt error.span.start).content = .error fault →
    error.cause = .lexical fault

/-- The text in front of what is left of a source is cut into the tokens that were passed. -/
theorem Reads.exists_text {passed later : List Item}
    {answer : Except ParseError.Cause (List Instruction)}
    (reads : Reads limits source passed later tokens answer) :
    ∃ text rest, source = text ++ rest ∧
      byteLength text = (left source passed later).front.span.start ∧
      (Scan.ofText text).tokens = .ok tokens := by
  have items := reads.items
  cases later with
  | nil =>
      rw [List.append_nil] at items
      refine ⟨source, [], (List.append_nil _).symm, rfl, Scan.tokens_eq_ok_iff.mpr ?_⟩
      rw [items, reads.contents]
  | cons item others =>
      obtain ⟨rest, same, scanned⟩ := Scan.exists_cut items
      refine ⟨_, rest, same, byteLength_append .., Scan.tokens_eq_ok_iff.mpr ?_⟩
      rw [scanned, reads.contents]

/-- What stands in front of what is left of a source, and what is found there. -/
theorem Reads.before_foundAt {passed later : List Item}
    {answer : Except ParseError.Cause (List Instruction)}
    (reads : Reads limits source passed later tokens answer) :
    ((Stream.ofText 0 source).before (left source passed later).front.span.start).map
        Lexeme.content = tokens.map .ok ∧
      (Stream.ofText 0 source).foundAt (left source passed later).front.span.start =
        (left source passed later).front := by
  have filled : ∀ item ∈ passed, item.text ≠ [] := by
    intro item inside
    obtain ⟨c, rest, text, -⟩ :=
      exists_readFrom_of_mem (reads.items ▸ List.mem_append_left later inside)
    exact text ▸ List.cons_ne_nil c _
  have reached : byteLength (textOf passed) ≤ (left source passed later).front.span.start := by
    cases later with
    | nil =>
        have whole := congrArg byteLength (Scan.text_ofText source)
        rw [Scan.text, reads.items, List.append_nil, byteLength_append] at whole
        exact Nat.le.intro whole
    | cons item others => exact Nat.le_add_right ..
  have earlier : ∀ lexeme ∈ Stream.place 0 0 passed,
      lexeme.span.start < (left source passed later).front.span.start := by
    intro lexeme inside
    have start := Stream.start_lt_of_mem_place filled lexeme inside
    omega
  obtain ⟨before, foundAt⟩ := Stream.before_eq_foundAt_eq earlier rfl
  rw [Stream.ofText, reads.items, Stream.place_append, Nat.zero_add]
  refine ⟨?_, foundAt⟩
  rw [← reads.contents, ← Stream.map_content_place 0 0 passed]
  exact congrArg (List.map Lexeme.content) before

/-- The tokens in front of an error are the beginning of a program, as long as there is a channel of
every kind, and no program goes on behind them with what is found there. -/
theorem ofText_failsAt (ttl : 1 ≤ limits.ttl) (dds : 1 ≤ limits.dds) (dac : 1 ≤ limits.dac)
    (failed : ofText limits source = .error error) :
    ∃ tokens, FailsAt limits source error tokens := by
  have channels : ∀ device : Device, 0 < device.count limits := by
    intro device
    cases device with
    | ttl => exact Nat.lt_min.mpr ⟨UInt8.le_iff_toNat_le.mp ttl, by decide⟩
    | dds => exact UInt8.le_iff_toNat_le.mp dds
    | dac => exact UInt8.le_iff_toNat_le.mp dac
  obtain ⟨passed, later, tokens, cause, reads, rfl⟩ := exists_reads_of_eq_error failed
  obtain ⟨before, foundAt⟩ := reads.before_foundAt
  obtain ⟨more, instructions, completed⟩ := reads.gives.exists_completion channels
  refine ⟨tokens, reads.exists_text, before, ?_, ?_, ?_, ?_⟩
  · rw [foundAt]
  · exact ⟨tokens ++ more, accepts_of_gives completed, List.prefix_append ..,
      completed.ne_endOfInput⟩
  · intro token found accepted accepts begins
    rw [foundAt] at found
    exact not_accepts_of_gives (found ▸ reads.gives) begins accepts
  · intro fault found
    rw [foundAt] at found
    have agrees := reads.gives.agrees rfl
    rwa [found] at agrees

/-- In a source shorter than `2 ^ 32` bytes an error stands at the first token that makes the source
hopeless, as long as there is a channel of every kind. -/
theorem failsAt_ofText? (short : byteLength source < 2 ^ 32) (ttl : 1 ≤ limits.ttl)
    (dds : 1 ≤ limits.dds) (dac : 1 ≤ limits.dac) :
    ∃ answer, ofText? limits source = some answer ∧
      ∀ error, answer = .error error → ∃ tokens, FailsAt limits source error tokens :=
  ⟨_, ofText?_eq limits short, fun _ => ofText_failsAt ttl dds dac⟩

/-- A DDS channel that is not there, in the second line. -/
theorem failsAt_ofText?_missing_channel :
    (byteLength "wait(5)\nfreq(22)=1".toList < 2 ^ 32 ∧
        (1 : UInt8) ≤ 32 ∧ (1 : UInt8) ≤ 22 ∧ (1 : UInt8) ≤ 4) ∧
      ofText? {} "wait(5)\nfreq(22)=1".toList =
        some (.error ⟨⟨0, 13, 15⟩, .channelOutOfRange .dds 22 22⟩) ∧
      FailsAt {} "wait(5)\nfreq(22)=1".toList ⟨⟨0, 13, 15⟩, .channelOutOfRange .dds 22 22⟩
        [.word "wait", .leftParen, .number 5, .rightParen, .endOfLine, .word "freq",
          .leftParen] := by
  have short : byteLength "wait(5)\nfreq(22)=1".toList < 2 ^ 32 := by decide +kernel
  have failed : ofText? {} "wait(5)\nfreq(22)=1".toList =
      some (.error ⟨⟨0, 13, 15⟩, .channelOutOfRange .dds 22 22⟩) := by
    decide +kernel
  obtain ⟨answer, read, fails⟩ :=
    failsAt_ofText? short (show 1 ≤ ({} : Limits).ttl by decide) (by decide) (by decide)
  obtain ⟨tokens, failsAt⟩ := fails _ (Option.some.inj (read.symm.trans failed))
  have before : ((Stream.ofText 0 "wait(5)\nfreq(22)=1".toList).before 13).map Lexeme.content =
      [Token.word "wait", .leftParen, .number 5, .rightParen, .endOfLine, .word "freq",
        .leftParen].map .ok := by
    decide +kernel
  have same := failsAt.before.symm.trans before
  rw [List.map_inj_right fun _ _ => Except.ok.inj] at same
  exact ⟨⟨short, by decide⟩, failed, same ▸ failsAt⟩

/-- The end of a source of `2 ^ 32` bytes has the place of its start, where there are no tokens in
front, and what is found is the beginning of a program. -/
theorem not_failsAt_indented :
    byteLength (indented (2 ^ 32 - 3) "ttl".toList) = 2 ^ 32 ∧
      ∃ error, ofText? {} (indented (2 ^ 32 - 3) "ttl".toList) = some (.error error) ∧
        error.span.start = 0 ∧
        ∀ tokens, ¬ FailsAt {} (indented (2 ^ 32 - 3) "ttl".toList) error tokens := by
  have read : ofText? {} (indented (2 ^ 32 - 3) "ttl".toList) =
      some (.error ⟨⟨0, 0, 0⟩, .expectedMark .leftParen .endOfInput⟩) := by
    rw [ofText?_indented {} _ (by decide), Option.some.injEq]
    decide +kernel
  have nothing : ((Stream.ofText 0 (indented (2 ^ 32 - 3) "ttl".toList)).before 0).map
      Lexeme.content = [] := by
    rw [Stream.ofText_indented]
    decide +kernel
  have found : ((Stream.ofText 0 (indented (2 ^ 32 - 3) "ttl".toList)).foundAt 0).content =
      .ok (.word "ttl") := by
    rw [Stream.ofText_indented]
    decide +kernel
  have accepts : Accepts {} [.word "ttl", .equals, .number 1] :=
    ⟨[⟨⟨.ttlAll 1, 0⟩, default⟩], by decide +kernel⟩
  refine ⟨byteLength_indented .., _, read, rfl, fun tokens failsAt => ?_⟩
  obtain rfl : tokens = [] := List.map_eq_nil_iff.mp (failsAt.before.symm.trans nothing)
  exact failsAt.hopeless _ found _ accepts ⟨_, rfl⟩

end Program

end Sequencer
