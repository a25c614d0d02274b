import Sequencer.Proofs.Command.Judgement
import Sequencer.Proofs.Command.Parsing
import Sequencer.Proofs.Token.Scanning

/-!
# What reading comes to

What reading a statement or a program comes to is told by the tokens that it passes and by what it
finds behind them (`Statement.Gives`, `Program.Gives`). Every stream has such an answer
(`Program.exists_gives`), and it is the answer of the reader (`Program.Gives.answers`), wherever the
tokens stand. In a source they are the first items of the scan, and an error has the place of what
stands behind them (`Program.Reads`).
-/

namespace Sequencer

open Sequencer.Source Sequencer.Text

/-! ## Statements -/

theorem Parsed.Answers.map {α β γ δ : Type} {parsed : Parsed α} {rest : Stream}
    {meaning : α → γ} {meaning' : β → δ} {change : α → β} {change' : γ → δ}
    {answer : Except ParseError.Cause γ} (answers : parsed.Answers rest meaning answer)
    (same : ∀ value, meaning' (change value) = change' (meaning value)) :
    (parsed.map change).Answers rest meaning' (answer.map change') := by
  rcases parsed with ⟨_ | value, left⟩
  · cases answer with
    | error cause =>
        cases answers
        rfl
    | ok value =>
        obtain ⟨found, impossible, -⟩ := answers
        cases impossible
  · cases answer with
    | error cause => cases answers
    | ok value' =>
        obtain ⟨found, done, means⟩ := answers
        cases done
        exact ⟨_, rfl, (same _).trans (congrArg change' means)⟩

theorem Parsed.Answers.changed {α β γ : Type} {parsed : Parsed α} {rest : Stream}
    {meaning : α → γ} {meaning' : β → γ} {change : α → β} {answer : Except ParseError.Cause γ}
    (answers : parsed.Answers rest meaning answer)
    (same : ∀ value, meaning' (change value) = meaning value) :
    (parsed.map change).Answers rest meaning' answer := by
  have mapped : (parsed.map change).Answers rest meaning' (answer.map id) := answers.map same
  rwa [Except.map_id] at mapped

/-- What reading a statement comes to where an inner token stands. -/
inductive Statement.Gives (limits : Limits) :
    List Token → Except LexicalError Token → Except ParseError.Cause Instruction → Prop
  | notCommand {token : Token} (inner : token.IsInner) (unnamed : ∀ name, token ≠ .word name) :
      Gives limits [] (.ok token) (.error (.expectedCommand token))
  | unknown {name : String} (unknown : Form.ofName? name = none) :
      Gives limits [] (.ok (.word name)) (.error (.unknownCommand name))
  | command {name : String} {form : Form} {tokens : List Token}
      {found : Except LexicalError Token} {answer : Except ParseError.Cause Instruction}
      (named : Form.ofName? name = some form) (behind : form.Gives limits tokens found answer) :
      Gives limits (.word name :: tokens) found answer

namespace Statement

variable {limits : Limits} {stream rest : Stream}

/-- A statement begins with a name. -/
theorem answer_of_not_word {found : Token} {span : Span} {after : Stream}
    (seen : stream.view = .token found span after) (unnamed : ∀ name, found ≠ .word name) :
    (parse limits stream).answer = .error ⟨span, .expectedCommand found⟩ := by
  cases found with
  | word name => exact absurd rfl (unnamed name)
  | _ => simp [parse, seen, Parsed.failure]

/-- Reading a statement comes to something wherever an inner token stands. -/
theorem exists_gives (limits : Limits) {after : Stream} {found : Token} {span : Span}
    (seen : stream.view = .token found span after) (inner : found.IsInner) :
    ∃ tokens rest answer, stream.Leads tokens rest ∧
      Statement.Gives limits tokens rest.front.content answer ∧
      (Statement.parse limits stream).Answers rest Statement.toInstruction answer := by
  have front := Stream.front_of_view_token seen
  by_cases named : ∃ name, found = .word name
  · obtain ⟨name, rfl⟩ := named
    cases known : Form.ofName? name with
    | none =>
        refine ⟨[], stream, .error (.unknownCommand name), .here stream, ?_, ?_⟩
        · rw [front]
          exact .unknown known
        · simp [Parsed.Answers, parse, seen, known, front, Parsed.failure]
    | some form =>
        obtain ⟨tokens, rest, answer, leads, gives, answers⟩ :=
          Form.exists_gives limits form span after
        refine ⟨.word name :: tokens, rest, answer, .step seen leads, .command known gives, ?_⟩
        simp only [parse, seen, known]
        exact answers.changed fun _ => rfl
  · have unnamed : ∀ name, found ≠ .word name := fun name same => named ⟨name, same⟩
    refine ⟨[], stream, .error (.expectedCommand found), .here stream, ?_, ?_⟩
    · rw [front]
      exact .notCommand inner unnamed
    · rw [Parsed.Answers, front]
      exact answer_of_not_word seen unnamed

theorem Gives.answers {tokens : List Token} {found : Except LexicalError Token}
    {answer : Except ParseError.Cause Instruction} (gives : Gives limits tokens found answer)
    (leads : stream.Leads tokens rest) (content : rest.front.content = found) :
    (Statement.parse limits stream).Answers rest Statement.toInstruction answer := by
  cases gives with
  | @notCommand token inner unnamed =>
      rw [Stream.leads_nil_iff.mp leads]
      obtain ⟨after, view⟩ := Stream.exists_view_token content
      exact answer_of_not_word view unnamed
  | unknown unknown =>
      rw [Stream.leads_nil_iff.mp leads]
      obtain ⟨after, view⟩ := Stream.exists_view_token content
      simp [Parsed.Answers, parse, view, unknown, Parsed.failure]
  | command named behind =>
      rcases Stream.leads_cons_iff.mp leads with ⟨span, middle, view, others⟩
      simp only [parse, view, named]
      exact (behind.answers others content span).changed fun _ => rfl

/-- A statement begins with an inner token, and passes inner tokens only. -/
theorem Gives.inner {tokens : List Token} {found : Except LexicalError Token}
    {answer : Except ParseError.Cause Instruction} (gives : Gives limits tokens found answer) :
    (∃ first, (tokens.map Except.ok ++ [found]).head? = some (.ok first) ∧ first.IsInner) ∧
      ∀ token ∈ tokens, token.IsInner := by
  cases gives with
  | notCommand inner unnamed => exact ⟨⟨_, rfl, inner⟩, by simp⟩
  | unknown unknown => exact ⟨⟨_, rfl, rfl, nofun⟩, by simp⟩
  | command named behind =>
      refine ⟨⟨_, rfl, rfl, nofun⟩, ?_⟩
      rw [List.forall_mem_cons]
      exact ⟨⟨rfl, nofun⟩, behind.inner (Form.isInner_of_ofName? named)⟩

/-- A statement that was read in front of some token is read in front of every token that does not
stand inside of statements. -/
theorem Gives.of_outer {tokens : List Token} {found : Except LexicalError Token} {other : Token}
    {instruction : Instruction} (gives : Gives limits tokens found (.ok instruction))
    (outer : ¬ other.IsInner) : Gives limits tokens (.ok other) (.ok instruction) := by
  cases gives with
  | command named behind =>
      exact .command named (behind.of_outer (Form.isInner_of_ofName? named) outer)

theorem Gives.agrees {tokens : List Token} {found : Except LexicalError Token}
    {answer : Except ParseError.Cause Instruction} {cause : ParseError.Cause}
    (gives : Gives limits tokens found answer) (failed : answer = .error cause) :
    cause.Agrees found := by
  cases gives with
  | notCommand =>
      cases failed
      exact fun named names => (Option.some.inj names).symm
  | unknown =>
      cases failed
      exact fun named names => nomatch names
  | command named behind => exact behind.agrees failed

/-- A statement that is read begins with a name. -/
theorem Gives.read {tokens : List Token} {found : Except LexicalError Token}
    {instruction : Instruction} (gives : Gives limits tokens found (.ok instruction))
    (leads : stream.Leads tokens rest) (content : rest.front.content = found) :
    ∃ name span after statement, stream.view = .token (.word name) span after ∧
      Statement.parse limits stream = .success statement rest ∧
      statement.toInstruction = instruction := by
  obtain ⟨statement, done, means⟩ := gives.answers leads content
  cases gives with
  | command named behind =>
      obtain ⟨span, after, view, -⟩ := Stream.leads_cons_iff.mp leads
      exact ⟨_, span, after, statement, view, done, means⟩

end Statement

/-! ## Programs -/

/-- What reading a program comes to. -/
inductive Program.Gives (limits : Limits) :
    List Token → Except LexicalError Token → Except ParseError.Cause (List Instruction) → Prop
  | done : Gives limits [] (.ok .endOfInput) (.ok [])
  | broken (error : LexicalError) : Gives limits [] (.error error) (.error (.lexical error))
  | empty (separator : Separator) {tokens : List Token} {found : Except LexicalError Token}
      {answer : Except ParseError.Cause (List Instruction)}
      (following : Gives limits tokens found answer) :
      Gives limits (separator.token :: tokens) found answer
  | refuse {tokens : List Token} {found : Except LexicalError Token} {cause : ParseError.Cause}
      (refused : Statement.Gives limits tokens found (.error cause)) :
      Gives limits tokens found (.error cause)
  | last {tokens : List Token} {instruction : Instruction}
      (statement : Statement.Gives limits tokens (.ok .endOfInput) (.ok instruction)) :
      Gives limits tokens (.ok .endOfInput) (.ok [instruction])
  | brokenBehind {tokens : List Token} {error : LexicalError} {instruction : Instruction}
      (statement : Statement.Gives limits tokens (.error error) (.ok instruction)) :
      Gives limits tokens (.error error) (.error (.lexical error))
  | notEnded {tokens : List Token} {token : Token} {instruction : Instruction}
      (inner : token.IsInner)
      (statement : Statement.Gives limits tokens (.ok token) (.ok instruction)) :
      Gives limits tokens (.ok token) (.error (.expectedEnd token))
  | line {tokens others : List Token} {separator : Separator} {found : Except LexicalError Token}
      {instruction : Instruction} {answer : Except ParseError.Cause (List Instruction)}
      (statement : Statement.Gives limits tokens (.ok separator.token) (.ok instruction))
      (following : Gives limits others found answer) :
      Gives limits (tokens ++ separator.token :: others) found
        (answer.map (instruction :: ·))

namespace Program

variable {limits : Limits} {stream rest : Stream}

/-- A program passes no end of input. -/
theorem Gives.ne_endOfInput {tokens : List Token} {found : Except LexicalError Token}
    {answer : Except ParseError.Cause (List Instruction)}
    (gives : Gives limits tokens found answer) : ∀ token ∈ tokens, token ≠ .endOfInput := by
  induction gives with
  | done | broken => simp
  | empty separator following inductionHypothesis =>
      rw [List.forall_mem_cons]
      exact ⟨Token.ne_endOfInput_of_isSeparator separator.isSeparator_token, inductionHypothesis⟩
  | refuse statement | last statement | brokenBehind statement | notEnded inner statement =>
      exact fun token inside => (statement.inner.2 token inside).2
  | @line tokens others separator found instruction answer statement following
      inductionHypothesis =>
      intro token inside
      rcases List.mem_append.mp inside with within | behind
      · exact (statement.inner.2 token within).2
      · rcases List.mem_cons.mp behind with rfl | later
        · exact Token.ne_endOfInput_of_isSeparator separator.isSeparator_token
        · exact inductionHypothesis token later

/-! ### The steps of reading -/

theorem parse_of_view_broken {error : LexicalError} {span : Span}
    (view : stream.view = .broken error span rest) :
    parse limits stream = .failure span (.lexical error) rest := by
  rw [parse]
  split <;> simp_all

/-- What reading comes to behind a statement. -/
def followed (limits : Limits) (parsed : Parsed Statement) : Parsed (List Statement) :=
  match parsed.answer with
  | .error error => ⟨.error error, parsed.rest⟩
  | .ok statement =>
      match parsed.rest.view with
      | .broken error span rest => .failure span (.lexical error) rest
      | .token found span rest =>
          if found = .endOfInput then .success [statement] parsed.rest
          else if found.isSeparator then (parse limits rest).map (statement :: ·)
          else .failure span (.expectedEnd found) parsed.rest

theorem parse_of_view_inner {found : Token} {span : Span}
    (view : stream.view = .token found span rest) (inner : found.IsInner) :
    parse limits stream = followed limits (Statement.parse limits stream) := by
  rw [parse]
  split
  · simp_all
  · rename_i found' span' rest' view'
    obtain ⟨rfl, -, -⟩ : found = found' ∧ _ ∧ _ := by simpa [view] using view'
    rw [dif_neg inner.2, if_neg (by simp [inner.1])]
    unfold followed
    dsimp only
    cases (Statement.parse limits stream).answer with
    | error error => rfl
    | ok statement =>
        dsimp only
        split <;> rename_i behind <;> simp [behind]

theorem followed_of_error (limits : Limits) {parsed : Parsed Statement} {error : ParseError}
    (failed : parsed.answer = .error error) :
    (followed limits parsed).answer = .error error := by
  simp [followed, failed]

theorem answer_of_view_broken {error : LexicalError} {span : Span} {after : Stream}
    (view : stream.view = .broken error span after) :
    (parse limits stream).answer = .error ⟨span, .lexical error⟩ :=
  congrArg Parsed.answer (parse_of_view_broken view)

theorem answer_of_statement_error {found : Token} {span : Span} {after : Stream}
    {error : ParseError} (view : stream.view = .token found span after) (inner : found.IsInner)
    (failed : (Statement.parse limits stream).answer = .error error) :
    (parse limits stream).answer = .error error := by
  rw [parse_of_view_inner view inner]
  exact followed_of_error limits failed

theorem answer_of_statement_broken {name : String} {span span' : Span}
    {after middle after' : Stream} {statement : Statement} {error : LexicalError}
    (view : stream.view = .token (.word name) span after)
    (done : Statement.parse limits stream = .success statement middle)
    (broken : middle.view = .broken error span' after') :
    (parse limits stream).answer = .error ⟨span', .lexical error⟩ := by
  rw [parse_of_view_inner view ⟨rfl, nofun⟩, done]
  simp [followed, Parsed.success, Parsed.failure, broken]

theorem answer_of_statement_inner {name : String} {span span' : Span} {after middle after' : Stream}
    {statement : Statement} {found : Token}
    (view : stream.view = .token (.word name) span after)
    (done : Statement.parse limits stream = .success statement middle)
    (behind : middle.view = .token found span' after') (inner : found.IsInner) :
    (parse limits stream).answer = .error ⟨span', .expectedEnd found⟩ := by
  rw [parse_of_view_inner view ⟨rfl, nofun⟩, done]
  simp [followed, Parsed.success, Parsed.failure, behind, inner.1, inner.2]

/-- Reading a program comes to something on a stream, and that is what the reader answers. -/
def ComesToAnswer (limits : Limits) (stream : Stream) : Prop :=
  ∃ tokens rest answer, stream.Leads tokens rest ∧ Gives limits tokens rest.front.content answer ∧
    (parse limits stream).Answers rest (List.map Statement.toInstruction) answer

/-- Reading comes to something behind a statement if it does behind a separator there. -/
theorem ComesToAnswer.of_statement {tokens : List Token} {middle : Stream}
    {instruction : Instruction} (leads : stream.Leads tokens middle)
    (gives : Statement.Gives limits tokens middle.front.content (.ok instruction))
    (following : ∀ (separator : Separator) span after,
      middle.view = .token separator.token span after → ComesToAnswer limits after) :
    ComesToAnswer limits stream := by
  obtain ⟨name, _, _, statement, begins, done, rfl⟩ := gives.read leads rfl
  cases behind : middle.view with
  | broken error span after =>
      have front := Stream.front_of_view_broken behind
      refine ⟨tokens, middle, .error (.lexical error), leads, ?_, ?_⟩
      · rw [front] at gives ⊢
        exact .brokenBehind gives
      · rw [Parsed.Answers, front]
        exact answer_of_statement_broken begins done behind
  | token found span after =>
      have front := Stream.front_of_view_token behind
      rw [front] at gives
      by_cases atEnd : found = .endOfInput
      · subst atEnd
        refine ⟨tokens, middle, .ok [statement.toInstruction], leads, ?_, [statement],
          parse_of_statement_endOfInput begins done behind, rfl⟩
        rw [front]
        exact .last gives
      cases separates : found.isSeparator with
      | true =>
          obtain ⟨separator, rfl⟩ := Token.isSeparator_iff.mp separates
          obtain ⟨others, rest, answer, leads', gives', answers⟩ := following _ _ _ behind
          refine ⟨tokens ++ separator.token :: others, rest, _,
            Stream.leads_append_iff.mpr ⟨middle, leads, .step behind leads'⟩,
            .line gives gives', ?_⟩
          rw [parse_of_statement_separator begins done behind]
          exact answers.map fun _ => rfl
      | false =>
          have inner : found.IsInner := ⟨separates, atEnd⟩
          refine ⟨tokens, middle, .error (.expectedEnd found), leads, ?_, ?_⟩
          · rw [front]
            exact .notEnded inner gives
          · rw [Parsed.Answers, front]
            exact answer_of_statement_inner begins done behind inner

/-- What holds of a stream, if it does of all that reading a program goes on with behind a separator
or behind a statement, holds of all streams. -/
theorem parse_induction {motive : Stream → Prop}
    (broken : ∀ {stream error span after}, stream.view = .broken error span after → motive stream)
    (ended : ∀ {stream span after}, stream.view = .token .endOfInput span after → motive stream)
    (separated : ∀ {stream} {separator : Separator} {span after},
      stream.view = .token separator.token span after → motive after → motive stream)
    (stated : ∀ {stream found span after}, stream.view = .token found span after →
      found.IsInner →
      (∀ limits {found' span' after'},
        (Statement.parse limits stream).rest.view = .token found' span' after' →
        found' ≠ .endOfInput → motive after') → motive stream)
    (stream : Stream) : motive stream := by
  induction counted : stream.size using Nat.strongRecOn generalizing stream with
  | ind size inductionHypothesis =>
  subst counted
  cases view : stream.view with
  | broken error span after => exact broken view
  | token found span after =>
      by_cases atEnd : found = .endOfInput
      · subst atEnd
        exact ended view
      have shorter := Stream.size_rest_lt_of_view_token view atEnd
      cases separates : found.isSeparator with
      | true =>
          obtain ⟨separator, rfl⟩ := Token.isSeparator_iff.mp separates
          exact separated view (inductionHypothesis _ shorter after rfl)
      | false =>
          refine stated view ⟨separates, atEnd⟩ fun limits found' span' after' view' notEnd => ?_
          have behind := Stream.size_rest_lt_of_view_token view' notEnd
          exact inductionHypothesis _
            (Nat.lt_trans behind (Statement.size_parse_lt limits view atEnd)) after' rfl

/-- Reading a program comes to something on every stream. -/
theorem exists_gives (limits : Limits) (stream : Stream) : ComesToAnswer limits stream := by
  induction stream using parse_induction with
  | @broken stream error span after view =>
      have front := Stream.front_of_view_broken view
      refine ⟨[], stream, .error (.lexical error), .here stream, ?_, ?_⟩
      · rw [front]
        exact .broken error
      · rw [Parsed.Answers, front]
        exact answer_of_view_broken view
  | @ended stream span after view =>
      have front := Stream.front_of_view_token view
      refine ⟨[], stream, .ok [], .here stream, ?_, [], parse_of_view_endOfInput view, rfl⟩
      rw [front]
      exact .done
  | @separated stream separator span after view inductionHypothesis =>
      obtain ⟨tokens, rest, answer, leads, gives, answers⟩ := inductionHypothesis
      refine ⟨separator.token :: tokens, rest, answer, .step view leads,
        .empty separator gives, ?_⟩
      rw [parse_of_view_separator view]
      exact answers
  | @stated stream found span after view inner inductionHypothesis =>
      obtain ⟨tokens, middle, answer, leads, gives, answers⟩ :=
        Statement.exists_gives limits view inner
      cases answer with
      | error cause =>
          exact ⟨tokens, middle, .error cause, leads, .refuse gives,
            answer_of_statement_error view inner answers⟩
      | ok instruction =>
          obtain ⟨statement, done, -⟩ := answers
          refine .of_statement leads gives fun separator span' after' behind => ?_
          have seen : (Statement.parse limits stream).rest.view =
              .token separator.token span' after' := by rwa [done]
          exact inductionHypothesis limits seen
            (Token.ne_endOfInput_of_isSeparator separator.isSeparator_token)

/-- What reading a program comes to is what the reader answers. -/
theorem Gives.answers {tokens : List Token} {found : Except LexicalError Token}
    {answer : Except ParseError.Cause (List Instruction)}
    (gives : Gives limits tokens found answer) (leads : stream.Leads tokens rest)
    (content : rest.front.content = found) :
    (parse limits stream).Answers rest (List.map Statement.toInstruction) answer := by
  induction gives generalizing stream with
  | done =>
      rw [Stream.leads_nil_iff.mp leads]
      obtain ⟨after, view⟩ := Stream.exists_view_token content
      exact ⟨[], parse_of_view_endOfInput view, rfl⟩
  | broken error =>
      rw [Stream.leads_nil_iff.mp leads]
      obtain ⟨after, view⟩ := Stream.exists_view_broken content
      exact answer_of_view_broken view
  | empty separator following inductionHypothesis =>
      rcases Stream.leads_cons_iff.mp leads with ⟨span, middle, view, others⟩
      rw [parse_of_view_separator view]
      exact inductionHypothesis others content
  | refuse refused =>
      obtain ⟨first, shown, inner⟩ := refused.inner.1
      have front := leads.front_content
      rw [content, shown, Option.some.injEq] at front
      obtain ⟨after, view⟩ := Stream.exists_view_token front.symm
      have answers := refused.answers leads content
      exact answer_of_statement_error view inner answers
  | last statement =>
      obtain ⟨name, _, _, read, begins, done, rfl⟩ := statement.read leads content
      obtain ⟨after, view⟩ := Stream.exists_view_token content
      exact ⟨[read], parse_of_statement_endOfInput begins done view, rfl⟩
  | brokenBehind statement =>
      obtain ⟨name, _, _, read, begins, done, rfl⟩ := statement.read leads content
      obtain ⟨after, view⟩ := Stream.exists_view_broken content
      exact answer_of_statement_broken begins done view
  | notEnded inner statement =>
      obtain ⟨name, _, _, read, begins, done, rfl⟩ := statement.read leads content
      obtain ⟨after, view⟩ := Stream.exists_view_token content
      exact answer_of_statement_inner begins done view inner
  | line statement following inductionHypothesis =>
      obtain ⟨middle, leads', behind⟩ := Stream.leads_append_iff.mp leads
      obtain ⟨span, after, view, others⟩ := Stream.leads_cons_iff.mp behind
      have front := congrArg Lexeme.content (Stream.front_of_view_token view)
      obtain ⟨name, _, _, read, begins, done, rfl⟩ := statement.read leads' front
      rw [parse_of_statement_separator begins done view]
      exact (inductionHypothesis others content).map fun _ => rfl

/-- A program is read up to the end of input only. -/
theorem Gives.found_eq {tokens : List Token} {found : Except LexicalError Token}
    {instructions : List Instruction} (gives : Gives limits tokens found (.ok instructions)) :
    found = .ok .endOfInput := by
  generalize answered : (Except.ok instructions : Except ParseError.Cause _) = answer at gives
  induction gives generalizing instructions with
  | done | last => rfl
  | broken | refuse | brokenBehind | notEnded => cases answered
  | empty separator following inductionHypothesis => exact inductionHypothesis answered
  | @line tokens others separator found instruction answer statement following
      inductionHypothesis =>
      cases answer with
      | error cause => cases answered
      | ok others => exact inductionHypothesis rfl

/-- An error is about what was found behind the tokens that were passed. -/
theorem Gives.agrees {tokens : List Token} {found : Except LexicalError Token}
    {answer : Except ParseError.Cause (List Instruction)} {cause : ParseError.Cause}
    (gives : Gives limits tokens found answer) (failed : answer = .error cause) :
    cause.Agrees found := by
  induction gives with
  | done | last => cases failed
  | broken | brokenBehind =>
      cases failed
      rfl
  | empty separator following inductionHypothesis => exact inductionHypothesis failed
  | refuse refused =>
      cases failed
      exact refused.agrees rfl
  | notEnded =>
      cases failed
      exact fun named names => (Option.some.inj names).symm
  | @line tokens others separator found instruction answer statement following
      inductionHypothesis =>
      cases answer with
      | error cause' =>
          cases failed
          exact inductionHypothesis rfl
      | ok instructions => cases failed

end Program

/-! ## Sources -/

namespace Stream

open Scan

variable {source : Nat} {stop : Span} {tokens : List Token}

/-- A stretch of a source leads over the tokens that its first items are. -/
theorem leads_place (offset : Nat) {passed later : List Item}
    (contents : passed.map Item.content = tokens.map .ok) :
    (⟨place source offset (passed ++ later), stop⟩ : Stream).Leads tokens
      ⟨place source (offset + byteLength (textOf passed)) later, stop⟩ := by
  induction passed generalizing offset tokens with
  | nil =>
      cases tokens with
      | nil => exact .here _
      | cons => cases contents
  | cons item passed inductionHypothesis =>
      cases tokens with
      | nil => cases contents
      | cons token tokens =>
          rcases item with ⟨gap, text, content⟩
          rw [List.map_cons, List.map_cons, List.cons.injEq] at contents
          rcases contents with ⟨rfl, contents⟩
          have behind := inductionHypothesis (offset + byteLength gap + byteLength text) contents
          simp only [textOf_cons, byteLength_append, ← Nat.add_assoc]
          exact leads_cons_iff.mpr ⟨_, _, rfl, behind⟩

/-- The tokens that a stretch of a source leads over are its first items. -/
theorem exists_items_of_leads {offset : Nat} {items : List Item} {rest : Stream}
    (leads : (⟨place source offset items, stop⟩ : Stream).Leads tokens rest)
    (notEnd : ∀ token ∈ tokens, token ≠ .endOfInput) :
    ∃ passed later, items = passed ++ later ∧ passed.map Item.content = tokens.map .ok ∧
      rest = ⟨place source (offset + byteLength (textOf passed)) later, stop⟩ := by
  induction tokens generalizing offset items with
  | nil =>
      rw [leads_nil_iff] at leads
      exact ⟨[], items, rfl, rfl, leads.symm⟩
  | cons token tokens inductionHypothesis =>
      obtain ⟨span, middle, view, behind⟩ := leads_cons_iff.mp leads
      rw [List.forall_mem_cons] at notEnd
      cases items with
      | nil =>
          simp only [Stream.view, place, View.token.injEq] at view
          exact absurd view.1.symm notEnd.1
      | cons item items =>
          rcases item with ⟨gap, text, _ | content⟩
          · simp [Stream.view, place] at view
          · simp only [Stream.view, place, View.token.injEq] at view
            obtain ⟨rfl, -, rfl⟩ := view
            obtain ⟨passed, later, rfl, contents, rfl⟩ := inductionHypothesis behind notEnd.2
            refine ⟨⟨gap, text, .ok content⟩ :: passed, later, rfl, ?_, ?_⟩
            · rw [List.map_cons, List.map_cons, contents]
            · simp [Nat.add_assoc]

end Stream

namespace Program

open Scan

/-- What is left of a source behind the first items of its scan. -/
def left (source : List Char) (passed later : List Item) : Stream :=
  ⟨Stream.place 0 (byteLength (textOf passed)) later,
    ⟨0, byteLength source, byteLength source⟩⟩

/-- What reading a source comes to: the items that it passes, those that are left behind them, the
tokens that it passes and the answer. -/
structure Reads (limits : Limits) (source : List Char) (passed later : List Item)
    (tokens : List Token) (answer : Except ParseError.Cause (List Instruction)) : Prop where
  items : (Scan.ofText source).items = passed ++ later
  contents : passed.map Item.content = tokens.map .ok
  gives : Gives limits tokens (left source passed later).front.content answer

variable {source : List Char} {passed later : List Item} {tokens : List Token}

/-- Reading a source comes to something. -/
theorem exists_reads (limits : Limits) (source : List Char) :
    ∃ passed later tokens answer, Reads limits source passed later tokens answer := by
  obtain ⟨tokens, rest, answer, leads, gives, -⟩ := exists_gives limits (Stream.ofText 0 source)
  obtain ⟨passed, later, items, contents, rfl⟩ :=
    Stream.exists_items_of_leads leads gives.ne_endOfInput
  rw [Nat.zero_add] at gives
  exact ⟨passed, later, tokens, answer, items, contents, gives⟩

theorem Reads.answers {answer : Except ParseError.Cause (List Instruction)}
    (reads : Reads limits source passed later tokens answer) :
    (parse limits (Stream.ofText 0 source)).Answers (left source passed later)
      (List.map Statement.toInstruction) answer := by
  refine reads.gives.answers ?_ rfl
  rw [Stream.ofText, reads.items, left, ← Nat.zero_add (byteLength (textOf passed))]
  exact Stream.leads_place 0 reads.contents

theorem Reads.exists_statements {instructions : List Instruction}
    (reads : Reads limits source passed later tokens (.ok instructions)) :
    ∃ statements, ofText limits source = .ok statements ∧
      statements.map Statement.toInstruction = instructions := by
  obtain ⟨statements, done, means⟩ := reads.answers
  exact ⟨statements, congrArg Parsed.answer done, means⟩

/-- An error has the place of what stands behind the items that were passed. -/
theorem Reads.ofText_eq_error {cause : ParseError.Cause}
    (reads : Reads limits source passed later tokens (.error cause)) :
    ofText limits source = .error ⟨(left source passed later).front.span, cause⟩ :=
  reads.answers

/-- Nothing is left of a source where the end of input is found. -/
theorem Reads.later_eq_nil {answer : Except ParseError.Cause (List Instruction)}
    (reads : Reads limits source passed later tokens answer)
    (ended : (left source passed later).front.content = .ok .endOfInput) : later = [] := by
  cases later with
  | nil => rfl
  | cons item later =>
      have inside : item ∈ (Scan.ofText source).items := by
        rw [reads.items]
        exact List.mem_append_right _ List.mem_cons_self
      exact absurd ended (Scan.content_ne_endOfInput inside)

/-- A source that is read is passed altogether. -/
theorem exists_reads_of_eq_ok {statements : List Statement}
    (read : ofText limits source = .ok statements) :
    ∃ passed tokens, Reads limits source passed [] tokens
      (.ok (statements.map Statement.toInstruction)) := by
  obtain ⟨passed, later, tokens, answer, reads⟩ := exists_reads limits source
  cases answer with
  | ok instructions =>
      obtain rfl := reads.later_eq_nil reads.gives.found_eq
      obtain ⟨statements', read', rfl⟩ := reads.exists_statements
      cases read.symm.trans read'
      exact ⟨passed, tokens, reads⟩
  | error cause => cases read.symm.trans reads.ofText_eq_error

theorem exists_reads_of_eq_error {error : ParseError}
    (failed : ofText limits source = .error error) :
    ∃ passed later tokens cause, Reads limits source passed later tokens (.error cause) ∧
      error = ⟨(left source passed later).front.span, cause⟩ := by
  obtain ⟨passed, later, tokens, answer, reads⟩ := exists_reads limits source
  cases answer with
  | ok instructions =>
      obtain ⟨statements, read, -⟩ := reads.exists_statements
      cases failed.symm.trans read
  | error cause =>
      exact ⟨passed, later, tokens, cause, reads,
        Except.error.inj (failed.symm.trans reads.ofText_eq_error)⟩

end Program

end Sequencer
