import Sequencer.Proofs.Command.Forms

/-!
# Judging tokens

Reading a form judges one token after the other: a token belongs to the form, or it is left to what
follows, or it is refused. So what reading comes to is told by the tokens that it passes and by what
it finds behind them, wherever these stand (`Form.Gives`). Every stream has such an answer
(`Form.exists_gives`), and it is the answer of the reader (`Form.Gives.answers`). An error is about
what was found there (`Form.Gives.agrees`).

The forms of commands have only tokens for marks that stand inside of statements. So they make the
same of all tokens that stand behind statements, but for the words of an error.
-/

namespace Sequencer

open Sequencer.Source

/-! ## What stands next -/

/-- The first lexeme of a stream, or the end of input behind all of them. -/
def Stream.front (stream : Stream) : Lexeme :=
  stream.lexemes.headD ⟨stream.stop, .ok .endOfInput⟩

namespace Stream

variable {stream rest : Stream} {found : Token} {error : LexicalError} {span : Span}

theorem front_of_view_token (seen : stream.view = .token found span rest) :
    stream.front = ⟨span, .ok found⟩ := by
  rcases stream with ⟨_ | ⟨⟨place, _ | token⟩, others⟩, stop⟩ <;> cases seen <;> rfl

theorem front_of_view_broken (seen : stream.view = .broken error span rest) :
    stream.front = ⟨span, .error error⟩ := by
  rcases stream with ⟨_ | ⟨⟨place, _ | token⟩, others⟩, stop⟩
  · cases seen
  · cases seen
    rfl
  · cases seen

theorem exists_view_token (content : stream.front.content = .ok found) :
    ∃ rest, stream.view = .token found stream.front.span rest := by
  rcases stream with ⟨_ | ⟨⟨place, _ | token⟩, others⟩, stop⟩
  · cases content
    exact ⟨_, rfl⟩
  · cases content
  · cases content
    exact ⟨_, rfl⟩

theorem exists_view_broken (content : stream.front.content = .error error) :
    ∃ rest, stream.view = .broken error stream.front.span rest := by
  rcases stream with ⟨_ | ⟨⟨place, _ | token⟩, others⟩, stop⟩
  · cases content
  · cases content
    exact ⟨_, rfl⟩
  · cases content

/-- A stretch of a stream and what stands behind it show what the stretch begins with. -/
theorem Leads.front_content {tokens : List Token} (leads : stream.Leads tokens rest) :
    (tokens.map Except.ok ++ [rest.front.content]).head? = some stream.front.content := by
  cases leads with
  | here => rfl
  | step seen behind =>
      rw [front_of_view_token seen]
      rfl

end Stream

/-! ## Judging a token -/

/-- What a form makes of the token that stands next. -/
inductive Form.Verdict where
  /-- The token belongs to the form, which goes on behind it. -/
  | read (next : Form)
  /-- The token is left to what the form goes on with. -/
  | leave (next : Form)
  | refuse (cause : ParseError.Cause)

namespace Form

variable {limits : Limits}

/-- Judge the token that stands next. A finished form leaves everything to what follows. -/
def judge (limits : Limits) : Form → Token → Verdict
  | .done instruction, _ => .leave (.done instruction)
  | .mark token next, found =>
      if found = token then .read next else .refuse (.expectedMark token found)
  | .channel device next, .number number =>
      if number < device.count limits then .read (next (UInt8.ofNat number))
      else .refuse (.channelOutOfRange device number (device.count limits))
  | .channel device _, found => .refuse (.expectedChannel device found)
  | .amount quantity next, .number value =>
      if value ≤ quantity.maximum then .read (next value)
      else .refuse (.quantityOutOfRange quantity value)
  | .amount quantity _, found => .refuse (.expectedQuantity quantity found)
  | .level next, found =>
      match found.level?, found with
      | some on, _ => .read (next on)
      | none, .number value => .refuse (.levelOutOfRange value)
      | none, found => .refuse (.expectedLevel found)
  | .extraWait instruction, .number value =>
      if Quantity.waitTime.maximum < value then .refuse (.quantityOutOfRange .waitTime value)
      else if instruction.wait.toNat + value < UInt32.size then
        .read (.done { instruction with wait := instruction.wait + UInt32.ofNat value })
      else .refuse .waitOverflow
  | .extraWait _, found => .refuse (.expectedQuantity .waitTime found)
  | .choice token taken skipped, found =>
      if found = token then .read taken else .leave skipped

/-- Whether a form asks for anything. -/
def IsOpen (form : Form) : Prop := ∀ instruction, form ≠ .done instruction

/-- Whether a form leaves a token that it refuses in the stream. -/
def keepsRefused : Form → Bool
  | .mark .. => true
  | _ => false

/-- Reading a form is told by its judgement of the token that stands next. -/
theorem parse_eq_of_view_token (limits : Limits) {stream rest : Stream} {found : Token}
    {span : Span} (seen : stream.view = .token found span rest) (form : Form) (last : Span) :
    form.parse limits last stream =
      match form.judge limits found with
      | .read next => next.parse limits span rest
      | .leave next => next.parse limits last stream
      | .refuse cause => .failure span cause (if form.keepsRefused then stream else rest) := by
  cases form with
  | done instruction => rfl
  | mark token next =>
      by_cases same : found = token <;> simp [parse, judge, seen, same, keepsRefused]
  | channel device next =>
      cases found with
      | number number =>
          by_cases small : number < device.count limits <;>
            simp [parse, judge, seen, small, keepsRefused]
      | _ => simp [parse, judge, seen, keepsRefused]
  | amount quantity next =>
      cases found with
      | number value =>
          by_cases small : value ≤ quantity.maximum <;>
            simp [parse, judge, seen, small, keepsRefused]
      | _ => simp [parse, judge, seen, keepsRefused]
  | level next =>
      cases names : found.level? with
      | some on => simp [parse, judge, seen, names]
      | none => cases found <;> simp [parse, judge, seen, names, keepsRefused]
  | extraWait instruction =>
      cases found with
      | number value =>
          by_cases large : Quantity.waitTime.maximum < value
          · simp [parse, judge, seen, large, keepsRefused]
          · by_cases fits : instruction.wait.toNat + value < UInt32.size <;>
              simp [parse, judge, seen, large, fits, keepsRefused]
      | _ => simp [parse, judge, seen, keepsRefused]
  | choice token taken skipped =>
      by_cases same : found = token <;> simp [parse, judge, seen, same]

/-- Reading a form follows its judgement of the token that stands next. -/
theorem parse_of_view_token (limits : Limits) {stream rest : Stream} {found : Token} {span : Span}
    (seen : stream.view = .token found span rest) (form : Form) (last : Span) :
    match form.judge limits found with
    | .read next => form.parse limits last stream = next.parse limits span rest
    | .leave next => form.parse limits last stream = next.parse limits last stream
    | .refuse cause => (form.parse limits last stream).answer = .error ⟨span, cause⟩ := by
  rw [parse_eq_of_view_token limits seen]
  cases form.judge limits found <;> rfl

/-- A form that asks for anything stops at an error. -/
theorem parse_eq_of_view_broken {stream rest : Stream} {error : LexicalError} {span : Span}
    (seen : stream.view = .broken error span rest) {form : Form} (asks : form.IsOpen)
    (last : Span) :
    form.parse limits last stream = .failure span (.lexical error) rest := by
  cases form with
  | done instruction => exact absurd rfl (asks instruction)
  | _ => simp [parse, seen]

theorem answer_of_view_broken {stream rest : Stream} {error : LexicalError} {span : Span}
    (seen : stream.view = .broken error span rest) {form : Form} (asks : form.IsOpen)
    (last : Span) :
    (form.parse limits last stream).answer = .error ⟨span, .lexical error⟩ :=
  congrArg Parsed.answer (parse_eq_of_view_broken seen asks last)

/-- A form that may be left to read when one has read or looked at a token. -/
inductive GoesOn : Form → Form → Prop
  | mark (token : Token) (next : Form) : GoesOn (.mark token next) next
  | channel (device : Device) (next : UInt8 → Form) (number : UInt8) :
      GoesOn (.channel device next) (next number)
  | amount (quantity : Quantity) (next : Nat → Form) (value : Nat) :
      GoesOn (.amount quantity next) (next value)
  | level (next : Bool → Form) (on : Bool) : GoesOn (.level next) (next on)
  | extraWait (incomplete complete : Instruction) : GoesOn (.extraWait incomplete) (.done complete)
  | taken (token : Token) (taken skipped : Form) : GoesOn (.choice token taken skipped) taken
  | skipped (token : Token) (taken skipped : Form) : GoesOn (.choice token taken skipped) skipped

theorem goesOn_of_judge {form next : Form} {found : Token} (asks : form.IsOpen)
    (judged : form.judge limits found = .read next ∨ form.judge limits found = .leave next) :
    form.GoesOn next := by
  cases form with
  | done instruction => exact absurd rfl (asks instruction)
  | mark token following =>
      by_cases same : found = token <;> simp [judge, same] at judged
      exact judged ▸ .mark token following
  | channel device following =>
      cases found with
      | number number =>
          by_cases small : number < device.count limits <;> simp [judge, small] at judged
          exact judged ▸ .channel device following _
      | _ => simp [judge] at judged
  | amount quantity following =>
      cases found with
      | number value =>
          by_cases small : value ≤ quantity.maximum <;> simp [judge, small] at judged
          exact judged ▸ .amount quantity following _
      | _ => simp [judge] at judged
  | level following =>
      cases names : found.level? with
      | some on =>
          simp only [judge, names, Verdict.read.injEq, reduceCtorEq, or_false] at judged
          exact judged ▸ .level following on
      | none => cases found <;> simp [judge, names] at judged
  | extraWait instruction =>
      cases found with
      | number value =>
          by_cases large : Quantity.waitTime.maximum < value
          · simp [judge, large] at judged
          · by_cases fits : instruction.wait.toNat + value < UInt32.size <;>
              simp [judge, large, fits] at judged
            exact judged ▸ .extraWait instruction _
      | _ => simp [judge] at judged
  | choice token taken skipped =>
      by_cases same : found = token <;> simp [judge, same] at judged
      · exact judged ▸ .taken token taken skipped
      · exact judged ▸ .skipped token taken skipped

/-- What holds of finished forms, and of a form if it holds of all that may be left of it, holds of
all forms. -/
theorem goesOn_induction {motive : Form → Prop}
    (done : ∀ instruction, motive (.done instruction))
    (goOn : ∀ form : Form, form.IsOpen → (∀ next, form.GoesOn next → motive next) → motive form)
    (form : Form) : motive form := by
  induction form with
  | done instruction => exact done instruction
  | mark token next inductionHypothesis =>
      refine goOn _ nofun ?_
      rintro _ ⟨⟩
      exact inductionHypothesis
  | channel device next inductionHypothesis =>
      refine goOn _ nofun ?_
      rintro _ ⟨⟩
      exact inductionHypothesis _
  | amount quantity next inductionHypothesis =>
      refine goOn _ nofun ?_
      rintro _ ⟨⟩
      exact inductionHypothesis _
  | level next inductionHypothesis =>
      refine goOn _ nofun ?_
      rintro _ ⟨⟩
      exact inductionHypothesis _
  | extraWait instruction =>
      refine goOn _ nofun ?_
      rintro _ ⟨⟩
      exact done _
  | choice token taken skipped takenHypothesis skippedHypothesis =>
      refine goOn _ nofun ?_
      rintro _ ⟨⟩
      · exact takenHypothesis
      · exact skippedHypothesis

end Form

/-! ## Forms -/

/-- What reading a form comes to when it passes tokens and finds something behind them. -/
inductive Form.Gives (limits : Limits) :
    Form → List Token → Except LexicalError Token → Except ParseError.Cause Instruction → Prop
  | done (instruction : Instruction) (found : Except LexicalError Token) :
      Gives limits (.done instruction) [] found (.ok instruction)
  | broken {form : Form} (asks : form.IsOpen) (error : LexicalError) :
      Gives limits form [] (.error error) (.error (.lexical error))
  | refuse {form : Form} {token : Token} {cause : ParseError.Cause}
      (judged : form.judge limits token = .refuse cause) :
      Gives limits form [] (.ok token) (.error cause)
  | read {form next : Form} {token : Token} {tokens : List Token}
      {found : Except LexicalError Token} {answer : Except ParseError.Cause Instruction}
      (asks : form.IsOpen) (judged : form.judge limits token = .read next)
      (following : Gives limits next tokens found answer) :
      Gives limits form (token :: tokens) found answer
  | leave {form next : Form} {token : Token} {tokens : List Token}
      {found : Except LexicalError Token} {answer : Except ParseError.Cause Instruction}
      (asks : form.IsOpen) (judged : form.judge limits token = .leave next)
      (shown : (tokens.map Except.ok ++ [found]).head? = some (.ok token))
      (following : Gives limits next tokens found answer) : Gives limits form tokens found answer

/-- What a reader answers where reading comes to something in front of a stream. -/
def Parsed.Answers {α β : Type} (parsed : Parsed α) (rest : Stream) (meaning : α → β) :
    Except ParseError.Cause β → Prop
  | .ok value => ∃ found, parsed = .success found rest ∧ meaning found = value
  | .error cause => parsed.answer = .error ⟨rest.front.span, cause⟩

namespace Form

variable {limits : Limits} {stream rest : Stream}

/-- Reading a form comes to something on every stream. -/
theorem exists_gives (limits : Limits) (form : Form) (last : Span) (stream : Stream) :
    ∃ tokens rest answer, stream.Leads tokens rest ∧
      form.Gives limits tokens rest.front.content answer ∧
      (form.parse limits last stream).Answers rest Prod.fst answer := by
  induction form using goesOn_induction generalizing last stream with
  | done instruction =>
      exact ⟨[], stream, _, .here stream, .done instruction _, _, rfl, rfl⟩
  | goOn form asks inductionHypothesis =>
      cases view : stream.view with
      | broken error span after =>
          have front := Stream.front_of_view_broken view
          refine ⟨[], stream, .error (.lexical error), .here stream, ?_, ?_⟩
          · rw [front]
            exact .broken asks error
          · rw [Parsed.Answers, front]
            exact answer_of_view_broken view asks last
      | token found span after =>
          have front := Stream.front_of_view_token view
          have goesOn := parse_of_view_token limits view form last
          cases judged : form.judge limits found with
          | refuse cause =>
              refine ⟨[], stream, .error cause, .here stream, ?_, ?_⟩
              · rw [front]
                exact .refuse judged
              · rw [judged] at goesOn
                rw [Parsed.Answers, front]
                exact goesOn
          | read next =>
              rw [judged] at goesOn
              obtain ⟨tokens, rest, answer, leads, gives, answers⟩ :=
                inductionHypothesis next (goesOn_of_judge asks (.inl judged)) span after
              exact ⟨found :: tokens, rest, answer, .step view leads, .read asks judged gives,
                goesOn ▸ answers⟩
          | leave next =>
              rw [judged] at goesOn
              obtain ⟨tokens, rest, answer, leads, gives, answers⟩ :=
                inductionHypothesis next (goesOn_of_judge asks (.inr judged)) last stream
              refine ⟨tokens, rest, answer, leads, .leave asks judged ?_ gives, goesOn ▸ answers⟩
              rw [leads.front_content, front]

/-- What reading a form comes to is what the reader answers. -/
theorem Gives.answers {form : Form} {tokens : List Token} {found : Except LexicalError Token}
    {answer : Except ParseError.Cause Instruction} (gives : form.Gives limits tokens found answer)
    (leads : stream.Leads tokens rest) (content : rest.front.content = found) (last : Span) :
    (form.parse limits last stream).Answers rest Prod.fst answer := by
  induction gives generalizing stream last with
  | done instruction =>
      rw [Stream.leads_nil_iff.mp leads]
      exact ⟨_, rfl, rfl⟩
  | broken asks error =>
      rw [Stream.leads_nil_iff.mp leads]
      obtain ⟨after, view⟩ := Stream.exists_view_broken content
      exact answer_of_view_broken view asks last
  | @refuse form token cause judged =>
      rw [Stream.leads_nil_iff.mp leads]
      obtain ⟨after, view⟩ := Stream.exists_view_token content
      have refused := parse_of_view_token limits view form last
      rw [judged] at refused
      exact refused
  | @read form next token tokens found answer asks judged following inductionHypothesis =>
      rcases Stream.leads_cons_iff.mp leads with ⟨span, middle, view, others⟩
      have goesOn := parse_of_view_token limits view form last
      rw [judged] at goesOn
      exact goesOn ▸ inductionHypothesis others content span
  | @leave form next token tokens found answer asks judged shown following inductionHypothesis =>
      have front := leads.front_content
      rw [content, shown, Option.some.injEq] at front
      obtain ⟨after, view⟩ := Stream.exists_view_token front.symm
      have goesOn := parse_of_view_token limits view form last
      rw [judged] at goesOn
      exact goesOn ▸ inductionHypothesis leads content last

end Form

/-! ## What errors are about -/

namespace ParseError.Cause

/-- The token that was found in the place of another. -/
def found? : Cause → Option Token
  | .expectedCommand found => some found
  | .expectedMark _ found => some found
  | .expectedEnd found => some found
  | .expectedChannel _ found => some found
  | .expectedQuantity _ found => some found
  | .expectedLevel found => some found
  | _ => none

/-- A cause agrees with what was found: it is the error that was found, or it names no other token
than the one that was found. -/
def Agrees (cause : Cause) : Except LexicalError Token → Prop
  | .error error => cause = .lexical error
  | .ok token => ∀ named, cause.found? = some named → named = token

/-- Where a cause names a token, that token was found. -/
theorem Agrees.found_eq {cause : Cause} {found : Except LexicalError Token} {token : Token}
    (agrees : cause.Agrees found) (names : cause.found? = some token) : found = .ok token := by
  cases found with
  | error error =>
      have same : cause = .lexical error := agrees
      rw [same] at names
      cases names
  | ok found => rw [agrees token names]

end ParseError.Cause

namespace Form

variable {limits : Limits} {cause : ParseError.Cause}

/-- A form refuses a token with a cause that names no other. -/
theorem agrees_of_judge {form : Form} {token : Token}
    (judged : form.judge limits token = .refuse cause) : cause.Agrees (.ok token) := by
  intro named names
  cases form with
  | done instruction => cases judged
  | mark mark next =>
      by_cases same : token = mark <;> simp [judge, same] at judged
      subst judged
      exact (Option.some.inj names).symm
  | choice mark taken skipped => by_cases same : token = mark <;> simp [judge, same] at judged
  | level next =>
      cases level : token.level? with
      | some on => simp [judge, level] at judged
      | none =>
          cases token with
          | number value =>
              simp only [judge, level, Verdict.refuse.injEq] at judged
              subst judged
              cases names
          | _ =>
              simp only [judge, level, Verdict.refuse.injEq] at judged
              subst judged
              exact (Option.some.inj names).symm
  | channel device next =>
      cases token with
      | number number =>
          by_cases small : number < device.count limits <;> simp [judge, small] at judged
          subst judged
          cases names
      | _ =>
          cases judged
          exact (Option.some.inj names).symm
  | amount quantity next =>
      cases token with
      | number value =>
          by_cases small : value ≤ quantity.maximum <;> simp [judge, small] at judged
          subst judged
          cases names
      | _ =>
          cases judged
          exact (Option.some.inj names).symm
  | extraWait instruction =>
      cases token with
      | number value =>
          simp only [judge] at judged
          split at judged
          · cases judged
            cases names
          · split at judged <;> cases judged
            cases names
      | _ =>
          cases judged
          exact (Option.some.inj names).symm

theorem Gives.agrees {form : Form} {tokens : List Token} {found : Except LexicalError Token}
    {answer : Except ParseError.Cause Instruction} (gives : form.Gives limits tokens found answer)
    (failed : answer = .error cause) : cause.Agrees found := by
  induction gives with
  | done => cases failed
  | broken =>
      cases failed
      rfl
  | refuse judged =>
      cases failed
      exact agrees_of_judge judged
  | read asks judged following inductionHypothesis => exact inductionHypothesis failed
  | leave asks judged shown following inductionHypothesis => exact inductionHypothesis failed

end Form

/-! ## Inner forms -/

/-- A token that stands inside of statements only. -/
def Token.IsInner (token : Token) : Prop := token.isSeparator = false ∧ token ≠ .endOfInput

namespace Form

/-- A form that has only inner tokens for marks. -/
def IsInner : Form → Prop
  | .done _ => True
  | .mark token next => token.IsInner ∧ next.IsInner
  | .channel _ next => ∀ number, (next number).IsInner
  | .amount _ next => ∀ value, (next value).IsInner
  | .level next => ∀ on, (next on).IsInner
  | .extraWait _ => True
  | .choice token taken skipped => token.IsInner ∧ taken.IsInner ∧ skipped.IsInner

theorem IsInner.goesOn {form next : Form} (inner : form.IsInner) (goesOn : form.GoesOn next) :
    next.IsInner := by
  cases goesOn with
  | mark => exact inner.2
  | channel => exact inner _
  | amount => exact inner _
  | level => exact inner _
  | extraWait => trivial
  | taken => exact inner.2.1
  | skipped => exact inner.2.2

theorem isInner_timed (command : Command) (wait : UInt32) : (timed command wait).IsInner := by
  simp [timed, IsInner, Token.IsInner, Token.isSeparator]

/-- The forms of commands are inner. -/
theorem isInner_of_ofName? {name : String} {form : Form} (named : ofName? name = some form) :
    form.IsInner := by
  unfold ofName? at named
  split at named <;> cases named <;>
    simp [setting, target, argument, IsInner, Token.IsInner, Token.isSeparator, isInner_timed]

variable {limits : Limits} {form next : Form} {token : Token}

/-- An inner form reads inner tokens only. -/
theorem IsInner.of_read (inner : form.IsInner) (asks : form.IsOpen)
    (judged : form.judge limits token = .read next) : token.IsInner := by
  cases form with
  | done instruction => exact absurd rfl (asks instruction)
  | mark mark following =>
      by_cases same : token = mark <;> simp [judge, same] at judged
      exact same ▸ inner.1
  | choice mark taken skipped =>
      by_cases same : token = mark <;> simp [judge, same] at judged
      exact same ▸ inner.1
  | level following =>
      cases names : token.level? with
      | none => cases token <;> simp [judge, names] at judged
      | some on =>
          obtain ⟨level, rfl, -⟩ := Token.level?_eq_some_iff.mp names
          cases level <;> simp [Token.IsInner, Token.isSeparator, LevelTree.token]
  | _ =>
      cases token with
      | number number => exact ⟨rfl, by simp⟩
      | _ => simp [judge] at judged

/-- The tokens that an inner form passes are inner. -/
theorem Gives.inner {tokens : List Token} {found : Except LexicalError Token}
    {answer : Except ParseError.Cause Instruction} (gives : form.Gives limits tokens found answer)
    (inner : form.IsInner) : ∀ token ∈ tokens, token.IsInner := by
  induction gives with
  | done | broken | refuse => simp
  | read asks judged following inductionHypothesis =>
      rw [List.forall_mem_cons]
      exact ⟨inner.of_read asks judged,
        inductionHypothesis (inner.goesOn (goesOn_of_judge asks (.inl judged)))⟩
  | leave asks judged shown following inductionHypothesis =>
      exact inductionHypothesis (inner.goesOn (goesOn_of_judge asks (.inr judged)))

/-! ### Behind statements -/

variable {other : Token}

/-- Only finished forms and choices leave a token to what follows. -/
theorem leaves_of_judge (judged : form.judge limits token = .leave next) :
    (∃ instruction, form = .done instruction ∧ next = .done instruction) ∨
      ∃ mark taken, form = .choice mark taken next ∧ token ≠ mark := by
  cases form with
  | done instruction =>
      cases judged
      exact .inl ⟨instruction, rfl, rfl⟩
  | choice mark taken skipped =>
      by_cases same : token = mark <;> simp [judge, same] at judged
      exact .inr ⟨mark, taken, judged ▸ rfl, same⟩
  | mark mark following => by_cases same : token = mark <;> simp [judge, same] at judged
  | channel device following =>
      cases token with
      | number number =>
          by_cases small : number < device.count limits <;> simp [judge, small] at judged
      | _ => simp [judge] at judged
  | amount quantity following =>
      cases token with
      | number value =>
          by_cases small : value ≤ quantity.maximum <;> simp [judge, small] at judged
      | _ => simp [judge] at judged
  | level following => cases names : token.level? <;> cases token <;> simp [judge, names] at judged
  | extraWait instruction =>
      cases token with
      | number value =>
          by_cases large : Quantity.waitTime.maximum < value
          · simp [judge, large] at judged
          · by_cases fits : instruction.wait.toNat + value < UInt32.size <;>
              simp [judge, large, fits] at judged
      | _ => simp [judge] at judged

/-- A token that an inner form leaves to what follows may be replaced by one that is not inner. -/
theorem IsInner.judge_of_leave (inner : form.IsInner) (outer : ¬ other.IsInner)
    (judged : form.judge limits token = .leave next) : form.judge limits other = .leave next := by
  rcases leaves_of_judge judged with ⟨instruction, rfl, rfl⟩ | ⟨mark, taken, rfl, -⟩
  · rfl
  · have different : other ≠ mark := by
      rintro rfl
      exact outer inner.1
    rw [judge, if_neg different]

/-- What was read in front of some token is read in front of every token that is not inner. -/
theorem Gives.of_outer {tokens : List Token} {found : Except LexicalError Token}
    {instruction : Instruction} (gives : form.Gives limits tokens found (.ok instruction))
    (inner : form.IsInner) (outer : ¬ other.IsInner) :
    form.Gives limits tokens (.ok other) (.ok instruction) := by
  generalize answered : (Except.ok instruction : Except ParseError.Cause Instruction) = answer
    at gives
  induction gives with
  | done complete found =>
      cases answered
      exact .done instruction _
  | broken | refuse => cases answered
  | read asks judged following inductionHypothesis =>
      exact .read asks judged
        (inductionHypothesis (inner.goesOn (goesOn_of_judge asks (.inl judged))) answered)
  | @leave form next token tokens found answer asks judged shown following inductionHypothesis =>
      have behind :=
        inductionHypothesis (inner.goesOn (goesOn_of_judge asks (.inr judged))) answered
      cases tokens with
      | nil => exact .leave asks (inner.judge_of_leave outer judged) rfl behind
      | cons first others => exact .leave asks judged shown behind

end Form

end Sequencer
