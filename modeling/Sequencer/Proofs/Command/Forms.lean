import Sequencer.Command.Parser
import Sequencer.Proofs.Command.Grammar

/-!
# What forms accept

A form accepts lists of tokens by rules of its own, one for each of its parts, without reading
them from a stream. Reading a form succeeds exactly on the streams that begin with accepted
tokens (`Form.parse_eq_success_iff`), and what the form of a command accepts is what the grammar
derives behind the name of the command (`Form.accepts_ofName?_iff`).

A choice looks at the token behind it, which may be the one behind the whole form. So what a form
accepts depends on that token.
-/

namespace Sequencer

open Sequencer.Source

/-! ## Streams that begin with tokens -/

/-- A stream begins with tokens, and another stream is left behind them. -/
inductive Stream.Leads : Stream → List Token → Stream → Prop
  | here (stream : Stream) : Leads stream [] stream
  | step {stream middle rest : Stream} {found : Token} {span : Span} {tokens : List Token}
      (seen : stream.view = .token found span middle) (behind : Leads middle tokens rest) :
      Leads stream (found :: tokens) rest

namespace Stream

@[simp]
theorem leads_nil_iff {stream rest : Stream} : stream.Leads [] rest ↔ stream = rest := by
  constructor
  · rintro ⟨⟩
    rfl
  · rintro rfl
    exact .here stream

theorem leads_cons_iff {stream rest : Stream} {found : Token} {tokens : List Token} :
    stream.Leads (found :: tokens) rest ↔
      ∃ span middle, stream.view = .token found span middle ∧ middle.Leads tokens rest := by
  constructor
  · rintro (_ | ⟨seen, behind⟩)
    exact ⟨_, _, seen, behind⟩
  · rintro ⟨span, middle, seen, behind⟩
    exact .step seen behind

theorem leads_append_iff {stream rest : Stream} {first second : List Token} :
    stream.Leads (first ++ second) rest ↔
      ∃ middle, stream.Leads first middle ∧ middle.Leads second rest := by
  induction first generalizing stream with
  | nil => simp
  | cons found tokens inductionHypothesis =>
      simp only [List.cons_append, leads_cons_iff, inductionHypothesis]
      constructor
      · rintro ⟨span, after, seen, middle, first, second⟩
        exact ⟨middle, ⟨span, after, seen, first⟩, second⟩
      · rintro ⟨middle, ⟨span, after, seen, first⟩, second⟩
        exact ⟨span, after, seen, middle, first, second⟩

/-- The token behind a stretch of a stream shows what the stretch begins with. -/
theorem Leads.exists_view {stream rest after : Stream} {tokens : List Token} {behind : Token}
    {span : Span} (leads : stream.Leads tokens rest)
    (seen : rest.view = .token behind span after) :
    ∃ found span middle, stream.view = .token found span middle ∧
      (tokens ++ [behind]).head? = some found := by
  cases leads with
  | here => exact ⟨behind, span, after, seen, rfl⟩
  | step first others => exact ⟨_, _, _, first, rfl⟩

end Stream

/-! ## Forms -/

theorem Parsed.failure_ne_success {α : Type} {span : Span} {cause : ParseError.Cause}
    {value : α} {rest rest' : Stream} : failure span cause rest ≠ success value rest' := by
  simp [failure, success]

/-- The tokens that a form accepts in front of the token `behind`, and the instruction that they
come to. -/
inductive Form.Accepts (limits : Limits) (behind : Token) :
    Form → List Token → Instruction → Prop
  | done (instruction : Instruction) : Accepts limits behind (.done instruction) [] instruction
  | mark {token : Token} {next : Form} {tokens : List Token} {instruction : Instruction}
      (following : Accepts limits behind next tokens instruction) :
      Accepts limits behind (.mark token next) (token :: tokens) instruction
  | channel {device : Device} {next : UInt8 → Form} {number : Nat} {tokens : List Token}
      {instruction : Instruction} (small : number < device.count limits)
      (following : Accepts limits behind (next (UInt8.ofNat number)) tokens instruction) :
      Accepts limits behind (.channel device next) (.number number :: tokens) instruction
  | amount {quantity : Quantity} {next : Nat → Form} {value : Nat} {tokens : List Token}
      {instruction : Instruction} (small : value ≤ quantity.maximum)
      (following : Accepts limits behind (next value) tokens instruction) :
      Accepts limits behind (.amount quantity next) (.number value :: tokens) instruction
  | level {next : Bool → Form} {token : Token} {on : Bool} {tokens : List Token}
      {instruction : Instruction} (names : token.level? = some on)
      (following : Accepts limits behind (next on) tokens instruction) :
      Accepts limits behind (.level next) (token :: tokens) instruction
  | extraWait {instruction : Instruction} {extra : Nat}
      (small : extra ≤ Quantity.waitTime.maximum)
      (fits : instruction.wait.toNat + extra < UInt32.size) :
      Accepts limits behind (.extraWait instruction) [.number extra]
        { instruction with wait := instruction.wait + UInt32.ofNat extra }
  | taken {token : Token} {taken skipped : Form} {tokens : List Token} {instruction : Instruction}
      (following : Accepts limits behind taken tokens instruction) :
      Accepts limits behind (.choice token taken skipped) (token :: tokens) instruction
  | skipped {token : Token} {taken skipped : Form} {tokens : List Token}
      {instruction : Instruction} (different : (tokens ++ [behind]).head? ≠ some token)
      (following : Accepts limits behind skipped tokens instruction) :
      Accepts limits behind (.choice token taken skipped) tokens instruction

namespace Form

variable {limits : Limits} {behind : Token} {stream rest after : Stream} {span last : Span}
  {instruction : Instruction}

/-- What a form read was accepted by it. -/
theorem exists_accepts_of_parse {form : Form} {last' : Span}
    (done : form.parse limits last stream = .success (instruction, last') rest)
    (seen : rest.view = .token behind span after) :
    ∃ tokens, stream.Leads tokens rest ∧ form.Accepts limits behind tokens instruction := by
  induction form generalizing stream last with
  | done complete =>
      simp only [parse, Parsed.success, Parsed.mk.injEq, Except.ok.injEq, Prod.mk.injEq] at done
      rcases done with ⟨⟨rfl, -⟩, rfl⟩
      exact ⟨[], .here _, .done _⟩
  | mark token next inductionHypothesis =>
      simp only [parse] at done
      split at done
      · exact absurd done Parsed.failure_ne_success
      · rename_i found foundSpan middle view
        split at done
        · rename_i same
          rcases inductionHypothesis done with ⟨tokens, leads, accepts⟩
          exact ⟨token :: tokens, .step (same ▸ view) leads, .mark accepts⟩
        · exact absurd done Parsed.failure_ne_success
  | channel device next inductionHypothesis =>
      simp only [parse] at done
      split at done
      · exact absurd done Parsed.failure_ne_success
      · rename_i number foundSpan middle view
        split at done
        · rename_i small
          rcases inductionHypothesis _ done with ⟨tokens, leads, accepts⟩
          exact ⟨.number number :: tokens, .step view leads, .channel small accepts⟩
        · exact absurd done Parsed.failure_ne_success
      · exact absurd done Parsed.failure_ne_success
  | amount quantity next inductionHypothesis =>
      simp only [parse] at done
      split at done
      · exact absurd done Parsed.failure_ne_success
      · rename_i value foundSpan middle view
        split at done
        · rename_i small
          rcases inductionHypothesis _ done with ⟨tokens, leads, accepts⟩
          exact ⟨.number value :: tokens, .step view leads, .amount small accepts⟩
        · exact absurd done Parsed.failure_ne_success
      · exact absurd done Parsed.failure_ne_success
  | level next inductionHypothesis =>
      simp only [parse] at done
      split at done
      · exact absurd done Parsed.failure_ne_success
      · rename_i found foundSpan middle view
        split at done
        · rename_i names
          rcases inductionHypothesis _ done with ⟨tokens, leads, accepts⟩
          exact ⟨_, .step view leads, .level names accepts⟩
        · exact absurd done Parsed.failure_ne_success
        · exact absurd done Parsed.failure_ne_success
  | extraWait incomplete =>
      simp only [parse] at done
      split at done
      · exact absurd done Parsed.failure_ne_success
      · rename_i extra foundSpan middle view
        split at done
        · exact absurd done Parsed.failure_ne_success
        · rename_i small
          split at done
          · rename_i fits
            simp only [Parsed.success, Parsed.mk.injEq, Except.ok.injEq, Prod.mk.injEq] at done
            rcases done with ⟨⟨rfl, -⟩, rfl⟩
            exact ⟨[.number extra], .step view (.here _), .extraWait (Nat.not_lt.mp small) fits⟩
          · exact absurd done Parsed.failure_ne_success
      · exact absurd done Parsed.failure_ne_success
  | choice token taken skipped takenHypothesis skippedHypothesis =>
      simp only [parse] at done
      split at done
      · exact absurd done Parsed.failure_ne_success
      · rename_i found foundSpan middle view
        split at done
        · rename_i same
          obtain ⟨tokens, leads, accepts⟩ := takenHypothesis done
          exact ⟨token :: tokens, .step (same ▸ view) leads, .taken accepts⟩
        · rename_i different
          obtain ⟨tokens, leads, accepts⟩ := skippedHypothesis done
          obtain ⟨first, _, _, firstView, begins⟩ := leads.exists_view seen
          rw [view, Stream.View.token.injEq] at firstView
          rcases firstView with ⟨rfl, -, -⟩
          refine ⟨tokens, leads, .skipped ?_ accepts⟩
          rw [begins]
          simpa using different

/-- What a form accepts it reads. -/
theorem exists_parse_of_accepts {form : Form} {tokens : List Token}
    (accepts : form.Accepts limits behind tokens instruction) (leads : stream.Leads tokens rest)
    (seen : rest.view = .token behind span after) (last : Span) :
    ∃ last', form.parse limits last stream = .success (instruction, last') rest := by
  induction accepts generalizing stream last with
  | done complete =>
      rw [Stream.leads_nil_iff.mp leads]
      exact ⟨last, rfl⟩
  | mark following inductionHypothesis =>
      rcases Stream.leads_cons_iff.mp leads with ⟨foundSpan, middle, view, others⟩
      simpa [parse, view] using inductionHypothesis others foundSpan
  | channel small following inductionHypothesis =>
      rcases Stream.leads_cons_iff.mp leads with ⟨foundSpan, middle, view, others⟩
      simpa [parse, view, small] using inductionHypothesis others foundSpan
  | amount small following inductionHypothesis =>
      rcases Stream.leads_cons_iff.mp leads with ⟨foundSpan, middle, view, others⟩
      simpa [parse, view, small] using inductionHypothesis others foundSpan
  | level names following inductionHypothesis =>
      rcases Stream.leads_cons_iff.mp leads with ⟨foundSpan, middle, view, others⟩
      simpa [parse, view, names] using inductionHypothesis others foundSpan
  | extraWait small fits =>
      rcases Stream.leads_cons_iff.mp leads with ⟨foundSpan, middle, view, others⟩
      rw [Stream.leads_nil_iff] at others
      subst others
      exact ⟨foundSpan, by simp [parse, view, Nat.not_lt.mpr small, fits]⟩
  | taken following inductionHypothesis =>
      rcases Stream.leads_cons_iff.mp leads with ⟨foundSpan, middle, view, others⟩
      simpa [parse, view] using inductionHypothesis others foundSpan
  | skipped different following inductionHypothesis =>
      obtain ⟨found, foundSpan, middle, view, begins⟩ := leads.exists_view seen
      have other : found ≠ _ := fun same => different (begins.trans (congrArg some same))
      simpa [parse, view, other] using inductionHypothesis leads last

/-- Reading a form succeeds exactly on the streams that begin with accepted tokens. -/
theorem parse_eq_success_iff {form : Form} (seen : rest.view = .token behind span after)
    (last : Span) :
    (∃ last', form.parse limits last stream = .success (instruction, last') rest) ↔
      ∃ tokens, stream.Leads tokens rest ∧ form.Accepts limits behind tokens instruction := by
  constructor
  · rintro ⟨last', done⟩
    exact exists_accepts_of_parse done seen
  · rintro ⟨tokens, leads, accepts⟩
    exact exists_parse_of_accepts accepts leads seen last

end Form

/-- The levels of the grammar are the tokens that name a level. -/
theorem Token.level?_eq_some_iff {token : Token} {on : Bool} :
    token.level? = some on ↔ ∃ level : LevelTree, token = level.token ∧ level.meaning = on := by
  constructor
  · intro names
    unfold level? at names
    split at names <;> simp only [Option.some.injEq, reduceCtorEq] at names <;> subst names
    · exact ⟨.zero, rfl, rfl⟩
    · exact ⟨.one, rfl, rfl⟩
    · exact ⟨.off, rfl, rfl⟩
    · exact ⟨.false, rfl, rfl⟩
    · exact ⟨.on, rfl, rfl⟩
    · exact ⟨.true, rfl, rfl⟩
  · rintro ⟨level, rfl, rfl⟩
    cases level <;> rfl

namespace Form

variable {limits : Limits} {behind : Token} {instruction : Instruction}

/-! ## The forms of commands -/

variable {tokens : List Token}

theorem accepts_mark_iff {token : Token} {next : Form} :
    (Form.mark token next).Accepts limits behind tokens instruction ↔
      ∃ others, tokens = token :: others ∧ next.Accepts limits behind others instruction := by
  constructor
  · intro accepts
    cases accepts with
    | mark following => exact ⟨_, rfl, following⟩
  · rintro ⟨others, rfl, following⟩
    exact .mark following

theorem accepts_channel_iff {device : Device} {next : UInt8 → Form} :
    (Form.channel device next).Accepts limits behind tokens instruction ↔
      ∃ number others, tokens = .number number :: others ∧ number < device.count limits ∧
        (next (UInt8.ofNat number)).Accepts limits behind others instruction := by
  constructor
  · intro accepts
    cases accepts with
    | channel small following => exact ⟨_, _, rfl, small, following⟩
  · rintro ⟨number, others, rfl, small, following⟩
    exact .channel small following

theorem accepts_amount_iff {quantity : Quantity} {next : Nat → Form} :
    (Form.amount quantity next).Accepts limits behind tokens instruction ↔
      ∃ value others, tokens = .number value :: others ∧ value ≤ quantity.maximum ∧
        (next value).Accepts limits behind others instruction := by
  constructor
  · intro accepts
    cases accepts with
    | amount small following => exact ⟨_, _, rfl, small, following⟩
  · rintro ⟨value, others, rfl, small, following⟩
    exact .amount small following

theorem accepts_level_iff {next : Bool → Form} :
    (Form.level next).Accepts limits behind tokens instruction ↔
      ∃ (level : LevelTree) (others : List Token), tokens = level.token :: others ∧
        (next level.meaning).Accepts limits behind others instruction := by
  constructor
  · intro accepts
    cases accepts with
    | level names following =>
        rcases Token.level?_eq_some_iff.mp names with ⟨level, rfl, rfl⟩
        exact ⟨level, _, rfl, following⟩
  · rintro ⟨level, others, rfl, following⟩
    exact .level (Token.level?_eq_some_iff.mpr ⟨level, rfl, rfl⟩) following

theorem accepts_done_iff {complete : Instruction} :
    (Form.done complete).Accepts limits behind tokens instruction ↔
      tokens = [] ∧ instruction = complete := by
  constructor
  · rintro ⟨⟩
    exact ⟨rfl, rfl⟩
  · rintro ⟨rfl, rfl⟩
    exact .done instruction

theorem accepts_extraWait_iff {incomplete : Instruction} :
    (Form.extraWait incomplete).Accepts limits behind tokens instruction ↔
      ∃ extra, tokens = [.number extra] ∧ incomplete.wait.toNat + extra ≤ 4294967295 ∧
        instruction =
          ⟨incomplete.command, UInt32.ofNat (incomplete.wait.toNat + extra)⟩ := by
  have sum (extra : Nat) :
      incomplete.wait + UInt32.ofNat extra = UInt32.ofNat (incomplete.wait.toNat + extra) := by
    rw [UInt32.ofNat_add, UInt32.ofNat_toNat]
  constructor
  · intro accepts
    cases accepts with
    | extraWait small fits =>
        refine ⟨_, rfl, Nat.le_of_lt_succ fits, ?_⟩
        rw [← sum]
  · rintro ⟨extra, rfl, fits, rfl⟩
    rw [← sum]
    exact .extraWait (Nat.le_trans (Nat.le_add_left ..) fits) (Nat.lt_succ_of_le fits)

theorem accepts_choice_iff {token : Token} {taken skipped : Form} :
    (Form.choice token taken skipped).Accepts limits behind tokens instruction ↔
      (∃ others, tokens = token :: others ∧ taken.Accepts limits behind others instruction) ∨
      ((tokens ++ [behind]).head? ≠ some token ∧
        skipped.Accepts limits behind tokens instruction) := by
  constructor
  · intro accepts
    cases accepts with
    | taken following => exact .inl ⟨_, rfl, following⟩
    | skipped different following => exact .inr ⟨different, following⟩
  · rintro (⟨others, rfl, following⟩ | ⟨different, following⟩)
    · exact .taken following
    · exact .skipped different following

/-- Behind a command may stand `t = number`, unless what stands there could be its beginning. -/
theorem accepts_timed_iff (ends : behind ≠ .word "t") {command : Command} {wait : UInt32} :
    (timed command wait).Accepts limits behind tokens instruction ↔
      ∃ extra : Option Nat, tokens = StatementTree.extraYield extra ∧
        wait.toNat + extra.getD 0 ≤ 4294967295 ∧
        instruction = ⟨command, UInt32.ofNat (wait.toNat + extra.getD 0)⟩ := by
  simp only [timed, accepts_choice_iff, accepts_mark_iff, accepts_extraWait_iff, accepts_done_iff]
  constructor
  · rintro (⟨_, rfl, _, rfl, extra, rfl, fits, rfl⟩ | ⟨-, rfl, rfl⟩)
    · exact ⟨some extra, rfl, fits, rfl⟩
    · exact ⟨none, rfl, Nat.le_of_lt_succ wait.toNat_lt, by simp⟩
  · rintro ⟨_ | extra, rfl, fits, rfl⟩
    · exact .inr ⟨by simpa [StatementTree.extraYield] using ends, rfl, by simp⟩
    · exact .inl ⟨_, rfl, _, rfl, extra, rfl, fits, rfl⟩

theorem accepts_argument_iff {quantity : Quantity} {next : Nat → Form} :
    (argument quantity next).Accepts limits behind tokens instruction ↔
      ∃ value others, tokens = .leftParen :: .number value :: .rightParen :: others ∧
        value ≤ quantity.maximum ∧ (next value).Accepts limits behind others instruction := by
  simp only [argument, accepts_mark_iff, accepts_amount_iff]
  constructor
  · rintro ⟨_, rfl, value, _, rfl, small, others, rfl, following⟩
    exact ⟨value, others, rfl, small, following⟩
  · rintro ⟨value, others, rfl, small, following⟩
    exact ⟨_, rfl, value, _, rfl, small, others, rfl, following⟩

theorem accepts_target_iff {device : Device} {next : UInt8 → Form} :
    (target device next).Accepts limits behind tokens instruction ↔
      ∃ number others,
        tokens = .leftParen :: .number number :: .rightParen :: .equals :: others ∧
        number < device.count limits ∧
        (next (UInt8.ofNat number)).Accepts limits behind others instruction := by
  simp only [target, accepts_mark_iff, accepts_channel_iff]
  constructor
  · rintro ⟨_, rfl, number, _, rfl, small, _, rfl, others, rfl, following⟩
    exact ⟨number, others, rfl, small, following⟩
  · rintro ⟨number, others, rfl, small, following⟩
    exact ⟨_, rfl, number, _, rfl, small, _, rfl, others, rfl, following⟩

theorem accepts_setting_iff (ends : behind ≠ .word "t") {device : Device} {quantity : Quantity}
    {command : UInt8 → Nat → Command} :
    (setting device quantity command).Accepts limits behind tokens instruction ↔
      ∃ (number value : Nat) (extra : Option Nat),
        tokens = .leftParen :: .number number :: .rightParen :: .equals :: .number value ::
          StatementTree.extraYield extra ∧
        number < device.count limits ∧ value ≤ quantity.maximum ∧
        0 + extra.getD 0 ≤ 4294967295 ∧
        instruction = ⟨command (UInt8.ofNat number) value, UInt32.ofNat (0 + extra.getD 0)⟩ := by
  simp only [setting, accepts_target_iff, accepts_amount_iff, accepts_timed_iff ends,
    UInt32.toNat_zero]
  constructor
  · rintro ⟨number, _, rfl, inside, value, _, rfl, small, extra, rfl, fits, rfl⟩
    exact ⟨number, value, extra, rfl, inside, small, fits, rfl⟩
  · rintro ⟨number, value, extra, rfl, inside, small, fits, rfl⟩
    exact ⟨number, _, rfl, inside, value, _, rfl, small, extra, rfl, fits, rfl⟩

/-! ## Forms and the grammar -/

/-- Behind a name the grammar derives tokens that mean an instruction. -/
def Derives (limits : Limits) (name : String) (tokens : List Token) (instruction : Instruction) :
    Prop :=
  ∃ statement : StatementTree, statement.yield = .word name :: tokens ∧
    statement.Within limits ∧ statement.meaning = instruction

theorem accepts_ttl_iff (ends : behind ≠ .word "t") {form : Form}
    (named : ofName? "ttl" = some form) :
    form.Accepts limits behind tokens instruction ↔ Derives limits "ttl" tokens instruction := by
  cases named
  constructor
  · intro accepts
    rcases accepts_choice_iff.mp accepts with ⟨_, rfl, setAll⟩ | ⟨-, setOne⟩
    · simp only [accepts_amount_iff, accepts_timed_iff ends] at setAll
      rcases setAll with ⟨levels, _, rfl, small, extra, rfl, fits, rfl⟩
      exact ⟨⟨.ttlAll levels, extra⟩, rfl, ⟨small, fits⟩, rfl⟩
    · simp only [accepts_target_iff, accepts_level_iff, accepts_timed_iff ends] at setOne
      rcases setOne with ⟨channel, _, rfl, inside, level, _, rfl, extra, rfl, fits, rfl⟩
      exact ⟨⟨.ttl channel level, extra⟩, rfl, ⟨inside, fits⟩, rfl⟩
  · rintro ⟨⟨command, extra⟩, derives, ⟨bounded, fits⟩, rfl⟩
    have begins := StatementTree.name_eq_of_yield derives
    cases command with
    | ttlAll levels =>
        cases derives
        refine accepts_choice_iff.mpr (.inl ⟨_, rfl, ?_⟩)
        simp only [accepts_amount_iff, accepts_timed_iff ends]
        exact ⟨levels, _, rfl, bounded, extra, rfl, fits, rfl⟩
    | ttl channel level =>
        cases derives
        refine accepts_choice_iff.mpr (.inr ⟨by simp, ?_⟩)
        simp only [accepts_target_iff, accepts_level_iff, accepts_timed_iff ends]
        exact ⟨channel, _, rfl, bounded, level, _, rfl, extra, rfl, fits, rfl⟩
    | _ => simp [CommandTree.name] at begins

theorem accepts_wait_iff (ends : behind ≠ .word "t") {form : Form}
    (named : ofName? "wait" = some form) :
    form.Accepts limits behind tokens instruction ↔ Derives limits "wait" tokens instruction := by
  have stored {duration : Nat} (small : duration ≤ 4294967295) :
      (UInt32.ofNat duration).toNat = duration :=
    UInt32.toNat_ofNat_of_lt' (Nat.lt_succ_of_le small)
  cases named
  simp only [accepts_argument_iff, accepts_timed_iff ends]
  constructor
  · rintro ⟨duration, _, rfl, small, extra, rfl, fits, rfl⟩
    rw [stored small] at fits ⊢
    exact ⟨⟨.wait duration, extra⟩, rfl, ⟨small, fits⟩, rfl⟩
  · rintro ⟨⟨command, extra⟩, derives, ⟨bounded, fits⟩, rfl⟩
    have begins := StatementTree.name_eq_of_yield derives
    cases command with
    | wait duration =>
        cases derives
        refine ⟨duration, _, rfl, bounded, extra, rfl, ?_, ?_⟩
        · rw [stored bounded]
          exact fits
        · rw [stored bounded]
          rfl
    | _ => simp [CommandTree.name] at begins

theorem accepts_clock_iff (ends : behind ≠ .word "t") {form : Form}
    (named : ofName? "clock" = some form) :
    form.Accepts limits behind tokens instruction ↔ Derives limits "clock" tokens instruction := by
  cases named
  simp only [accepts_argument_iff, accepts_timed_iff ends]
  constructor
  · rintro ⟨period, _, rfl, small, extra, rfl, fits, rfl⟩
    exact ⟨⟨.clock period, extra⟩, rfl, ⟨small, fits⟩, rfl⟩
  · rintro ⟨⟨command, extra⟩, derives, ⟨bounded, fits⟩, rfl⟩
    have begins := StatementTree.name_eq_of_yield derives
    cases command with
    | clock period =>
        cases derives
        exact ⟨period, _, rfl, bounded, extra, rfl, fits, rfl⟩
    | _ => simp [CommandTree.name] at begins

/-- The commands with a name are derived by one production, `name ( channel ) = value`, which sets a
channel of a device to a quantity. -/
structure Sets (limits : Limits) (name : String) (device : Device) (quantity : Quantity)
    (command : UInt8 → Nat → Command) (tree : Nat → Nat → CommandTree) : Prop where
  yield (channel value) : (tree channel value).yield =
    CommandTree.assignment name channel (.number value)
  within (channel value) : (tree channel value).Within limits ↔
    channel < device.count limits ∧ value ≤ quantity.maximum
  meaning (channel value) : (tree channel value).meaning = command (UInt8.ofNat channel) value
  duration (channel value) : (tree channel value).duration = 0
  only (other : CommandTree) : other.name = name → ∃ channel value, other = tree channel value

theorem sets_frequency : Sets limits "freq" .dds .frequency
    (fun channel value => .frequency channel (UInt32.ofNat value)) .frequency where
  yield _ _ := rfl
  within _ _ := Iff.rfl
  meaning _ _ := rfl
  duration _ _ := rfl
  only other named := by cases other <;> simp [CommandTree.name] at named ⊢

theorem sets_amplitude : Sets limits "amp" .dds .amplitude
    (fun channel value => .amplitude channel (UInt16.ofNat value)) .amplitude where
  yield _ _ := rfl
  within _ _ := Iff.rfl
  meaning _ _ := rfl
  duration _ _ := rfl
  only other named := by cases other <;> simp [CommandTree.name] at named ⊢

theorem sets_phase : Sets limits "phase" .dds .phase
    (fun channel value => .phase channel (UInt16.ofNat value)) .phase where
  yield _ _ := rfl
  within _ _ := Iff.rfl
  meaning _ _ := rfl
  duration _ _ := rfl
  only other named := by cases other <;> simp [CommandTree.name] at named ⊢

theorem sets_dac : Sets limits "dac" .dac .dacValue
    (fun channel value => .dac channel (UInt16.ofNat value)) .dac where
  yield _ _ := rfl
  within _ _ := Iff.rfl
  meaning _ _ := rfl
  duration _ _ := rfl
  only other named := by cases other <;> simp [CommandTree.name] at named ⊢

/-- The form that sets a channel accepts what the production derives. -/
theorem Sets.accepts_iff {name : String} {device : Device} {quantity : Quantity}
    {command : UInt8 → Nat → Command} {tree : Nat → Nat → CommandTree}
    (sets : Sets limits name device quantity command tree) (ends : behind ≠ .word "t") :
    (setting device quantity command).Accepts limits behind tokens instruction ↔
      Derives limits name tokens instruction := by
  rw [accepts_setting_iff ends]
  constructor
  · rintro ⟨channel, value, extra, rfl, inside, small, fits, rfl⟩
    refine ⟨⟨tree channel value, extra⟩, ?_, ⟨(sets.within ..).mpr ⟨inside, small⟩, ?_⟩, ?_⟩
    · rw [StatementTree.yield, sets.yield]
      rfl
    · rwa [StatementTree.duration, sets.duration]
    · rw [StatementTree.meaning, sets.meaning, StatementTree.duration, sets.duration]
  · rintro ⟨⟨other, extra⟩, derives, ⟨bounded, fits⟩, rfl⟩
    obtain ⟨channel, value, rfl⟩ := sets.only other (StatementTree.name_eq_of_yield derives)
    obtain ⟨inside, small⟩ := (sets.within ..).mp bounded
    rw [StatementTree.yield, sets.yield] at derives
    rw [StatementTree.duration, sets.duration] at fits
    cases derives
    refine ⟨channel, value, extra, rfl, inside, small, fits, ?_⟩
    rw [StatementTree.meaning, sets.meaning, StatementTree.duration, sets.duration]

/-- The form behind the name of a command accepts what the grammar derives behind that name. -/
theorem accepts_iff_derives (ends : behind ≠ .word "t") {name : String} {form : Form}
    (named : ofName? name = some form) :
    form.Accepts limits behind tokens instruction ↔ Derives limits name tokens instruction := by
  have known := named
  unfold ofName? at known
  split at known
  · exact accepts_ttl_iff ends named
  · exact accepts_wait_iff ends named
  · exact accepts_clock_iff ends named
  · cases known
    exact sets_frequency.accepts_iff ends
  · cases known
    exact sets_amplitude.accepts_iff ends
  · cases known
    exact sets_phase.accepts_iff ends
  · cases known
    exact sets_dac.accepts_iff ends
  · cases known

theorem Derives.exists_ofName? {name : String} (derives : Derives limits name tokens instruction) :
    ∃ form, ofName? name = some form := by
  obtain ⟨⟨command, extra⟩, yields, -, -⟩ := derives
  cases command <;> cases yields <;> exact ⟨_, rfl⟩

/-- What the grammar derives is the name of a command and what its form accepts. -/
theorem accepts_ofName?_iff (ends : behind ≠ .word "t") {name : String} :
    (∃ form, ofName? name = some form ∧ form.Accepts limits behind tokens instruction) ↔
      Derives limits name tokens instruction := by
  constructor
  · rintro ⟨form, named, accepts⟩
    exact (accepts_iff_derives ends named).mp accepts
  · intro derives
    obtain ⟨form, named⟩ := derives.exists_ofName?
    exact ⟨form, named, (accepts_iff_derives ends named).mpr derives⟩

end Form

end Sequencer
