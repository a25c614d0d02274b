import Sequencer.Proofs.Command.Forms
import Mathlib.Data.List.Basic

/-!
# Reading a source and deriving its tokens

Statements and programs are read exactly where the grammar derives the tokens that stand in the
stream. Reading a whole source succeeds if and only if it can be cut into tokens and these tokens
have a derivation within the limits, and what is read is the meaning of that derivation
(`Program.ofText_iff_derivation`).
-/

namespace Sequencer

open Sequencer.Source

/-! ## Statements -/

theorem Parsed.map_eq_success_iff {α β : Type} {parsed : Parsed α} {change : α → β} {value : β}
    {rest : Stream} :
    parsed.map change = success value rest ↔
      ∃ found, parsed = success found rest ∧ change found = value := by
  rcases parsed with ⟨answer, left⟩
  cases answer with
  | error error => simp [map, success, Except.map]
  | ok found =>
      simp only [map, success, Except.map, mk.injEq, Except.ok.injEq]
      constructor
      · rintro ⟨rfl, rfl⟩
        exact ⟨found, ⟨rfl, rfl⟩, rfl⟩
      · rintro ⟨_, ⟨rfl, rfl⟩, rfl⟩
        exact ⟨rfl, rfl⟩

section

variable {limits : Limits} {behind : Token} {stream rest after : Stream} {span : Span}

/-- A statement is read exactly where the grammar derives what the stream begins with. -/
theorem Statement.parse_eq_success_iff (seen : rest.view = .token behind span after)
    (ends : behind ≠ .word "t") {instruction : Instruction} :
    (∃ statement, Statement.parse limits stream = .success statement rest ∧
        statement.toInstruction = instruction) ↔
      ∃ tree : StatementTree, stream.Leads tree.yield rest ∧ tree.Within limits ∧
        tree.meaning = instruction := by
  constructor
  · rintro ⟨statement, done, rfl⟩
    unfold Statement.parse at done
    split at done
    · exact absurd done Parsed.failure_ne_success
    · rename_i name nameSpan middle view
      split at done
      · exact absurd done Parsed.failure_ne_success
      · rename_i form named
        rcases Parsed.map_eq_success_iff.mp done with ⟨⟨instruction, last⟩, read, rfl⟩
        obtain ⟨tokens, leads, accepts⟩ := Form.exists_accepts_of_parse read seen
        rcases (Form.accepts_ofName?_iff ends).mp ⟨form, named, accepts⟩ with
          ⟨tree, derives, within, means⟩
        exact ⟨tree, derives ▸ .step view leads, within, means⟩
    · exact absurd done Parsed.failure_ne_success
  · rintro ⟨tree, leads, within, rfl⟩
    rcases tree.exists_yield_eq_name_cons with ⟨tokens, derives⟩
    rw [derives, Stream.leads_cons_iff] at leads
    rcases leads with ⟨nameSpan, middle, view, others⟩
    rcases (Form.accepts_ofName?_iff ends).mpr ⟨tree, derives, within, rfl⟩ with
      ⟨form, named, accepts⟩
    obtain ⟨last, read⟩ := Form.exists_parse_of_accepts accepts others seen nameSpan
    refine ⟨{ tree.meaning with span := nameSpan.join last }, ?_, rfl⟩
    simp [Statement.parse, view, named, read, Parsed.map, Parsed.success, Except.map]

/-! ## Programs -/

theorem Parsed.eq_success_of_answer {α : Type} {parsed : Parsed α} {value : α}
    (answered : parsed.answer = .ok value) : parsed = success value parsed.rest := by
  rcases parsed with ⟨answer, left⟩
  rw [success, ← answered]

theorem Token.ne_word_of_isSeparator {token : Token} {name : String}
    (separator : token.isSeparator) : token ≠ .word name := by
  rintro rfl
  simp [isSeparator] at separator

namespace Program

theorem parse_of_view_endOfInput (view : stream.view = .token .endOfInput span after) :
    parse limits stream = .success [] stream := by
  rw [parse]
  split
  · simp_all
  · simp_all

theorem parse_of_view_separator {separator : Separator}
    (view : stream.view = .token separator.token span after) :
    parse limits stream = parse limits after := by
  have notEnd := Token.ne_endOfInput_of_isSeparator separator.isSeparator_token
  rw [parse]
  split
  · simp_all
  · simp_all

theorem parse_of_statement_endOfInput {name : String} {statement : Statement} {middle : Stream}
    {span' : Span} {after' : Stream} (view : stream.view = .token (.word name) span after)
    (done : Statement.parse limits stream = .success statement middle)
    (ended : middle.view = .token .endOfInput span' after') :
    parse limits stream = .success [statement] middle := by
  rw [parse, done]
  split
  · simp_all
  · rename_i found foundSpan following view'
    obtain ⟨rfl, -, -⟩ : found = .word name ∧ _ ∧ _ := by simpa [view] using view'.symm
    simp only [reduceCtorEq, Token.isSeparator, Bool.false_eq_true, dite_false, if_false,
      Parsed.success]
    split
    · simp_all
    · simp_all

theorem parse_of_statement_separator {name : String} {statement : Statement} {middle : Stream}
    {span' : Span} {after' : Stream} {separator : Separator}
    (view : stream.view = .token (.word name) span after)
    (done : Statement.parse limits stream = .success statement middle)
    (ended : middle.view = .token separator.token span' after') :
    parse limits stream = (parse limits after').map (statement :: ·) := by
  have separates := separator.isSeparator_token
  have notEnd := Token.ne_endOfInput_of_isSeparator separates
  have inner : Token.isSeparator (.word name) = false := rfl
  rw [parse, done]
  split
  · simp_all
  · rename_i found foundSpan following view'
    obtain ⟨rfl, -, -⟩ : found = .word name ∧ _ ∧ _ := by simpa [view] using view'.symm
    simp only [reduceCtorEq, inner, Bool.false_eq_true, dite_false, if_false,
      Parsed.success]
    split
    · simp_all
    · simp_all

/-- What is read as a program has a derivation. -/
theorem exists_tree_of_parse {statements : List Statement}
    (done : parse limits stream = .success statements rest) :
    ∃ tree : ProgramTree, stream.Leads tree.yield rest ∧
      (∃ span after, rest.view = .token .endOfInput span after) ∧ tree.Within limits ∧
      tree.meaning = statements.map Statement.toInstruction := by
  fun_induction parse limits stream generalizing statements with
  | case1 => exact absurd done Parsed.failure_ne_success
  | case2 stream span after view =>
      simp only [Parsed.success, Parsed.mk.injEq, Except.ok.injEq] at done
      rcases done with ⟨rfl, rfl⟩
      exact ⟨⟨[], none⟩, .here stream, ⟨span, after, view⟩, by simp [ProgramTree.Within,
        ProgramTree.statements], rfl⟩
  | case3 stream found span after view notEnd separates inductionHypothesis =>
      rcases Token.isSeparator_iff.mp separates with ⟨separator, rfl⟩
      rcases inductionHypothesis done with ⟨tree, leads, ended, within, means⟩
      refine ⟨tree.prepend none separator, ?_, ended, ?_, ?_⟩
      · rw [ProgramTree.yield_prepend]
        exact .step view leads
      · simpa [ProgramTree.Within] using within
      · simpa [ProgramTree.meaning] using means
  | case4 => simp [Parsed.success] at done
  | case5 => exact absurd done Parsed.failure_ne_success
  | case6 stream found span after view notEnd inner parsed statement answered span' after' =>
      rename_i view'
      simp only [Parsed.success, Parsed.mk.injEq, Except.ok.injEq] at done
      rcases done with ⟨rfl, rfl⟩
      rcases (Statement.parse_eq_success_iff view' Token.noConfusion).mp
          ⟨statement, Parsed.eq_success_of_answer answered, rfl⟩ with
        ⟨tree, leads, within, means⟩
      refine ⟨⟨[], some tree⟩, ?_, ⟨span', after', view'⟩, ?_, ?_⟩
      · simpa [ProgramTree.yield, ProgramTree.optionalYield] using leads
      · simpa [ProgramTree.Within, ProgramTree.statements] using within
      · simpa [ProgramTree.meaning, ProgramTree.statements] using means
  | case7 stream found span after view notEnd inner parsed statement answered found' span' after'
      view' notEnd' separates =>
      rename_i inductionHypothesis
      rcases Parsed.map_eq_success_iff.mp done with ⟨others, read, rfl⟩
      rcases inductionHypothesis read with ⟨program, leads', ended, within', means'⟩
      rcases (Statement.parse_eq_success_iff view' (Token.ne_word_of_isSeparator separates)).mp
          ⟨statement, Parsed.eq_success_of_answer answered, rfl⟩ with
        ⟨tree, leads, within, means⟩
      rcases Token.isSeparator_iff.mp separates with ⟨separator, rfl⟩
      refine ⟨program.prepend (some tree) separator, ?_, ended, ?_, ?_⟩
      · rw [ProgramTree.yield_prepend]
        exact Stream.leads_append_iff.mpr ⟨_, leads, .step view' leads'⟩
      · simp only [ProgramTree.Within, ProgramTree.statements_prepend_some,
          List.forall_mem_cons]
        exact ⟨within, within'⟩
      · simpa [ProgramTree.meaning, means] using means'
  | case8 => exact absurd done Parsed.failure_ne_success

/-- What has a derivation is read as a program. -/
theorem exists_parse_of_tree {tree : ProgramTree} (leads : stream.Leads tree.yield rest)
    (ended : rest.view = .token .endOfInput span after) (within : tree.Within limits) :
    ∃ statements, parse limits stream = .success statements rest ∧
      statements.map Statement.toInstruction = tree.meaning := by
  rcases tree with ⟨lines, last⟩
  induction lines generalizing stream with
  | nil =>
      cases last with
      | none =>
          rw [Stream.leads_nil_iff.mp leads]
          exact ⟨[], parse_of_view_endOfInput ended, rfl⟩
      | some tree =>
          rcases tree.exists_yield_eq_name_cons with ⟨tokens, begins⟩
          have leads : stream.Leads tree.yield rest := leads
          have within := within tree (by simp [ProgramTree.statements])
          rcases (Statement.parse_eq_success_iff ended Token.noConfusion).mpr
              ⟨tree, leads, within, rfl⟩ with
            ⟨statement, done, means⟩
          rcases Stream.leads_cons_iff.mp (begins ▸ leads) with ⟨_, _, view, -⟩
          exact ⟨[statement], parse_of_statement_endOfInput view done ended,
            congrArg (· :: []) means⟩
  | cons line following inductionHypothesis =>
      rcases line with ⟨tree, separator⟩
      have leads : stream.Leads ((ProgramTree.mk following last).prepend tree separator).yield
        rest := leads
      have within : ((ProgramTree.mk following last).prepend tree separator).Within limits :=
        within
      rw [ProgramTree.yield_prepend, Stream.leads_append_iff] at leads
      rcases leads with ⟨middle, leads, others⟩
      rcases Stream.leads_cons_iff.mp others with ⟨separatorSpan, after', view', others⟩
      cases tree with
      | none =>
          rw [ProgramTree.Within, ProgramTree.statements_prepend_none] at within
          rcases inductionHypothesis others within with ⟨statements, done, means⟩
          rw [Stream.leads_nil_iff.mp leads, parse_of_view_separator view']
          exact ⟨statements, done, means⟩
      | some tree =>
          rw [ProgramTree.Within, ProgramTree.statements_prepend_some,
            List.forall_mem_cons] at within
          rcases inductionHypothesis others within.2 with ⟨statements, done, means⟩
          rcases tree.exists_yield_eq_name_cons with ⟨tokens, begins⟩
          have leads : stream.Leads tree.yield middle := leads
          rcases (Statement.parse_eq_success_iff view'
              (Token.ne_word_of_isSeparator separator.isSeparator_token)).mpr
              ⟨tree, leads, within.1, rfl⟩ with
            ⟨statement, done', means'⟩
          rcases Stream.leads_cons_iff.mp (begins ▸ leads) with ⟨_, _, view, -⟩
          refine ⟨statement :: statements, ?_, ?_⟩
          · rw [parse_of_statement_separator view done' view', done]
            rfl
          · rw [List.map_cons, means, means']
            exact (congrArg (List.map StatementTree.meaning)
              (ProgramTree.statements_prepend_some tree separator ⟨following, last⟩)).symm

end Program

end

/-! ## Sources -/

/-- The tokens of a source, unless an item of its scan is an error. The end of input is not among
them. -/
def Scan.tokens (scan : Scan) : Except LexicalError (List Token) :=
  scan.items.mapM Item.content

theorem Scan.tokens_eq_ok_iff {scan : Scan} {tokens : List Token} :
    scan.tokens = .ok tokens ↔ scan.items.map Item.content = tokens.map .ok := by
  unfold Scan.tokens
  induction scan.items generalizing tokens with
  | nil => cases tokens <;> simp [pure, Except.pure]
  | cons item rest inductionHypothesis =>
      rw [List.mapM_cons]
      cases content : item.content with
      | error error => cases tokens <;> simp [content, bind, Except.bind]
      | ok token =>
          cases others : rest.mapM Item.content with
          | error error =>
              have none (tokens : List Token) : rest.map Item.content ≠ tokens.map .ok :=
                fun same => by simpa [others] using inductionHypothesis.mpr same
              cases tokens <;> simp_all [bind, Except.bind]
          | ok found =>
              have same : rest.map Item.content = found.map .ok :=
                inductionHypothesis.mp others
              cases tokens with
              | nil => simp [bind, Except.bind, pure, Except.pure]
              | cons token' tokens' =>
                  simp only [bind, Except.bind, pure, Except.pure, Except.ok.injEq,
                    List.cons.injEq, List.map_cons, content, same]
                  rw [List.map_inj_right (fun _ _ => Except.ok.inj)]

/-- A scan holds no end of input. -/
theorem Scan.content_readFrom_ne_endOfInput (c : Char) (rest : List Char) :
    (readFrom c rest).2.1 ≠ .ok .endOfInput := by
  unfold readFrom
  split <;> try simp
  split
  · simp
  · split
    · simp
    · split
      · unfold ofLiteral
        split <;> simp
      · simp

theorem Scan.content_ne_endOfInput {source : List Char} {item : Item}
    (inside : item ∈ (Scan.ofText source).items) : item.content ≠ .ok .endOfInput := by
  fun_induction Scan.ofText source with
  | case1 => simp at inside
  | case2 source first rest found following inductionHypothesis =>
      rcases List.mem_cons.mp inside with rfl | later
      · unfold Scan.next at found
        split at found
        · contradiction
        · simp only [Sum.inr.injEq, Prod.mk.injEq] at found
          rcases found with ⟨rfl, -⟩
          exact content_readFrom_ne_endOfInput _ _
      · exact inductionHypothesis later

namespace Stream

theorem map_content_place (source offset : Nat) (items : List Item) :
    (place source offset items).map Lexeme.content = items.map Item.content := by
  induction items generalizing offset with
  | nil => rfl
  | cons item rest inductionHypothesis => simp [place, inductionHypothesis]

/-- A stream leads over real tokens to its end exactly when these are all its lexemes. -/
theorem leads_to_end_iff {stream : Stream} {tokens : List Token}
    (real : ∀ lexeme ∈ stream.lexemes, lexeme.content ≠ .ok .endOfInput)
    (notEnd : ∀ token ∈ tokens, token ≠ .endOfInput) :
    (∃ rest span after, stream.Leads tokens rest ∧ rest.view = .token .endOfInput span after) ↔
      stream.lexemes.map Lexeme.content = tokens.map .ok := by
  rcases stream with ⟨lexemes, stop⟩
  simp only at real ⊢
  induction lexemes generalizing tokens with
  | nil =>
      constructor
      · rintro ⟨rest, span, after, leads, -⟩
        cases tokens with
        | nil => rfl
        | cons token others =>
            rcases leads_cons_iff.mp leads with ⟨_, _, view, -⟩
            simp only [Stream.view, View.token.injEq] at view
            exact absurd view.1.symm (notEnd token List.mem_cons_self)
      · intro same
        rw [List.map_nil, eq_comm, List.map_eq_nil_iff] at same
        subst same
        exact ⟨⟨[], stop⟩, stop, ⟨[], stop⟩, .here _, rfl⟩
  | cons lexeme following inductionHypothesis =>
      rcases lexeme with ⟨place, content⟩
      rcases List.forall_mem_cons.mp real with ⟨realFirst, realOthers⟩
      cases content with
      | error error =>
          constructor
          · rintro ⟨rest, span, after, leads, ended⟩
            obtain ⟨found, _, _, view, -⟩ := leads.exists_view ended
            simp [Stream.view] at view
          · intro same
            cases tokens <;> simp at same
      | ok found =>
          cases tokens with
          | nil =>
              constructor
              · rintro ⟨rest, span, after, leads, ended⟩
                rw [← leads_nil_iff.mp leads] at ended
                simp only [Stream.view, View.token.injEq] at ended
                exact absurd (congrArg Except.ok ended.1) realFirst
              · intro same
                simp at same
          | cons token others =>
              have notEndOthers : ∀ token ∈ others, token ≠ .endOfInput :=
                fun token inside => notEnd token (List.mem_cons_of_mem _ inside)
              rw [List.map_cons, List.map_cons, List.cons.injEq, Except.ok.injEq,
                ← inductionHypothesis notEndOthers realOthers]
              constructor
              · rintro ⟨rest, span, after, leads, ended⟩
                rcases leads_cons_iff.mp leads with ⟨_, middle, view, behind⟩
                simp only [Stream.view, View.token.injEq] at view
                rcases view with ⟨same, -, rfl⟩
                exact ⟨same, rest, span, after, behind, ended⟩
              · rintro ⟨rfl, rest, span, after, behind, ended⟩
                exact ⟨rest, span, after, .step rfl behind, ended⟩

end Stream

/-- A stream with the items of a source leads over the tokens of the source to its end, wherever the
items have their places. -/
theorem Stream.leads_to_end_iff_tokens {stream : Stream} {source : List Char} {tokens : List Token}
    (same : stream.lexemes.map Lexeme.content = (Scan.ofText source).items.map Item.content)
    (notEnd : ∀ token ∈ tokens, token ≠ .endOfInput) :
    (∃ rest span after, stream.Leads tokens rest ∧ rest.view = .token .endOfInput span after) ↔
      (Scan.ofText source).tokens = .ok tokens := by
  rw [leads_to_end_iff ?_ notEnd, Scan.tokens_eq_ok_iff, same]
  intro lexeme inside
  obtain ⟨item, inItems, sameContent⟩ : ∃ item ∈ (Scan.ofText source).items,
      item.content = lexeme.content := by
    rw [← List.mem_map, ← same]
    exact List.mem_map_of_mem inside
  rw [← sameContent]
  exact Scan.content_ne_endOfInput inItems

theorem Stream.map_content_ofText (source : Nat) (text : List Char) :
    (ofText source text).lexemes.map Lexeme.content = (Scan.ofText text).items.map Item.content :=
  map_content_place ..

namespace Program

/-- What is read from the items of a source is the meaning of a derivation of its tokens. -/
theorem exists_tree_of_answer {limits : Limits} {stream : Stream} {source : List Char}
    {statements : List Statement}
    (same : stream.lexemes.map Lexeme.content = (Scan.ofText source).items.map Item.content)
    (read : (parse limits stream).answer = .ok statements) :
    ∃ tree : ProgramTree, (Scan.ofText source).tokens = .ok tree.yield ∧
      tree.Within limits ∧ tree.meaning = statements.map Statement.toInstruction := by
  obtain ⟨tree, leads, ⟨span, after, ended⟩, within, means⟩ :=
    exists_tree_of_parse (Parsed.eq_success_of_answer read)
  refine ⟨tree, ?_, within, means⟩
  rw [← Stream.leads_to_end_iff_tokens same fun _ => ProgramTree.ne_endOfInput_of_mem_yield]
  exact ⟨_, span, after, leads, ended⟩

/-- What is read from a source is the meaning of a derivation of its tokens. -/
theorem ofText_eq_ok_iff {limits : Limits} {source : List Char}
    {instructions : List Instruction} :
    (∃ statements, ofText limits source = .ok statements ∧
        statements.map Statement.toInstruction = instructions) ↔
      ∃ tree : ProgramTree, (Scan.ofText source).tokens = .ok tree.yield ∧
        tree.Within limits ∧ tree.meaning = instructions := by
  constructor
  · rintro ⟨statements, read, rfl⟩
    exact exists_tree_of_answer (Stream.map_content_ofText 0 source) read
  · rintro ⟨tree, lexes, within, rfl⟩
    rw [← Stream.leads_to_end_iff_tokens (Stream.map_content_ofText 0 source)
      fun _ => ProgramTree.ne_endOfInput_of_mem_yield] at lexes
    rcases lexes with ⟨rest, span, after, leads, ended⟩
    obtain ⟨statements, done, means⟩ := exists_parse_of_tree leads ended within
    exact ⟨statements, congrArg Parsed.answer done, means⟩

/-- Reading a source succeeds if and only if it is cut into tokens without an error and these
tokens have a derivation within the limits. What is read is then the meaning of the derivation,
which is the only one. -/
theorem ofText_iff_derivation (limits : Limits) (source : List Char) :
    ((∃ statements, ofText limits source = .ok statements) ↔
      ∃ tokens, (Scan.ofText source).tokens = .ok tokens ∧
        ∃ tree : ProgramTree, tree.yield = tokens ∧ tree.Within limits) ∧
    (∀ statements, ofText limits source = .ok statements →
      ∀ tree : ProgramTree, (Scan.ofText source).tokens = .ok tree.yield →
        statements.map Statement.toInstruction = tree.meaning) ∧
    (∀ tree tree' : ProgramTree, tree.yield = tree'.yield → tree = tree') := by
  refine ⟨⟨?_, ?_⟩, ?_, ?_⟩
  · rintro ⟨statements, read⟩
    rcases ofText_eq_ok_iff.mp ⟨statements, read, rfl⟩ with ⟨tree, lexes, within, -⟩
    exact ⟨tree.yield, lexes, tree, rfl, within⟩
  · rintro ⟨_, lexes, tree, rfl, within⟩
    rcases ofText_eq_ok_iff.mpr ⟨tree, lexes, within, rfl⟩ with ⟨statements, read, -⟩
    exact ⟨statements, read⟩
  · intro statements read tree lexes
    rcases ofText_eq_ok_iff.mp ⟨statements, read, rfl⟩ with ⟨tree', lexes', -, means⟩
    have sameYield : tree.yield = tree'.yield := by
      rw [lexes, Except.ok.injEq] at lexes'
      exact lexes'
    rw [ProgramTree.yield_injective sameYield, means]
  · intro tree tree' same
    exact ProgramTree.yield_injective same

/-- A line with a level and a wait, an empty one, and two more. -/
theorem ofText_iff_derivation_lines :
    (Scan.ofText "ttl(31)=on t=5\n;wait(3)\nfreq(0)=7".toList).tokens =
        .ok (ProgramTree.mk
          [(some ⟨.ttl 31 .on, some 5⟩, .lineEnd), (none, .semicolon),
            (some ⟨.wait 3, none⟩, .lineEnd)]
          (some ⟨.frequency 0 7, none⟩)).yield ∧
      ∃ statements, ofText {} "ttl(31)=on t=5\n;wait(3)\nfreq(0)=7".toList = .ok statements ∧
        statements.map Statement.toInstruction =
          [⟨.ttl 31 true, 5⟩, ⟨.wait, 3⟩, ⟨.frequency 0 7, 0⟩] := by
  have lexes : (Scan.ofText "ttl(31)=on t=5\n;wait(3)\nfreq(0)=7".toList).tokens =
      .ok (ProgramTree.mk
        [(some ⟨.ttl 31 .on, some 5⟩, .lineEnd), (none, .semicolon),
          (some ⟨.wait 3, none⟩, .lineEnd)]
        (some ⟨.frequency 0 7, none⟩)).yield := by
    decide +kernel
  have within : (ProgramTree.mk
      [(some ⟨.ttl 31 .on, some 5⟩, .lineEnd), (none, .semicolon),
        (some ⟨.wait 3, none⟩, .lineEnd)]
      (some ⟨.frequency 0 7, none⟩)).Within {} := by
    simp [ProgramTree.Within, ProgramTree.statements, StatementTree.Within, CommandTree.Within,
      StatementTree.duration, CommandTree.duration]
  obtain ⟨accepted, means, -⟩ :=
    ofText_iff_derivation {} "ttl(31)=on t=5\n;wait(3)\nfreq(0)=7".toList
  rcases accepted.mpr ⟨_, lexes, _, rfl, within⟩ with ⟨statements, read⟩
  exact ⟨lexes, statements, read, means statements read _ lexes⟩

end Program

end Sequencer
