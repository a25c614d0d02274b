import Sequencer.Proofs.Source.Words
import Sequencer.Proofs.Token.Scanning

/-!
# Lexemes with places in words

The places of a source shorter than `2 ^ 32` bytes are words, so with places in words its lexemes
are the same (`Stream.ofText?_eq`). In a longer source the places begin again at zero: the lexemes
of a text that stands behind blanks (`Source.indented`) have places that are told by the number of
the blanks, whatever that is (`Stream.ofText?_indented`).
-/

namespace Sequencer

open Sequencer.Source Sequencer.Text

/-! ## Places -/

theorem Source.Span.inWords_eq {span : Span} (ordered : span.start ≤ span.stop)
    (short : span.stop < 2 ^ 32) : span.inWords = span := by
  have start : span.start % UInt32.size = span.start := Nat.mod_eq_of_lt (ordered.trans_lt short)
  have stop : span.stop % UInt32.size = span.stop := Nat.mod_eq_of_lt short
  rw [inWords, start, stop]

namespace Stream

variable {text : List Char}

/-- A lexeme ends behind its start, in front of the end of the items. -/
theorem stop_le_of_mem_place {source offset : Nat} {items : List Item} {lexeme : Lexeme}
    (inside : lexeme ∈ place source offset items) :
    lexeme.span.start ≤ lexeme.span.stop ∧
      lexeme.span.stop ≤ offset + byteLength (Scan.textOf items) := by
  induction items generalizing offset with
  | nil => cases inside
  | cons item rest inductionHypothesis =>
      rw [Scan.textOf_cons, byteLength_append, byteLength_append]
      rcases List.mem_cons.mp inside with rfl | later
      · dsimp only
        omega
      · have others := inductionHypothesis later
        omega

theorem byteLength_textOf_le (text : List Char) :
    byteLength (Scan.textOf (Scan.ofText text).items) ≤ byteLength text := by
  have whole := congrArg byteLength (Scan.text_ofText text)
  rw [Scan.text, byteLength_append] at whole
  exact Nat.le.intro whole

theorem inWords_ofText (source : Nat) (short : byteLength text < 2 ^ 32) :
    (ofText source text).inWords = ofText source text := by
  have stop : (ofText source text).stop.inWords = (ofText source text).stop :=
    Span.inWords_eq (Nat.le_refl _) short
  have lexemes : (ofText source text).lexemes.map
      (fun lexeme => { lexeme with span := lexeme.span.inWords }) =
        (ofText source text).lexemes := by
    refine (List.map_congr_left (g := id) fun lexeme inside => ?_).trans (List.map_id _)
    obtain ⟨ordered, bound⟩ := stop_le_of_mem_place inside
    rw [Nat.zero_add] at bound
    rw [Span.inWords_eq ordered ((bound.trans (byteLength_textOf_le text)).trans_lt short)]
    rfl
  rw [inWords, stop, lexemes]

/-- With places in words, the lexemes of a source shorter than `2 ^ 32` bytes are the same. -/
theorem ofText?_eq (source : Nat) (short : byteLength text < 2 ^ 32) :
    ofText? source text = some (ofText source text) := by
  obtain ⟨table, scanned, -⟩ := WordTable.exists_ofBytes?_eq short
  rw [ofText?, scanned, Option.map_some, inWords_ofText source short]

end Stream

/-! ## Blanks in front of a text -/

namespace Scan

theorem splitGap_indented (count : Nat) (text : List Char) :
    splitGap false (indented count text) =
      (indented count (splitGap false text).1, (splitGap false text).2) := by
  induction count with
  | zero => rfl
  | succ count inductionHypothesis =>
      have inner : beginsLineEnd (' ' :: indented count text) = false := by
        simp [beginsLineEnd_cons]
      rw [indented_succ, splitGap_cons, if_pos ⟨inner, rfl⟩, Bool.false_or,
        show decide (' ' = '#') = false from rfl, inductionHypothesis, indented_succ]

end Scan

/-- The lexemes of a text behind blanks have their places behind the blanks. -/
theorem Stream.ofText_indented (source count : Nat) (text : List Char) :
    ofText source (indented count text) =
      ⟨place source count (Scan.ofText text).items,
        ⟨source, count + byteLength text, count + byteLength text⟩⟩ := by
  rw [ofText, byteLength_indented]
  congr 1
  have gap := Scan.splitGap_indented count text
  cases found : Scan.next text with
  | inl trailing =>
      rw [Scan.next_eq_inl_iff] at found
      rw [found] at gap
      rw [Scan.ofText_of_next_inl (Scan.next_eq_inl_iff.mpr gap),
        Scan.ofText_of_next_inl (Scan.next_eq_inl_iff.mpr found)]
      rfl
  | inr next =>
      obtain ⟨item, rest⟩ := next
      obtain ⟨c, after, split, own, content, behind⟩ := Scan.next_eq_inr_iff.mp found
      rw [split] at gap
      have found' : Scan.next (indented count text) =
          .inr ({ item with gap := indented count item.gap }, rest) :=
        Scan.next_eq_inr_iff.mpr ⟨c, after, gap, own, content, behind⟩
      rw [Scan.ofText_of_next_inr found', Scan.ofText_of_next_inr found]
      simp only [place, byteLength_indented, Nat.zero_add]

/-- With places in words, too, only that these begin again at zero behind the greatest word. -/
theorem Stream.ofText?_indented (source count : Nat) {text : List Char} (single : '\n' ∉ text) :
    ofText? source (indented count text) =
      some (inWords ⟨place source count (Scan.ofText text).items,
        ⟨source, count + byteLength text, count + byteLength text⟩⟩) := by
  rw [ofText?, WordTable.ofBytes?_of_notMem (notMem_indented single), Option.map_some,
    ofText_indented]

end Sequencer
