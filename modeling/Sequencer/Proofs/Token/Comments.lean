import Sequencer.Proofs.Source.Places
import Sequencer.Proofs.Source.Words
import Sequencer.Proofs.Token.Scanning
import Mathlib.Data.List.Forall2

/-!
# Comments

A comment runs from a number sign up to the next line feed. A text without its comments
(`Source.withoutComments`) is cut into the same items as the text, only that a line may end with a
carriage return in one of the two and not in the other (`Scan.forall₂_alike_withoutComments`). For a
comment takes the carriage return in front of its line feed with it, and one that stood in front of
a comment gets to stand in front of the line feed.
-/

namespace Sequencer

open Sequencer.Source Sequencer.Text

/-! ## Texts -/

namespace Source

/-- A text without its comments. -/
def withoutComments : List Char → List Char
  | [] => []
  | c :: rest =>
      if c = '#' then withoutComments (rest.dropWhile (· ≠ '\n')) else c :: withoutComments rest
termination_by text => text.length
decreasing_by
  · exact Nat.lt_succ_of_le (List.length_dropWhile_le ..)
  · exact Nat.lt_succ_self _

variable {line rest text : List Char}

@[simp]
theorem withoutComments_nil : withoutComments [] = [] := by
  rw [withoutComments]

@[simp]
theorem withoutComments_comment (rest : List Char) :
    withoutComments ('#' :: rest) = withoutComments (rest.dropWhile (· ≠ '\n')) := by
  rw [withoutComments, if_pos rfl]

@[simp]
theorem withoutComments_cons {c : Char} (other : c ≠ '#') (rest : List Char) :
    withoutComments (c :: rest) = c :: withoutComments rest := by
  rw [withoutComments, if_neg other]

theorem withoutComments_sublist (text : List Char) : (withoutComments text).Sublist text := by
  fun_induction withoutComments text with
  | case1 => exact .slnil
  | case2 rest inductionHypothesis =>
      exact (inductionHypothesis.trans (List.dropWhile_sublist _)).cons _
  | case3 c rest other inductionHypothesis => exact inductionHypothesis.cons_cons c

theorem withoutComments_indented (count : Nat) (text : List Char) :
    withoutComments (indented count text) = indented count (withoutComments text) := by
  induction count with
  | zero => rfl
  | succ count inductionHypothesis =>
      rw [indented_succ, withoutComments_cons (by decide), inductionHypothesis, indented_succ]

/-- The part of a line in front of its comment. -/
def beforeComment (line : List Char) : List Char := line.takeWhile (· ≠ '#')

@[simp]
theorem beforeComment_cons {c : Char} (other : c ≠ '#') (line : List Char) :
    beforeComment (c :: line) = c :: beforeComment line :=
  List.takeWhile_cons_of_pos (decide_eq_true other)

/-- A line has no comment, or its comment goes up to its end. -/
theorem beforeComment_eq_or_exists (line : List Char) :
    beforeComment line = line ∨ ∃ comment, line = beforeComment line ++ '#' :: comment := by
  induction line with
  | nil => exact .inl rfl
  | cons c line inductionHypothesis =>
      by_cases sign : c = '#'
      · exact .inr ⟨line, by rw [sign]; rfl⟩
      · rw [beforeComment_cons sign]
        rcases inductionHypothesis with whole | ⟨comment, parts⟩
        · exact .inl (congrArg (c :: ·) whole)
        · exact .inr ⟨comment, congrArg (c :: ·) parts⟩

theorem beforeComment_subset (line : List Char) : beforeComment line ⊆ line :=
  (List.takeWhile_prefix _).subset

/-- Behind a number sign everything up to a line feed is left out. -/
theorem dropWhile_of_notMem (single : '\n' ∉ line) (rest : List Char) :
    (line ++ rest).dropWhile (· ≠ '\n') = rest.dropWhile (· ≠ '\n') := by
  have inLine : ∀ c ∈ line, decide (c ≠ '\n') = true := fun c inside =>
    decide_eq_true fun same => single (same ▸ inside)
  exact List.dropWhile_append_of_pos inLine

theorem withoutComments_append_lineFeed (single : '\n' ∉ line) (rest : List Char) :
    withoutComments (line ++ '\n' :: rest) =
      beforeComment line ++ '\n' :: withoutComments rest := by
  induction line with
  | nil => exact withoutComments_cons (by decide) rest
  | cons c line inductionHypothesis =>
      rw [List.mem_cons, not_or] at single
      by_cases sign : c = '#'
      · subst sign
        rw [List.cons_append, withoutComments_comment, dropWhile_of_notMem single.2]
        exact withoutComments_cons (by decide) rest
      · rw [List.cons_append, withoutComments_cons sign, inductionHypothesis single.2,
          beforeComment_cons sign]
        rfl

theorem withoutComments_of_notMem (single : '\n' ∉ line) :
    withoutComments line = beforeComment line := by
  induction line with
  | nil => exact withoutComments_nil
  | cons c line inductionHypothesis =>
      rw [List.mem_cons, not_or] at single
      by_cases sign : c = '#'
      · subst sign
        have skipped := dropWhile_of_notMem single.2 []
        rw [List.append_nil] at skipped
        rw [withoutComments_comment, skipped]
        exact withoutComments_nil
      · rw [withoutComments_cons sign, inductionHypothesis single.2, beforeComment_cons sign]

/-- What holds of one line, and of a line in front of others if it holds of these, holds of every
text. -/
theorem lines_induction {motive : List Char → Prop}
    (last : ∀ line, '\n' ∉ line → motive line)
    (more : ∀ line rest, '\n' ∉ line → motive rest → motive (line ++ '\n' :: rest))
    (text : List Char) : motive text := by
  induction length : text.length using Nat.strongRecOn generalizing text with
  | ind size inductionHypothesis =>
      rcases notMem_or_eq_firstLine_append text with single | ⟨after, parts⟩
      · exact last text single
      · have shorter : after.length < size := by
          rw [← length, parts, List.length_append, List.length_cons]
          omega
        rw [parts]
        exact more _ after (notMem_firstLine text) (inductionHypothesis _ shorter after rfl)

/-- Comments hold no line feeds. -/
theorem count_withoutComments (text : List Char) :
    (withoutComments text).count '\n' = text.count '\n' := by
  have inLine {line : List Char} (single : '\n' ∉ line) :
      (beforeComment line).count '\n' = line.count '\n' := by
    rw [List.count_eq_zero.mpr single]
    exact List.count_eq_zero.mpr fun inside => single (beforeComment_subset line inside)
  induction text using lines_induction with
  | last line single => rw [withoutComments_of_notMem single, inLine single]
  | more line rest single inductionHypothesis =>
      rw [withoutComments_append_lineFeed single, List.count_append, List.count_append,
        List.count_cons_self, List.count_cons_self, inductionHypothesis, inLine single]

end Source

/-! ## Items -/

/-- Two items that are the same, or two line ends. -/
inductive Item.Alike : Item → Item → Prop
  | same (item : Item) : Alike item item
  | lineEnd {gap gap' ending ending' : List Char} (single : '\n' ∉ gap ++ ending)
      (single' : '\n' ∉ gap' ++ ending') :
      Alike ⟨gap, ending ++ ['\n'], .ok .endOfLine⟩ ⟨gap', ending' ++ ['\n'], .ok .endOfLine⟩

theorem Item.Alike.content_eq {item item' : Item} (alike : item.Alike item') :
    item'.content = item.content := by
  cases alike <;> rfl

namespace Scan

variable {first comment line : List Char}

/-- A comment without a line feed goes up to the end. -/
theorem splitGap_of_notMem (single : '\n' ∉ comment) :
    splitGap true comment = (comment, []) := by
  induction comment with
  | nil => rfl
  | cons c rest inductionHypothesis =>
      have inner : beginsLineEnd (c :: rest) = false := by
        rw [beginsLineEnd_cons]
        cases rest <;> simp_all [eq_comm]
      rw [List.mem_cons, not_or] at single
      rw [splitGap_cons, if_pos ⟨inner, rfl⟩, Bool.true_or, inductionHypothesis single.2]

/-- A gap that goes up to the end of a text goes on through a comment behind it. -/
theorem splitGap_append_comment {inComment : Bool}
    (blank : splitGap inComment first = (first, [])) (single : '\n' ∉ comment) :
    splitGap inComment (first ++ '#' :: comment) = (first ++ '#' :: comment, []) := by
  induction first generalizing inComment with
  | nil =>
      have inner : beginsLineEnd ('#' :: comment) = false := by simp [beginsLineEnd_cons]
      have sign : (inComment || isBlank '#') = true := by simp [isBlank]
      rw [List.nil_append, splitGap_cons, if_pos ⟨inner, sign⟩]
      simp [splitGap_of_notMem single]
  | cons c rest inductionHypothesis =>
      rw [splitGap_cons] at blank
      split at blank
      · rename_i passed
        simp only [Prod.mk.injEq, List.cons.injEq, true_and] at blank
        have inner : beginsLineEnd (c :: (rest ++ '#' :: comment)) = false := by
          have inner := passed.1
          rw [beginsLineEnd_cons] at inner ⊢
          cases rest <;> simp_all
        rw [List.cons_append, splitGap_cons, if_pos ⟨inner, passed.2⟩,
          inductionHypothesis (Prod.ext blank.1 blank.2)]
      · cases blank

/-- A comment behind a text adds no item to it. -/
theorem items_append_comment (single : '\n' ∉ comment) (first : List Char) :
    (ofText (first ++ '#' :: comment)).items = (ofText first).items := by
  fun_induction ofText first with
  | case1 first trailing nothing =>
      rw [next_eq_inl_iff] at nothing
      have same := splitGap_append false first
      rw [nothing, List.append_nil] at same
      subst same
      rw [ofText_of_next_inl (next_eq_inl_iff.mpr (splitGap_append_comment nothing single))]
  | case2 first item rest found following inductionHypothesis =>
      have ends : EndsWords ('#' :: comment) := by
        rintro c ⟨⟩
        rfl
      rw [ofText_of_next_inr (next_append_tail ends found), inductionHypothesis]

theorem items_beforeComment (single : '\n' ∉ line) :
    (ofText (beforeComment line)).items = (ofText line).items := by
  rcases beforeComment_eq_or_exists line with whole | ⟨comment, parts⟩
  · rw [whole]
  · have inLine : '\n' ∉ comment := fun inside =>
      single (parts ▸ List.mem_append_right _ (List.mem_cons_of_mem _ inside))
    conv_rhs => rw [parts]
    exact (items_append_comment inLine _).symm

theorem notMem_trailing (single : '\n' ∉ line) : '\n' ∉ (ofText line).trailing := fun inside =>
  single (text_ofText line ▸ List.mem_append_right _ inside)

/-- Without its comments a text has items that are alike. -/
theorem forall₂_alike_withoutComments (text : List Char) :
    List.Forall₂ Item.Alike (ofText text).items (ofText (withoutComments text)).items := by
  have same (items : List Item) : List.Forall₂ Item.Alike items items :=
    List.forall₂_same.mpr fun item _ => .same item
  induction text using lines_induction with
  | last line single =>
      rw [withoutComments_of_notMem single, items_beforeComment single]
      exact same _
  | more line rest single inductionHypothesis =>
      have single' : '\n' ∉ beforeComment line := fun inside =>
        single (beforeComment_subset line inside)
      obtain ⟨gap, ending, parts, -, scanned⟩ := ofText_append_lineFeed line rest
      obtain ⟨gap', ending', parts', -, scanned'⟩ :=
        ofText_append_lineFeed (beforeComment line) (withoutComments rest)
      rw [withoutComments_append_lineFeed single, scanned, scanned', items_beforeComment single]
      refine List.rel_append (same _) (.cons (.lineEnd ?_ ?_) inductionHypothesis)
      · rw [parts]
        exact notMem_trailing single
      · rw [parts']
        exact notMem_trailing single'

end Scan

end Sequencer
