/-
# Positions of the reader

The steps of a reader may come in any order and may go on after an error, from any place in the
middle of a token.  What one step may do is said of positions in the source only (`Moves`).  A
place keeps to the source (`Cursor.IsIn`) whatever characters are passed over, and every step
passes over characters; so what holds of one step from any place of the source holds of every
step of any sequence.  A step that gives an expression or a number gets on, so there are at most
as many of them as there are characters.
-/
import MiniLisp.Proofs.Reader.Fault
import MiniLisp.Proofs.Reader.Prefix
import MiniLisp.Reader.Command

namespace MiniLisp

/-! ### Places of a source -/

/-- A cursor is a place of a source: it stands at most at the end and has the rest of the source
before it. -/
structure Cursor.IsIn (c : Cursor) (source : List Char) : Prop where
  le : c.pos ≤ source.length
  rest : c.rest = source.drop c.pos

namespace Cursor

variable {source passed : List Char} {c c' : Cursor}

lemma isIn_start (source : List Char) : (start source).IsIn source := ⟨Nat.zero_le _, rfl⟩

/-- Passing over characters leads from a place of a source to another one. -/
lemma Passes.isIn (h : Passes c passed c') (hc : c.IsIn source) : c'.IsIn source where
  le := by
    have hlength := congrArg List.length (hc.rest.symm.trans h.1)
    have hle := hc.le
    rw [List.length_drop, List.length_append] at hlength
    rw [h.2]
    omega
  rest := by
    rw [h.2, ← List.drop_drop, ← hc.rest, h.1, List.drop_left]

/-- What is passed over, by positions. -/
lemma Passes.take_drop_eq (h : Passes c passed c') (hc : c.IsIn source) :
    (source.drop c.pos).take (c'.pos - c.pos) = passed := by
  rw [← hc.rest, h.1, h.2, Nat.add_sub_cancel_left, List.take_left]

lemma IsIn.eq (hc : c.IsIn source) : c = ⟨c.pos, source.drop c.pos⟩ := by
  rw [← hc.rest]

lemma IsIn.peek?_eq (hc : c.IsIn source) : c.peek? = source[c.pos]? := by
  rw [peek?, hc.rest, List.head?_drop]

lemma IsIn.pos_eq_length_iff (hc : c.IsIn source) : c.pos = source.length ↔ c.rest = [] := by
  have hle := hc.le
  rw [hc.rest, List.drop_eq_nil_iff]
  omega

end Cursor

open Cursor

/-! ### What a step may do -/

/-- A position that belongs to an error: it is the one in the message, with the character in the
message; or the end of the source; or that of a quote which no quote closes. -/
def ReadError.IsAt (source : List Char) (pos : Nat) : ReadError → Prop
  | .unexpectedChar place found => place = pos ∧ source[pos]? = some found
  | .expectedClose place found => place = pos ∧ source[pos]? = some found
  | .unexpectedEnd => pos = source.length
  | .unmatchedOpen => pos = source.length
  | .unterminatedText => source[pos]? = some '"' ∧
      ∀ body rest, Reader.IsTextBody body → source.drop (pos + 1) ≠ body ++ '"' :: rest
  | .invalidUtf8 _ => False

namespace Reader

/-- Skipping separators leads from a position to another one: there are only separators between
them, and none at the other one. -/
structure Skips (source : List Char) (p q : Nat) : Prop where
  le : p ≤ q
  gap : IsGap ((source.drop p).take (q - p))
  stop : ∀ c, source[q]? = some c → Text.isSeparator c = false

/-- Reading an expression at a position fails at another one: the characters between them leave
some lists open, at whatever depth, all elements before are complete, and the error belongs to
the position. -/
structure Fails (source : List Char) (p : Nat) (e : ReadError) (q : Nat) : Prop where
  le : p ≤ q
  opens : ∃ expected, Opens expected ((source.drop p).take (q - p)) (source.drop q) ∧
    Fault e expected ⟨q, source.drop q⟩
  isAt : e.IsAt source q

/-- What a step may answer at a position of a source, and where it may lead. -/
inductive Moves (source : List Char) (p : Nat) : Command → Reply → Nat → Prop
  /-- An expression has characters. -/
  | value {command : Command} {v : Value} {q : Nat} (hcommand : command = .read ∨ command = .expr)
    (hlt : p < q) : Moves source p command (.value v) q
  /-- So has a number. -/
  | number {x : Binary64} {q : Nat} (hlt : p < q) : Moves source p .number (.number (some x)) q
  /-- Where no number is found the position stays. -/
  | noNumber : Moves source p .number (.number none) p
  /-- The position stays. -/
  | peek : Moves source p .peek (.next source[p]?) p
  /-- The position stays. -/
  | remainder : Moves source p .remainder (.remainder (source.drop p)) p
  /-- The answer is how many separators there were. -/
  | skip {q : Nat} (hskip : Skips source p q) : Moves source p .skip (.skipped (q - p)) q
  /-- An expression is expected right at the position. -/
  | expr {e : ReadError} {q : Nat} (hfails : Fails source p e q) :
    Moves source p .expr (.error e) q
  /-- An expression is expected behind separators. -/
  | read {e : ReadError} {mid q : Nat} (hskip : Skips source p mid)
    (hfails : Fails source mid e q) : Moves source p .read (.error e) q

/-- Whether an answer holds an expression or a number. -/
def Reply.isSuccess : Reply → Bool
  | .value _ => true
  | .number x => x.isSome
  | _ => false

namespace Moves

variable {source : List Char} {p q : Nat} {command : Command} {reply : Reply}

/-- No step goes back. -/
lemma le (h : Moves source p command reply q) : p ≤ q := by
  cases h with
  | value _ hlt => exact Nat.le_of_lt hlt
  | number hlt => exact Nat.le_of_lt hlt
  | noNumber => exact Nat.le_refl p
  | peek => exact Nat.le_refl p
  | remainder => exact Nat.le_refl p
  | skip hskip => exact hskip.le
  | expr hfails => exact hfails.le
  | read hskip hfails => exact Nat.le_trans hskip.le hfails.le

/-- A step that gives something gets on. -/
lemma lt_of_isSuccess (h : Moves source p command reply q) (hreply : reply.isSuccess) :
    p < q := by
  cases h with
  | value _ hlt => exact hlt
  | number hlt => exact hlt
  | noNumber => cases hreply
  | peek => cases hreply
  | remainder => cases hreply
  | skip => cases hreply
  | expr => cases hreply
  | read => cases hreply

end Moves

/-! ### What a step does -/

section

variable {source : List Char} {c : Cursor}

lemma skips_skipSeparators (hc : c.IsIn source) : Skips source c.pos c.skipSeparators.pos := by
  obtain ⟨gap, hgap, hskip⟩ := passes_skipSeparators c
  have hc' := hskip.isIn hc
  refine ⟨?_, ?_, fun ch hch => stopsAt_skipSeparators c ch ?_⟩
  · rw [hskip.2]
    exact Nat.le_add_right _ _
  · rwa [hskip.take_drop_eq hc]
  · rw [← hc'.peek?_eq] at hch
    exact hch

/-- A fault has its position. -/
lemma Fault.isAt {e : ReadError} {expected : Expected} (h : Fault e expected c)
    (hc : c.IsIn source) : e.IsAt source c.pos := by
  have hpeek : ∀ {found more}, c.rest = found :: more → source[c.pos]? = some found := by
    intro found more hrest
    rw [← hc.peek?_eq, peek?, hrest, List.head?_cons]
  cases h with
  | unexpectedEnd hrest => exact hc.pos_eq_length_iff.2 hrest
  | unexpectedChar hrest => exact ⟨rfl, hpeek hrest⟩
  | @unterminatedText _ chars hrest hopen =>
    refine ⟨hpeek hrest, ?_⟩
    rwa [← List.drop_drop, ← hc.rest, hrest]
  | unmatchedOpen hrest => exact hc.pos_eq_length_iff.2 hrest
  | expectedClose hrest => exact ⟨rfl, hpeek hrest⟩

/-- Reading an expression passes over characters, and gets on unless it fails. -/
lemma expr_moves (hc : c.IsIn source) :
    (expr c).2.IsIn source ∧
      ((∃ v, (expr c).1 = .ok v ∧ c.pos < (expr c).2.pos) ∨
        ∃ e, (expr c).1 = .error e ∧ Fails source c.pos e (expr c).2.pos) := by
  cases hexpr : expr c with
  | mk result c' =>
    cases result with
    | ok v =>
      obtain ⟨token, hpass, htoken⟩ := expr_eq_ok_iff.1 hexpr
      have hpositive := List.length_pos_iff.2 htoken.ne_nil
      refine ⟨hpass.isIn hc, Or.inl ⟨v, rfl, ?_⟩⟩
      rw [hpass.2]
      omega
    | error e =>
      obtain ⟨expected, passed, hpass, hopens, hfault⟩ := expr_eq_error_iff.1 hexpr
      have hc' := hpass.isIn hc
      refine ⟨hc', Or.inr ⟨e, rfl, ?_, ⟨expected, ?_, ?_⟩, hfault.isAt hc'⟩⟩
      · rw [hpass.2]
        exact Nat.le_add_right _ _
      · rwa [hpass.take_drop_eq hc, ← hc'.rest]
      · rwa [← hc'.eq]

/-- Reading a number passes over its characters or does not move. -/
lemma number?_moves (hc : c.IsIn source) :
    (number? c).2.IsIn source ∧
      Moves source c.pos .number (.number (number? c).1) (number? c).2.pos := by
  rw [number?]
  split
  · rename_i d hrun
    have hpass : Passes c (run c) (c.advance (run c).length) :=
      passes_advance List.takeWhile_append_dropWhile.symm
    have hpositive := List.length_pos_iff.2 (Decimal.ofRun?_eq_some_iff.1 hrun).ne_nil
    exact ⟨hpass.isIn hc, .number (Nat.lt_add_of_pos_right hpositive)⟩
  · exact ⟨hc, .noNumber⟩

/-- Every step from a place of a source leads to a place of the source. -/
lemma perform_moves (hc : c.IsIn source) (command : Command) :
    (perform c command).2.IsIn source ∧
      Moves source c.pos command (perform c command).1 (perform c command).2.pos := by
  cases command with
  | read =>
    have hskip := skips_skipSeparators hc
    obtain ⟨gap, -, hpass⟩ := passes_skipSeparators c
    obtain ⟨hc', ⟨v, hv, hlt⟩ | ⟨e, he, hfails⟩⟩ := expr_moves (hpass.isIn hc)
    · refine ⟨hc', ?_⟩
      simp only [perform, read, hv, Reply.ofExcept]
      exact .value (.inl rfl) (Nat.lt_of_le_of_lt hskip.le hlt)
    · refine ⟨hc', ?_⟩
      simp only [perform, read, he, Reply.ofExcept]
      exact .read hskip hfails
  | expr =>
    obtain ⟨hc', ⟨v, hv, hlt⟩ | ⟨e, he, hfails⟩⟩ := expr_moves hc
    · refine ⟨hc', ?_⟩
      simp only [perform, hv, Reply.ofExcept]
      exact .value (.inr rfl) hlt
    · refine ⟨hc', ?_⟩
      simp only [perform, he, Reply.ofExcept]
      exact .expr hfails
  | number => exact number?_moves hc
  | peek =>
    refine ⟨hc, ?_⟩
    simp only [perform, hc.peek?_eq]
    exact .peek
  | skip =>
    have hmoves : Moves source c.pos .skip (.skipped (c.skipSeparators.pos - c.pos))
        c.skipSeparators.pos := .skip (skips_skipSeparators hc)
    obtain ⟨gap, -, hpass⟩ := passes_skipSeparators c
    refine ⟨hpass.isIn hc, ?_⟩
    -- The position has moved on by the number of separators.
    rwa [skipSeparators, advance, Nat.add_sub_cancel_left] at hmoves
  | remainder =>
    refine ⟨hc, ?_⟩
    simp only [perform, hc.rest]
    exact .remainder

end

/-! ### Sequences of steps -/

/-- The place after some steps. -/
def placeAfter (c : Cursor) (commands : List Command) : Cursor :=
  commands.foldl (fun c command => (perform c command).2) c

lemma performAll_append (c : Cursor) (before after : List Command) :
    performAll c (before ++ after) =
      performAll c before ++ performAll (placeAfter c before) after := by
  induction before generalizing c with
  | nil => rfl
  | cons command before ih => exact congrArg _ (ih (perform c command).2)

lemma length_performAll (c : Cursor) (commands : List Command) :
    (performAll c commands).length = commands.length := by
  induction commands generalizing c with
  | nil => rfl
  | cons command commands ih => exact congrArg Nat.succ (ih (perform c command).2)

lemma isIn_placeAfter {source : List Char} {c : Cursor} (hc : c.IsIn source)
    (commands : List Command) : (placeAfter c commands).IsIn source := by
  induction commands generalizing c with
  | nil => exact hc
  | cons command commands ih => exact ih (perform_moves hc command).1

/-- From a place of a source there are at most as many successes as there are characters left. -/
lemma countP_isSuccess_le {source : List Char} {c : Cursor} (hc : c.IsIn source)
    (commands : List Command) :
    c.pos + (performAll c commands).countP (·.1.isSuccess) ≤ source.length := by
  induction commands generalizing c with
  | nil => exact hc.le
  | cons command commands ih =>
    obtain ⟨hc', hmoves⟩ := perform_moves hc command
    have hothers := ih hc'
    have hle := hmoves.le
    rw [performAll, List.countP_cons]
    split
    · have hlt := hmoves.lt_of_isSuccess ‹_›
      omega
    · omega

/-- **The reader keeps to the positions of its source.**  Take any steps from the start of any
source, in any order, and any one of them.  It starts and ends at a place of the source, with the
rest of the source before it, and it does not go back.  An expression or a number is passed over;
a step that finds no number or only looks does not move; separators are skipped up to the first
other character.  If an expression cannot be read, at whatever depth of lists, then the place is
the one that the message names, or the end of the source, or the opening quote of the text that
is not closed.  And the steps that give an expression or a number are at most as many as the
source has characters. -/
theorem steps_keep_to_positions (source : List Char) (commands : List Command) :
    (∀ before command after, commands = before ++ command :: after →
      let c := placeAfter (.start source) before
      let answer := perform c command
      (performAll (.start source) commands)[before.length]? = some answer ∧
        c.IsIn source ∧ answer.2.IsIn source ∧ c.pos ≤ answer.2.pos ∧
        Moves source c.pos command answer.1 answer.2.pos) ∧
    (performAll (.start source) commands).countP (·.1.isSuccess) ≤ source.length := by
  refine ⟨?_, ?_⟩
  · rintro before command after rfl
    have hc := isIn_placeAfter (isIn_start source) before
    obtain ⟨hc', hmoves⟩ := perform_moves hc command
    refine ⟨?_, hc, hc', hmoves.le, hmoves⟩
    rw [performAll_append, List.getElem?_append_right (Nat.le_of_eq (length_performAll _ _)),
      length_performAll, Nat.sub_self]
    rfl
  · have hcount := countP_isSuccess_le (isIn_start source) commands
    rwa [show (start source).pos = 0 from rfl, Nat.zero_add] at hcount

/-- Two lists are open when the text turns out not to be closed, and the place stays there. -/
example : (performAll (.start "(1 (2 \"a".toList) [.read, .number, .expr, .skip]).map
    (fun answer => answer.2.pos) = [6, 6, 6, 6] := by rfl

end Reader

end MiniLisp
