/-
# Where reading fails

Reading fails at a place where an expression has to begin and none can, or behind an element of a
list that is neither closed nor followed by another element.  Such a place may lie at any depth of
lists that are still open; all elements before it are complete.

Which characters lead to such a place is said without the reader, as the grammar is.  The main
statement is that the reader fails exactly at such places, with the error that belongs there
(`expr_eq_error_iff`).
-/
import MiniLisp.Proofs.Reader.Grammar

namespace MiniLisp.Reader

open Cursor

/-- What has to follow at a place. -/
inductive Expected where
  /-- An expression. -/
  | expression
  /-- The end of a list, or a separator before another element. -/
  | closing

/-- What is wrong at a place where something has to follow. -/
inductive Fault : ReadError → Expected → Cursor → Prop
  /-- The source ends where an expression has to begin. -/
  | unexpectedEnd {c : Cursor} (hrest : c.rest = []) : Fault .unexpectedEnd .expression c
  /-- No expression begins with the character. -/
  | unexpectedChar {c : Cursor} {found : Char} {more : List Char}
    (hrest : c.rest = found :: more) (hsymbol : isSymbolChar found = false)
    (hquote : found ≠ '"') (hopen : found ≠ '(') :
    Fault (.unexpectedChar c.pos found) .expression c
  /-- A text is opened and never closed. -/
  | unterminatedText {c : Cursor} {chars : List Char} (hrest : c.rest = '"' :: chars)
    (hopen : ∀ body rest, IsTextBody body → chars ≠ body ++ '"' :: rest) :
    Fault .unterminatedText .expression c
  /-- The source ends within a list. -/
  | unmatchedOpen {c : Cursor} (hrest : c.rest = []) : Fault .unmatchedOpen .closing c
  /-- The character neither closes a list nor separates elements. -/
  | expectedClose {c : Cursor} {found : Char} {more : List Char}
    (hrest : c.rest = found :: more) (hsep : Text.isSeparator found = false)
    (hclose : found ≠ ')') : Fault (.expectedClose c.pos found) .closing c

mutual

/-- Some characters begin an expression, with all elements of open lists complete, up to a place
where something is expected; `rest` stands there. -/
inductive Opens : Expected → List Char → List Char → Prop
  /-- The expression itself is expected. -/
  | here {rest : List Char} : Opens .expression [] rest
  /-- The place is in the first element of a list. -/
  | first {expected : Expected} {gap passed rest : List Char} (hgap : IsGap gap)
    (hstop : StopsAt Text.isSeparator (passed ++ rest)) (hclose : (passed ++ rest).head? ≠ some ')')
    (h : Opens expected passed rest) : Opens expected ('(' :: gap ++ passed) rest
  /-- The place is behind the first element of a list. -/
  | later {expected : Expected} {gap token passed rest : List Char} {v : Value} (hgap : IsGap gap)
    (hfirst : Denotes token (passed ++ rest) v) (h : OpensTail expected passed rest) :
    Opens expected ('(' :: gap ++ token ++ passed) rest

/-- Some characters behind an element of a list lead to such a place. -/
inductive OpensTail : Expected → List Char → List Char → Prop
  /-- Nothing but separators is left. -/
  | ended {gap : List Char} (hgap : IsGap gap) : OpensTail .closing gap []
  /-- The place is right behind the element. -/
  | unseparated {rest : List Char} : OpensTail .closing [] rest
  /-- The place is in the next element. -/
  | first {expected : Expected} {gap passed rest : List Char} (hne : gap ≠ []) (hgap : IsGap gap)
    (hstop : StopsAt Text.isSeparator (passed ++ rest)) (hmore : passed ++ rest ≠ [])
    (hclose : (passed ++ rest).head? ≠ some ')') (h : Opens expected passed rest) :
    OpensTail expected (gap ++ passed) rest
  /-- The place is behind the next element. -/
  | later {expected : Expected} {gap token passed rest : List Char} {v : Value} (hne : gap ≠ [])
    (hgap : IsGap gap) (hitem : Denotes token (passed ++ rest) v)
    (h : OpensTail expected passed rest) : OpensTail expected (gap ++ token ++ passed) rest

end

/-! ### What the reader finds -/

lemma splitText?_eq_none_iff {chars : List Char} :
    splitText? chars = none ↔ ∀ body rest, IsTextBody body → chars ≠ body ++ '"' :: rest := by
  simp only [Option.eq_none_iff_forall_ne_some, ne_eq, Prod.forall, splitText?_eq_some_iff, not_and]

lemma fault_of_text {c c' : Cursor} {e : ReadError} (hquote : c.peek? = some '"')
    (h : text c = (.error e, c')) : c' = c ∧ Fault e .expression c := by
  obtain ⟨chars, hchars⟩ := peek?_eq_some_iff.1 hquote
  rw [text, hchars] at h
  split at h
  · cases h
  · rename_i hsplit
    cases h
    exact ⟨rfl, .unterminatedText hchars (splitText?_eq_none_iff.1 hsplit)⟩

lemma fault_of_atom {c c' : Cursor} {e : ReadError} {first : Char} (hpeek : c.peek? = some first)
    (hquote : first ≠ '"') (hopen : first ≠ '(') (h : atom c = (.error e, c')) :
    c' = c ∧ Fault e .expression c := by
  obtain ⟨more, hrest⟩ := peek?_eq_some_iff.1 hpeek
  rw [atom, hpeek] at h
  split at h
  · rename_i hrun
    cases h
    have hsymbol : isSymbolChar first = false := by
      rw [run, hrest] at hrun
      cases hfirst : isSymbolChar first with
      | false => rfl
      | true =>
        rw [List.takeWhile_cons_of_pos hfirst] at hrun
        cases hrun
    exact ⟨rfl, .unexpectedChar hrest hsymbol hquote hopen⟩
  · cases h

/-- With enough fuel the reader fails where the grammar says. -/
def FaultyAt (fuel : Nat) : Prop :=
  (∀ {c c' : Cursor} {e : ReadError}, exprWithin fuel c = (.error e, c') →
      c.rest.length < fuel → ∃ expected passed, Passes c passed c' ∧
        Opens expected passed c'.rest ∧ Fault e expected c') ∧
    ∀ {c c' : Cursor} {e : ReadError}, itemsWithin fuel c = (.error e, c') →
      c.rest.length < fuel → ∃ expected passed, Passes c passed c' ∧
        OpensTail expected passed c'.rest ∧ Fault e expected c'

namespace FaultyAt

variable {fuel : Nat} (h : FaultyAt fuel) {c c' : Cursor} {e : ReadError}

include h

lemma expr_succ (hread : exprWithin (fuel + 1) c = (.error e, c'))
    (hfuel : c.rest.length < fuel + 1) : ∃ expected passed, Passes c passed c' ∧
      Opens expected passed c'.rest ∧ Fault e expected c' := by
  rw [exprWithin] at hread
  split at hread
  · rename_i hpeek
    cases hread
    exact ⟨_, _, .refl c, .here, .unexpectedEnd (List.head?_eq_none_iff.1 hpeek)⟩
  · rename_i hpeek
    obtain ⟨rfl, hfault⟩ := fault_of_text hpeek hread
    exact ⟨_, _, .refl _, .here, hfault⟩
  · rename_i hpeek
    obtain ⟨gap, hgap, hskip⟩ := passes_skipSeparators (c.advance 1)
    have hpass : Passes c ('(' :: gap) (c.advance 1).skipSeparators :=
      (passes_of_peek? hpeek).trans hskip
    have hless : (c.advance 1).skipSeparators.rest.length < fuel := by
      rw [hpass.1, List.length_append, List.length_cons] at hfuel
      omega
    have hstop := stopsAt_skipSeparators (c.advance 1)
    simp only at hread
    split at hread
    · cases hread
    · rename_i hclose
      rw [peek?] at hclose
      split at hread
      · rename_i hfirst
        cases hread
        obtain ⟨expected, passed, hpass₁, hopens, hfault⟩ := h.1 hfirst hless
        rw [hpass₁.1] at hstop hclose
        exact ⟨expected, _, hpass.trans hpass₁, .first hgap hstop hclose hopens, hfault⟩
      · rename_i v c₁ hfirst
        split at hread
        · rename_i hothers
          cases hread
          obtain ⟨token, hpass₁, htoken⟩ := (soundAt fuel).1 hfirst
          have hless₁ : c₁.rest.length < fuel := by
            rw [hpass₁.1, List.length_append] at hless
            omega
          obtain ⟨expected, passed, hpass₂, hopens, hfault⟩ := h.2 hothers hless₁
          rw [hpass₂.1] at htoken
          exact ⟨expected, _, (hpass.trans hpass₁).trans hpass₂, .later hgap htoken hopens, hfault⟩
        · cases hread
  · rename_i first hquote hopen hpeek
    obtain ⟨rfl, hfault⟩ :=
      fault_of_atom hpeek (fun heq => hquote heq) (fun heq => hopen heq) hread
    exact ⟨_, _, .refl _, .here, hfault⟩

lemma items_succ (hread : itemsWithin (fuel + 1) c = (.error e, c'))
    (hfuel : c.rest.length < fuel + 1) : ∃ expected passed, Passes c passed c' ∧
      OpensTail expected passed c'.rest ∧ Fault e expected c' := by
  rw [itemsWithin] at hread
  obtain ⟨gap, hgap, hskip⟩ := passes_skipSeparators c
  have hstop := stopsAt_skipSeparators c
  split at hread
  · rename_i hpeek
    cases hread
    have hrest : c.skipSeparators.rest = [] := List.head?_eq_none_iff.1 hpeek
    exact ⟨.closing, gap, hskip, hrest ▸ .ended hgap, .unmatchedOpen hrest⟩
  · cases hread
  · rename_i found hclose hpeek
    obtain ⟨more, hrest⟩ := peek?_eq_some_iff.1 hpeek
    split at hread
    · rename_i hstay
      cases hread
      -- No separator was passed over, so none stands before the character.
      have hnil : gap = [] := List.length_eq_zero_iff.1 (by have := hskip.2; omega)
      subst hnil
      rw [hrest] at hstop
      exact ⟨.closing, [], .refl c, .unseparated,
        .expectedClose (hskip.1.trans hrest) (stopsAt_cons.1 hstop) hclose⟩
    · rename_i hmoved
      have hne : gap ≠ [] := by
        rintro rfl
        exact hmoved hskip.2
      have hless : c.skipSeparators.rest.length < fuel := by
        have hpositive := List.length_pos_iff.2 hne
        rw [hskip.1, List.length_append] at hfuel
        omega
      split at hread
      · rename_i hfirst
        cases hread
        obtain ⟨expected, passed, hpass₁, hopens, hfault⟩ := h.1 hfirst hless
        have hmore : passed ++ c'.rest ≠ [] := by
          rw [← hpass₁.1, hrest]
          exact List.cons_ne_nil _ _
        have hhead : (passed ++ c'.rest).head? ≠ some ')' := by
          rw [← hpass₁.1, hrest, List.head?_cons]
          exact fun heq => hclose (Option.some.inj heq)
        rw [hpass₁.1] at hstop
        exact ⟨expected, _, hskip.trans hpass₁, .first hne hgap hstop hmore hhead hopens, hfault⟩
      · rename_i v c₁ hfirst
        split at hread
        · rename_i hothers
          cases hread
          obtain ⟨token, hpass₁, htoken⟩ := (soundAt fuel).1 hfirst
          have hless₁ : c₁.rest.length < fuel := by
            rw [hpass₁.1, List.length_append] at hless
            omega
          obtain ⟨expected, passed, hpass₂, hopens, hfault⟩ := h.2 hothers hless₁
          rw [hpass₂.1] at htoken
          exact ⟨expected, _, (hskip.trans hpass₁).trans hpass₂, .later hne hgap htoken hopens,
            hfault⟩
        · cases hread

end FaultyAt

lemma faultyAt (fuel : Nat) : FaultyAt fuel := by
  induction fuel with
  | zero =>
    exact ⟨fun _ hfuel => absurd hfuel (Nat.not_lt_zero _),
      fun _ hfuel => absurd hfuel (Nat.not_lt_zero _)⟩
  | succ fuel ih => exact ⟨ih.expr_succ, ih.items_succ⟩

/-! ### Where the reader fails -/

lemma exprWithin_of_fault {fuel : Nat} {c : Cursor} {e : ReadError}
    (h : Fault e .expression c) : exprWithin (fuel + 1) c = (.error e, c) := by
  cases h with
  | unexpectedEnd hrest =>
    rw [exprWithin, peek?, hrest]
    rfl
  | @unexpectedChar _ found more hrest hsymbol hquote hopen =>
    have hpeek : c.peek? = some found := peek?_eq_some_iff.2 ⟨more, hrest⟩
    have hrun : run c = [] := by
      rw [run, hrest, takeWhile_eq_nil_of_stopsAt (stopsAt_cons.2 hsymbol)]
    have hatom : atom c = (.error (.unexpectedChar c.pos found), c) := by
      rw [atom, hrun, hpeek]
    rw [exprWithin, hpeek, ← hatom]
    split <;> rename_i heq
    · cases heq
    · exact absurd (Option.some.inj heq) hquote
    · exact absurd (Option.some.inj heq) hopen
    · rfl
  | unterminatedText hrest hopen =>
    have htext : text c = (.error .unterminatedText, c) := by
      rw [text, hrest, List.drop_one, List.tail_cons, splitText?_eq_none_iff.2 hopen]
    rw [exprWithin, peek?_eq_some_iff.2 ⟨_, hrest⟩]
    exact htext

lemma itemsWithin_of_fault {fuel : Nat} {c : Cursor} {e : ReadError}
    (h : Fault e .closing c) : itemsWithin (fuel + 1) c = (.error e, c) := by
  have hskip : StopsAt Text.isSeparator c.rest → c.skipSeparators = c := fun hstop =>
    (Passes.refl c).skipSeparators_eq isGap_nil hstop
  cases h with
  | unmatchedOpen hrest =>
    rw [itemsWithin, hskip (hrest ▸ stopsAt_nil), peek?, hrest]
    rfl
  | @expectedClose _ found more hrest hsep hclose =>
    rw [itemsWithin, hskip (hrest ▸ stopsAt_cons.2 hsep), peek?, hrest]
    simp only [List.head?_cons, if_true]

/-- With more fuel than there are characters up to it the reader fails at every such place. -/
def FailsAt (fuel : Nat) : Prop :=
  (∀ {c c' : Cursor} {expected : Expected} {passed : List Char} {e : ReadError},
      Opens expected passed c'.rest → Passes c passed c' → Fault e expected c' →
        passed.length < fuel → exprWithin fuel c = (.error e, c')) ∧
    ∀ {c c' : Cursor} {expected : Expected} {passed : List Char} {e : ReadError},
      OpensTail expected passed c'.rest → Passes c passed c' → Fault e expected c' →
        passed.length < fuel → itemsWithin fuel c = (.error e, c')

namespace FailsAt

variable {fuel : Nat} (hfails : FailsAt fuel) {c c' : Cursor} {expected : Expected}
  {passed : List Char} {e : ReadError}

include hfails

lemma expr_succ (h : Opens expected passed c'.rest) (hpass : Passes c passed c')
    (hfault : Fault e expected c') (hfuel : passed.length < fuel + 1) :
    exprWithin (fuel + 1) c = (.error e, c') := by
  generalize hrest : c'.rest = rest at h
  cases h with
  | here =>
    rw [← hpass.eq_advance] at hfault ⊢
    exact exprWithin_of_fault hfault
  | @first _ gap passed rest hgap hstop hclose h =>
    subst hrest
    obtain ⟨mid, hskip, hpass'⟩ := Passes.split gap hpass.tail
    rw [← hpass'.1] at hstop hclose
    simp only [List.length_append, List.length_cons] at hfuel
    have hread := hfails.1 h hpass' hfault (by omega)
    rw [exprWithin, hpass.peek?_eq]
    simp only [hskip.skipSeparators_eq hgap hstop, peek?, if_neg hclose, hread]
  | @later _ gap token passed rest v hgap hfirst h =>
    subst hrest
    obtain ⟨first, more, rfl, hsep, hparen⟩ := hfirst.exists_cons
    rw [List.append_assoc] at hpass
    obtain ⟨-, hpass'⟩ := Passes.skipSeparators hgap hsep hpass.tail
    obtain ⟨mid, hpass₁, hpass₂⟩ := Passes.split (first :: more) hpass'
    simp only [List.length_append, List.length_cons] at hfuel
    rw [← hpass₂.1] at hfirst
    have hvalue := (completeAt fuel).1 hfirst hpass₁ (by simp only [List.length_cons]; omega)
    have hread := hfails.2 h hpass₂ hfault (by omega)
    rw [exprWithin, hpass.peek?_eq]
    simp only [hpass'.peek?_eq, Option.some.injEq, if_neg hparen, hvalue, hread]

lemma items_succ (h : OpensTail expected passed c'.rest) (hpass : Passes c passed c')
    (hfault : Fault e expected c') (hfuel : passed.length < fuel + 1) :
    itemsWithin (fuel + 1) c = (.error e, c') := by
  generalize hrest : c'.rest = rest at h
  cases h with
  | ended hgap =>
    have hskip := hpass.skipSeparators_eq hgap (hrest ▸ stopsAt_nil)
    cases hfault with
    | unmatchedOpen =>
      rw [itemsWithin, hskip, peek?, hrest]
      rfl
    | expectedClose hrest' =>
      rw [hrest] at hrest'
      cases hrest'
  | unseparated =>
    rw [← hpass.eq_advance] at hfault ⊢
    exact itemsWithin_of_fault hfault
  | @first _ gap passed rest hne hgap hstop hmore hclose h =>
    subst hrest
    obtain ⟨mid, hskip, hpass'⟩ := Passes.split gap hpass
    rw [← hpass'.1] at hstop hclose hmore
    obtain ⟨found, more, hmid⟩ := List.exists_cons_of_ne_nil hmore
    have hgaplen := List.length_pos_iff.2 hne
    simp only [List.length_append] at hfuel
    have hread := hfails.1 h hpass' hfault (by omega)
    have hmoved : mid.pos ≠ c.pos := by
      rw [hskip.2]
      omega
    rw [hmid, List.head?_cons] at hclose
    rw [itemsWithin, hskip.skipSeparators_eq hgap hstop, peek?, hmid, List.head?_cons]
    simp only [if_neg hmoved, hread]
    split <;> rename_i heq
    · cases heq
    · exact absurd heq hclose
    · rfl
  | @later _ gap token passed rest v hne hgap hitem h =>
    subst hrest
    obtain ⟨first, more, rfl, hsep, hparen⟩ := hitem.exists_cons
    rw [List.append_assoc] at hpass
    obtain ⟨hskip, hpass'⟩ := Passes.skipSeparators hgap hsep hpass
    obtain ⟨mid, hpass₁, hpass₂⟩ := Passes.split (first :: more) hpass'
    simp only [List.length_append, List.length_cons] at hfuel
    rw [← hpass₂.1] at hitem
    have hgaplen := List.length_pos_iff.2 hne
    have hvalue := (completeAt fuel).1 hitem hpass₁ (by simp only [List.length_cons]; omega)
    have hread := hfails.2 h hpass₂ hfault (by omega)
    have hmoved : c.skipSeparators.pos ≠ c.pos := by
      rw [hskip.2]
      omega
    rw [itemsWithin]
    simp only [hpass'.peek?_eq]
    simp only [if_neg hmoved, hvalue, hread]

end FailsAt

lemma failsAt (fuel : Nat) : FailsAt fuel := by
  induction fuel with
  | zero =>
    exact ⟨fun _ _ _ hfuel => absurd hfuel (Nat.not_lt_zero _),
      fun _ _ _ hfuel => absurd hfuel (Nat.not_lt_zero _)⟩
  | succ fuel ih => exact ⟨ih.expr_succ, ih.items_succ⟩

/-- **The reader fails exactly where the grammar says**, with the error that belongs to the
place. -/
theorem expr_eq_error_iff {c c' : Cursor} {e : ReadError} :
    expr c = (.error e, c') ↔ ∃ expected passed, Passes c passed c' ∧
      Opens expected passed c'.rest ∧ Fault e expected c' := by
  constructor
  · exact fun hread => (faultyAt _).1 hread (Nat.lt_succ_self _)
  · rintro ⟨expected, passed, hpass, h, hfault⟩
    refine (failsAt _).1 h hpass hfault ?_
    -- The characters up to the place are a part of what is left.
    rw [hpass.1, List.length_append]
    omega

end MiniLisp.Reader
