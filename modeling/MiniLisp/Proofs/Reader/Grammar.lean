/-
# The grammar of expressions

Which characters denote which value.  A token is denoted by characters together with what
follows them, because an atom reaches as far as there are symbol characters.  The grammar is
stated without the reader; the main statement is that the reader gives a value exactly for
the tokens of the grammar (`expr_eq_ok_iff`), and then the same is said of positions in a
source.

Soundness and completeness are by induction on the fuel, as the reader is by recursion on
it.  Every token within a list is shorter than the list, so the fuel that the reader starts
with is enough.
-/
import MiniLisp.Proofs.Decimal.Numeral
import MiniLisp.Proofs.Reader.Passage
import MiniLisp.Proofs.Reader.TextBody

namespace MiniLisp.Reader

open Cursor

/-! ### The grammar -/

mutual

/-- Some characters, with `rest` behind them, denote a value. -/
inductive Denotes : List Char → List Char → Value → Prop
  /-- A longest run of symbol characters that spells a decimal is the number nearest to it. -/
  | number {run rest : List Char} {d : Decimal} (hrun : ∀ c ∈ run, isSymbolChar c)
    (hrest : StopsAt isSymbolChar rest) (hspells : d.Spells run) :
    Denotes run rest (.number d.toBinary64)
  /-- Any other longest run of symbol characters is a symbol. -/
  | symbol {run rest : List Char} (hne : run ≠ []) (hrun : ∀ c ∈ run, isSymbolChar c)
    (hrest : StopsAt isSymbolChar rest) (hspells : ∀ d, ¬ Decimal.Spells run d) :
    Denotes run rest (.symbol (String.ofList run))
  /-- A text. -/
  | text {body rest : List Char} (hbody : IsTextBody body) :
    Denotes ('"' :: body ++ ['"']) rest (.text (String.ofList body))
  /-- A list without elements. -/
  | empty {gap rest : List Char} (hgap : IsGap gap) :
    Denotes ('(' :: gap ++ [')']) rest (.list [])
  /-- A list with elements. -/
  | list {gap token tail rest : List Char} {v : Value} {vs : List Value} (hgap : IsGap gap)
    (hfirst : Denotes token (tail ++ rest) v) (htail : DenotesTail tail rest vs) :
    Denotes ('(' :: gap ++ token ++ tail) rest (.list (v :: vs))

/-- Some characters, with `rest` behind them, denote the elements of a list that follow an
element, and close the list. -/
inductive DenotesTail : List Char → List Char → List Value → Prop
  /-- The list is closed. -/
  | close {gap rest : List Char} (hgap : IsGap gap) : DenotesTail (gap ++ [')']) rest []
  /-- Another element follows, behind at least one separator. -/
  | item {gap token tail rest : List Char} {v : Value} {vs : List Value} (hne : gap ≠ [])
    (hgap : IsGap gap) (hitem : Denotes token (tail ++ rest) v)
    (htail : DenotesTail tail rest vs) :
    DenotesTail (gap ++ token ++ tail) rest (v :: vs)

end

/-! ### First characters -/

lemma isSymbolChar_eq_false_of_isSeparator {c : Char} (h : Text.isSeparator c) :
    isSymbolChar c = false := by
  simp only [Text.isSeparator, Bool.or_eq_true, decide_eq_true_eq] at h
  rcases h with ((rfl | rfl) | rfl) | rfl <;> decide

/-- No token begins with a separator or with what closes a list. -/
lemma Denotes.exists_cons {token rest : List Char} {v : Value} (h : Denotes token rest v) :
    ∃ first more, token = first :: more ∧ Text.isSeparator first = false ∧ first ≠ ')' := by
  have hsymbol : ∀ run : List Char, run ≠ [] → (∀ c ∈ run, isSymbolChar c) →
      ∃ first more, run = first :: more ∧ Text.isSeparator first = false ∧ first ≠ ')' := by
    intro run hne hrun
    obtain ⟨first, more, rfl⟩ := List.exists_cons_of_ne_nil hne
    have hfirst := hrun first List.mem_cons_self
    refine ⟨first, more, rfl, ?_, ?_⟩
    · cases hsep : Text.isSeparator first with
      | false => rfl
      | true =>
        rw [isSymbolChar_eq_false_of_isSeparator hsep] at hfirst
        cases hfirst
    · rintro rfl
      revert hfirst
      decide
  cases h with
  | number hrun _ hspells => exact hsymbol _ hspells.ne_nil hrun
  | symbol hne hrun _ _ => exact hsymbol _ hne hrun
  | text _ => exact ⟨_, _, rfl, rfl, by decide⟩
  | empty _ => exact ⟨_, _, rfl, rfl, by decide⟩
  | list _ _ _ => exact ⟨_, _, rfl, rfl, by decide⟩

lemma Denotes.ne_nil {token rest : List Char} {v : Value} (h : Denotes token rest v) :
    token ≠ [] := by
  obtain ⟨first, more, rfl, -, -⟩ := h.exists_cons
  exact List.cons_ne_nil _ _

/-! ### Atoms -/

lemma atomOf_of_spells {run : List Char} {d : Decimal} (h : d.Spells run) :
    atomOf run = .number d.toBinary64 := by
  rw [atomOf, Decimal.ofRun?_eq_some_iff.2 h]

lemma atomOf_of_not_spells {run : List Char} (h : ∀ d, ¬ Decimal.Spells run d) :
    atomOf run = .symbol (String.ofList run) := by
  rw [atomOf, Decimal.ofRun?_eq_none_iff.2 h]

lemma denotes_atomOf {run rest : List Char} (hne : run ≠ []) (hrun : ∀ c ∈ run, isSymbolChar c)
    (hrest : StopsAt isSymbolChar rest) : Denotes run rest (atomOf run) := by
  by_cases h : ∃ d, Decimal.Spells run d
  · obtain ⟨d, hd⟩ := h
    rw [atomOf_of_spells hd]
    exact .number hrun hrest hd
  · rw [not_exists] at h
    rw [atomOf_of_not_spells h]
    exact .symbol hne hrun hrest h

lemma denotes_of_atom {c c' : Cursor} {v : Value} (h : atom c = (.ok v, c')) :
    ∃ token, Passes c token c' ∧ Denotes token c'.rest v := by
  rw [atom] at h
  split at h
  · split at h <;> cases h
  · rename_i head tail hrun
    cases h
    have hcut : c.rest = (head :: tail) ++ c.rest.dropWhile isSymbolChar := by
      rw [← hrun]
      exact List.takeWhile_append_dropWhile.symm
    have hpass := passes_advance hcut
    refine ⟨_, hpass, denotes_atomOf (List.cons_ne_nil _ _) ?_ ?_⟩
    · rw [← hrun]
      exact forall_mem_takeWhile c.rest
    · have hrest : (c.advance (head :: tail).length).rest = c.rest.dropWhile isSymbolChar :=
        List.append_cancel_left (hpass.1.symm.trans hcut)
      rw [hrest]
      exact stopsAt_dropWhile c.rest

lemma atom_eq {c c' : Cursor} {token : List Char} (hne : token ≠ [])
    (hrun : ∀ ch ∈ token, isSymbolChar ch) (hpass : Passes c token c')
    (hrest : StopsAt isSymbolChar c'.rest) : atom c = (.ok (atomOf token), c') := by
  obtain ⟨head, tail, rfl⟩ := List.exists_cons_of_ne_nil hne
  have htake : run c = head :: tail := by
    rw [run, hpass.1, takeWhile_append_of_stopsAt hrun hrest]
  rw [atom, htake]
  simp only [hpass.eq_advance]

/-! ### Texts -/

lemma denotes_of_text {c c' : Cursor} {v : Value} (hquote : c.peek? = some '"')
    (h : text c = (.ok v, c')) : ∃ token, Passes c token c' ∧ Denotes token c'.rest v := by
  obtain ⟨chars, hchars⟩ := peek?_eq_some_iff.1 hquote
  rw [text, hchars] at h
  split at h
  · rename_i body rest hsplit
    cases h
    obtain ⟨hbody, hcut⟩ := splitText?_eq_some_iff.1 hsplit
    have hrest : c.rest = ('"' :: body ++ ['"']) ++ rest := by
      rw [hchars, show chars = body ++ '"' :: rest from hcut]
      simp
    have hpass := passes_advance hrest
    rw [show ('"' :: body ++ ['"']).length = body.length + 2 by simp] at hpass
    exact ⟨_, hpass, .text hbody⟩
  · cases h

lemma text_eq {c c' : Cursor} {body : List Char} (hbody : IsTextBody body)
    (hpass : Passes c ('"' :: body ++ ['"']) c') :
    text c = (.ok (.text (String.ofList body)), c') := by
  have hdrop : c.rest.drop 1 = body ++ '"' :: c'.rest := by
    rw [hpass.1]
    simp
  rw [text, hdrop, splitText?_append hbody]
  have hadvance := hpass.eq_advance
  rw [show ('"' :: body ++ ['"']).length = body.length + 2 by simp] at hadvance
  simp only [hadvance]

/-! ### Soundness -/

/-- What the reader gives with some fuel the grammar has. -/
def SoundAt (fuel : Nat) : Prop :=
  (∀ {c c' : Cursor} {v : Value}, exprWithin fuel c = (.ok v, c') →
      ∃ token, Passes c token c' ∧ Denotes token c'.rest v) ∧
    ∀ {c c' : Cursor} {vs : List Value}, itemsWithin fuel c = (.ok vs, c') →
      ∃ tail, Passes c tail c' ∧ DenotesTail tail c'.rest vs

lemma SoundAt.expr_succ {fuel : Nat} (h : SoundAt fuel) {c c' : Cursor} {v : Value}
    (hread : exprWithin (fuel + 1) c = (.ok v, c')) :
    ∃ token, Passes c token c' ∧ Denotes token c'.rest v := by
  rw [exprWithin] at hread
  split at hread
  · cases hread
  · rename_i hpeek
    exact denotes_of_text hpeek hread
  · rename_i hpeek
    have hopen := passes_of_peek? hpeek
    obtain ⟨gap, hgap, hskip⟩ := passes_skipSeparators (c.advance 1)
    simp only at hread
    split at hread
    · rename_i hclose
      cases hread
      exact ⟨_, (hopen.trans hskip).trans (passes_of_peek? hclose), .empty hgap⟩
    · split at hread
      · cases hread
      · rename_i first c₁ hfirst
        split at hread
        · cases hread
        · rename_i rest c₂ hrest
          cases hread
          obtain ⟨token, hpass₁, htoken⟩ := h.1 hfirst
          obtain ⟨tail, hpass₂, htail⟩ := h.2 hrest
          refine ⟨_, ((hopen.trans hskip).trans hpass₁).trans hpass₂, .list hgap ?_ htail⟩
          -- What stands behind the first element is the tail of the list.
          rwa [← hpass₂.1]
  · exact denotes_of_atom hread

lemma SoundAt.items_succ {fuel : Nat} (h : SoundAt fuel) {c c' : Cursor} {vs : List Value}
    (hread : itemsWithin (fuel + 1) c = (.ok vs, c')) :
    ∃ tail, Passes c tail c' ∧ DenotesTail tail c'.rest vs := by
  rw [itemsWithin] at hread
  obtain ⟨gap, hgap, hskip⟩ := passes_skipSeparators c
  split at hread
  · cases hread
  · rename_i hclose
    cases hread
    exact ⟨_, hskip.trans (passes_of_peek? hclose), .close hgap⟩
  · split at hread
    · cases hread
    · rename_i hmoved
      split at hread
      · cases hread
      · rename_i item c₁ hitem
        split at hread
        · cases hread
        · rename_i rest c₂ hrest
          cases hread
          obtain ⟨token, hpass₁, htoken⟩ := h.1 hitem
          obtain ⟨tail, hpass₂, htail⟩ := h.2 hrest
          refine ⟨_, (hskip.trans hpass₁).trans hpass₂, .item ?_ hgap ?_ htail⟩
          · -- The reader has moved on, so it has passed over a separator.
            rintro rfl
            exact hmoved hskip.2
          · rwa [← hpass₂.1]

lemma soundAt (fuel : Nat) : SoundAt fuel := by
  induction fuel with
  | zero => exact ⟨fun h => (nomatch congrArg Prod.fst h), fun h => (nomatch congrArg Prod.fst h)⟩
  | succ fuel ih => exact ⟨ih.expr_succ, ih.items_succ⟩

/-! ### Completeness -/

lemma exprWithin_eq_atom {fuel : Nat} {c c' : Cursor} {token : List Char} (hne : token ≠ [])
    (hrun : ∀ ch ∈ token, isSymbolChar ch) (hpass : Passes c token c')
    (hrest : StopsAt isSymbolChar c'.rest) :
    exprWithin (fuel + 1) c = (.ok (atomOf token), c') := by
  obtain ⟨first, more, rfl⟩ := List.exists_cons_of_ne_nil hne
  have hfirst := hrun first List.mem_cons_self
  rw [exprWithin, hpass.peek?_eq, ← atom_eq hne hrun hpass hrest]
  split <;> rename_i heq
  · cases heq
  · cases heq
    exact absurd hfirst (by decide)
  · cases heq
    exact absurd hfirst (by decide)
  · rfl

/-- With more fuel than the token is long the reader gives every value of the grammar. -/
def CompleteAt (fuel : Nat) : Prop :=
  (∀ {c c' : Cursor} {token : List Char} {v : Value}, Denotes token c'.rest v →
      Passes c token c' → token.length < fuel → exprWithin fuel c = (.ok v, c')) ∧
    ∀ {c c' : Cursor} {tail : List Char} {vs : List Value}, DenotesTail tail c'.rest vs →
      Passes c tail c' → tail.length < fuel → itemsWithin fuel c = (.ok vs, c')

lemma CompleteAt.expr_succ {fuel : Nat} (hcomplete : CompleteAt fuel) {c c' : Cursor}
    {token : List Char} {v : Value} (h : Denotes token c'.rest v) (hpass : Passes c token c')
    (hfuel : token.length < fuel + 1) : exprWithin (fuel + 1) c = (.ok v, c') := by
  generalize hrest : c'.rest = rest at h
  cases h with
  | number hrun hstop hspells =>
    subst hrest
    rw [exprWithin_eq_atom hspells.ne_nil hrun hpass hstop, atomOf_of_spells hspells]
  | symbol hne hrun hstop hspells =>
    subst hrest
    rw [exprWithin_eq_atom hne hrun hpass hstop, atomOf_of_not_spells hspells]
  | text hbody =>
    rw [exprWithin, hpass.peek?_eq]
    exact text_eq hbody hpass
  | empty hgap =>
    rw [exprWithin, hpass.peek?_eq]
    obtain ⟨-, hclose⟩ := Passes.skipSeparators hgap (by decide) hpass.tail
    simp only [hclose.peek?_eq, if_true]
    exact congrArg _ hclose.eq_advance
  | @list gap token tail rest v vs hgap hfirst htail =>
    subst hrest
    -- No element begins with a separator or a closing parenthesis.
    obtain ⟨first, more, rfl, hsep, hparen⟩ := hfirst.exists_cons
    rw [List.append_assoc] at hpass
    obtain ⟨-, hpass'⟩ := Passes.skipSeparators hgap hsep hpass.tail
    obtain ⟨mid, hpass₁, hpass₂⟩ := Passes.split (first :: more) hpass'
    simp only [List.length_append, List.length_cons] at hfuel
    rw [← hpass₂.1] at hfirst
    have hvalue := hcomplete.1 hfirst hpass₁ (by simp only [List.length_cons]; omega)
    have hvalues := hcomplete.2 htail hpass₂ (by omega)
    rw [exprWithin, hpass.peek?_eq]
    simp only [hpass'.peek?_eq, Option.some.injEq, if_neg hparen, hvalue, hvalues]

lemma CompleteAt.items_succ {fuel : Nat} (hcomplete : CompleteAt fuel) {c c' : Cursor}
    {tail : List Char} {vs : List Value} (h : DenotesTail tail c'.rest vs)
    (hpass : Passes c tail c') (hfuel : tail.length < fuel + 1) :
    itemsWithin (fuel + 1) c = (.ok vs, c') := by
  generalize hrest : c'.rest = rest at h
  cases h with
  | close hgap =>
    obtain ⟨-, hclose⟩ := Passes.skipSeparators hgap (by decide) hpass
    rw [itemsWithin]
    simp only [hclose.peek?_eq]
    exact congrArg _ hclose.eq_advance
  | @item gap token tail rest v vs hne hgap hitem htail =>
    subst hrest
    obtain ⟨first, more, rfl, hsep, hparen⟩ := hitem.exists_cons
    rw [List.append_assoc] at hpass
    obtain ⟨hskip, hpass'⟩ := Passes.skipSeparators hgap hsep hpass
    obtain ⟨mid, hpass₁, hpass₂⟩ := Passes.split (first :: more) hpass'
    simp only [List.length_append, List.length_cons] at hfuel
    rw [← hpass₂.1] at hitem
    have hgaplen := List.length_pos_iff.2 hne
    have hvalue := hcomplete.1 hitem hpass₁ (by simp only [List.length_cons]; omega)
    have hvalues := hcomplete.2 htail hpass₂ (by omega)
    have hmoved : c.skipSeparators.pos ≠ c.pos := by
      rw [hskip.2]
      omega
    rw [itemsWithin]
    simp only [hpass'.peek?_eq]
    simp only [if_neg hmoved, hvalue, hvalues]

lemma completeAt (fuel : Nat) : CompleteAt fuel := by
  induction fuel with
  | zero =>
    exact ⟨fun _ _ hfuel => absurd hfuel (Nat.not_lt_zero _),
      fun _ _ hfuel => absurd hfuel (Nat.not_lt_zero _)⟩
  | succ fuel ih => exact ⟨ih.expr_succ, ih.items_succ⟩

/-! ### The reader and the grammar -/

/-- The reader gives a value and stops at a place exactly if what lies between denotes the
value. -/
theorem expr_eq_ok_iff {c c' : Cursor} {v : Value} :
    expr c = (.ok v, c') ↔ ∃ token, Passes c token c' ∧ Denotes token c'.rest v := by
  constructor
  · exact (soundAt _).1
  · rintro ⟨token, hpass, h⟩
    refine (completeAt _).1 h hpass ?_
    -- The token is a part of what is left, and there is fuel for more than that.
    rw [hpass.1, List.length_append]
    omega

/-- What the reader passes over in a source, by positions. -/
lemma passes_drop_iff {source token : List Char} {p q : Nat} (hne : token ≠ []) :
    Passes ⟨p, source.drop p⟩ token ⟨q, source.drop q⟩ ↔
      p ≤ q ∧ q ≤ source.length ∧ (source.drop p).take (q - p) = token := by
  constructor
  · rintro ⟨hrest, hpos⟩
    simp only at hrest hpos
    have hlen := congrArg List.length hrest
    have hpositive := List.length_pos_iff.2 hne
    simp only [List.length_append, List.length_drop] at hlen
    refine ⟨by omega, by omega, ?_⟩
    rw [hrest, hpos, Nat.add_sub_cancel_left, List.take_left]
  · rintro ⟨hpq, hq, rfl⟩
    refine ⟨?_, ?_⟩
    · have hdrop : source.drop q = (source.drop p).drop (q - p) := by
        rw [List.drop_drop, Nat.add_sub_cancel' hpq]
      rw [hdrop, List.take_append_drop]
    · simp only [List.length_take, List.length_drop]
      omega

/-- **The reader accepts exactly its grammar.**  Started at any position of any source, the
reader gives a value and stops at a position exactly if the characters from the one to the
other denote the value, and where nothing is denoted it fails. -/
theorem expr_accepts_grammar (source : List Char) (p : Nat) :
    (∀ q v, expr ⟨p, source.drop p⟩ = (.ok v, ⟨q, source.drop q⟩) ↔
      p ≤ q ∧ q ≤ source.length ∧
        Denotes ((source.drop p).take (q - p)) (source.drop q) v) ∧
    ((∀ q v, p ≤ q → q ≤ source.length →
        ¬ Denotes ((source.drop p).take (q - p)) (source.drop q) v) →
      ∃ e c, expr ⟨p, source.drop p⟩ = (.error e, c)) := by
  have hiff : ∀ q v, expr ⟨p, source.drop p⟩ = (.ok v, ⟨q, source.drop q⟩) ↔
      p ≤ q ∧ q ≤ source.length ∧
        Denotes ((source.drop p).take (q - p)) (source.drop q) v := by
    intro q v
    rw [expr_eq_ok_iff]
    constructor
    · rintro ⟨token, hpass, h⟩
      obtain ⟨hpq, hq, heq⟩ := (passes_drop_iff h.ne_nil).1 hpass
      exact ⟨hpq, hq, heq ▸ h⟩
    · rintro ⟨hpq, hq, h⟩
      exact ⟨_, (passes_drop_iff h.ne_nil).2 ⟨hpq, hq, rfl⟩, h⟩
  refine ⟨hiff, fun hnone => ?_⟩
  cases hexpr : expr ⟨p, source.drop p⟩ with
  | mk result c =>
    cases result with
    | error e => exact ⟨e, c, rfl⟩
    | ok v =>
      -- The reader can only have stopped at a position of the source.
      obtain ⟨token, hpass, h⟩ := expr_eq_ok_iff.1 hexpr
      have hc : c = ⟨p + token.length, source.drop (p + token.length)⟩ := by
        rw [← hpass.eq_advance, advance, List.drop_drop]
      obtain ⟨hpq, hq, hdenotes⟩ := (hiff _ v).1 (hc ▸ hexpr)
      exact absurd hdenotes (hnone _ v hpq hq)

end MiniLisp.Reader
