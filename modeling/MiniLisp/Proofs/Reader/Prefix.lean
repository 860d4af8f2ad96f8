/-
# What follows an expression

A token denotes the same value whatever follows it, but for atoms, which reach as far as
there are symbol characters.  So a source has at most one token at a place, and reading
depends on the characters that are passed over and on the next one at most.
-/
import MiniLisp.Proofs.Reader.Grammar

namespace MiniLisp

open Cursor

/-- Whether a value is written without a closing character. -/
def Value.isAtom : Value → Bool
  | .number _ => true
  | .symbol _ => true
  | _ => false

namespace Reader

/-! ### Tokens with other continuations -/

/-- What follows an element of a list begins with a separator or closes the list at once. -/
lemma DenotesTail.exists_cons {tail rest : List Char} {vs : List Value}
    (h : DenotesTail tail rest vs) :
    ∃ first more, tail = first :: more ∧ (Text.isSeparator first ∨ first = ')') := by
  cases h with
  | @close gap _ hgap =>
    cases gap with
    | nil => exact ⟨')', [], rfl, Or.inr rfl⟩
    | cons c gap => exact ⟨c, _, rfl, Or.inl (hgap c List.mem_cons_self)⟩
  | @item gap _ _ _ _ _ hne hgap _ _ =>
    obtain ⟨c, gap, rfl⟩ := List.exists_cons_of_ne_nil hne
    exact ⟨c, _, rfl, Or.inl (hgap c List.mem_cons_self)⟩

/-- So it begins with no symbol character. -/
lemma DenotesTail.stopsAt {tail rest : List Char} {vs : List Value}
    (h : DenotesTail tail rest vs) (rest' : List Char) :
    StopsAt isSymbolChar (tail ++ rest') := by
  obtain ⟨first, more, rfl, hsep | rfl⟩ := h.exists_cons
  · exact stopsAt_cons.2 (isSymbolChar_eq_false_of_isSeparator hsep)
  · exact stopsAt_cons.2 (by decide)

mutual

/-- A token denotes what it denotes whatever follows, unless an atom goes on. -/
theorem Denotes.followedBy {token rest : List Char} {v : Value} :
    Denotes token rest v → ∀ {rest' : List Char},
      (v.isAtom → StopsAt isSymbolChar rest') → Denotes token rest' v
  | .number hrun _ hspells, _, h => .number hrun (h rfl) hspells
  | .symbol hne hrun _ hspells, _, h => .symbol hne hrun (h rfl) hspells
  | .text hbody, _, _ => .text hbody
  | .empty hgap, _, _ => .empty hgap
  | .list hgap hfirst htail, rest', _ =>
    .list hgap (hfirst.followedBy fun _ => htail.stopsAt rest') (htail.followedBy rest')

/-- The end of a list denotes what it denotes whatever follows. -/
theorem DenotesTail.followedBy {tail rest : List Char} {vs : List Value} :
    DenotesTail tail rest vs → ∀ rest' : List Char, DenotesTail tail rest' vs
  | .close hgap, _ => .close hgap
  | .item hne hgap hitem htail, rest' =>
    .item hne hgap (hitem.followedBy fun _ => htail.stopsAt rest') (htail.followedBy rest')

end

/-- An atom has been read to its end. -/
lemma Denotes.stopsAt {token rest : List Char} {v : Value} (h : Denotes token rest v)
    (hv : v.isAtom) : StopsAt isSymbolChar rest := by
  cases h with
  | number _ hrest _ => exact hrest
  | symbol _ _ hrest _ => exact hrest
  | text => cases hv
  | empty => cases hv
  | list => cases hv

/-- A source begins with one token at most. -/
lemma Denotes.unique {token token' rest rest' : List Char} {v v' : Value}
    (h : Denotes token rest v) (h' : Denotes token' rest' v')
    (heq : token ++ rest = token' ++ rest') : token = token' ∧ rest = rest' ∧ v = v' := by
  have hread : expr ⟨0, token ++ rest⟩ = (.ok v, ⟨token.length, rest⟩) :=
    expr_eq_ok_iff.2 ⟨token, ⟨rfl, (Nat.zero_add _).symm⟩, h⟩
  have hread' : expr ⟨0, token ++ rest⟩ = (.ok v', ⟨token'.length, rest'⟩) :=
    expr_eq_ok_iff.2 ⟨token', ⟨heq, (Nat.zero_add _).symm⟩, h'⟩
  rw [hread] at hread'
  simp only [Prod.mk.injEq, Except.ok.injEq, Cursor.mk.injEq] at hread'
  obtain ⟨rfl, -, rfl⟩ := hread'
  exact ⟨List.append_cancel_right heq, rfl, rfl⟩

/-! ### Reading -/

/-- The reader skips a gap and reads a token. -/
lemma read_eq_ok_iff {c c' : Cursor} {v : Value} :
    read c = (.ok v, c') ↔
      ∃ gap token, IsGap gap ∧ Passes c (gap ++ token) c' ∧ Denotes token c'.rest v := by
  rw [read, expr_eq_ok_iff]
  constructor
  · rintro ⟨token, hpass, h⟩
    obtain ⟨gap, hgap, hskip⟩ := passes_skipSeparators c
    exact ⟨gap, token, hgap, hskip.trans hpass, h⟩
  · rintro ⟨gap, token, hgap, hpass, h⟩
    obtain ⟨first, more, rfl, hsep, -⟩ := h.exists_cons
    exact ⟨_, (Passes.skipSeparators hgap hsep hpass).2, h⟩

/-- What a source is read as and where reading stops does not depend on what follows. -/
lemma read_start_of_take_eq {source source' : List Char} {v : Value} {c : Cursor}
    (hread : read (.start source) = (.ok v, c)) (htake : source'.take c.pos = source.take c.pos)
    (hstop : v.isAtom → StopsAt isSymbolChar (source'.drop c.pos)) :
    read (.start source') = (.ok v, ⟨c.pos, source'.drop c.pos⟩) := by
  obtain ⟨gap, token, hgap, hpass, h⟩ := read_eq_ok_iff.1 hread
  refine read_eq_ok_iff.2 ⟨gap, token, hgap, ⟨?_, hpass.2⟩, h.followedBy hstop⟩
  have hpos : c.pos = (gap ++ token).length := hpass.2.trans (Nat.zero_add _)
  have hsource : source.take c.pos = gap ++ token := by
    rw [show source = gap ++ token ++ c.rest from hpass.1, hpos, List.take_left]
  show source' = gap ++ token ++ source'.drop c.pos
  rw [← hsource, ← htake, List.take_append_drop]

end Reader

end MiniLisp
