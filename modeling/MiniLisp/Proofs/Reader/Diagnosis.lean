/-
# What reading errors say

An error of the reader says that the source ended too early or where it went wrong.  In the
first case the source can be completed.  In the second case what stands before the place can
be completed, but no longer with the character at the place: the reader stops at the first
character after which there is no hope.

Both are said of any language that may look at what follows its words, and carried from the
parts of a list to the list (`Diagnosed.lift`).  The induction is on the lists that are open at
the place where reading failed.
-/
import MiniLisp.Proofs.Reader.Fault
import MiniLisp.Proofs.Reader.Prefix

namespace MiniLisp

open Cursor

/-- The position at which a source went wrong, if it did not just end too early. -/
def ReadError.pos? : ReadError → Option Nat
  | .unexpectedChar pos _ => some pos
  | .expectedClose pos _ => some pos
  | _ => none

namespace Reader

/-! ### Hope -/

/-- Words, each together with what follows it. -/
abbrev Language := List Char → List Char → Prop

/-- Some characters can be completed to a word. -/
def Hopeful (L : Language) (chars : List Char) : Prop :=
  ∃ more, ∀ rest, StopsAt isSymbolChar rest → L (chars ++ more) rest

/-- No word begins with some characters or ends within them, whatever follows. -/
def Hopeless (L : Language) (chars : List Char) : Prop :=
  ∀ more token rest, chars ++ more = token ++ rest → ¬ L token rest

/-- An error tells what is wrong with the characters at a cursor. -/
def Diagnosed (L : Language) (c : Cursor) (e : ReadError) : Prop :=
  match e.pos? with
  | none => Hopeful L c.rest
  | some pos => ∃ passed found after, c.rest = passed ++ found :: after ∧
      pos = c.pos + passed.length ∧ Hopeful L passed ∧ Hopeless L (passed ++ [found])

/-- What is wrong with a part is wrong with the whole. -/
lemma Diagnosed.lift {L L' : Language} {c c' : Cursor} {passed : List Char} {e : ReadError}
    (h : Diagnosed L c' e) (hpass : Passes c passed c')
    (hhopeful : ∀ chars, Hopeful L chars → Hopeful L' (passed ++ chars))
    (hhopeless : ∀ first more more', c'.rest = first :: more → Hopeless L (first :: more') →
      Hopeless L' (passed ++ first :: more')) : Diagnosed L' c e := by
  unfold Diagnosed at h ⊢
  cases hpos : e.pos? with
  | none =>
    rw [hpos] at h
    show Hopeful L' c.rest
    rw [hpass.1]
    exact hhopeful _ h
  | some pos =>
    rw [hpos] at h
    obtain ⟨before, found, after, hrest, hat, hbefore, hfound⟩ := h
    refine ⟨passed ++ before, found, after, ?_, ?_, hhopeful _ hbefore, ?_⟩
    · rw [hpass.1, hrest, List.append_assoc]
    · rw [hat, hpass.2, List.length_append, Nat.add_assoc]
    · rw [List.append_assoc]
      cases before with
      | nil => exact hhopeless found after [] hrest hfound
      | cons first before => exact hhopeless first _ _ hrest hfound

/-! ### The languages of the reader -/

/-- Expressions. -/
def Expression : Language := fun token rest => ∃ v, Denotes token rest v

/-- What follows an element of a list, to the end of the list. -/
def Tail : Language := fun tail rest => ∃ vs, DenotesTail tail rest vs

/-- An element of a list and what follows it, to the end of the list. -/
def Elements : Language := fun chars rest =>
  ∃ token tail, chars = token ++ tail ∧ Expression token (tail ++ rest) ∧ Tail tail rest

/-- The end of a list or elements before it, behind a gap. -/
def Listed : Language := fun chars rest =>
  ∃ gap body, IsGap gap ∧ chars = gap ++ body ∧ (body = [')'] ∨ Elements body rest)

/-- Expressions behind a gap. -/
def Spaced : Language := fun chars rest =>
  ∃ gap token, IsGap gap ∧ chars = gap ++ token ∧ Expression token rest

lemma Denotes.first {first : Char} {more rest : List Char} {v : Value}
    (h : Denotes (first :: more) rest v) :
    isSymbolChar first ∨ first = '"' ∨ first = '(' := by
  cases h with
  | number hrun _ _ => exact Or.inl (hrun first List.mem_cons_self)
  | symbol _ hrun _ _ => exact Or.inl (hrun first List.mem_cons_self)
  | text => exact Or.inr (Or.inl rfl)
  | empty => exact Or.inr (Or.inr rfl)
  | list => exact Or.inr (Or.inr rfl)

/-- What follows an opening parenthesis. -/
lemma Denotes.listed {chars rest : List Char} {v : Value} (h : Denotes ('(' :: chars) rest v) :
    Listed chars rest := by
  cases h with
  | number hrun _ _ => exact absurd (hrun '(' List.mem_cons_self) (by decide)
  | symbol _ hrun _ _ => exact absurd (hrun '(' List.mem_cons_self) (by decide)
  | @empty gap _ hgap => exact ⟨gap, [')'], hgap, rfl, Or.inl rfl⟩
  | @list gap token tail _ v vs hgap hfirst htail =>
    exact ⟨gap, token ++ tail, hgap, List.append_assoc _ _ _,
      Or.inr ⟨token, tail, rfl, ⟨v, hfirst⟩, vs, htail⟩⟩

lemma Tail.listed {tail rest : List Char} (h : Tail tail rest) : Listed tail rest := by
  obtain ⟨vs, h⟩ := h
  cases h with
  | @close gap _ hgap => exact ⟨gap, [')'], hgap, rfl, Or.inl rfl⟩
  | @item gap token tail _ v vs _ hgap hitem htail =>
    exact ⟨gap, token ++ tail, hgap, List.append_assoc _ _ _,
      Or.inr ⟨token, tail, rfl, ⟨v, hitem⟩, vs, htail⟩⟩

/-! ### Behind gaps -/

/-- What comes behind a gap is determined. -/
lemma eq_of_gap_append_eq {gap gap' more more' : List Char} (hgap : IsGap gap)
    (hgap' : IsGap gap') (hmore : StopsAt Text.isSeparator more)
    (hmore' : StopsAt Text.isSeparator more') (heq : gap ++ more = gap' ++ more') :
    more = more' := by
  have htake := congrArg (List.takeWhile Text.isSeparator) heq
  rw [takeWhile_append_of_stopsAt hgap hmore, takeWhile_append_of_stopsAt hgap' hmore'] at htake
  subst htake
  exact List.append_cancel_left heq

lemma Expression.stopsAt {token rest : List Char} (h : Expression token rest)
    (more : List Char) : StopsAt Text.isSeparator (token ++ more) := by
  obtain ⟨v, h⟩ := h
  obtain ⟨first, chars, rfl, hsep, -⟩ := h.exists_cons
  exact stopsAt_cons.2 hsep

section

variable {gap more : List Char} {first : Char} (hgap : IsGap gap)
  (hsep : Text.isSeparator first = false)

include hgap hsep

lemma Hopeless.spaced (h : Hopeless Expression (first :: more)) :
    Hopeless Spaced (gap ++ first :: more) := by
  rintro after _ rest heq ⟨gap', token, hgap', rfl, htoken⟩
  rw [List.append_assoc, List.append_assoc] at heq
  exact h after token rest
    (eq_of_gap_append_eq hgap hgap' (stopsAt_cons.2 hsep) (htoken.stopsAt rest) heq) htoken

lemma Hopeless.listed (hparen : first ≠ ')') (h : Hopeless Elements (first :: more)) :
    Hopeless Listed (gap ++ first :: more) := by
  rintro after _ rest heq ⟨gap', body, hgap', rfl, hbody⟩
  rw [List.append_assoc, List.append_assoc] at heq
  have hstop : StopsAt Text.isSeparator (body ++ rest) := by
    rcases hbody with rfl | ⟨token, tail, rfl, htoken, -⟩
    · exact stopsAt_cons.2 (by decide)
    · rw [List.append_assoc]
      exact htoken.stopsAt _
  have hmore := eq_of_gap_append_eq hgap hgap' (stopsAt_cons.2 hsep) hstop heq
  rcases hbody with rfl | hbody
  · exact hparen (List.cons.inj hmore).1
  · exact h after body rest hmore hbody

end

lemma Hopeless.tail {chars : List Char} (h : Hopeless Listed chars) : Hopeless Tail chars :=
  fun after tail rest heq htail => h after tail rest heq htail.listed

lemma Hopeless.list {chars : List Char} (h : Hopeless Listed chars) :
    Hopeless Expression ('(' :: chars) := by
  rintro after token rest heq ⟨v, htoken⟩
  obtain ⟨first, more, rfl, -, -⟩ := htoken.exists_cons
  obtain ⟨rfl, heq'⟩ := List.cons.inj heq
  exact h after more rest heq' htoken.listed

/-! ### Elements of lists -/

lemma Hopeful.elements {chars : List Char} (h : Hopeful Expression chars) :
    Hopeful Elements chars := by
  obtain ⟨more, h⟩ := h
  refine ⟨more ++ [')'], fun rest _ => ⟨chars ++ more, [')'], ?_, ?_, [], .close isGap_nil⟩⟩
  · rw [List.append_assoc]
  · exact h (')' :: rest) (stopsAt_cons.2 (by decide))

lemma Hopeless.elements {chars : List Char} (h : Hopeless Expression chars) :
    Hopeless Elements chars := by
  rintro after _ rest heq ⟨token, tail, rfl, htoken, -⟩
  rw [List.append_assoc] at heq
  exact h after token _ heq htoken

section

variable {token rest : List Char} {v : Value} (hv : Denotes token rest v)

include hv

lemma Hopeful.elements_of_tail {chars : List Char} (h : Hopeful Tail chars) :
    Hopeful Elements (token ++ chars) := by
  obtain ⟨more, h⟩ := h
  refine ⟨more, fun rest' hstop => ⟨token, chars ++ more, List.append_assoc _ _ _, ?_,
    h rest' hstop⟩⟩
  obtain ⟨vs, hvs⟩ := h rest' hstop
  exact ⟨v, hv.followedBy fun _ => hvs.stopsAt rest'⟩

lemma Hopeless.elements_of_tail {first : Char} {more more' : List Char}
    (hrest : rest = first :: more) (h : Hopeless Tail (first :: more')) :
    Hopeless Elements (token ++ first :: more') := by
  rintro after _ rest' heq ⟨token', tail, rfl, ⟨v', hv'⟩, htail⟩
  -- The first element is the one that was read, as the next character has not changed.
  have hstop : v.isAtom → StopsAt isSymbolChar (first :: more' ++ after) := by
    intro hatom
    have hfirst := hv.stopsAt hatom
    rw [hrest] at hfirst
    exact stopsAt_cons.2 (stopsAt_cons.1 hfirst)
  rw [List.append_assoc, List.append_assoc] at heq
  obtain ⟨rfl, heq, -⟩ := (hv.followedBy hstop).unique hv' heq
  exact h after tail rest' heq htail

end

/-! ### Completions -/

lemma hopeful_nil : Hopeful Expression [] :=
  ⟨['(', ')'], fun _ _ => ⟨.list [], .empty isGap_nil⟩⟩

lemma hopeful_gap {gap : List Char} (hgap : IsGap gap) : Hopeful Tail gap :=
  ⟨[')'], fun _ _ => ⟨[], .close hgap⟩⟩

lemma Hopeful.list {gap chars : List Char} (hgap : IsGap gap) (h : Hopeful Elements chars) :
    Hopeful Expression ('(' :: gap ++ chars) := by
  obtain ⟨more, h⟩ := h
  refine ⟨more, fun rest hstop => ?_⟩
  obtain ⟨token, tail, heq, ⟨v, hv⟩, vs, hvs⟩ := h rest hstop
  rw [List.append_assoc, heq, ← List.append_assoc]
  exact ⟨.list (v :: vs), .list hgap hv hvs⟩

lemma Hopeful.tail {gap chars : List Char} (hgap : IsGap gap) (hne : gap ≠ [])
    (h : Hopeful Elements chars) : Hopeful Tail (gap ++ chars) := by
  obtain ⟨more, h⟩ := h
  refine ⟨more, fun rest hstop => ?_⟩
  obtain ⟨token, tail, heq, ⟨v, hv⟩, vs, hvs⟩ := h rest hstop
  rw [List.append_assoc, heq, ← List.append_assoc]
  exact ⟨v :: vs, .item hne hgap hv hvs⟩

/-- What is left of a text that is not closed is its body, perhaps with one more quote: the
backslash at the end, if there is one, escapes it. -/
lemma isTextBody_of_splitText?_eq_none {chars : List Char} (h : splitText? chars = none) :
    IsTextBody chars ∨ IsTextBody (chars ++ ['"']) := by
  induction chars using splitText?.induct with
  | case1 => exact Or.inl .nil
  | case2 chars ih =>
    rw [splitText?, Option.map_eq_none_iff] at h
    exact (ih h).imp .escape .escape
  | case3 chars => cases h
  | case4 c chars hesc hquote ih =>
    rw [splitText?, Option.map_eq_none_iff] at h
    · rcases ih h with hbody | hbody
      · by_cases hlast : c = '\\' ∧ chars = []
        · obtain ⟨rfl, rfl⟩ := hlast
          exact Or.inr (.escape .nil)
        · exact Or.inl (hbody.cons hquote fun hc hchars => hlast ⟨hc, hchars⟩)
      · exact Or.inr (hbody.cons hquote fun _ => by simp)
    · exact hesc
    · exact hquote

lemma hopeful_of_splitText?_eq_none {chars : List Char} (h : splitText? chars = none) :
    Hopeful Expression ('"' :: chars) := by
  rcases isTextBody_of_splitText?_eq_none h with hbody | hbody
  · exact ⟨['"'], fun _ _ => ⟨_, .text hbody⟩⟩
  · refine ⟨['"', '"'], fun _ _ => ?_⟩
    rw [show '"' :: chars ++ ['"', '"'] = '"' :: (chars ++ ['"']) ++ ['"'] by simp]
    exact ⟨_, .text hbody⟩

lemma hopeless_of_unexpected {found : Char} (hsymbol : isSymbolChar found = false)
    (hquote : found ≠ '"') (hopen : found ≠ '(') : Hopeless Expression [found] := by
  rintro after token rest heq ⟨v, hv⟩
  obtain ⟨first, more, rfl, -, -⟩ := hv.exists_cons
  obtain ⟨rfl, -⟩ := List.cons.inj heq
  rcases hv.first with h | rfl | rfl
  · rw [hsymbol] at h
    cases h
  · exact hquote rfl
  · exact hopen rfl

lemma hopeless_of_unseparated {found : Char} (hsep : Text.isSeparator found = false)
    (hclose : found ≠ ')') : Hopeless Tail [found] := by
  rintro after tail rest heq ⟨vs, hvs⟩
  obtain ⟨first, more, rfl, h⟩ := hvs.exists_cons
  obtain ⟨rfl, -⟩ := List.cons.inj heq
  rcases h with h | rfl
  · rw [hsep] at h
    cases h
  · exact hclose rfl

/-! ### The reader -/

section

variable {c c₁ : Cursor} {e : ReadError} {gap : List Char} (hgap : IsGap gap)
  (hstop : StopsAt Text.isSeparator c₁.rest) (h : Diagnosed Elements c₁ e)

include hgap hstop h

/-- What is wrong with the elements of a list is wrong with the list. -/
lemma Diagnosed.list (hpass : Passes c ('(' :: gap) c₁) (hclose : c₁.peek? ≠ some ')') :
    Diagnosed Expression c e := by
  refine h.lift hpass (fun _ hchars => hchars.list hgap) fun first more more' hrest hchars => ?_
  rw [hrest] at hstop
  exact (hchars.listed hgap (stopsAt_cons.1 hstop) (ne_of_peek?_ne hclose hrest)).list

/-- What is wrong with further elements of a list is wrong with what follows the first one. -/
lemma Diagnosed.tail (hpass : Passes c gap c₁) (hne : gap ≠ []) (hclose : c₁.peek? ≠ some ')') :
    Diagnosed Tail c e := by
  refine h.lift hpass (fun _ hchars => hchars.tail hgap hne) fun first more more' hrest hchars => ?_
  rw [hrest] at hstop
  exact (hchars.listed hgap (stopsAt_cons.1 hstop) (ne_of_peek?_ne hclose hrest)).tail

end

section

variable {c c₁ : Cursor} {e : ReadError}

/-- What is wrong with an element of a list is wrong from there on. -/
lemma Diagnosed.elements (h : Diagnosed Expression c e) : Diagnosed Elements c e :=
  h.lift (.refl c) (fun _ hchars => hchars.elements) fun _ _ _ _ hchars => hchars.elements

/-- What is wrong behind an element of a list is wrong from the element on. -/
lemma Diagnosed.elements_of_tail {token : List Char} {v : Value} (hv : Denotes token c₁.rest v)
    (h : Diagnosed Tail c₁ e) (hpass : Passes c token c₁) : Diagnosed Elements c e :=
  h.lift hpass (fun _ hchars => hchars.elements_of_tail hv)
    fun _ _ _ hrest hchars => hchars.elements_of_tail hv hrest

end

/-- What has to follow at a place, as a language. -/
def Expected.language : Expected → Language
  | .expression => Expression
  | .closing => Tail

/-- At the place itself an error tells what is wrong. -/
lemma Fault.diagnosed {expected : Expected} {c : Cursor} {e : ReadError}
    (h : Fault e expected c) : Diagnosed expected.language c e := by
  cases h with
  | unexpectedEnd hrest =>
    show Hopeful Expression c.rest
    rw [hrest]
    exact hopeful_nil
  | @unexpectedChar _ found more hrest hsymbol hquote hopen =>
    exact ⟨[], found, more, hrest, rfl, hopeful_nil, hopeless_of_unexpected hsymbol hquote hopen⟩
  | unterminatedText hrest hopen =>
    show Hopeful Expression c.rest
    rw [hrest]
    exact hopeful_of_splitText?_eq_none (splitText?_eq_none_iff.2 hopen)
  | unmatchedOpen hrest =>
    show Hopeful Tail c.rest
    rw [hrest]
    exact hopeful_gap isGap_nil
  | @expectedClose _ found more hrest hsep hclose =>
    exact ⟨[], found, more, hrest, rfl, hopeful_gap isGap_nil,
      hopeless_of_unseparated hsep hclose⟩

mutual

/-- What is wrong at a place within an expression is wrong with the expression. -/
theorem Opens.diagnosed {expected : Expected} {passed rest : List Char} :
    Opens expected passed rest → ∀ {c c' : Cursor} {e : ReadError}, Passes c passed c' →
      c'.rest = rest → Fault e expected c' → Diagnosed Expression c e
  | .here, _, _, _, hpass, _, hfault => by
    rw [← hpass.eq_advance] at hfault
    exact hfault.diagnosed
  | .first hgap hstop hclose h, _, _, _, hpass, rfl, hfault => by
    obtain ⟨mid, hopen, hpass'⟩ := Passes.split _ hpass
    rw [← hpass'.1] at hstop hclose
    exact (h.diagnosed hpass' rfl hfault).elements.list hgap hstop hopen hclose
  | .later hgap hfirst h, _, _, _, hpass, rfl, hfault => by
    rw [List.append_assoc] at hpass
    obtain ⟨mid, hopen, hpass'⟩ := Passes.split _ hpass
    obtain ⟨mid', hpass₁, hpass₂⟩ := Passes.split _ hpass'
    obtain ⟨first, more, rfl, hsep, hparen⟩ := hfirst.exists_cons
    rw [← hpass₂.1] at hfirst
    refine ((h.diagnosed hpass₂ rfl hfault).elements_of_tail hfirst hpass₁).list hgap ?_ hopen ?_
    · rw [hpass₁.1]
      exact stopsAt_cons.2 hsep
    · rw [hpass₁.peek?_eq]
      exact fun heq => hparen (Option.some.inj heq)

/-- What is wrong at a place behind an element is wrong with what follows the element. -/
theorem OpensTail.diagnosed {expected : Expected} {passed rest : List Char} :
    OpensTail expected passed rest → ∀ {c c' : Cursor} {e : ReadError}, Passes c passed c' →
      c'.rest = rest → Fault e expected c' → Diagnosed Tail c e
  | .ended hgap, _, _, _, hpass, hrest, hfault => by
    cases hfault with
    | unmatchedOpen =>
      show Hopeful Tail _
      rw [hpass.1, hrest, List.append_nil]
      exact hopeful_gap hgap
    | expectedClose hrest' =>
      rw [hrest] at hrest'
      cases hrest'
  | .unseparated, _, _, _, hpass, _, hfault => by
    rw [← hpass.eq_advance] at hfault
    exact hfault.diagnosed
  | .first hne hgap hstop _ hclose h, _, _, _, hpass, rfl, hfault => by
    obtain ⟨mid, hskip, hpass'⟩ := Passes.split _ hpass
    rw [← hpass'.1] at hstop hclose
    exact (h.diagnosed hpass' rfl hfault).elements.tail hgap hstop hskip hne hclose
  | .later hne hgap hitem h, _, _, _, hpass, rfl, hfault => by
    rw [List.append_assoc] at hpass
    obtain ⟨mid, hskip, hpass'⟩ := Passes.split _ hpass
    obtain ⟨mid', hpass₁, hpass₂⟩ := Passes.split _ hpass'
    obtain ⟨first, more, rfl, hsep, hparen⟩ := hitem.exists_cons
    rw [← hpass₂.1] at hitem
    refine ((h.diagnosed hpass₂ rfl hfault).elements_of_tail hitem hpass₁).tail hgap ?_ hskip hne ?_
    · rw [hpass₁.1]
      exact stopsAt_cons.2 hsep
    · rw [hpass₁.peek?_eq]
      exact fun heq => hparen (Option.some.inj heq)

end

/-- What the reader says of an expression is true. -/
lemma diagnosed_of_expr {c c' : Cursor} {e : ReadError} (h : expr c = (.error e, c')) :
    Diagnosed Expression c e := by
  obtain ⟨expected, passed, hpass, hopens, hfault⟩ := expr_eq_error_iff.1 h
  exact hopens.diagnosed hpass rfl hfault

/-- What reading says of a source is true. -/
lemma diagnosed_of_read {c c' : Cursor} {e : ReadError} (h : read c = (.error e, c')) :
    Diagnosed Spaced c e := by
  obtain ⟨gap, hgap, hskip⟩ := passes_skipSeparators c
  have hstop := stopsAt_skipSeparators c
  refine (diagnosed_of_expr h).lift hskip ?_ ?_
  · rintro chars ⟨more, hchars⟩
    exact ⟨more, fun rest hrest =>
      ⟨gap, chars ++ more, hgap, List.append_assoc _ _ _, hchars rest hrest⟩⟩
  · intro first more more' hrest hchars
    rw [hrest] at hstop
    exact hchars.spaced hgap (stopsAt_cons.1 hstop)

/-! ### Sources -/

/-- Some characters can be completed to a source that an expression can be read from. -/
def Completable (chars : List Char) : Prop :=
  ∃ more v c, parse (.text (String.ofList (chars ++ more))) = .ok (v, c)

lemma parse_text_eq_ok_iff {s : String} {v : Value} {c : Cursor} :
    parse (.text s) = .ok (v, c) ↔ read (.start s.toList) = (.ok v, c) := by
  simp only [parse, Source.open?]
  split <;> rename_i hread <;> simp [hread]

lemma parse_text_eq_error_iff {s : String} {e : ReadError} :
    parse (.text s) = .error e ↔ ∃ c, read (.start s.toList) = (.error e, c) := by
  simp only [parse, Source.open?]
  split <;> rename_i hread <;> simp [hread]

lemma completable_iff {chars : List Char} :
    Completable chars ↔ ∃ more token rest, chars ++ more = token ++ rest ∧ Spaced token rest := by
  constructor
  · rintro ⟨more, v, c, hparse⟩
    rw [parse_text_eq_ok_iff, String.toList_ofList] at hparse
    obtain ⟨gap, token, hgap, hpass, hv⟩ := read_eq_ok_iff.1 hparse
    exact ⟨more, gap ++ token, c.rest, hpass.1, gap, token, hgap, rfl, v, hv⟩
  · rintro ⟨more, _, rest, heq, gap, token, hgap, rfl, v, hv⟩
    refine ⟨more, v, ⟨(gap ++ token).length, rest⟩, ?_⟩
    rw [parse_text_eq_ok_iff, String.toList_ofList]
    exact read_eq_ok_iff.2 ⟨gap, token, hgap, ⟨heq, (Nat.zero_add _).symm⟩, hv⟩

lemma Hopeful.completable {chars : List Char} (h : Hopeful Spaced chars) : Completable chars := by
  obtain ⟨more, h⟩ := h
  exact completable_iff.2 ⟨more, chars ++ more, [], (List.append_nil _).symm, h [] stopsAt_nil⟩

lemma Hopeless.not_completable {chars : List Char} (h : Hopeless Spaced chars) :
    ¬ Completable chars := by
  rw [completable_iff]
  rintro ⟨more, token, rest, heq, htoken⟩
  exact h more token rest heq htoken

/-- What begins with characters that cannot be completed cannot be completed either. -/
lemma Completable.take {chars : List Char} (h : Completable chars) (count : Nat) :
    Completable (chars.take count) := by
  obtain ⟨more, v, c, h⟩ := h
  refine ⟨chars.drop count ++ more, v, c, ?_⟩
  rwa [← List.append_assoc, List.take_append_drop]

/-- **The reader looks no further than it must.**  If an expression is read from a source, then
the same one is read, to the same place, from every source that begins with the same characters
up to there; only an atom must not go on.  If reading fails at a place, then what stands before
the place can be completed and what stands before the next place cannot.  And reading fails at
the end exactly if the source can be completed. -/
theorem reading_stops_where_hope_ends (s : String) :
    (∀ v c, parse (.text s) = .ok (v, c) → ∀ s' : String,
      s'.toList.take c.pos = s.toList.take c.pos →
      (v.isAtom → StopsAt isSymbolChar (s'.toList.drop c.pos)) →
        parse (.text s') = .ok (v, ⟨c.pos, s'.toList.drop c.pos⟩)) ∧
    (∀ e pos, parse (.text s) = .error e → e.pos? = some pos →
      Completable (s.toList.take pos) ∧ ¬ Completable (s.toList.take (pos + 1))) ∧
    ∀ e, parse (.text s) = .error e → (e.pos? = none ↔ Completable s.toList) := by
  have hdiagnosed : ∀ {e}, parse (.text s) = .error e → Diagnosed Spaced (.start s.toList) e := by
    intro e hparse
    obtain ⟨c, hread⟩ := parse_text_eq_error_iff.1 hparse
    exact diagnosed_of_read hread
  have hat : ∀ e pos, parse (.text s) = .error e → e.pos? = some pos →
      Completable (s.toList.take pos) ∧ ¬ Completable (s.toList.take (pos + 1)) := by
    intro e pos hparse hpos
    have h := hdiagnosed hparse
    rw [Diagnosed, hpos] at h
    obtain ⟨passed, found, after, hsource, hat, hpassed, hfound⟩ := h
    rw [show pos = passed.length from hat.trans (Nat.zero_add _),
      show s.toList = passed ++ found :: after from hsource, List.take_left,
      List.take_length_add_append]
    exact ⟨hpassed.completable, hfound.not_completable⟩
  refine ⟨fun v c hparse s' htake hstop => ?_, hat, fun e hparse => ⟨fun hpos => ?_, fun h => ?_⟩⟩
  · exact parse_text_eq_ok_iff.2
      (read_start_of_take_eq (parse_text_eq_ok_iff.1 hparse) htake hstop)
  · have h := hdiagnosed hparse
    rw [Diagnosed, hpos] at h
    exact h.completable
  · cases hpos : e.pos? with
    | none => rfl
    | some pos => exact absurd (h.take (pos + 1)) (hat e pos hparse hpos).2

/-- The parentheses behind the second element would have to stand apart from it. -/
example : parse (.text "(a (b)(c))") = .error (.expectedClose 6 '(') := by rfl

end Reader

end MiniLisp
