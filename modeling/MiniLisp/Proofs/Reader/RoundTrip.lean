/-
# What is displayed can be read again

A value that was read, and that has no infinite number in it, is displayed as a token of the
grammar that denotes the value itself, but for the case of its texts.  The token ends where
it should whatever comes behind it, as long as that is no symbol character; so values may
be displayed one after another with separators between them, and are read back one by one.
-/
import MiniLisp.Eval.Error
import MiniLisp.Proofs.Decimal.ReadBack
import MiniLisp.Proofs.Reader.Image
import MiniLisp.Proofs.Text.Upper
import MiniLisp.Reader.Command

namespace MiniLisp

open Cursor

/-! ### Upper case -/

namespace Value

mutual

/-- A value with all its texts in upper case. -/
def upper : Value → Value
  | .text s => .text (Text.upper s)
  | .list items => .list (upperAll items)
  | v => v

/-- The elements of a list with all their texts in upper case. -/
def upperAll : List Value → List Value
  | [] => []
  | v :: vs => upper v :: upperAll vs

end

lemma upperAll_eq_map (vs : List Value) : upperAll vs = vs.map upper := by
  induction vs with
  | nil => rfl
  | cons v vs ih => rw [upperAll, List.map_cons, ih]

/-- No number in the value is infinite. -/
def HasNoInfinity (v : Value) : Prop := ∀ negative, ¬ (number (.infinite negative)).Occurs v

lemma HasNoInfinity.of_mem {items : List Value} {v : Value} (h : (list items).HasNoInfinity)
    (hmem : v ∈ items) : v.HasNoInfinity :=
  fun negative hoccurs => h negative (.item hmem hoccurs)

end Value

namespace Reader

/-- The body of a text is the body of a text in upper case, too. -/
lemma isTextBody_upper {body : List Char} (h : IsTextBody body) :
    IsTextBody (body.flatMap Text.upperChar) := by
  -- An image without quotes and backslashes may stand before any body.
  have hclear : ∀ image body : List Char, IsTextBody body →
      (∀ c ∈ image, c ≠ '"' ∧ c ≠ '\\') → IsTextBody (image ++ body) := by
    intro image body hbody himage
    induction image with
    | nil => exact hbody
    | cons c image ih =>
      obtain ⟨hquote, hbackslash⟩ := himage c List.mem_cons_self
      refine (ih fun d hd => himage d (List.mem_cons_of_mem _ hd)).cons hquote ?_
      exact fun heq => absurd heq hbackslash
  induction body using splitText?.induct with
  | case1 => exact .nil
  | case2 body ih =>
    simp only [List.flatMap_cons, Text.upperChar_backslash, Text.upperChar_quote]
    exact (ih h.of_escape).escape
  | case3 body => exact absurd rfl h.ne_quote_of_cons
  | case4 c body hesc hquote ih =>
    have hbody := ih (h.of_cons hesc)
    rw [List.flatMap_cons]
    by_cases hbackslash : c = '\\'
    · subst hbackslash
      rw [Text.upperChar_backslash]
      -- The backslash was not the last character, and images are not empty.
      exact hbody.cons (by decide) fun _ =>
        Text.flatMap_upperChar_ne_nil h.ne_nil_of_backslash
    · refine hclear _ _ hbody fun d hd => ⟨?_, ?_⟩
      · rintro rfl
        exact hquote (Text.eq_of_mem_upperChar (Or.inl rfl) hd).symm
      · rintro rfl
        exact hbackslash (Text.eq_of_mem_upperChar (Or.inr rfl) hd).symm

/-! ### Numbers -/

/-- A numeral is a run of symbol characters. -/
lemma isSymbolChar_of_spells {run : List Char} {d : Decimal} (h : d.Spells run) :
    ∀ c ∈ run, isSymbolChar c := by
  have hdigit : ∀ c : Char, c.isDigit → isSymbolChar c := by
    intro c hc
    rw [isSymbolChar, Char.isAlphanum, hc, Bool.or_true, Bool.true_or]
  have hsign : ∀ {sign : List Char} {negative : Bool}, Decimal.SpellsSign sign negative →
      ∀ c ∈ sign, isSymbolChar c := by
    intro sign negative hsign c hc
    cases hsign with
    | absent => cases hc
    | plus =>
      rw [List.mem_singleton.1 hc]
      rfl
    | minus =>
      rw [List.mem_singleton.1 hc]
      rfl
  obtain ⟨sign, negative, digits, whole, fraction, hs, rfl, ⟨hwhole, hfraction, -, hdigits⟩, -⟩ :=
    Decimal.spells_iff.1 h
  intro c hc
  rcases List.mem_append.1 hc with hc | hc
  · exact hsign hs c hc
  · rcases hdigits with rfl | ⟨rfl, -⟩
    · rcases List.mem_append.1 hc with hc | hc
      · exact hdigit c (hwhole c hc)
      · rcases List.mem_cons.1 hc with rfl | hc
        · decide
        · exact hdigit c (hfraction c hc)
    · exact hdigit c (hwhole c hc)

/-- The display form of a finite number denotes the number, with its sign and to the last
bit. -/
lemma denotes_display_finite (negative : Bool) (rank : Fin Binary64.rankCount)
    {rest : List Char} (hrest : StopsAt isSymbolChar rest) :
    Denotes (Binary64.finite negative rank).display.toList rest
      (.number (.finite negative rank)) := by
  obtain ⟨spelled, hspells, hvalue⟩ :=
    Decimal.exists_spells_plain (Decimal.shortest negative rank)
  rw [Binary64.display, String.toList_ofList, ← Decimal.toBinary64_shortest, ← hvalue]
  exact .number (isSymbolChar_of_spells hspells) hrest hspells

/-! ### Lists -/

/-- How a list is displayed behind its first element. -/
def displayTail (vs : List Value) : List Char :=
  vs.flatMap (fun v => ' ' :: v.display.toList) ++ [')']

lemma displayTail_cons (v : Value) (vs : List Value) :
    displayTail (v :: vs) = [' '] ++ v.display.toList ++ displayTail vs := by
  simp [displayTail]

lemma toList_display_cons (v : Value) (vs : List Value) :
    (Value.list (v :: vs)).display.toList = '(' :: [] ++ v.display.toList ++ displayTail vs := by
  have hjoin : [' '].intercalate ((v :: vs).map fun w => w.display.toList) =
      v.display.toList ++ vs.flatMap fun w => ' ' :: w.display.toList := by
    induction vs generalizing v with
    | nil => simp
    | cons w vs ih =>
      have htail := ih w
      rw [List.map_cons] at htail
      rw [List.map_cons, List.map_cons, List.intercalate_cons_cons, htail]
      simp
  rw [Value.display, Value.displayAll_eq_map, String.toList_append, String.toList_append,
    String.toList_intercalate, List.map_map]
  show ['('] ++ [' '].intercalate ((v :: vs).map fun w => w.display.toList) ++ [')'] = _
  rw [hjoin, displayTail]
  simp

/-- No element of a list runs into what is displayed behind it. -/
lemma stopsAt_displayTail (vs : List Value) (rest : List Char) :
    StopsAt isSymbolChar (displayTail vs ++ rest) := by
  cases vs with
  | nil => exact stopsAt_cons.2 rfl
  | cons v vs => exact stopsAt_cons.2 rfl

/-- The display forms of the elements that follow an element denote them. -/
lemma denotesTail_display {vs : List Value} (rest : List Char)
    (h : ∀ v ∈ vs, ∀ behind, StopsAt isSymbolChar behind →
      Denotes v.display.toList behind v.upper) :
    DenotesTail (displayTail vs) rest (vs.map Value.upper) := by
  induction vs with
  | nil => exact .close isGap_nil
  | cons v vs ih =>
    have hgap : IsGap [' '] := by simp [IsGap, Text.isSeparator]
    have hitem := h v List.mem_cons_self _ (stopsAt_displayTail vs rest)
    have htail := ih fun w hw => h w (List.mem_cons_of_mem _ hw)
    rw [displayTail_cons, List.map_cons]
    exact .item (List.cons_ne_nil _ _) hgap hitem htail

/-! ### Values -/

/-- The display form of what can be read denotes it, in upper case, whatever follows that is
no symbol character. -/
theorem denotes_display {v : Value} (h : IsReadable v) (hfinite : v.HasNoInfinity) :
    ∀ rest, StopsAt isSymbolChar rest → Denotes v.display.toList rest v.upper := by
  induction h with
  | @number x hnan =>
    intro rest hrest
    cases x with
    | nan => exact absurd rfl hnan
    | finite negative rank => exact denotes_display_finite negative rank hrest
    | infinite negative => exact absurd .refl (hfinite negative)
  | @text s hbody =>
    intro rest _
    rw [Value.display, String.toList_append, String.toList_append, Text.toList_upper]
    exact .text (isTextBody_upper hbody)
  | @symbol name hne hrun hspells =>
    intro rest hrest
    have hdenotes := Denotes.symbol hne hrun hrest hspells
    rwa [String.ofList_toList] at hdenotes
  | @list items _ ih =>
    intro rest _
    have hitems := fun v hv => ih v hv (hfinite.of_mem hv)
    rw [Value.upper, Value.upperAll_eq_map]
    cases items with
    | nil =>
      have hempty : Denotes ('(' :: [] ++ [')']) rest (.list []) := .empty isGap_nil
      exact hempty
    | cons v vs =>
      have hfirst := hitems v List.mem_cons_self _ (stopsAt_displayTail vs rest)
      have htail := denotesTail_display rest fun w hw => hitems w (List.mem_cons_of_mem _ hw)
      rw [toList_display_cons, List.map_cons]
      exact .list isGap_nil hfirst htail

/-- What can be read can be displayed. -/
lemma isDisplayable_of_isReadable {v : Value} (h : IsReadable v) : v.isDisplayable := by
  induction h with
  | list _ ih =>
    rw [Value.isDisplayable, Value.areDisplayable_eq_all]
    exact List.all_eq_true.2 ih
  | _ => rfl

/-! ### Reading -/

/-- A displayed value is read behind any gap. -/
lemma read_display {c : Cursor} {gap rest : List Char} {v : Value} (hv : IsReadable v)
    (hfinite : v.HasNoInfinity) (hgap : IsGap gap) (hrest : StopsAt isSymbolChar rest)
    (hc : c.rest = gap ++ v.display.toList ++ rest) :
    ∃ c', read c = (.ok v.upper, c') ∧ c'.rest = rest ∧
      c'.pos = c.pos + (gap ++ v.display.toList).length := by
  have hdenotes := denotes_display hv hfinite rest hrest
  obtain ⟨first, more, htoken, hfirst, -⟩ := hdenotes.exists_cons
  have hpass := passes_advance hc
  have hafter : (c.advance (gap ++ v.display.toList).length).rest = rest :=
    List.append_cancel_left (hpass.1.symm.trans hc)
  refine ⟨_, ?_, hafter, rfl⟩
  -- The reader skips the gap only, since no token begins with a separator.
  rw [htoken] at hpass
  obtain ⟨-, hitem⟩ := Passes.skipSeparators hgap hfirst hpass
  rw [← htoken] at hitem
  exact expr_eq_ok_iff.2 ⟨_, hitem, hafter ▸ hdenotes⟩

/-- A displayed value is a whole source. -/
lemma parse_display {v : Value} (hv : IsReadable v) (hfinite : v.HasNoInfinity) :
    parse (.text v.display) = .ok (v.upper, ⟨v.display.toList.length, []⟩) := by
  have hstart : (Cursor.start v.display.toList).rest = [] ++ v.display.toList ++ [] :=
    (List.append_nil _).symm
  obtain ⟨⟨pos, rest⟩, hread, hrest, hpos⟩ :=
    read_display hv hfinite isGap_nil stopsAt_nil hstart
  simp only [start, List.nil_append, Nat.zero_add] at hrest hpos
  rw [parse, Source.open?]
  simp only [hread, hrest, hpos]

/-- What stands between two values keeps them apart. -/
lemma stopsAt_of_gap {gap rest : List Char} (hne : gap ≠ []) (hgap : IsGap gap) :
    StopsAt isSymbolChar (gap ++ rest) := by
  obtain ⟨first, more, rfl⟩ := List.exists_cons_of_ne_nil hne
  exact stopsAt_cons.2 (isSymbolChar_eq_false_of_isSeparator (hgap first List.mem_cons_self))

/-- Values that are displayed one after another, each behind a gap, are read one after another. -/
lemma performAll_display {values : List (List Char × Value)} {c : Cursor}
    (hread : ∀ p ∈ values, IsReadable p.2) (hfinite : ∀ p ∈ values, p.2.HasNoInfinity)
    (hgap : ∀ p ∈ values, IsGap p.1) (hapart : ∀ p ∈ values.tail, p.1 ≠ [])
    (hc : c.rest = values.flatMap fun p => p.1 ++ p.2.display.toList) :
    (performAll c (List.replicate values.length .read ++ [.remainder])).map Prod.fst =
      values.map (fun p => .value p.2.upper) ++ [.remainder []] := by
  induction values generalizing c with
  | nil =>
    show [Reply.remainder c.rest] = [.remainder []]
    rw [hc, List.flatMap_nil]
  | cons p values ih =>
    -- The next gap is not empty, so the value ends where it should.
    have hrest : StopsAt isSymbolChar
        (values.flatMap fun p => p.1 ++ p.2.display.toList) := by
      cases values with
      | nil => exact stopsAt_nil
      | cons q values =>
        rw [List.flatMap_cons, List.append_assoc]
        exact stopsAt_of_gap (hapart q List.mem_cons_self)
          (hgap q (List.mem_cons_of_mem _ List.mem_cons_self))
    rw [List.flatMap_cons] at hc
    rw [List.forall_mem_cons] at hread hfinite hgap
    obtain ⟨c', hvalue, hbehind, -⟩ := read_display hread.1 hfinite.1 hgap.1 hrest hc
    have hothers := ih hread.2 hfinite.2 hgap.2 (fun q hq => hapart q (List.mem_of_mem_tail hq))
      hbehind
    rw [List.length_cons, List.replicate_succ, List.cons_append, performAll]
    simp only [perform, hvalue, Reply.ofExcept, List.map_cons, hothers, List.cons_append]

/-- **What is displayed is read back in upper case.**  Take any values that were read from
sources and have no infinite number in them, each with a gap before it, where the gap may be
empty for the first value only.  Every value has a display form; this is a whole source that
is read as the value with its texts in upper case and nothing else changed.  Displayed one
after another behind their gaps, the values are read back one by one by as many steps, and
then nothing is left. -/
theorem display_reads_back (values : List (List Char × Value))
    (hread : ∀ p ∈ values, ∃ source rest, parse source = .ok (p.2, rest))
    (hfinite : ∀ p ∈ values, p.2.HasNoInfinity)
    (hgap : ∀ p ∈ values, IsGap p.1) (hapart : ∀ p ∈ values.tail, p.1 ≠ []) :
    (∀ p ∈ values, p.2.display? = .ok p.2.display ∧
      parse (.text p.2.display) = .ok (p.2.upper, ⟨p.2.display.toList.length, []⟩)) ∧
    (performAll (.start (values.flatMap fun p => p.1 ++ p.2.display.toList))
        (List.replicate values.length .read ++ [.remainder])).map Prod.fst =
      values.map (fun p => .value p.2.upper) ++ [.remainder []] := by
  have hreadable : ∀ p ∈ values, IsReadable p.2 := by
    intro p hp
    obtain ⟨source, rest, hparse⟩ := hread p hp
    exact isReadable_of_parse hparse
  refine ⟨?_, performAll_display hreadable hfinite hgap hapart rfl⟩
  intro p hp
  refine ⟨?_, parse_display (hreadable p hp) (hfinite p hp)⟩
  rw [Value.display?, if_pos (isDisplayable_of_isReadable (hreadable p hp))]

/-- A list with a symbol, a text and a negative zero in it is displayed twice and read back. -/
theorem display_reads_back_twice :
    let v : Value := .list [.symbol "a", .text "xß\\\"", .number (.zero true)]
    (∃ rest, parse (.text "(a \"xß\\\"\" -0)") = .ok (v, rest)) ∧
      (performAll (.start (v.display.toList ++ ([' ', '\n'] ++ (v.display.toList ++ []))))
          [.read, .read, .remainder]).map Prod.fst =
        [.value v.upper, .value v.upper, .remainder []] := by
  intro v
  have hzero : Decimal.toBinary64 ⟨true, 0, 0⟩ = .zero true := by decide +kernel
  have hparse : parse (.text "(a \"xß\\\"\" -0)") = .ok (v, ⟨13, []⟩) := by
    show _ = Except.ok (Value.list [_, _, .number (.zero true)], _)
    rw [← hzero]
    rfl
  have hfinite : v.HasNoInfinity := by
    intro negative hoccurs
    have hne : Binary64.zero true ≠ .infinite negative := by cases negative <;> decide +kernel
    rcases Value.occurs_list_iff.1 hoccurs with h | ⟨w, hmem, h⟩
    · cases h
    · simp only [List.mem_cons, List.not_mem_nil, or_false] at hmem
      rcases hmem with rfl | rfl | rfl
      · cases h
      · cases h
      · -- The zero is not a constructor term yet.
        generalize Binary64.zero true = x at h hne
        cases h
        exact hne rfl
  have hvalues : ∀ p ∈ [([], v), ([' ', '\n'], v)], p.2 = v ∧ IsGap p.1 := by
    simp [IsGap, Text.isSeparator]
  obtain ⟨-, hread⟩ := display_reads_back [([], v), ([' ', '\n'], v)]
    (fun p hp => ⟨_, _, (hvalues p hp).1 ▸ hparse⟩) (fun p hp => (hvalues p hp).1 ▸ hfinite)
    (fun p hp => (hvalues p hp).2) (by simp)
  exact ⟨⟨_, hparse⟩, hread⟩

end Reader

end MiniLisp
