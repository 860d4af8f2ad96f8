/-
# Where a text ends

The body of a text is what stands between its quotes.  Every quote in it has a backslash
right before it, and no backslash stands right before the closing quote; so the closing
quote is the first one that has no backslash of the body before it.
-/
import MiniLisp.Proofs.Text.Span
import MiniLisp.Reader.Basic

namespace MiniLisp.Reader

/-- What may stand between the quotes of a text. -/
structure IsTextBody (body : List Char) : Prop where
  /-- A quote in the body has a backslash before it. -/
  escaped : ∀ before after, body = before ++ '"' :: after → before.getLast? = some '\\'
  /-- The closing quote has none. -/
  closed : body.getLast? ≠ some '\\'

namespace IsTextBody

variable {c : Char} {body : List Char}

lemma nil : IsTextBody [] where
  escaped := by
    intro before after h
    simp at h
  closed := by simp

/-- A body stays one behind a character that is not a quote; a backslash must not come to
stand before the closing quote. -/
lemma cons (h : IsTextBody body) (hc : c ≠ '"') (hesc : c = '\\' → body ≠ []) :
    IsTextBody (c :: body) where
  escaped := by
    intro before after heq
    match before with
    | [] => exact absurd (List.cons.inj heq).1 hc
    | [first] =>
      have hlast := h.escaped [] after (List.cons.inj heq).2
      simp at hlast
    | first :: second :: before =>
      rw [List.getLast?_cons_cons]
      exact h.escaped _ after (List.cons.inj heq).2
  closed := by
    cases body with
    | nil =>
      intro hlast
      exact hesc (by simpa using hlast) rfl
    | cons second body =>
      rw [List.getLast?_cons_cons]
      exact h.closed

/-- A body stays one behind a quote with its backslash. -/
lemma escape (h : IsTextBody body) : IsTextBody ('\\' :: '"' :: body) where
  escaped := by
    intro before after heq
    match before with
    | [] => simp at heq
    | [first] =>
      rw [← (List.cons.inj heq).1]
      rfl
    | [first, second] =>
      have hlast := h.escaped [] after (List.cons.inj (List.cons.inj heq).2).2
      simp at hlast
    | first :: second :: third :: before =>
      rw [List.getLast?_cons_cons, List.getLast?_cons_cons]
      exact h.escaped _ after (List.cons.inj (List.cons.inj heq).2).2
  closed := by
    cases body with
    | nil => simp
    | cons third body =>
      rw [List.getLast?_cons_cons, List.getLast?_cons_cons]
      exact h.closed

lemma ne_quote_of_cons (h : IsTextBody (c :: body)) : c ≠ '"' := by
  rintro rfl
  have hlast := h.escaped [] body rfl
  simp at hlast

/-- What comes behind an escaped quote is a body. -/
lemma of_escape (h : IsTextBody ('\\' :: '"' :: body)) : IsTextBody body where
  escaped := by
    intro before after heq
    have hlast := h.escaped ('\\' :: '"' :: before) after (by rw [heq]; rfl)
    cases before with
    | nil => simp at hlast
    | cons first before => rwa [List.getLast?_cons_cons, List.getLast?_cons_cons] at hlast
  closed := by
    cases body with
    | nil => simp
    | cons third body =>
      have hclosed := h.closed
      rwa [List.getLast?_cons_cons, List.getLast?_cons_cons] at hclosed

/-- What comes behind a character that does not escape a quote is a body. -/
lemma of_cons (h : IsTextBody (c :: body))
    (hesc : ∀ tail, c = '\\' → body = '"' :: tail → False) : IsTextBody body where
  escaped := by
    intro before after heq
    have hlast := h.escaped (c :: before) after (by rw [heq]; rfl)
    cases before with
    | nil => exact absurd heq (hesc after (by simpa using hlast))
    | cons first before => rwa [List.getLast?_cons_cons] at hlast
  closed := by
    cases body with
    | nil => simp
    | cons second body =>
      have hclosed := h.closed
      rwa [List.getLast?_cons_cons] at hclosed

lemma ne_nil_of_backslash (h : IsTextBody ('\\' :: body)) : body ≠ [] := by
  rintro rfl
  exact h.closed rfl

end IsTextBody

/-- The characters that begin with the body of a text and its closing quote are cut there. -/
lemma splitText?_append {body : List Char} (h : IsTextBody body) (rest : List Char) :
    splitText? (body ++ '"' :: rest) = some (body, rest) := by
  induction body using splitText?.induct with
  | case1 => rfl
  | case2 body ih =>
    rw [List.cons_append, List.cons_append, splitText?, ih h.of_escape, Option.map_some]
  | case3 body => exact absurd rfl h.ne_quote_of_cons
  | case4 c body hesc hquote ih =>
    rw [List.cons_append, splitText?, ih (h.of_cons hesc), Option.map_some]
    · intro chars hc hchars
      subst hc
      -- The quote that `c` would escape can only be the closing one.
      cases body with
      | nil => exact h.ne_nil_of_backslash rfl
      | cons second body => exact hesc body rfl (by rw [(List.cons.inj hchars).1])
    · exact h.ne_quote_of_cons

lemma isTextBody_of_splitText? {chars body rest : List Char}
    (h : splitText? chars = some (body, rest)) :
    IsTextBody body ∧ chars = body ++ '"' :: rest := by
  induction chars using splitText?.induct generalizing body with
  | case1 => cases h
  | case2 chars ih =>
    rw [splitText?, Option.map_eq_some_iff] at h
    obtain ⟨⟨body', rest'⟩, hsplit, heq⟩ := h
    cases heq
    obtain ⟨hbody, rfl⟩ := ih hsplit
    exact ⟨hbody.escape, rfl⟩
  | case3 chars =>
    cases h
    exact ⟨.nil, rfl⟩
  | case4 c chars hesc hquote ih =>
    rw [splitText?, Option.map_eq_some_iff] at h
    · obtain ⟨⟨body', rest'⟩, hsplit, heq⟩ := h
      cases heq
      obtain ⟨hbody, rfl⟩ := ih hsplit
      refine ⟨hbody.cons hquote ?_, rfl⟩
      rintro rfl rfl
      exact hesc rest rfl rfl
    · exact hesc
    · exact hquote

/-- A text ends where its body ends. -/
theorem splitText?_eq_some_iff {chars body rest : List Char} :
    splitText? chars = some (body, rest) ↔ IsTextBody body ∧ chars = body ++ '"' :: rest := by
  constructor
  · exact isTextBody_of_splitText?
  · rintro ⟨h, rfl⟩
    exact splitText?_append h rest

end MiniLisp.Reader
