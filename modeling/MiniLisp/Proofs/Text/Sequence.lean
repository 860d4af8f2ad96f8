/-
# Sequences of bytes

A sequence is a lead byte and the bytes that its limits ask for.  The limits of the second byte
keep out longer forms than needed, surrogates and what is beyond the last code point; so the
sequences are exactly the UTF-8 forms of the characters (`isSequence_iff`), and where one begins
no other one does.
-/
import Mathlib.Tactic.Lemma
import MiniLisp.Text.Utf8

namespace MiniLisp.Text.Utf8

/-- The payload with that of one more byte. -/
def push (payload : Nat) (byte : UInt8) : Nat := payload * 64 + byte.toNat % 64

/-- Bytes keep limits one after another; the limits behind them are still missing. -/
inductive Keeps : List Limits → List UInt8 → List Limits → Prop
  | nil (missing : List Limits) : Keeps missing [] missing
  | cons {limit : Limits} {limits missing : List Limits} {byte : UInt8} {bytes : List UInt8}
    (hallow : limit.allow byte) (hkeeps : Keeps limits bytes missing) :
    Keeps (limit :: limits) (byte :: bytes) missing

/-- A lead byte and the bytes that it asks for, and the payload of all. -/
inductive IsSequence : List UInt8 → Nat → Prop
  | intro {byte : UInt8} {tail : List UInt8} {payload : Nat} {limits : List Limits}
    (hlead : lead? byte = some (payload, limits)) (hkeeps : Keeps limits tail []) :
    IsSequence (byte :: tail) (tail.foldl push payload)

/-! ### Lead bytes -/

lemma allow_iff {low high byte : UInt8} :
    Limits.allow (low, high) byte ↔ low.toNat ≤ byte.toNat ∧ byte.toNat ≤ high.toNat := by
  rw [Limits.allow, Bool.and_eq_true, decide_eq_true_iff, decide_eq_true_iff, UInt8.le_iff_toNat_le,
    UInt8.le_iff_toNat_le]

/-- The lead bytes by the number of bytes in their sequence.  The limits of the second byte keep
out what a shorter sequence or no sequence should stand for. -/
inductive Leads (byte : UInt8) : Nat → List Limits → Prop
  | one (hlt : byte.toNat < 0x80) : Leads byte byte.toNat []
  | two (hle : 0xC2 ≤ byte.toNat) (hlt : byte.toNat < 0xE0) :
    Leads byte (byte.toNat % 32) [continuation]
  | three {low high : UInt8} (hle : 0xE0 ≤ byte.toNat) (hlt : byte.toNat < 0xF0)
    (hlow : byte.toNat = 0xE0 ∧ low.toNat = 0xA0 ∨ byte.toNat ≠ 0xE0 ∧ low.toNat = 0x80)
    (hhigh : byte.toNat = 0xED ∧ high.toNat = 0x9F ∨ byte.toNat ≠ 0xED ∧ high.toNat = 0xBF) :
    Leads byte (byte.toNat % 16) [(low, high), continuation]
  | four {low high : UInt8} (hle : 0xF0 ≤ byte.toNat) (hlt : byte.toNat < 0xF5)
    (hlow : byte.toNat = 0xF0 ∧ low.toNat = 0x90 ∨ byte.toNat ≠ 0xF0 ∧ low.toNat = 0x80)
    (hhigh : byte.toNat = 0xF4 ∧ high.toNat = 0x8F ∨ byte.toNat ≠ 0xF4 ∧ high.toNat = 0xBF) :
    Leads byte (byte.toNat % 8) [(low, high), continuation, continuation]

lemma lead?_cases (byte : UInt8) :
    lead? byte = none ∧ 0x80 ≤ byte.toNat ∧ (byte.toNat < 0xC2 ∨ 0xF5 ≤ byte.toNat) ∨
      ∃ payload limits, lead? byte = some (payload, limits) ∧ Leads byte payload limits := by
  have hE0 : byte.toNat = 0xE0 → byte.toNat % 16 = 0 := by omega
  have hED : byte.toNat = 0xED → byte.toNat % 16 = 13 := by omega
  have hF0 : byte.toNat = 0xF0 → byte.toNat % 8 = 0 := by omega
  have hF4 : byte.toNat = 0xF4 → byte.toNat % 8 = 4 := by omega
  simp only [lead?, UInt8.lt_iff_toNat_lt, ← UInt8.toNat_inj, UInt8.reduceToNat]
  by_cases h80 : byte.toNat < 0x80
  · rw [if_pos h80]
    exact .inr ⟨_, _, rfl, .one h80⟩
  rw [if_neg h80]
  by_cases hC2 : byte.toNat < 0xC2
  · rw [if_pos hC2]
    exact .inl ⟨rfl, by omega, .inl hC2⟩
  rw [if_neg hC2]
  by_cases hlt : byte.toNat < 0xE0
  · rw [if_pos hlt]
    exact .inr ⟨_, _, rfl, .two (by omega) hlt⟩
  rw [if_neg hlt]
  by_cases heq : byte.toNat = 0xE0
  · rw [if_pos heq, ← hE0 heq]
    exact .inr ⟨_, _, rfl, .three (by omega) (by omega) (.inl ⟨heq, rfl⟩) (.inr ⟨by omega, rfl⟩)⟩
  rw [if_neg heq]
  by_cases heq : byte.toNat = 0xED
  · rw [if_pos heq, ← hED heq]
    exact .inr ⟨_, _, rfl, .three (by omega) (by omega) (.inr ⟨by omega, rfl⟩) (.inl ⟨heq, rfl⟩)⟩
  rw [if_neg heq]
  by_cases hlt : byte.toNat < 0xF0
  · rw [if_pos hlt]
    exact .inr ⟨_, _, rfl, .three (by omega) hlt (.inr ⟨by omega, rfl⟩) (.inr ⟨by omega, rfl⟩)⟩
  rw [if_neg hlt]
  by_cases heq : byte.toNat = 0xF0
  · rw [if_pos heq, ← hF0 heq]
    exact .inr ⟨_, _, rfl, .four (by omega) (by omega) (.inl ⟨heq, rfl⟩) (.inr ⟨by omega, rfl⟩)⟩
  rw [if_neg heq]
  by_cases hlt : byte.toNat < 0xF4
  · rw [if_pos hlt]
    exact .inr ⟨_, _, rfl,
      .four (by omega) (by omega) (.inr ⟨by omega, rfl⟩) (.inr ⟨by omega, rfl⟩)⟩
  rw [if_neg hlt]
  by_cases heq : byte.toNat = 0xF4
  · rw [if_pos heq, ← hF4 heq]
    exact .inr ⟨_, _, rfl, .four (by omega) (by omega) (.inr ⟨by omega, rfl⟩) (.inl ⟨heq, rfl⟩)⟩
  rw [if_neg heq]
  exact .inl ⟨rfl, by omega, .inr (by omega)⟩

lemma leads_of_lead? {byte : UInt8} {payload : Nat} {limits : List Limits}
    (h : lead? byte = some (payload, limits)) : Leads byte payload limits := by
  rcases lead?_cases byte with ⟨hnone, -⟩ | ⟨payload', limits', hlead, hleads⟩
  · rw [h] at hnone
    cases hnone
  · rw [h] at hlead
    cases hlead
    exact hleads

lemma exists_leads {byte : UInt8}
    (h : byte.toNat < 0x80 ∨ 0xC2 ≤ byte.toNat ∧ byte.toNat < 0xF5) :
    ∃ payload limits, lead? byte = some (payload, limits) ∧ Leads byte payload limits := by
  rcases lead?_cases byte with ⟨-, hrange⟩ | hleads
  · omega
  · exact hleads

/-! ### Sequences and characters -/

lemma Keeps.exists_cons {limit : Limits} {limits : List Limits} {bytes : List UInt8}
    (h : Keeps (limit :: limits) bytes []) :
    ∃ byte tail, bytes = byte :: tail ∧ limit.allow byte ∧ Keeps limits tail [] := by
  cases h with
  | cons hallow hkeeps => exact ⟨_, _, rfl, hallow, hkeeps⟩

lemma Keeps.eq_nil {bytes : List UInt8} (h : Keeps [] bytes []) : bytes = [] := by
  cases h
  rfl

lemma allow_continuation_iff {byte : UInt8} :
    continuation.allow byte ↔ 0x80 ≤ byte.toNat ∧ byte.toNat ≤ 0xBF := allow_iff

/-- A code point that is not a surrogate is that of a character. -/
lemma exists_char {code : Nat} (h : code < 0xD800 ∨ 0xDFFF < code ∧ code < 0x110000) :
    ∃ c : Char, c.toNat = code :=
  ⟨Char.ofNat code, by rw [Char.ofNat, dif_pos h]; rfl⟩

section

variable {c : Char}

lemma encodeChar_one (hle : c.toNat ≤ 127) : String.utf8EncodeChar c = [UInt8.ofNat c.toNat] :=
  if_pos hle

lemma encodeChar_two (hlt : 127 < c.toNat) (hle : c.toNat ≤ 2047) :
    String.utf8EncodeChar c =
      [UInt8.ofNat (c.toNat / 64 % 32 + 192), UInt8.ofNat (c.toNat % 64 + 128)] :=
  (if_neg (Nat.not_le_of_lt hlt)).trans (if_pos hle)

lemma encodeChar_three (hlt : 2047 < c.toNat) (hle : c.toNat ≤ 65535) :
    String.utf8EncodeChar c =
      [UInt8.ofNat (c.toNat / 4096 % 16 + 224), UInt8.ofNat (c.toNat / 64 % 64 + 128),
        UInt8.ofNat (c.toNat % 64 + 128)] :=
  (if_neg (by omega : ¬ c.toNat ≤ 127)).trans ((if_neg (Nat.not_le_of_lt hlt)).trans (if_pos hle))

lemma encodeChar_four (hlt : 65535 < c.toNat) :
    String.utf8EncodeChar c =
      [UInt8.ofNat (c.toNat / 262144 % 8 + 240), UInt8.ofNat (c.toNat / 4096 % 64 + 128),
        UInt8.ofNat (c.toNat / 64 % 64 + 128), UInt8.ofNat (c.toNat % 64 + 128)] :=
  (if_neg (by omega : ¬ c.toNat ≤ 127)).trans
    ((if_neg (by omega : ¬ c.toNat ≤ 2047)).trans (if_neg (Nat.not_le_of_lt hlt)))

end

/-- A sequence is the UTF-8 form of the character that its payload is the code point of. -/
lemma exists_char_of_isSequence {bytes : List UInt8} {code : Nat} (h : IsSequence bytes code) :
    ∃ c : Char, c.toNat = code ∧ String.utf8EncodeChar c = bytes := by
  obtain @⟨byte, tail, payload, limits, hlead, hkeeps⟩ := h
  cases leads_of_lead? hlead with
  | one hlt =>
    obtain rfl := hkeeps.eq_nil
    obtain ⟨c, hc⟩ := exists_char (Or.inl (Nat.lt_trans hlt (by decide)))
    refine ⟨c, hc, ?_⟩
    rw [encodeChar_one (by omega), hc, UInt8.ofNat_toNat]
  | two hle hlt =>
    obtain ⟨second, tail, rfl, hsecond, hkeeps⟩ := hkeeps.exists_cons
    obtain rfl := hkeeps.eq_nil
    rw [allow_continuation_iff] at hsecond
    obtain ⟨c, hc⟩ := @exists_char (byte.toNat % 32 * 64 + second.toNat % 64) (by omega)
    have hbyte₁ : c.toNat / 64 % 32 + 192 = byte.toNat := by omega
    have hbyte₂ : c.toNat % 64 + 128 = second.toNat := by omega
    refine ⟨c, hc, ?_⟩
    rw [encodeChar_two (by omega) (by omega), hbyte₁, hbyte₂]
    simp only [UInt8.ofNat_toNat]
  | three hle hlt hlow hhigh =>
    obtain ⟨second, tail, rfl, hsecond, hkeeps⟩ := hkeeps.exists_cons
    obtain ⟨third, tail, rfl, hthird, hkeeps⟩ := hkeeps.exists_cons
    obtain rfl := hkeeps.eq_nil
    rw [allow_iff] at hsecond
    rw [allow_continuation_iff] at hthird
    obtain ⟨c, hc⟩ := @exists_char
      ((byte.toNat % 16 * 64 + second.toNat % 64) * 64 + third.toNat % 64) (by omega)
    have hbyte₁ : c.toNat / 4096 % 16 + 224 = byte.toNat := by omega
    have hbyte₂ : c.toNat / 64 % 64 + 128 = second.toNat := by omega
    have hbyte₃ : c.toNat % 64 + 128 = third.toNat := by omega
    refine ⟨c, hc, ?_⟩
    rw [encodeChar_three (by omega) (by omega), hbyte₁, hbyte₂, hbyte₃]
    simp only [UInt8.ofNat_toNat]
  | four hle hlt hlow hhigh =>
    obtain ⟨second, tail, rfl, hsecond, hkeeps⟩ := hkeeps.exists_cons
    obtain ⟨third, tail, rfl, hthird, hkeeps⟩ := hkeeps.exists_cons
    obtain ⟨fourth, tail, rfl, hfourth, hkeeps⟩ := hkeeps.exists_cons
    obtain rfl := hkeeps.eq_nil
    rw [allow_iff] at hsecond
    rw [allow_continuation_iff] at hthird hfourth
    obtain ⟨c, hc⟩ := @exists_char
      (((byte.toNat % 8 * 64 + second.toNat % 64) * 64 + third.toNat % 64) * 64 +
        fourth.toNat % 64) (by omega)
    have hbyte₁ : c.toNat / 262144 % 8 + 240 = byte.toNat := by omega
    have hbyte₂ : c.toNat / 4096 % 64 + 128 = second.toNat := by omega
    have hbyte₃ : c.toNat / 64 % 64 + 128 = third.toNat := by omega
    have hbyte₄ : c.toNat % 64 + 128 = fourth.toNat := by omega
    refine ⟨c, hc, ?_⟩
    rw [encodeChar_four (by omega), hbyte₁, hbyte₂, hbyte₃, hbyte₄]
    simp only [UInt8.ofNat_toNat]

section

variable {byte second third fourth : UInt8} {code : Nat}

lemma isSequence_one (hlt : byte.toNat < 0x80) : IsSequence [byte] byte.toNat := by
  obtain ⟨payload, limits, hlead, hleads⟩ := exists_leads (.inl hlt)
  cases hleads with
  | one => exact .intro hlead (.nil [])
  | _ => omega

lemma isSequence_two (hle : 0xC2 ≤ byte.toNat) (hlt : byte.toNat < 0xE0)
    (hsecond : 0x80 ≤ second.toNat ∧ second.toNat ≤ 0xBF)
    (hcode : byte.toNat % 32 * 64 + second.toNat % 64 = code) :
    IsSequence [byte, second] code := by
  obtain ⟨payload, limits, hlead, hleads⟩ := exists_leads (.inr ⟨hle, Nat.lt_trans hlt (by decide)⟩)
  cases hleads with
  | two => exact hcode ▸ .intro hlead (.cons (allow_continuation_iff.2 hsecond) (.nil []))
  | _ => omega

lemma isSequence_three (hle : 0xE0 ≤ byte.toNat) (hlt : byte.toNat < 0xF0)
    (hsecond : 0x80 ≤ second.toNat ∧ second.toNat ≤ 0xBF)
    (hlow : byte.toNat = 0xE0 → 0xA0 ≤ second.toNat)
    (hhigh : byte.toNat = 0xED → second.toNat ≤ 0x9F)
    (hthird : 0x80 ≤ third.toNat ∧ third.toNat ≤ 0xBF)
    (hcode : (byte.toNat % 16 * 64 + second.toNat % 64) * 64 + third.toNat % 64 = code) :
    IsSequence [byte, second, third] code := by
  obtain ⟨payload, limits, hlead, hleads⟩ := @exists_leads byte (.inr ⟨by omega, by omega⟩)
  cases hleads with
  | three =>
    have hkeeps := Keeps.cons (allow_continuation_iff.2 hthird) (.nil [])
    exact hcode ▸ .intro hlead (.cons (allow_iff.2 ⟨by omega, by omega⟩) hkeeps)
  | _ => omega

lemma isSequence_four (hle : 0xF0 ≤ byte.toNat) (hlt : byte.toNat < 0xF5)
    (hsecond : 0x80 ≤ second.toNat ∧ second.toNat ≤ 0xBF)
    (hlow : byte.toNat = 0xF0 → 0x90 ≤ second.toNat)
    (hhigh : byte.toNat = 0xF4 → second.toNat ≤ 0x8F)
    (hthird : 0x80 ≤ third.toNat ∧ third.toNat ≤ 0xBF)
    (hfourth : 0x80 ≤ fourth.toNat ∧ fourth.toNat ≤ 0xBF)
    (hcode : ((byte.toNat % 8 * 64 + second.toNat % 64) * 64 + third.toNat % 64) * 64 +
      fourth.toNat % 64 = code) :
    IsSequence [byte, second, third, fourth] code := by
  obtain ⟨payload, limits, hlead, hleads⟩ := @exists_leads byte (.inr ⟨by omega, by omega⟩)
  cases hleads with
  | four =>
    have hkeeps := Keeps.cons (allow_continuation_iff.2 hthird)
      (.cons (allow_continuation_iff.2 hfourth) (.nil []))
    exact hcode ▸ .intro hlead (.cons (allow_iff.2 ⟨by omega, by omega⟩) hkeeps)
  | _ => omega

end

/-- The UTF-8 form of a character is a sequence with the code point as payload. -/
lemma isSequence_encodeChar (c : Char) : IsSequence (String.utf8EncodeChar c) c.toNat := by
  have hvalid : c.toNat < 0xD800 ∨ 0xDFFF < c.toNat ∧ c.toNat < 0x110000 := c.valid
  have hbyte : ∀ n, n < 256 → ∃ byte, UInt8.ofNat n = byte ∧ byte.toNat = n := fun n hn =>
    ⟨_, rfl, UInt8.toNat_ofNat'.trans (Nat.mod_eq_of_lt hn)⟩
  obtain ⟨last, hlast, hlast'⟩ := hbyte (c.toNat % 64 + 128) (by omega)
  rcases Nat.lt_or_ge 127 c.toNat with h₁ | h₁
  · rcases Nat.lt_or_ge 2047 c.toNat with h₂ | h₂
    · rcases Nat.lt_or_ge 65535 c.toNat with h₃ | h₃
      · obtain ⟨byte, hfirst, hfirst'⟩ := hbyte (c.toNat / 262144 % 8 + 240) (by omega)
        obtain ⟨second, hsecond, hsecond'⟩ := hbyte (c.toNat / 4096 % 64 + 128) (by omega)
        obtain ⟨third, hthird, hthird'⟩ := hbyte (c.toNat / 64 % 64 + 128) (by omega)
        rw [encodeChar_four h₃, hfirst, hsecond, hthird, hlast]
        apply isSequence_four <;> omega
      · obtain ⟨byte, hfirst, hfirst'⟩ := hbyte (c.toNat / 4096 % 16 + 224) (by omega)
        obtain ⟨second, hsecond, hsecond'⟩ := hbyte (c.toNat / 64 % 64 + 128) (by omega)
        rw [encodeChar_three h₂ h₃, hfirst, hsecond, hlast]
        apply isSequence_three <;> omega
    · obtain ⟨byte, hfirst, hfirst'⟩ := hbyte (c.toNat / 64 % 32 + 192) (by omega)
      rw [encodeChar_two h₁ h₂, hfirst, hlast]
      apply isSequence_two <;> omega
  · obtain ⟨byte, hfirst, hfirst'⟩ := hbyte c.toNat (by omega)
    rw [encodeChar_one h₁, hfirst, ← hfirst']
    exact isSequence_one (by omega)

/-- **The sequences are the UTF-8 forms of the characters.** -/
theorem isSequence_iff {bytes : List UInt8} {code : Nat} :
    IsSequence bytes code ↔ ∃ c : Char, c.toNat = code ∧ String.utf8EncodeChar c = bytes := by
  refine ⟨exists_char_of_isSequence, ?_⟩
  rintro ⟨c, rfl, rfl⟩
  exact isSequence_encodeChar c

/-! ### At most one sequence at a place -/

lemma Keeps.length_eq {limits : List Limits} {part : List UInt8} (h : Keeps limits part []) :
    part.length = limits.length := by
  generalize hmissing : ([] : List Limits) = missing at h
  induction h with
  | nil => rw [← hmissing]; rfl
  | cons _ _ ih => exact congrArg Nat.succ (ih hmissing)

/-- Where limits are still missing, bytes that keep all of them go on with one that is allowed. -/
lemma Keeps.exists_allow {limit : Limits} {limits missing : List Limits}
    {part whole x y : List UInt8} (h : Keeps limits part (limit :: missing))
    (h' : Keeps limits whole []) (heq : part ++ x = whole ++ y) :
    ∃ byte more, x = byte :: more ∧ limit.allow byte := by
  generalize hleft : limit :: missing = left at h
  induction h generalizing whole with
  | nil =>
    obtain ⟨byte, tail, rfl, hallow, -⟩ := (hleft ▸ h').exists_cons
    exact ⟨byte, tail ++ y, heq, hallow⟩
  | cons _ _ ih =>
    obtain ⟨byte, tail, rfl, -, hkeeps⟩ := h'.exists_cons
    exact ih hkeeps (List.cons.inj heq).2 hleft

/-- At most one sequence begins at a place. -/
lemma IsSequence.unique {x y bytes' : List UInt8} {code code' : Nat} (h : IsSequence bytes code)
    (h' : IsSequence bytes' code') (heq : bytes ++ x = bytes' ++ y) :
    bytes = bytes' ∧ code = code' ∧ x = y := by
  obtain @⟨byte, tail, payload, limits, hlead, hkeeps⟩ := h
  obtain @⟨byte', tail', payload', limits', hlead', hkeeps'⟩ := h'
  obtain ⟨rfl, htails⟩ := List.cons.inj heq
  obtain ⟨rfl, rfl⟩ := Prod.mk.inj (Option.some.inj (hlead.symm.trans hlead'))
  obtain ⟨rfl, rfl⟩ := List.append_inj htails (hkeeps.length_eq.trans hkeeps'.length_eq.symm)
  exact ⟨rfl, rfl, rfl⟩

end MiniLisp.Text.Utf8
