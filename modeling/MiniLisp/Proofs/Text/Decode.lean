/-
# Decoding undoes encoding

Some bytes are the UTF-8 form of some characters, or after such a form there is a fault.  Since
no sequence begins at a fault, the form before it is the longest one that the bytes begin with;
and bytes behind the fault can repair it only if it is the end of the bytes, which always can be
repaired.
-/
import MiniLisp.Proofs.Text.Sequence

namespace MiniLisp.Text.Utf8

/-- The UTF-8 form of some characters. -/
def encode (chars : List Char) : List UInt8 := chars.flatMap String.utf8EncodeChar

lemma length_encodeChar_pos (c : Char) : 0 < (String.utf8EncodeChar c).length := by
  rw [String.length_utf8EncodeChar]
  exact c.utf8Size_pos

lemma nil_ne_char (c : Char) (more : List UInt8) : [] ≠ String.utf8EncodeChar c ++ more :=
  fun hnil => List.ne_nil_of_length_pos (length_encodeChar_pos c)
    (List.append_eq_nil_iff.1 hnil.symm).1

lemma encode_cons (c : Char) (chars : List Char) :
    encode (c :: chars) = String.utf8EncodeChar c ++ encode chars :=
  List.flatMap_cons

lemma encode_append (chars chars' : List Char) :
    encode (chars ++ chars') = encode chars ++ encode chars' :=
  List.flatMap_append

/-! ### Decoding a sequence -/

/-- Decoding goes over bytes that keep the limits. -/
lemma decodeFrom_append {limits : List Limits} {bytes : List UInt8} {limit : Limits}
    {missing : List Limits} (h : Keeps limits bytes (limit :: missing)) (start : Nat)
    (before : List UInt8) (payload : Nat) (rest : List UInt8) :
    decodeFrom start before payload limits (bytes ++ rest) =
      decodeFrom start (bytes.reverse ++ before) (bytes.foldl push payload) (limit :: missing)
        rest := by
  induction bytes generalizing limits before payload with
  | nil =>
    cases h
    rfl
  | cons byte bytes ih =>
    cases h with | @cons _ limits _ _ _ hallow hkeeps =>
    obtain ⟨next, limits, rfl⟩ : ∃ next more, limits = next :: more := by
      cases hkeeps <;> exact ⟨_, _, rfl⟩
    rw [List.cons_append, decodeFrom, if_pos hallow, List.reverse_cons, List.append_assoc]
    exact ih hkeeps _ _

/-- The bytes that are missing in a sequence end it. -/
lemma decodeFrom_keeps {limit : Limits} {limits : List Limits} {bytes : List UInt8}
    (h : Keeps (limit :: limits) bytes []) (start : Nat) (before : List UInt8) (payload : Nat)
    (rest : List UInt8) :
    decodeFrom start before payload (limit :: limits) (bytes ++ rest) =
      (decodeFrom (start + before.length + bytes.length) [] 0 [] rest).map
        (Char.ofNat (bytes.foldl push payload) :: ·) := by
  induction limits generalizing limit bytes before payload with
  | nil =>
    obtain ⟨byte, tail, rfl, hallow, hkeeps⟩ := h.exists_cons
    obtain rfl := hkeeps.eq_nil
    rw [List.cons_append, List.nil_append, decodeFrom, if_pos hallow]
    exact bind_pure_comp _ _
  | cons next limits ih =>
    obtain ⟨byte, tail, rfl, hallow, hkeeps⟩ := h.exists_cons
    have hlength : start + (byte :: before).length + tail.length =
        start + before.length + (byte :: tail).length := by
      simp only [List.length_cons]
      omega
    rw [List.cons_append, decodeFrom, if_pos hallow, ← hlength]
    exact ih hkeeps _ _

lemma decodeFrom_sequence {bytes : List UInt8} {code : Nat} (h : IsSequence bytes code)
    (start : Nat) (rest : List UInt8) :
    decodeFrom start [] 0 [] (bytes ++ rest) =
      (decodeFrom (start + bytes.length) [] 0 [] rest).map (Char.ofNat code :: ·) := by
  obtain @⟨byte, tail, payload, limits, hlead, hkeeps⟩ := h
  rw [List.cons_append, decodeFrom, hlead]
  cases limits with
  | nil =>
    obtain rfl := hkeeps.eq_nil
    exact bind_pure_comp _ _
  | cons limit limits =>
    rw [List.length_cons, Nat.add_comm tail.length, ← Nat.add_assoc]
    exact decodeFrom_keeps hkeeps start [byte] payload rest

/-- The UTF-8 form of some characters gives them back, and decoding goes on behind it. -/
lemma decodeFrom_encode (chars : List Char) (start : Nat) (rest : List UInt8) :
    decodeFrom start [] 0 [] (encode chars ++ rest) =
      (decodeFrom (start + (encode chars).length) [] 0 [] rest).map (chars ++ ·) := by
  induction chars generalizing start with
  | nil => exact (congrFun Except.map_id _).symm
  | cons c chars ih =>
    rw [encode_cons, List.append_assoc, decodeFrom_sequence (isSequence_encodeChar c), ih,
      Char.ofNat_toNat, List.length_append, Nat.add_assoc]
    cases decodeFrom _ [] 0 [] rest <;> rfl

/-! ### Faults -/

/-- What is wrong where no sequence begins, and which bytes are in order there. -/
inductive Faults : List UInt8 → List UInt8 → Reason → Prop
  /-- The first byte leads no sequence. -/
  | start {byte : UInt8} {rest : List UInt8} (hlead : lead? byte = none) :
    Faults (byte :: rest) [byte] .invalidStart
  /-- A byte does not keep the limits. -/
  | continuation {byte bad : UInt8} {payload : Nat} {limit : Limits} {limits missing : List Limits}
    {part rest : List UInt8} (hlead : lead? byte = some (payload, limits))
    (hkeeps : Keeps limits part (limit :: missing)) (hbad : limit.allow bad = false) :
    Faults (byte :: (part ++ bad :: rest)) (byte :: part) .invalidContinuation
  /-- There are too few bytes. -/
  | ends {byte : UInt8} {payload : Nat} {limit : Limits} {limits missing : List Limits}
    {part : List UInt8} (hlead : lead? byte = some (payload, limits))
    (hkeeps : Keeps limits part (limit :: missing)) :
    Faults (byte :: part) (byte :: part) .unexpectedEnd

variable {rest bytes : List UInt8} {reason : Reason}

lemma decodeFrom_lead {byte : UInt8} {payload : Nat} {limit : Limits}
    {limits missing : List Limits} {part : List UInt8}
    (hlead : lead? byte = some (payload, limits)) (hkeeps : Keeps limits part (limit :: missing))
    (start : Nat) (rest : List UInt8) :
    decodeFrom start [] 0 [] (byte :: (part ++ rest)) =
      decodeFrom start (part.reverse ++ [byte]) (part.foldl push payload) (limit :: missing)
        rest := by
  rw [decodeFrom, hlead]
  cases limits with
  | nil => cases hkeeps
  | cons => exact decodeFrom_append hkeeps start [byte] payload rest

lemma Faults.decodeFrom_eq (h : Faults rest bytes reason) (start : Nat) :
    decodeFrom start [] 0 [] rest = .error ⟨start, bytes, reason⟩ := by
  cases h with
  | start hlead => rw [decodeFrom, hlead]
  | continuation hlead hkeeps hbad =>
    rw [decodeFrom_lead hlead hkeeps, decodeFrom, if_neg (by rw [hbad]; exact Bool.false_ne_true),
      List.reverse_append, List.reverse_reverse]
    rfl
  | @ends _ _ _ _ _ part hlead hkeeps =>
    rw [← List.append_nil part, decodeFrom_lead hlead hkeeps, decodeFrom, List.reverse_append,
      List.reverse_reverse, List.append_nil]
    rfl

/-- Bytes keep all limits, or they are too few, or one of them does not keep its limits. -/
lemma exists_keeps (limits : List Limits) (bytes : List UInt8) :
    (∃ part rest, bytes = part ++ rest ∧ Keeps limits part []) ∨
    (∃ limit missing, Keeps limits bytes (limit :: missing)) ∨
    ∃ part bad rest limit missing, bytes = part ++ bad :: rest ∧
      Keeps limits part (limit :: missing) ∧ limit.allow bad = false := by
  induction limits generalizing bytes with
  | nil => exact .inl ⟨[], bytes, rfl, .nil []⟩
  | cons limit limits ih =>
    cases bytes with
    | nil => exact .inr (.inl ⟨limit, limits, .nil _⟩)
    | cons byte bytes =>
      cases hallow : limit.allow byte with
      | false => exact .inr (.inr ⟨[], byte, bytes, limit, limits, rfl, .nil _, hallow⟩)
      | true =>
        rcases ih bytes with ⟨part, rest, rfl, hkeeps⟩ | ⟨next, missing, hkeeps⟩ |
          ⟨part, bad, rest, next, missing, rfl, hkeeps, hbad⟩
        · exact .inl ⟨byte :: part, rest, rfl, .cons hallow hkeeps⟩
        · exact .inr (.inl ⟨next, missing, .cons hallow hkeeps⟩)
        · exact .inr (.inr ⟨byte :: part, bad, rest, next, missing, rfl, .cons hallow hkeeps, hbad⟩)

/-- Where there are bytes a character begins, or a fault. -/
lemma exists_char_or_faults (hne : rest ≠ []) :
    (∃ c more, rest = String.utf8EncodeChar c ++ more) ∨
      ∃ bytes reason, Faults rest bytes reason := by
  obtain ⟨byte, tail, rfl⟩ := List.exists_cons_of_ne_nil hne
  cases hlead : lead? byte with
  | none => exact .inr ⟨_, _, .start hlead⟩
  | some found =>
    rcases exists_keeps found.2 tail with ⟨part, more, rfl, hkeeps⟩ | ⟨limit, missing, hkeeps⟩ |
      ⟨part, bad, more, limit, missing, rfl, hkeeps, hbad⟩
    · obtain ⟨c, -, hc⟩ := isSequence_iff.1 (.intro hlead hkeeps)
      exact .inl ⟨c, more, by rw [hc]; rfl⟩
    · exact .inr ⟨_, _, .ends hlead hkeeps⟩
    · exact .inr ⟨_, _, .continuation hlead hkeeps hbad⟩

/-- Some bytes are the UTF-8 form of some characters and then, at most, a fault. -/
lemma exists_encode_append (utf8 : List UInt8) : ∃ chars rest, utf8 = encode chars ++ rest ∧
    (rest = [] ∨ ∃ bytes reason, Faults rest bytes reason) := by
  induction hlength : utf8.length using Nat.strongRecOn generalizing utf8 with
  | ind length ih =>
    by_cases hne : utf8 = []
    · exact ⟨[], [], hne, .inl rfl⟩
    rcases exists_char_or_faults hne with ⟨c, more, rfl⟩ | hfaults
    · have hlt : more.length < length := by
        have hpos := length_encodeChar_pos c
        rw [← hlength, List.length_append]
        omega
      obtain ⟨chars, rest, rfl, hrest⟩ := ih _ hlt more rfl
      exact ⟨c :: chars, rest, by rw [encode_cons, List.append_assoc], hrest⟩
    · exact ⟨[], utf8, rfl, .inr hfaults⟩

/-! ### Where characters end -/

/-- No sequence begins at a fault. -/
lemma Faults.ne_append (h : Faults rest bytes reason) {sequence : List UInt8} {code : Nat}
    (hsequence : IsSequence sequence code) (more : List UInt8) : rest ≠ sequence ++ more := by
  obtain @⟨byte, tail, payload, limits, hlead, hkeeps⟩ := hsequence
  intro heq
  cases h with
  | start hnone =>
    obtain ⟨rfl, -⟩ := List.cons.inj heq
    rw [hlead] at hnone
    cases hnone
  | continuation hlead' hkeeps' hbad =>
    obtain ⟨rfl, htails⟩ := List.cons.inj heq
    obtain ⟨-, rfl⟩ := Prod.mk.inj (Option.some.inj (hlead.symm.trans hlead'))
    obtain ⟨next, more, hnext, hallow⟩ := hkeeps'.exists_allow hkeeps htails
    rw [(List.cons.inj hnext).1, hallow] at hbad
    cases hbad
  | @ends _ _ _ _ _ part hlead' hkeeps' =>
    obtain ⟨rfl, htails⟩ := List.cons.inj heq
    obtain ⟨-, rfl⟩ := Prod.mk.inj (Option.some.inj (hlead.symm.trans hlead'))
    rw [← List.append_nil part] at htails
    obtain ⟨next, more, hnext, -⟩ := hkeeps'.exists_allow hkeeps htails
    cases hnext

/-- What begins with the UTF-8 form of some characters begins with them. -/
lemma exists_of_encode_append_eq {chars chars' : List Char} {x rest : List UInt8}
    (hrest : ∀ c more, rest ≠ String.utf8EncodeChar c ++ more)
    (heq : encode chars' ++ x = encode chars ++ rest) :
    ∃ more, chars = chars' ++ more ∧ x = encode more ++ rest := by
  induction chars' generalizing chars with
  | nil => exact ⟨chars, rfl, heq⟩
  | cons c' chars' ih =>
    rw [encode_cons, List.append_assoc] at heq
    cases chars with
    | nil => exact absurd heq.symm (hrest _ _)
    | cons c chars =>
      rw [encode_cons, List.append_assoc] at heq
      obtain ⟨-, hcode, htail⟩ :=
        (isSequence_encodeChar c').unique (isSequence_encodeChar c) heq
      obtain ⟨more, rfl, rfl⟩ := ih htail
      exact ⟨more, by rw [Char.toNat_inj.1 hcode, List.cons_append], rfl⟩

/-! ### Repairs -/

/-- Some byte keeps each limit that a lead byte sets. -/
lemma Leads.allow_fst {byte : UInt8} {payload : Nat} {limits : List Limits}
    (h : Leads byte payload limits) : ∀ limit ∈ limits, limit.allow limit.1 := by
  have hcontinuation : continuation.allow continuation.1 := by decide
  cases h with
  | one => exact fun _ h => by cases h
  | two => exact List.forall_mem_singleton.2 hcontinuation
  | @three low high hle hlt hlow hhigh =>
    have hsecond := (@allow_iff low high low).2 ⟨Nat.le_refl _, by omega⟩
    exact List.forall_mem_cons.2 ⟨hsecond, List.forall_mem_singleton.2 hcontinuation⟩
  | @four low high hle hlt hlow hhigh =>
    have hsecond := (@allow_iff low high low).2 ⟨Nat.le_refl _, by omega⟩
    exact List.forall_mem_cons.2 ⟨hsecond,
      List.forall_mem_cons.2 ⟨hcontinuation, List.forall_mem_singleton.2 hcontinuation⟩⟩

/-- If some byte keeps each limit, the bytes that are missing can be added. -/
lemma Keeps.exists_completion {limits missing : List Limits} {part : List UInt8}
    (h : Keeps limits part missing) (hallow : ∀ limit ∈ limits, limit.allow limit.1) :
    Keeps limits (part ++ missing.map Prod.fst) [] := by
  induction h with
  | nil missing =>
    induction missing with
    | nil => exact .nil []
    | cons limit missing ih =>
      exact .cons (hallow _ List.mem_cons_self)
        (ih fun _ hmem => hallow _ (List.mem_cons_of_mem _ hmem))
  | cons hbyte _ ih => exact .cons hbyte (ih fun _ hmem => hallow _ (List.mem_cons_of_mem _ hmem))

/-- A sequence that the end of the bytes cuts off is the first part of one. -/
lemma Faults.exists_completion (h : Faults rest bytes .unexpectedEnd) :
    ∃ c more, more ≠ [] ∧ rest ++ more = String.utf8EncodeChar c := by
  cases h with | ends hlead hkeeps =>
  have hwhole := hkeeps.exists_completion (leads_of_lead? hlead).allow_fst
  obtain ⟨c, -, hc⟩ := isSequence_iff.1 (.intro hlead hwhole)
  exact ⟨c, _, List.cons_ne_nil _ _, hc.symm⟩

/-- A fault that is not the end of the bytes is one whatever follows. -/
lemma Faults.append (h : Faults rest bytes reason) (hreason : reason ≠ .unexpectedEnd)
    (more : List UInt8) : Faults (rest ++ more) bytes reason := by
  cases h with
  | start hlead => exact .start hlead
  | continuation hlead hkeeps hbad =>
    rw [List.cons_append, List.append_assoc]
    exact .continuation hlead hkeeps hbad
  | ends => exact absurd rfl hreason

/-! ### All bytes -/

/-- What a fault says about some bytes. -/
structure IsFaultOf (utf8 : List UInt8) (fault : Fault) : Prop where
  /-- Up to the fault there are whole characters. -/
  valid : ∃ chars, utf8.take fault.start = encode chars
  /-- There are nowhere further on. -/
  longest : ∀ n chars, utf8.take n = encode chars → n ≤ fault.start
  /-- The faulty bytes begin there, and there is one at least. -/
  bytes_prefix : fault.bytes <+: utf8.drop fault.start
  bytes_ne_nil : fault.bytes ≠ []
  /-- The end of the bytes is unexpected exactly if it cuts a character off. -/
  ends_iff : fault.reason = .unexpectedEnd ↔
    ∃ c more, more ≠ [] ∧ utf8.drop fault.start ++ more = String.utf8EncodeChar c
  /-- And exactly then more bytes can repair the fault. -/
  repairable_iff : fault.reason = .unexpectedEnd ↔ ∃ more chars, utf8 ++ more = encode chars

lemma Faults.bytes_prefix (h : Faults rest bytes reason) : bytes <+: rest ∧ bytes ≠ [] := by
  cases h with
  | start => exact ⟨⟨_, rfl⟩, List.cons_ne_nil _ _⟩
  | continuation => exact ⟨⟨_, rfl⟩, List.cons_ne_nil _ _⟩
  | ends => exact ⟨List.prefix_refl _, List.cons_ne_nil _ _⟩

lemma Faults.ne_nil (h : Faults rest bytes reason) : rest ≠ [] := by
  rintro rfl
  exact h.bytes_prefix.2 (List.prefix_nil.1 h.bytes_prefix.1)

lemma Faults.ne_char (h : Faults rest bytes reason) (c : Char) (more : List UInt8) :
    rest ≠ String.utf8EncodeChar c ++ more :=
  h.ne_append (isSequence_encodeChar c) more

/-- Only the end of the bytes can be repaired. -/
lemma Faults.ends_iff (h : Faults rest bytes reason) :
    reason = .unexpectedEnd ↔
      ∃ c more chars, rest ++ more = String.utf8EncodeChar c ++ encode chars := by
  constructor
  · rintro rfl
    obtain ⟨c, more, -, hmore⟩ := h.exists_completion
    exact ⟨c, more, [], hmore.trans (List.append_nil _).symm⟩
  · rintro ⟨c, more, chars, hmore⟩
    exact Decidable.byContradiction fun hreason => (h.append hreason more).ne_char c _ hmore

lemma Faults.isFaultOf (h : Faults rest bytes reason) (chars : List Char) :
    IsFaultOf (encode chars ++ rest) ⟨(encode chars).length, bytes, reason⟩ where
  valid := ⟨chars, List.take_left⟩
  longest n chars' htake := by
    have hcut := List.take_append_drop n (encode chars ++ rest)
    rw [htake] at hcut
    obtain ⟨more, rfl, hdrop⟩ := exists_of_encode_append_eq h.ne_char hcut
    -- The bytes go on behind the fault, so they are not over at the cut.
    have hne : List.drop n (encode (chars' ++ more) ++ rest) ≠ [] := by
      rw [hdrop]
      exact List.append_ne_nil_of_right_ne_nil _ h.ne_nil
    have hlength := congrArg List.length htake
    rw [List.length_take, Nat.min_eq_left
      (Nat.le_of_lt (Nat.lt_of_not_le (mt List.drop_eq_nil_iff.2 hne)))] at hlength
    rw [hlength, encode_append, List.length_append]
    exact Nat.le_add_right _ _
  bytes_prefix := by
    rw [List.drop_left]
    exact h.bytes_prefix.1
  bytes_ne_nil := h.bytes_prefix.2
  ends_iff := by
    rw [List.drop_left]
    constructor
    · rintro rfl
      exact h.exists_completion
    · rintro ⟨c, more, -, hmore⟩
      exact h.ends_iff.2 ⟨c, more, [], hmore.trans (List.append_nil _).symm⟩
  repairable_iff := by
    rw [h.ends_iff]
    constructor
    · rintro ⟨c, more, after, hmore⟩
      refine ⟨more, chars ++ c :: after, ?_⟩
      rw [List.append_assoc, hmore, encode_append, encode_cons]
    · rintro ⟨more, chars', hmore⟩
      rw [List.append_assoc, ← List.append_nil (encode chars')] at hmore
      obtain ⟨after, -, hafter⟩ := exists_of_encode_append_eq nil_ne_char hmore
      cases after with
      | nil => exact absurd (List.append_eq_nil_iff.1 hafter).1 h.ne_nil
      | cons c after =>
        rw [List.append_nil, encode_cons] at hafter
        exact ⟨c, more, after, hafter⟩

/-- The characters that some bytes are the UTF-8 form of are decoded. -/
lemma decode_encode (chars : List Char) : decode (encode chars) = .ok chars := by
  have h := decodeFrom_encode chars 0 []
  rw [List.append_nil] at h
  rw [decode, h, decodeFrom]
  exact congrArg Except.ok (List.append_nil chars)

/-- **Bytes are decoded that are the UTF-8 form of some characters, and all others have a
fault.** -/
theorem decode_cases (utf8 : List UInt8) :
    (∃ chars, utf8 = encode chars ∧ decode utf8 = .ok chars) ∨
      (∀ chars, utf8 ≠ encode chars) ∧
        ∃ fault, decode utf8 = .error fault ∧ IsFaultOf utf8 fault := by
  obtain ⟨chars, rest, rfl, rfl | ⟨bytes, reason, h⟩⟩ := exists_encode_append utf8
  · rw [List.append_nil]
    exact .inl ⟨chars, rfl, decode_encode chars⟩
  · have hdecode : decode (encode chars ++ rest) =
        .error ⟨(encode chars).length, bytes, reason⟩ := by
      rw [decode, decodeFrom_encode, h.decodeFrom_eq, Nat.zero_add]
      rfl
    refine .inr ⟨fun chars' heq => ?_, _, hdecode, h.isFaultOf chars⟩
    rw [heq, decode_encode] at hdecode
    cases hdecode

end MiniLisp.Text.Utf8
