/-
# Equality keeps kinds apart

Two values are equal exactly if no NaN occurs in the first and both have the same canonical form,
in which zeros have no sign and all that is left of a closure is its stamp (`same_iff`).  What is
to be known of equality follows from this one statement: it is symmetric and transitive, a value
equals a copy of itself unless a NaN occurs in it, equal values are of one kind, and so is what
they hold at any depth of lists, and they have equal hashes, so that they are one key to a table.
-/
import Mathlib.Data.List.Forall2
import MiniLisp.Proofs.Binary64.Order
import MiniLisp.Proofs.Value.Occurs
import MiniLisp.Proofs.Value.Relabel
import MiniLisp.Value.Equality

namespace MiniLisp

/-! ### Numbers -/

namespace Binary64

/-- The number, but a zero without its sign. -/
def canonical (x : Binary64) : Binary64 := if x.isZero then zero false else x

variable {x y : Binary64}

lemma isZero_zero (negative : Bool) : (zero negative).isZero := isZero_iff.2 ⟨negative, rfl⟩

lemma isZero_canonical (x : Binary64) : x.canonical.isZero = x.isZero := by
  unfold canonical
  split
  · rename_i hzero
    rw [hzero, isZero_zero]
  · rfl

/-- Only zeros have a canonical form in common. -/
lemma canonical_eq_iff : x.canonical = y.canonical ↔ x = y ∨ x.isZero ∧ y.isZero := by
  constructor
  · intro h
    have hzero : x.isZero = y.isZero := by rw [← isZero_canonical, h, isZero_canonical]
    by_cases hy : y.isZero
    · exact Or.inr ⟨hzero.trans hy, hy⟩
    · have hx : ¬ x.isZero := hzero ▸ hy
      rw [canonical, canonical, if_neg hx, if_neg hy] at h
      exact Or.inl h
  · rintro (rfl | ⟨hx, hy⟩)
    · rfl
    · rw [canonical, canonical, if_pos hx, if_pos hy]

lemma agrees_iff_canonical : x.agrees y ↔ .nan ≠ x ∧ x.canonical = y.canonical := by
  rw [agrees_iff, canonical_eq_iff, ne_comm]

lemma nan_eq_canonical_iff : .nan = x.canonical ↔ .nan = x := by
  show canonical .nan = x.canonical ↔ _
  rw [canonical_eq_iff]
  simp [isZero]

lemma place?_canonical (x : Binary64) : x.canonical.place? = x.place? := by
  unfold canonical
  split
  · rename_i hzero
    obtain ⟨negative, rfl⟩ := isZero_iff.1 hzero
    simp [zero_eq, place?, signedUnits_eq_zero_iff.2]
  · rfl

end Binary64

namespace Value

/-! ### Kinds -/

/-- The kinds of values. -/
inductive Kind where
  | number
  | text
  | symbol
  | list
  | nil
  | t
  | native
  | closure
  | foreign
deriving DecidableEq

/-- The kind of a value. -/
def kind : Value → Kind
  | .number _ => .number
  | .text _ => .text
  | .symbol _ => .symbol
  | .list _ => .list
  | .nil => .nil
  | .t => .t
  | .native _ => .native
  | .closure .. => .closure
  | .foreign => .foreign

/-- What a value holds at the end of a path, which leads through lists within lists. -/
def nested? : Value → List Nat → Option Value
  | v, [] => some v
  | .list items, i :: path => items[i]?.bind fun item => item.nested? path
  | _, _ :: _ => none

/-! ### Canonical forms -/

mutual

/-- What is the same of all values that equal a value: its zeros have no sign, and all that is
left of a closure is its stamp. -/
def canonical : Value → Value
  | .number x => .number x.canonical
  | .list items => .list (canonicalAll items)
  | .closure stamp .. => .closure stamp [] .nil (.root 0)
  | v => v

/-- The canonical forms of the elements of a list. -/
def canonicalAll : List Value → List Value
  | [] => []
  | v :: vs => canonical v :: canonicalAll vs

end

lemma canonicalAll_eq_map (vs : List Value) : canonicalAll vs = vs.map canonical := by
  induction vs with
  | nil => rfl
  | cons v vs ih => rw [canonicalAll, ih, List.map_cons]

@[simp] lemma canonical_list (vs : List Value) :
    canonical (.list vs) = .list (vs.map canonical) := by
  rw [canonical, canonicalAll_eq_map]

/-- Lists are equal if they have the same length and equal elements in order. -/
lemma same_list_iff {us vs : List Value} :
    same (.list us) (.list vs) ↔ List.Forall₂ (fun u v => same u v) us vs := by
  rw [same]
  induction us generalizing vs with
  | nil => cases vs <;> simp [sameAll]
  | cons u us ih => cases vs <;> simp [sameAll, ih]

lemma forall₂_same_iff {us vs : List Value}
    (h : ∀ u ∈ us, ∀ {v}, same u v ↔ ¬ (number .nan).Occurs u ∧ u.canonical = v.canonical) :
    List.Forall₂ (fun u v => same u v) us vs ↔
      (∀ u ∈ us, ¬ (number .nan).Occurs u) ∧ us.map canonical = vs.map canonical := by
  induction us generalizing vs with
  | nil => cases vs <;> simp
  | cons u us ih =>
    obtain ⟨hu, hus⟩ := List.forall_mem_cons.1 h
    cases vs with
    | nil => simp
    | cons v vs =>
      rw [List.forall₂_cons, hu, ih hus, List.forall_mem_cons, List.map_cons, List.map_cons,
        List.cons.injEq]
      exact and_and_and_comm

/-- **Values are equal exactly if no NaN occurs in the first and they have the same canonical
form.** -/
theorem same_iff {u v : Value} :
    same u v ↔ ¬ (number .nan).Occurs u ∧ u.canonical = v.canonical := by
  induction u using Value.induction generalizing v with
  | inert u hinert =>
    rw [occurs_iff]
    cases u with
    | symbol | list | closure => cases hinert
    | _ => cases v <;> simp [same, canonical, Binary64.agrees_iff_canonical]
  | symbol | closure =>
    rw [occurs_iff]
    cases v <;> simp [same, canonical]
  | list us ih =>
    cases v with
    | list vs =>
      rw [same_list_iff, canonical_list, canonical_list, forall₂_same_iff ih]
      simp [occurs_list_iff]
    | _ => simp [same, canonical]

/-- Equality of data that are neither numbers nor lists is identity. -/
lemma same_iff_eq {u v : Value} (h : u.kind ∉ [.number, .list, .closure]) :
    same u v ↔ u = v := by
  cases u with
  | number | list | closure => simp [kind] at h
  | _ => cases v <;> simp [same]

/-! ### An equivalence -/

section

variable {u v w : Value}

/-- A value equals a copy of itself unless a NaN occurs in it. -/
lemma same_self_iff : same v v ↔ ¬ (number .nan).Occurs v := by
  rw [same_iff]
  exact and_iff_left rfl

lemma nan_occurs_canonical_iff : (number .nan).Occurs v.canonical ↔ (number .nan).Occurs v := by
  induction v using Value.induction with
  | inert v hinert =>
    rw [occurs_iff, occurs_iff]
    cases v with
    | symbol | list | closure => cases hinert
    | _ => simp [canonical, Binary64.nan_eq_canonical_iff]
  | symbol => rfl
  | closure =>
    rw [occurs_iff, occurs_iff]
    simp [canonical]
  | list items ih =>
    simp only [canonical_list, occurs_list_iff, reduceCtorEq, false_or, List.mem_map,
      exists_exists_and_eq_and]
    exact exists_congr fun v => and_congr_right (ih v)

lemma same_symm (h : same u v) : same v u := by
  obtain ⟨hnan, hcanonical⟩ := same_iff.1 h
  refine same_iff.2 ⟨?_, hcanonical.symm⟩
  rwa [← nan_occurs_canonical_iff, ← hcanonical, nan_occurs_canonical_iff]

lemma same_trans (huv : same u v) (hvw : same v w) : same u w := by
  obtain ⟨hnan, hcanonical⟩ := same_iff.1 huv
  exact same_iff.2 ⟨hnan, hcanonical.trans (same_iff.1 hvw).2⟩

/-! ### Kinds and hashes -/

lemma kind_canonical (v : Value) : v.canonical.kind = v.kind := by
  cases v <;> rfl

lemma nested?_canonical (v : Value) (path : List Nat) :
    v.canonical.nested? path = (v.nested? path).map canonical := by
  induction path generalizing v with
  | nil => rw [nested?, nested?, Option.map_some]
  | cons i path ih =>
    cases v with
    | list items =>
      rw [canonical_list, nested?, nested?, List.getElem?_map]
      cases items[i]? with
      | none => rfl
      | some item => exact ih item
    | _ => rfl

/-- Equal values hold values of the same kinds at the ends of the same paths. -/
lemma map_kind_nested?_of_same (h : same u v) (path : List Nat) :
    (u.nested? path).map kind = (v.nested? path).map kind := by
  have hkinds : ∀ w : Value, (w.canonical.nested? path).map kind = (w.nested? path).map kind := by
    intro w
    rw [nested?_canonical, Option.map_map]
    exact congrArg (Option.map · _) (funext kind_canonical)
  rw [← hkinds u, (same_iff.1 h).2, hkinds]

lemma hashAll_map {f : Value → Value} {vs : List Value}
    (h : ∀ v ∈ vs, (f v).hashCode = v.hashCode) : hashAll (vs.map f) = hashAll vs := by
  induction vs with
  | nil => rfl
  | cons v vs ih =>
    obtain ⟨hv, hvs⟩ := List.forall_mem_cons.1 h
    rw [List.map_cons, hashAll, hashAll, hv, ih hvs]

lemma hashCode_canonical (v : Value) : v.canonical.hashCode = v.hashCode := by
  induction v using Value.induction with
  | inert v hinert =>
    cases v with
    | symbol | list | closure => cases hinert
    | number x => rw [canonical, hashCode, hashCode, Binary64.place?_canonical]
    | _ => rfl
  | symbol | closure => rfl
  | list items ih => rw [canonical_list, hashCode, hashCode, hashAll_map ih]

/-- Equal values have equal hashes. -/
lemma hashCode_eq_of_same (h : same u v) : u.hashCode = v.hashCode := by
  rw [← hashCode_canonical u, (same_iff.1 h).2, hashCode_canonical]

/-! ### Looking a key up -/

/-- What a table has under a key.  Only keys with the hash of that key are compared with it. -/
def lookup? {α : Type} (table : List (Value × α)) (key : Value) : Option α :=
  (table.find? fun entry => entry.1.hashCode == key.hashCode && same entry.1 key).map Prod.snd

/-- No key that equals the one that is looked for is missed for its hash. -/
lemma lookup?_eq {α : Type} (table : List (Value × α)) (key : Value) :
    lookup? table key = (table.find? fun entry => same entry.1 key).map Prod.snd := by
  have hkey : ∀ u : Value, (u.hashCode == key.hashCode && same u key) = same u key := by
    intro u
    rw [Bool.and_eq_right_iff_imp, beq_iff_eq]
    exact hashCode_eq_of_same
  simp only [lookup?, hkey]

/-- Equal keys have the same entry. -/
lemma lookup?_eq_of_same {α : Type} (table : List (Value × α)) (h : same u v) :
    lookup? table u = lookup? table v := by
  have hkey : ∀ w : Value, same w u = same w v := fun w =>
    Bool.eq_iff_iff.2 ⟨fun hw => same_trans hw h, fun hw => same_trans hw (same_symm h)⟩
  simp only [lookup?_eq, hkey]

/-! ### Comparing all values of a list -/

/-- A value equals itself, and not only a copy, unless it is NaN. -/
lemma isReflexive_iff : v.isReflexive ↔ v ≠ .number .nan := by
  cases v with
  | number x => simp [isReflexive, Binary64.agrees_iff]
  | _ => simp [isReflexive]

lemma isReflexive_eq (h : ¬ (number .nan).Occurs v) : v.isReflexive = same v v := by
  rw [same_self_iff.2 h, isReflexive_iff]
  rintro rfl
  exact h .refl

/-- Where no NaN occurs all values are compared alike, on the diagonal too. -/
lemma equalityTable_eq {vs : List Value} (h : ∀ v ∈ vs, ¬ (number .nan).Occurs v) :
    equalityTable vs = vs.map fun v => vs.map (same v) := by
  have hentry : ∀ p ∈ vs.zipIdx, ∀ q ∈ vs.zipIdx,
      (if p.2 = q.2 then p.1.isReflexive else same p.1 q.1) = same p.1 q.1 := by
    intro p hp q hq
    split
    · rename_i hplace
      rw [List.mem_zipIdx_iff_getElem?] at hp hq
      rw [hplace, hq] at hp
      rw [Option.some.inj hp, isReflexive_eq (h p.1 ?_)]
      exact Option.some.inj hp ▸ List.mem_of_getElem? hq
    · rfl
  calc equalityTable vs
      = vs.zipIdx.map fun p => vs.zipIdx.map fun q => same p.1 q.1 :=
        List.map_congr_left fun p hp => List.map_congr_left (hentry p hp)
    _ = (vs.zipIdx.map Prod.fst).map fun v => (vs.zipIdx.map Prod.fst).map (same v) := by
        simp only [List.map_map]
        rfl
    _ = vs.map fun v => vs.map (same v) := by rw [List.zipIdx_map_fst]

end

end Value

end MiniLisp
