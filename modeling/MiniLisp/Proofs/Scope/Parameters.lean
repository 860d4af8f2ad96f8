/-
# Parameters

A closure that is applied gets a scope of its own, within the scope that it captured, in which its
parameters are bound to the arguments one by one, as far as both lists go.  So the frame has the
names of the parameters that an argument is left for; if a name is repeated its last argument
counts; and any other name, be it a parameter without an argument, means what it means in the
captured scope.
-/
import MiniLisp.Proofs.Eval.Closed
import MiniLisp.Proofs.Scope.Record

namespace MiniLisp

open Evaluation

/-! ### Pairs of parameters and arguments -/

section

variable {α β : Type} (l : List α) (m : List β)

lemma map_fst_zip_eq_take : (l.zip m).map Prod.fst = l.take (min l.length m.length) := by
  rw [List.zip_eq_zip_take_min, List.map_fst_zip (by simp)]

lemma zip_take_length : l.zip (m.take l.length) = l.zip m := by
  induction l generalizing m with
  | nil => rfl
  | cons a l ih =>
    cases m with
    | nil => rfl
    | cons b m =>
      rw [List.length_cons, List.take_succ_cons, List.zip_cons_cons, ih, List.zip_cons_cons]

end

/-- From the end of a list one finds the last value of a key. -/
lemma lookup_reverse_of_last {l : List (String × Value)} {name : String} {v : Value} {i : Nat}
    (hi : l[i]? = some (name, v)) (hlast : name ∉ (l.map Prod.fst).drop (i + 1)) :
    l.reverse.lookup name = some v := by
  obtain ⟨hlt, hget⟩ := List.getElem?_eq_some_iff.1 hi
  have hsplit : l.take i ++ (name, v) :: l.drop (i + 1) = l := by
    rw [← hget, ← List.drop_eq_getElem_cons, List.take_append_drop]
  rw [List.lookup_eq_some_iff]
  refine ⟨(l.drop (i + 1)).reverse, (l.take i).reverse, ?_, fun binding hbinding => ?_⟩
  · rw [← congrArg List.reverse hsplit, List.reverse_append, List.reverse_cons,
      List.append_assoc, List.singleton_append]
  · rw [bne_iff_ne]
    rintro rfl
    rw [← List.map_drop] at hlast
    exact hlast (List.mem_map_of_mem (List.mem_reverse.1 hbinding))

section

variable {parameters : List String} {arguments : List Value} {name : String}

/-- A name is given the argument at the last place where it is a parameter. -/
lemma lookup_reverse_zip_of_last {v : Value} {i : Nat} (hname : parameters[i]? = some name)
    (hv : arguments[i]? = some v)
    (hlast : ∀ j < min parameters.length arguments.length, i < j → parameters[j]? ≠ some name) :
    (parameters.zip arguments).reverse.lookup name = some v := by
  refine lookup_reverse_of_last (List.getElem?_zip_eq_some.2 ⟨hname, hv⟩) ?_
  rw [map_fst_zip_eq_take, List.mem_drop_iff_getElem]
  rintro ⟨j, hj, hget⟩
  rw [List.length_take] at hj
  rw [List.getElem_take] at hget
  exact hlast (i + 1 + j) (by omega) (by omega) (List.getElem?_eq_some_iff.2 ⟨_, hget⟩)

/-- A name that is not a parameter with an argument is given none. -/
lemma lookup_reverse_zip_eq_none
    (h : ∀ i < min parameters.length arguments.length, parameters[i]? ≠ some name) :
    (parameters.zip arguments).reverse.lookup name = none := by
  refine lookup_eq_none_of_notMem ?_
  rw [List.map_reverse, List.mem_reverse, map_fst_zip_eq_take, List.mem_take_iff_getElem]
  rintro ⟨i, hi, hget⟩
  exact h i (by omega) (List.getElem?_eq_some_iff.2 ⟨_, hget⟩)

end

/-! ### The scope of an applied closure -/

namespace Store

variable (σ : Store) (parameters : List String) (arguments : List Value) (captured : Scope)

/-- Its frame records the parameters with their arguments. -/
lemma records_enter :
    ((σ.enter parameters arguments captured).2.frame σ.frames.size).Records
      (parameters.zip arguments) := by
  have hlt : (σ.nextScope (some captured)).frame < σ.grow.frames.size := by
    rw [size_grow]
    exact Nat.lt_succ_self _
  have hempty : σ.grow.frame (σ.nextScope (some captured)).frame = .empty := by
    rw [frame_grow, frame_nextScope, frame_of_size_le _ (Nat.le_refl _)]
  have hframe := frame_setAll hlt (parameters.zip arguments)
  rw [hempty] at hframe
  exact hframe ▸ Frame.Records.empty.insertAll (parameters.zip arguments)

/-- Arguments without a parameter make no difference. -/
lemma enter_take :
    σ.enter parameters (arguments.take parameters.length) captured =
      σ.enter parameters arguments captured := by
  rw [enter, enter, zip_take_length]

variable {σ captured}

/-- In the scopes that were there names mean what they meant. -/
lemma lookup?_enter_of_has {scope : Scope} (hscope : σ.Has scope) (name : String) :
    (σ.enter parameters arguments captured).2.lookup? scope name = σ.lookup? scope name := by
  have hframe : ∀ id < σ.frames.size,
      (σ.enter parameters arguments captured).2.frame id = σ.frame id := fun id hid =>
    frame_enter_of_ne _ _ (Nat.ne_of_lt hid) _ _
  induction scope with
  | root id => rw [lookup?_root, lookup?_root, hframe id (hscope id (by simp [Scope.frames]))]
  | inner id outer ih =>
    rw [lookup?_inner, lookup?_inner, hframe id (hscope id List.mem_cons_self),
      ih fun id' hid' => hscope id' (List.mem_cons_of_mem _ hid')]

/-- In the new scope a name means the argument that it is given, or else what it means in the
captured scope. -/
lemma lookup?_enter (hcaptured : σ.Has captured) (name : String) :
    (σ.enter parameters arguments captured).2.lookup? (.inner σ.frames.size captured) name =
      ((parameters.zip arguments).reverse.lookup name).or (σ.lookup? captured name) := by
  rw [lookup?_inner, (σ.records_enter parameters arguments captured).get?_eq,
    lookup?_enter_of_has _ _ hcaptured]

end Store

/-- **Parameters mean their last arguments.**  The scope of an applied closure is new and within
the captured scope.  Its frame has the names of the parameters for which there is an argument,
each once, in the order in which they come first.  In the scope a name means the argument at the
last place where it is such a parameter, and any other name gives what it gives in the captured
scope.  Arguments without a parameter make no difference, and no scope that was there is
changed. -/
theorem parameters_mean_last_arguments (σ : Store) (parameters : List String)
    (arguments : List Value) (captured : Scope) (hcaptured : σ.Has captured) :
    let count := min parameters.length arguments.length
    let scope := (σ.enter parameters arguments captured).1
    let after := (σ.enter parameters arguments captured).2
    (scope.frame = σ.frames.size ∧ after.frames.size = σ.frames.size + 1 ∧
        scope.outer? = some captured) ∧
      (after.frame scope.frame).names = (parameters.take count).eraseDups ∧
      (∀ name v i, i < count → parameters[i]? = some name → arguments[i]? = some v →
        (∀ j < count, i < j → parameters[j]? ≠ some name) →
        (lookup scope name after).result = .ok v) ∧
      (∀ name, (∀ i < count, parameters[i]? ≠ some name) →
        (lookup scope name after).result = (lookup captured name σ).result) ∧
      σ.enter parameters (arguments.take parameters.length) captured = (scope, after) ∧
      after.stamps = σ.stamps ∧
      ∀ other : Scope, other.frame < σ.frames.size →
        after.frame other.frame = σ.frame other.frame := by
  intro count scope after
  have hmeans : ∀ name, after.lookup? scope name =
      ((parameters.zip arguments).reverse.lookup name).or (σ.lookup? captured name) :=
    Store.lookup?_enter parameters arguments hcaptured
  refine ⟨⟨rfl, Store.size_enter _ _ _ _, rfl⟩, ?_, ?_, ?_,
    σ.enter_take parameters arguments captured, Store.stamps_enter _ _ _ _, ?_⟩
  · rw [← map_fst_zip_eq_take]
    exact (σ.records_enter parameters arguments captured).names_eq
  · intro name v i _ hname hv hlast
    rw [lookup, hmeans, lookup_reverse_zip_of_last hname hv hlast]
    rfl
  · intro name hname
    rw [lookup, hmeans, lookup_reverse_zip_eq_none hname, Option.none_or, lookup]
    cases σ.lookup? captured name <;> rfl
  · exact fun other hother => Store.frame_enter_of_ne _ _ (Nat.ne_of_lt hother) _ _

/-- A parameter is repeated, another one has no argument and falls through to the root, and so
does a name that means nothing there. -/
theorem parameters_mean_last_arguments_repeated :
    let σ := Store.empty.newDefault.2
    let parameters := ["x", "y", "x", "t"]
    let arguments := [.nil, .text "a", .native .add]
    let scope := (σ.enter parameters arguments (.root 0)).1
    let after := (σ.enter parameters arguments (.root 0)).2
    σ.Has (.root 0) ∧ (after.frame scope.frame).names = ["x", "y"] ∧
      (lookup scope "x" after).result = .ok (.native .add) ∧
      (lookup scope "t" after).result = (lookup (.root 0) "t" σ).result ∧
      (lookup scope "z" after).result = (lookup (.root 0) "z" σ).result := by
  intro σ parameters arguments scope after
  have hroot : σ.Has (.root 0) := by
    intro id hid
    rw [List.mem_singleton.1 hid, Store.size_newDefault]
    exact Nat.zero_lt_one
  obtain ⟨-, hnames, hgiven, hother, -⟩ :=
    parameters_mean_last_arguments σ parameters arguments (.root 0) hroot
  exact ⟨hroot, hnames.trans (by decide), hgiven "x" (.native .add) 2 (by decide) rfl rfl
    (by decide), hother "t" (by decide), hother "z" (by decide)⟩

end MiniLisp
