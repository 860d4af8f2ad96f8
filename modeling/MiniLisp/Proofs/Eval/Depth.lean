/-
# Depth

Evaluation may nest to a given depth, and if it needs more it ends with the error `tooDeep`.  A
run that ends in any other way had depth enough, and then every greater depth gives the same run:
the same value or error, the same store and the same trace.  So code that ends at some depth has
one run, and which depth this is makes no difference.
-/
import MiniLisp.Proofs.Eval.Shape

namespace MiniLisp

open Evaluation

/-- Another evaluation ends as this one does, unless this one nests too deeply. -/
def Evaluation.IsDeepenedTo {α : Type} (m m' : Evaluation α) : Prop :=
  ∀ σ, (m σ).result ≠ .error .tooDeep → m' σ = m σ

/-- So it is for all code. -/
def Evaluator.IsDeepenedTo (evaluate evaluate' : Evaluator) : Prop :=
  ∀ scope code, (evaluate scope code).IsDeepenedTo (evaluate' scope code)

namespace Evaluation

variable {α β : Type}

lemma isDeepenedTo_refl (m : Evaluation α) : m.IsDeepenedTo m := fun _ _ => rfl

lemma IsDeepenedTo.bind {first first' : Evaluation α} {next next' : α → Evaluation β}
    (hfirst : first.IsDeepenedTo first') (hnext : ∀ a, (next a).IsDeepenedTo (next' a)) :
    (first >>= next).IsDeepenedTo (first' >>= next') := by
  intro σ hσ
  cases hresult : (first σ).result with
  | error e =>
    rw [bind_of_error next hresult] at hσ
    -- The first part fails, but not by nesting too deeply.
    have heq := hfirst σ (by rw [hresult]; exact fun h => hσ (by rw [Except.error.inj h]))
    rw [bind_of_error next hresult, bind_of_error next' (by rw [heq, hresult]), heq]
  | ok a =>
    rw [bind_of_ok next hresult] at hσ
    have heq := hfirst σ (by rw [hresult]; exact nofun)
    rw [bind_of_ok next hresult, bind_of_ok next' (by rw [heq, hresult]), heq, hnext a _ hσ]

end Evaluation

namespace Evaluator.IsDeepenedTo

variable {evaluate evaluate' : Evaluator} (h : evaluate.IsDeepenedTo evaluate')

include h

lemma evaluateEach (scope : Scope) (codes : List Value) :
    (MiniLisp.evaluateEach evaluate scope codes).IsDeepenedTo
      (MiniLisp.evaluateEach evaluate' scope codes) := by
  induction codes with
  | nil => exact isDeepenedTo_refl _
  | cons code codes ih =>
    exact (h scope code).bind fun v => ih.bind fun vs => isDeepenedTo_refl _

lemma applyWith (f : Value) (arguments : List Value) :
    (MiniLisp.applyWith evaluate f arguments).IsDeepenedTo
      (MiniLisp.applyWith evaluate' f arguments) := by
  cases f with
  | closure stamp parameters body captured =>
    refine (isDeepenedTo_refl _).bind fun scope => ?_
    exact (isDeepenedTo_refl _).bind fun _ => h scope body
  | _ => exact isDeepenedTo_refl _

lemma evaluateWith (scope : Scope) (code : Value) :
    (MiniLisp.evaluateWith evaluate scope code).IsDeepenedTo
      (MiniLisp.evaluateWith evaluate' scope code) := by
  cases shape code with
  | self hself =>
    rw [evaluateWith_self _ scope hself, evaluateWith_self _ scope hself]
    exact isDeepenedTo_refl _
  | symbol name => exact isDeepenedTo_refl _
  | unit => exact isDeepenedTo_refl _
  | quotation datum => exact isDeepenedTo_refl _
  | conditional condition consequent alternative =>
    rw [evaluateWith_form, evaluateWith_form]
    refine (h scope condition).bind fun v => ?_
    split
    · exact h scope consequent
    · exact h scope alternative
  | defparameter name code =>
    rw [evaluateWith_form, evaluateWith_form, formWith_defparameter, formWith_defparameter]
    exact (h scope code).bind fun v => isDeepenedTo_refl _
  | defun name parameters body =>
    rw [definitionCode, evaluateWith_form, evaluateWith_form]
    intro σ _
    rw [formWith_defun, formWith_defun]
  | malformed form operands e hform =>
    rw [evaluateWith_form, evaluateWith_form, hform, hform]
    exact isDeepenedTo_refl _
  | application head operands hhead =>
    rw [evaluateWith_application _ scope operands hhead,
      evaluateWith_application _ scope operands hhead]
    refine (h scope head).bind fun f => ?_
    exact (h.evaluateEach scope operands).bind fun arguments => h.applyWith f arguments

end Evaluator.IsDeepenedTo

lemma isDeepenedTo_succ (depth : Nat) :
    Evaluator.IsDeepenedTo (evaluate depth) (evaluate (depth + 1)) := by
  induction depth with
  | zero => exact fun _ _ _ hdeep => absurd rfl hdeep
  | succ depth ih =>
    intro scope code
    exact (isDeepenedTo_refl _).bind fun _ => ih.evaluateWith scope code

/-- **Once a depth is enough, any greater one gives the same run.** -/
theorem evaluate_of_le {depth deeper : Nat} (hle : depth ≤ deeper) {scope : Scope} {code : Value}
    {σ : Store} (h : (evaluate depth scope code σ).result ≠ .error .tooDeep) :
    evaluate deeper scope code σ = evaluate depth scope code σ := by
  induction hle with
  | refl => rfl
  | step _ ih => rw [isDeepenedTo_succ _ scope code σ (by rw [ih]; exact h), ih]

end MiniLisp
