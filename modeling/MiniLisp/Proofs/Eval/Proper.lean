/-
# Proper code

Where nothing foreign is bound, code without anything foreign in it evaluates to a proper value
and binds proper values only, or it fails with an error of some kind: since all that an error
could show has a display form, no error is ever replaced by the complaint that a value has none.
-/
import MiniLisp.Proofs.Eval.Closed
import MiniLisp.Proofs.Eval.Failure
import MiniLisp.Proofs.Value.Proper

namespace MiniLisp

lemma Value.isProper_of_isPlain {v : Value} (h : v.isPlain) : v.IsProper := by
  cases v with
  | number x => exact .number x
  | symbol name => exact .symbol name
  | nil => exact .nil
  | t => exact .t
  | _ => cases h

/-- The parts of proper code are proper. -/
lemma Value.IsProper.part {code part : Value} (h : code.IsProper) (hpart : part ∈ code.parts) :
    part.IsProper := by
  obtain ⟨items, rfl, hmem⟩ := Value.exists_list_of_mem_parts hpart
  exact Value.isProper_list.1 h part hmem

/-- All values in an event are proper. -/
def Event.IsProper : Event → Prop
  | .visited code _ => code.IsProper
  | .entered _ body arguments _ => body.IsProper ∧ ∀ v ∈ arguments, v.IsProper
  | .parameterDefined _ v _ => v.IsProper
  | .functionDefined _ _ body _ => body.IsProper

/-- All that is bound, and all that happened, is proper. -/
structure Store.IsProper (past : List Event) (σ : Store) : Prop where
  binds : σ.Binds Value.IsProper
  events : ∀ e ∈ past, e.IsProper

lemma Store.IsProper.concat {σ σ' : Store} {past : List Event} (h : σ.IsProper past) {e : Event}
    (hbinds : σ'.Binds Value.IsProper) (he : e.IsProper) : σ'.IsProper (past ++ [e]) where
  binds := hbinds
  events := by
    intro other hother
    rcases List.mem_append.1 hother with hother | hother
    · exact h.events other hother
    · rwa [List.mem_singleton.1 hother]

/-- That nothing foreign gets in. -/
def Invariant.proper : Invariant where
  store past σ := σ.IsProper past
  code _ _ c := c.IsProper
  value _ v := v.IsProper
  code_append _ h := h
  value_append _ h := h
  code_parts h hpart := h.part hpart
  value_plain _ h := Value.isProper_of_isPlain h
  value_self h _ := h
  value_quoted h := Value.isProper_list.1 h _ (by simp)
  value_lookup h _ hv := h.binds.of_lookup? hv
  store_visited h hcode := h.concat h.binds hcode
  store_parameter h _ hv := h.concat (h.binds.set hv _ _) hv
  store_function := by
    intro past σ scope name parameters body h hcode
    have hbody : body.IsProper := Value.isProper_list.1 hcode body (by simp)
    exact h.concat ((h.binds.newClosure parameters body scope).set
      (.closure σ.stamps parameters scope hbody) scope name) hbody
  store_entered h hf hargs :=
    h.concat (h.binds.enter hargs _ _) ⟨Value.isProper_closure.1 hf, hargs⟩
  code_entered _ hf _ := Value.isProper_closure.1 hf

lemma Invariant.exposes_proper : Invariant.proper.Exposes Value.IsProper where
  value h := h
  operand h hv := Value.isProper_list.1 h _ (List.mem_cons_of_mem _ hv)

/-- **Proper code stays proper.**  Where all that is bound is proper, proper code leaves only
proper bindings, and it gives a proper value, or an error that has a kind, or nests too deeply. -/
theorem Store.Binds.evaluate_proper {σ : Store} (h : σ.Binds Value.IsProper) {code : Value}
    (hcode : code.IsProper) (depth : Nat) (scope : Scope) :
    let run := MiniLisp.evaluate depth scope code σ
    run.store.Binds Value.IsProper ∧
      (∀ v, run.result = .ok v → v.IsProper) ∧
      ∀ e, run.result = .error e → e.kind?.isSome ∨ e = .tooDeep := by
  intro run
  have hstart : σ.IsProper [] := ⟨h, nofun⟩
  obtain ⟨hafter, hvalue⟩ := Invariant.proper.respects_evaluate depth [] scope code hcode σ hstart
  refine ⟨hafter.binds, hvalue, fun e he => ?_⟩
  have hblames : e.Blames Value.IsProper :=
    Invariant.blames_evaluate Invariant.exposes_proper depth [] scope code hcode σ hstart e he
  exact hblames.kind?_isSome fun v hv => hv.isDisplayable

end MiniLisp
