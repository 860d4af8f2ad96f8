/-
# Names are opaque

Only the special forms and the names that are bound from the start mean something by
themselves.  All other names may be exchanged for others, each for one of its own, and the
evaluation of renamed code gives the renamed results, step by step, and leaves the renamed
bindings in the same order.

Renamed code runs in the same frames and makes the same closures, so the two runs correspond
by the renaming alone, and no name is hidden.
-/
import Mathlib.Logic.Equiv.Basic
import MiniLisp.Proofs.Eval.Closed
import MiniLisp.Proofs.Eval.Simulation
import MiniLisp.Proofs.Session.Run

namespace MiniLisp

/-- The names with a meaning of their own: those of the special forms and those that are
bound from the start. -/
def reservedNames : List String := SpecialForm.all.map SpecialForm.name ++ Frame.builtins.names

/-- Takes names for others and leaves stamps and scopes as they are. -/
def Relabelling.ofNames (r : String → String) : Relabelling := ⟨r, id, id⟩

/-- The results of codes that are evaluated in a scope one after another, also after one has
failed, and the store after them. -/
def evaluateAll (depth : Nat) (scope : Scope) :
    List Value → Store → List (Except EvalError Value) × Store
  | [], σ => ([], σ)
  | code :: codes, σ =>
    let run := evaluate depth scope code σ
    let (results, last) := evaluateAll depth scope codes run.store
    (run.result :: results, last)

namespace Correspondence

variable {K : Correspondence}

/-- Relabelled codes have relabelled results, and the stores correspond after them. -/
lemma matches_evaluateAll (depth : Nat) (scope : Scope) {codes : List Value}
    (hcodes : ∀ code ∈ codes, code.Avoids K.hidden) {σ σ' : Store} (hσ : K.Matches σ σ') :
    (evaluateAll depth (K.scope scope) (codes.map (Value.relabel K.toRelabelling)) σ').1 =
        (evaluateAll depth scope codes σ).1.map (relabelResult K.toRelabelling) ∧
      K.Matches (evaluateAll depth scope codes σ).2
        (evaluateAll depth (K.scope scope) (codes.map (Value.relabel K.toRelabelling)) σ').2 := by
  induction codes generalizing σ σ' with
  | nil => exact ⟨rfl, hσ⟩
  | cons code codes ih =>
    obtain ⟨hcode, hrest⟩ := List.forall_mem_cons.1 hcodes
    obtain ⟨hresult, hstore⟩ :=
      respects_sameCode depth scope code _ _ ⟨rfl, rfl, hcode⟩ σ σ' hσ
    obtain ⟨hresults, hlast⟩ := ih hrest hstore
    refine ⟨?_, hlast⟩
    simp only [List.map_cons, evaluateAll, hresults, hresult.eq_relabelResult]

end Correspondence

section

variable {r : String → String} (hinjective : Function.Injective r)
  (hreserved : ∀ name ∈ reservedNames, r name = name)

/-- The correspondence by names alone. -/
def Correspondence.ofNames : Correspondence where
  toRelabelling := .ofNames r
  frame := id
  scope_eq := funext fun _ => (Scope.renumber_eq_self fun _ _ => rfl).symm
  name_injective := hinjective
  name_form form := by
    refine hreserved _ (List.mem_append_left _ (List.mem_map_of_mem ?_))
    cases form <;> decide
  frame_strictMono := strictMono_id
  hidden := []
  base := .empty

/-- What is bound from the start keeps its name and its value. -/
lemma binding_ofNames {binding : String × Value} (h : binding ∈ Frame.builtins.bindings) :
    (Correspondence.ofNames hinjective hreserved).binding binding = binding := by
  have hname : r binding.1 = binding.1 :=
    hreserved _ (List.mem_append_right _ (List.mem_map_of_mem h))
  exact Prod.ext hname (Value.relabel_inert _ (Frame.isInert_of_mem_builtins h))

lemma matches_fresh :
    (Correspondence.ofNames hinjective hreserved).Matches Session.fresh.store
      Session.fresh.store where
  next_frame _ := rfl
  next_stamp _ := rfl
  bindings_eq id := by
    show (Session.fresh.store.frame id).except [] =
      ((Session.fresh.store.frame id).except []).map _
    rw [Frame.except_nil]
    refine (map_eq_self fun binding h => ?_).symm
    exact binding_ofNames hinjective hreserved (Store.mem_builtins_of_mem_newDefault h)
  avoids _ _ _ := Value.avoids_nil _
  aside id hid := absurd ⟨id, rfl⟩ hid

end

/-- **Names are opaque.**  Take names for others, each for one of its own, but keep those that
are reserved.  Whatever codes are evaluated one after another in a new session and to
whatever depth, renamed codes have the renamed results: the value with all symbols,
parameters and bodies in it renamed, or the error of the same kind about the renamed symbol
or value.  At the end the names in the root are the renamed ones, in the same order, with
renamed values. -/
theorem names_are_opaque (r : String → String) (hinjective : Function.Injective r)
    (hreserved : ∀ name ∈ reservedNames, r name = name) (depth : Nat) (codes : List Value) :
    let rename := Value.relabel (.ofNames r)
    let session := Session.fresh
    let ran := evaluateAll depth session.root codes session.store
    let renamed := evaluateAll depth session.root (codes.map rename) session.store
    renamed.1 = ran.1.map (relabelResult (.ofNames r)) ∧
      (renamed.2.frame session.root.frame).bindings =
        (ran.2.frame session.root.frame).bindings.map fun (name, v) => (r name, rename v) := by
  intro rename session ran renamed
  obtain ⟨hresults, hlast⟩ := Correspondence.matches_evaluateAll depth session.root
    (fun code _ => code.avoids_nil) (matches_fresh hinjective hreserved)
  refine ⟨hresults, ?_⟩
  rw [← Frame.except_nil (renamed.2.frame _), ← Frame.except_nil (ran.2.frame _)]
  exact hlast.bindings_eq session.root.frame

/-- A function `y` with the parameter `x` twice is defined, called and looked up; with `x` and
`y` exchanged it is a function `x` with the parameter `y` twice. -/
theorem names_are_opaque_swap :
    let r : String → String := Equiv.swap "x" "y"
    let body := SpecialForm.conditional.code [.symbol "x", .symbol "y", .symbol "z"]
    let codes := [definitionCode "y" ["x", "x"] body, .list [.symbol "y", .t, .nil], .symbol "x"]
    let session := Session.fresh
    let ran := evaluateAll 3 session.root codes session.store
    let renamed := evaluateAll 3 session.root (codes.map (Value.relabel (.ofNames r))) session.store
    (Function.Injective r ∧ ∀ name ∈ reservedNames, r name = name) ∧
      renamed.1 = ran.1.map (relabelResult (.ofNames r)) ∧
        (renamed.2.frame session.root.frame).bindings =
          (ran.2.frame session.root.frame).bindings.map fun (name, v) =>
            (r name, v.relabel (.ofNames r)) := by
  intro r body codes session ran renamed
  have hinjective : Function.Injective r := (Equiv.swap "x" "y").injective
  have hreserved : ∀ name ∈ reservedNames, r name = name := by decide +kernel
  exact ⟨⟨hinjective, hreserved⟩, names_are_opaque r hinjective hreserved 3 codes⟩

end MiniLisp
