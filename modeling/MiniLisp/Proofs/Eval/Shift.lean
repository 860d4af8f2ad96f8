/-
# Runs that start with more

One run may start from a store that has some frames and closures more than the store of the
other run, and other bindings of some hidden names, but the same bindings otherwise.  What
the other run makes then has other numbers: the frames and stamps of the smaller store keep
theirs and all later ones are shifted.
-/
import MiniLisp.Proofs.Eval.Closed
import MiniLisp.Proofs.Eval.Simulation

namespace MiniLisp

/-- Numbers from `n` on are `k` more. -/
def shiftFrom (n k i : Nat) : Nat := if i < n then i else i + k

section

variable {n k i : Nat}

lemma shiftFrom_of_lt (h : i < n) : shiftFrom n k i = i := if_pos h

lemma shiftFrom_of_le (h : n ≤ i) : shiftFrom n k i = i + k := if_neg (Nat.not_lt.2 h)

lemma strictMono_shiftFrom (n k : Nat) : StrictMono (shiftFrom n k) := by
  intro a b h
  unfold shiftFrom
  split <;> split <;> omega

/-- The numbers in between are left out. -/
lemma notMem_range_shiftFrom (hle : n ≤ i) (hlt : i < n + k) : i ∉ Set.range (shiftFrom n k) := by
  rintro ⟨j, h⟩
  unfold shiftFrom at h
  split at h <;> omega

end

/-- The frames and the stamps that a store gives out are some more in the other run. -/
def Relabelling.shifting (σ : Store) (frames stamps : Nat) : Relabelling :=
  ⟨id, shiftFrom σ.stamps stamps, Scope.renumber (shiftFrom σ.frames.size frames)⟩

section

variable {σ σ' : Store} {frames stamps : Nat} {hidden : List String}

lemma scope_shifting {scope : Scope} (h : σ.Has scope) :
    (Relabelling.shifting σ frames stamps).scope scope = scope :=
  Scope.renumber_eq_self fun id hid => shiftFrom_of_lt (h id hid)

/-- What the store knows is not relabelled. -/
lemma relabel_shifting {v : Value} (h : σ.Knows v) :
    v.relabel (.shifting σ frames stamps) = v :=
  Value.relabel_eq_self (fun _ _ => rfl) fun c hc =>
    ⟨shiftFrom_of_lt (h c hc).1, scope_shifting (h c hc).2⟩

variable (σ σ' frames stamps hidden) in
/-- The run from `σ` and the run from `σ'`, which has some frames and stamps more. -/
def Correspondence.shifting : Correspondence where
  toRelabelling := .shifting σ frames stamps
  frame := shiftFrom σ.frames.size frames
  name_injective := Function.injective_id
  name_form _ := rfl
  frame_strictMono := strictMono_shiftFrom σ.frames.size frames
  hidden := hidden
  base := σ'

/-- The stores correspond at the start if the frames that both have are bound alike. -/
lemma matches_shifting (h : σ.IsClosed) (hsize : σ'.frames.size = σ.frames.size + frames)
    (hstamps : σ'.stamps = σ.stamps + stamps)
    (hframe : ∀ id < σ.frames.size, (σ'.frame id).except hidden = (σ.frame id).except hidden)
    (havoids : ∀ id, ∀ binding ∈ (σ.frame id).except hidden, binding.2.Avoids hidden) :
    (Correspondence.shifting σ σ' frames stamps hidden).Matches σ σ' where
  next_frame i := by
    rw [hsize, Nat.add_right_comm]
    exact shiftFrom_of_le (Nat.le_add_right _ _)
  next_stamp i := by
    rw [hstamps, Nat.add_right_comm]
    exact shiftFrom_of_le (Nat.le_add_right _ _)
  bindings_eq id := by
    have hnames : (Correspondence.shifting σ σ' frames stamps hidden).hidden.map
        (Correspondence.shifting σ σ' frames stamps hidden).name = hidden := List.map_id _
    rw [hnames]
    show (σ'.frame (shiftFrom σ.frames.size frames id)).except hidden =
      ((σ.frame id).except hidden).map _
    by_cases hid : id < σ.frames.size
    · rw [shiftFrom_of_lt hid, hframe id hid]
      refine (map_eq_self fun binding hmem => ?_).symm
      exact Prod.ext rfl (relabel_shifting (h id binding (List.mem_of_mem_filter hmem)))
    · -- Neither store has the frame.
      have hle := Nat.le_of_not_lt hid
      rw [shiftFrom_of_le hle, Store.frame_of_size_le _ hle,
        Store.frame_of_size_le _ (hsize ▸ Nat.add_le_add_right hle frames)]
      rfl
  avoids := havoids
  aside _ _ := rfl

end

end MiniLisp
