/-
# The lineage of scopes

The scopes that were made, in the order in which they were made.  The place of a scope in this
list is the place of its frame in the store, and the scope outside it stands earlier in the
list.  So a frame belongs to one scope only, and whoever goes outwards from a scope passes each
frame at most once and comes to an end, whatever is bound in the frames.
-/
import MiniLisp.Proofs.Scope.Store

namespace MiniLisp

/-- A list of scopes in the order in which they were made. -/
structure IsLineage (made : List Scope) : Prop where
  /-- Each scope has the frame of its place. -/
  frame_eq : ∀ (i : Nat) (h : i < made.length), made[i].frame = i
  /-- The scope outside a scope was made before it. -/
  outer_mem : ∀ (i : Nat) (h : i < made.length) (outer : Scope),
    made[i].outer? = some outer → outer ∈ made.take i

namespace IsLineage

variable {made : List Scope}

lemma nil : IsLineage [] := ⟨nofun, nofun⟩

/-- A new scope has the next frame, and the scope outside it is there already. -/
lemma concat (h : IsLineage made) {scope : Scope} (hframe : scope.frame = made.length)
    (houter : ∀ outer, scope.outer? = some outer → outer ∈ made) :
    IsLineage (made ++ [scope]) where
  frame_eq := by
    intro i hi
    rcases Nat.lt_or_ge i made.length with hlt | hge
    · rw [List.getElem_append_left hlt, h.frame_eq i hlt]
    · obtain rfl : i = made.length := by
        rw [List.length_append, List.length_singleton] at hi
        omega
      rw [List.getElem_concat_length rfl, hframe]
  outer_mem := by
    intro i hi outer
    rcases Nat.lt_or_ge i made.length with hlt | hge
    · rw [List.getElem_append_left hlt, List.take_append_of_le_length (Nat.le_of_lt hlt)]
      exact h.outer_mem i hlt outer
    · obtain rfl : i = made.length := by
        rw [List.length_append, List.length_singleton] at hi
        omega
      rw [List.getElem_concat_length rfl, List.take_left]
      exact houter outer

variable (h : IsLineage made) {scope : Scope}

include h

/-- The scope at the place of a frame is the one that the frame belongs to. -/
lemma getElem?_frame (hscope : scope ∈ made) : made[scope.frame]? = some scope := by
  obtain ⟨i, hi, rfl⟩ := List.getElem_of_mem hscope
  rw [h.frame_eq i hi]
  exact List.getElem?_eq_getElem hi

lemma frame_lt_length (hscope : scope ∈ made) : scope.frame < made.length :=
  (List.getElem?_eq_some_iff.1 (h.getElem?_frame hscope)).1

/-- No two scopes share a frame. -/
lemma eq_of_frame_eq (hscope : scope ∈ made) {other : Scope} (hother : other ∈ made)
    (heq : scope.frame = other.frame) : scope = other := by
  have hboth := h.getElem?_frame hscope
  rw [heq, h.getElem?_frame hother] at hboth
  exact (Option.some.inj hboth).symm

/-- The scope outside a scope was made, and before it. -/
lemma outer_older (hscope : scope ∈ made) {outer : Scope} (houter : scope.outer? = some outer) :
    outer ∈ made ∧ outer.frame < scope.frame := by
  obtain ⟨i, hi, rfl⟩ := List.getElem_of_mem hscope
  have hmem := h.outer_mem i hi outer houter
  refine ⟨List.mem_of_mem_take hmem, ?_⟩
  obtain ⟨j, hj, rfl⟩ := List.mem_take_iff_getElem.1 hmem
  rw [h.frame_eq i hi, h.frame_eq j (Nat.lt_of_lt_of_le hj (Nat.min_le_right _ _))]
  exact Nat.lt_of_lt_of_le hj (Nat.min_le_left _ _)

/-- All scopes outside a scope were made. -/
lemma mem_of_mem_chain (hscope : scope ∈ made) {other : Scope} (hother : other ∈ scope.chain) :
    other ∈ made := by
  induction scope with
  | root frame => rwa [List.mem_singleton.1 hother]
  | inner frame outer ih =>
    rcases List.mem_cons.1 hother with rfl | hother
    · exact hscope
    · exact ih (h.outer_older hscope rfl).1 hother

/-- Each frame of a scope is older than those further in. -/
lemma pairwise_frames (hscope : scope ∈ made) : scope.frames.Pairwise (· > ·) := by
  induction scope with
  | root frame => exact List.pairwise_singleton _ _
  | inner frame outer ih =>
    obtain ⟨houter, hlt⟩ := h.outer_older hscope rfl
    refine List.pairwise_cons.2 ⟨fun id hid => ?_, ih houter⟩
    -- The frame of the scope outside is the greatest of those outside.
    have hhead : id ≤ outer.frame := by
      cases outer with
      | root frame => exact Nat.le_of_eq (List.mem_singleton.1 hid)
      | inner frame further =>
        rcases List.mem_cons.1 hid with rfl | hid
        · exact Nat.le_refl _
        · exact Nat.le_of_lt ((List.pairwise_cons.1 (ih houter)).1 id hid)
    exact Nat.lt_of_le_of_lt hhead hlt

lemma nodup_frames (hscope : scope ∈ made) : scope.frames.Nodup :=
  (h.pairwise_frames hscope).imp fun hlt => Nat.ne_of_gt hlt

end IsLineage

/-! ### Going outwards -/

/-- The frame of the scope outside the one that a frame belongs to, if there is one. -/
def outerFrame? (made : List Scope) (id : FrameId) : Option FrameId :=
  made[id]?.bind fun scope => scope.outer?.map Scope.frame

/-- Going outwards from a frame, from each scope to the one outside it, passes some frames in
this order and ends. -/
inductive WalksOut (made : List Scope) : FrameId → List FrameId → Prop
  | last {id : FrameId} (h : outerFrame? made id = none) : WalksOut made id [id]
  | next {id outer : FrameId} {rest : List FrameId} (h : outerFrame? made id = some outer)
    (hrest : WalksOut made outer rest) : WalksOut made id (id :: rest)

/-- Going outwards from a scope passes just the frames of the scope. -/
lemma IsLineage.walksOut {made : List Scope} (h : IsLineage made) {scope : Scope}
    (hscope : scope ∈ made) : WalksOut made scope.frame scope.frames := by
  have houter : outerFrame? made scope.frame = scope.outer?.map Scope.frame := by
    rw [outerFrame?, h.getElem?_frame hscope]
    rfl
  induction scope with
  | root frame => exact .last houter
  | inner frame outer ih =>
    have hmem := (h.outer_older hscope rfl).1
    refine .next houter (ih hmem ?_)
    rw [outerFrame?, h.getElem?_frame hmem]
    rfl

/-! ### Stores -/

/-- The frames of a store are those of some scopes, listed in the order in which they were
made. -/
structure Store.Holds (σ : Store) (made : List Scope) : Prop where
  lineage : IsLineage made
  size_eq : σ.frames.size = made.length

namespace Store

variable {σ : Store} {made : List Scope}

lemma holds_empty : empty.Holds [] := ⟨.nil, rfl⟩

namespace Holds

variable (h : σ.Holds made) {scope : Scope}

include h

lemma frame_lt (hscope : scope ∈ made) : scope.frame < σ.frames.size := by
  rw [h.size_eq]
  exact h.lineage.frame_lt_length hscope

/-- The scope that is made next was not there before. -/
lemma nextScope_notMem (outer : Option Scope) : σ.nextScope outer ∉ made := by
  intro hmem
  have hlt := h.frame_lt hmem
  rw [frame_nextScope] at hlt
  exact Nat.lt_irrefl _ hlt

/-- A scope that is made is the last one. -/
lemma grow {outer : Option Scope} (houter : ∀ scope ∈ outer, scope ∈ made) :
    σ.grow.Holds (made ++ [σ.nextScope outer]) where
  lineage := by
    refine h.lineage.concat ((frame_nextScope σ outer).trans h.size_eq) fun scope hscope => ?_
    rw [outer?_nextScope] at hscope
    exact houter scope hscope
  size_eq := by rw [size_grow, h.size_eq, List.length_append, List.length_singleton]

lemma setAll (scope : Scope) (writes : List (String × Value)) :
    (σ.setAll scope writes).Holds made :=
  ⟨h.lineage, (size_setAll σ scope writes).trans h.size_eq⟩

end Holds

/-- What a name means is looked for from the inside out. -/
lemma find?_eq_find?_chain (σ : Store) (scope : Scope) (name : String) :
    σ.find? scope name = scope.chain.find? fun other => (σ.frame other.frame).contains name := by
  induction scope with
  | root frame =>
    rw [find?, Scope.chain, List.find?_singleton]
    rfl
  | inner frame outer ih =>
    rw [find?, Scope.chain, List.find?_cons, ih]
    cases h : (σ.frame frame).contains name <;> simp [h]

/-- Its frame is the first one that has the name. -/
lemma map_frame_find? (σ : Store) (scope : Scope) (name : String) :
    (σ.find? scope name).map Scope.frame =
      scope.frames.find? fun id => (σ.frame id).contains name := by
  rw [find?_eq_find?_chain, Scope.frames_eq_map_chain, List.find?_map]
  rfl

/-- What a name means is what the first frame that has it says. -/
lemma lookup?_eq_findSome? (σ : Store) (scope : Scope) (name : String) :
    σ.lookup? scope name = scope.frames.findSome? fun id => (σ.frame id).get? name := by
  induction scope with
  | root id =>
    rw [lookup?_root, Scope.frames, List.findSome?_cons]
    cases (σ.frame id).get? name <;> rfl
  | inner id outer ih =>
    rw [lookup?_inner, ih, Scope.frames, List.findSome?_cons]
    cases (σ.frame id).get? name <;> rfl

end Store

end MiniLisp
