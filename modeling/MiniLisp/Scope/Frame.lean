/-
# Frames

The bindings of one scope: each name once, in the order in which the names were first
bound.  Binding a name again keeps its place.
-/
import MiniLisp.Value.Basic

namespace MiniLisp

/-- Binds a name in a list of bindings: in its place if the list has the name, else at the
end. -/
def Frame.put (name : String) (value : Value) : List (String × Value) → List (String × Value)
  | [] => [(name, value)]
  | (other, old) :: rest =>
    if other = name then (other, value) :: rest else (other, old) :: put name value rest

theorem Frame.names_put (name : String) (value : Value) (bindings : List (String × Value)) :
    (put name value bindings).map Prod.fst =
      if name ∈ bindings.map Prod.fst then bindings.map Prod.fst
      else bindings.map Prod.fst ++ [name] := by
  induction bindings with
  | nil => rfl
  | cons binding rest ih =>
    obtain ⟨other, old⟩ := binding
    by_cases h : other = name
    · simp [put, h]
    · have h' : ¬ name = other := fun e => h e.symm
      by_cases hmem : name ∈ rest.map Prod.fst
      · rw [if_pos hmem] at ih
        rw [if_pos (by simp [hmem])]
        simp [put, h, ih]
      · rw [if_neg hmem] at ih
        rw [if_neg (by simp [h', hmem])]
        simp [put, h, ih]

/-- The bindings of a scope. -/
structure Frame where
  /-- Names and values, in the order in which the names were first bound. -/
  bindings : List (String × Value)
  /-- No name is bound twice. -/
  nodup_names : (bindings.map Prod.fst).Nodup

namespace Frame

/-- The frame without bindings. -/
def empty : Frame := ⟨[], List.nodup_nil⟩

/-- The names of a frame, in the order in which they were first bound. -/
def names (frame : Frame) : List String := frame.bindings.map Prod.fst

/-- The value of a name. -/
def get? (frame : Frame) (name : String) : Option Value := frame.bindings.lookup name

/-- Whether a name is bound. -/
def contains (frame : Frame) (name : String) : Bool := (frame.get? name).isSome

/-- Binds a name. -/
def insert (frame : Frame) (name : String) (value : Value) : Frame where
  bindings := put name value frame.bindings
  nodup_names := by
    rw [names_put]
    split
    · exact frame.nodup_names
    · rename_i h
      refine List.nodup_append.2 ⟨frame.nodup_names, by simp, ?_⟩
      intro a ha b hb heq
      rw [List.mem_singleton] at hb
      exact h (hb ▸ heq ▸ ha)

/-- The frame made by binding names one after another. -/
def ofList (bindings : List (String × Value)) : Frame :=
  bindings.foldl (fun frame (name, value) => frame.insert name value) empty

theorem ext {frame frame' : Frame} (h : frame.bindings = frame'.bindings) : frame = frame' := by
  cases frame
  cases frame'
  subst h
  rfl

/-- Binding adds a name at the end or keeps all names as they are. -/
theorem names_insert (frame : Frame) (name : String) (value : Value) :
    (frame.insert name value).names =
      if name ∈ frame.names then frame.names else frame.names ++ [name] :=
  names_put name value frame.bindings

theorem lookup_cons_ite (key name : String) (value : Value) (rest : List (String × Value)) :
    ((name, value) :: rest).lookup key = if key = name then some value else rest.lookup key := by
  rw [List.lookup_cons]
  by_cases h : key = name
  · rw [beq_iff_eq.2 h, if_pos h]
  · rw [beq_eq_false_iff_ne.2 h, if_neg h]

theorem lookup_put (name : String) (value : Value) (bindings : List (String × Value))
    (key : String) :
    (put name value bindings).lookup key =
      if key = name then some value else bindings.lookup key := by
  induction bindings with
  | nil => rw [put, lookup_cons_ite]
  | cons binding rest ih =>
    obtain ⟨this, old⟩ := binding
    rw [put]
    by_cases hput : this = name
    · subst hput
      rw [if_pos rfl, lookup_cons_ite, lookup_cons_ite]
      by_cases h : key = this <;> simp only [h, if_true, if_false]
    · rw [if_neg hput, lookup_cons_ite, lookup_cons_ite, ih]
      by_cases h : key = this
      · subst h
        simp only [if_true, hput, if_false]
      · simp only [h, if_false]

/-- After a name is bound its value is the new one, and other names keep theirs. -/
theorem get?_insert (frame : Frame) (name : String) (value : Value) (other : String) :
    (frame.insert name value).get? other =
      if other = name then some value else frame.get? other :=
  lookup_put name value frame.bindings other

@[simp] theorem get?_empty (name : String) : empty.get? name = none := rfl

end Frame

end MiniLisp
