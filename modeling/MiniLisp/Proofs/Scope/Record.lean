/-
# Frames as records of writes

A frame remembers of the writes to it which names were written, in the order of the first write
to each, and the last value that each was given.  This determines the frame, so writes that
agree in this much are as good as each other: to bind the names of a mapping comes to the same
as to bind its pairs one after another, also if a name is repeated among the pairs.
-/
import Mathlib.Data.List.Induction
import MiniLisp.Proofs.Scope.Store

namespace MiniLisp

/-! ### First occurrences -/

lemma eraseDups_concat (l : List String) (a : String) :
    (l ++ [a]).eraseDups = if a ∈ l then l.eraseDups else l.eraseDups ++ [a] := by
  rw [List.eraseDups_append]
  by_cases h : a ∈ l
  · simp [List.removeAll, h]
  · simp [List.removeAll, h, List.eraseDups_cons]

lemma eraseDups_append_eraseDups (l m : List String) :
    (l ++ m.eraseDups).eraseDups = (l ++ m).eraseDups := by
  induction m using List.reverseRecOn with
  | nil => rfl
  | append_singleton m a ih =>
    rw [eraseDups_concat, ← List.append_assoc, eraseDups_concat]
    by_cases h : a ∈ m
    · rw [if_pos h, if_pos (List.mem_append_right _ h), ih]
    · rw [if_neg h, ← List.append_assoc, eraseDups_concat, ih]
      simp only [List.mem_append, List.mem_eraseDups]

lemma eraseDups_eq_self {l : List String} (h : l.Nodup) : l.eraseDups = l := by
  induction l using List.reverseRecOn with
  | nil => rfl
  | append_singleton l a ih =>
    obtain ⟨hl, -, hdisjoint⟩ := List.nodup_append.1 h
    have ha : a ∉ l := fun ha => hdisjoint a ha a List.mem_cons_self rfl
    rw [eraseDups_concat, if_neg ha, ih hl]

/-! ### Looking up in lists without repeated keys -/

lemma lookup_eq_none_of_notMem {l : List (String × Value)} {name : String}
    (h : name ∉ l.map Prod.fst) : l.lookup name = none := by
  rw [List.lookup_eq_none_iff]
  intro binding hbinding
  rw [bne_iff_ne]
  exact fun heq => h (List.mem_map.2 ⟨binding, hbinding, heq.symm⟩)

/-- If no key is repeated it makes no difference from which end it is looked up. -/
lemma lookup_reverse {l : List (String × Value)} (h : (l.map Prod.fst).Nodup) (name : String) :
    l.reverse.lookup name = l.lookup name := by
  induction l with
  | nil => rfl
  | cons binding rest ih =>
    obtain ⟨other, value⟩ := binding
    obtain ⟨hother, hrest⟩ := List.nodup_cons.1 h
    rw [List.reverse_cons, List.lookup_append, ih hrest, Frame.lookup_cons_ite,
      Frame.lookup_cons_ite]
    by_cases hname : name = other
    · rw [hname, lookup_eq_none_of_notMem hother, List.lookup_nil, Option.none_or]
    · rw [if_neg hname, if_neg hname, List.lookup_nil, Option.or_none]

/-- The keys, none of which is repeated, and what is found for them determine a list. -/
lemma eq_of_lookup_eq {l l' : List (String × Value)} (h : (l.map Prod.fst).Nodup)
    (hkeys : l.map Prod.fst = l'.map Prod.fst) (hget : ∀ name, l.lookup name = l'.lookup name) :
    l = l' := by
  induction l generalizing l' with
  | nil => exact (List.map_eq_nil_iff.1 hkeys.symm).symm
  | cons binding rest ih =>
    obtain ⟨name, value⟩ := binding
    obtain ⟨⟨name', value'⟩, rest', rfl, hname, hrest⟩ := List.map_eq_cons_iff.1 hkeys.symm
    obtain rfl : name' = name := hname
    obtain ⟨hnotMem, hnodup⟩ := List.nodup_cons.1 h
    simp only [Frame.lookup_cons_ite] at hget
    obtain rfl : value = value' := by simpa using hget name'
    refine congrArg _ (ih hnodup hrest.symm fun other => ?_)
    by_cases hother : other = name'
    · rw [hother, lookup_eq_none_of_notMem hnotMem, lookup_eq_none_of_notMem (hrest ▸ hnotMem)]
    · simpa only [if_neg hother] using hget other

namespace Frame

lemma contains_iff {frame : Frame} {name : String} :
    frame.contains name ↔ name ∈ frame.names := by
  constructor
  · intro h
    obtain ⟨v, hv⟩ := Option.isSome_iff_exists.1 h
    exact List.mem_map_of_mem (mem_bindings_of_get? hv)
  · intro h
    obtain ⟨binding, hbinding, rfl⟩ := List.mem_map.1 h
    rw [contains, Option.isSome_iff_ne_none, get?, ne_eq, List.lookup_eq_none_iff]
    intro hnone
    simpa using hnone binding hbinding

/-- The frame with names bound one after another. -/
def insertAll (frame : Frame) (writes : List (String × Value)) : Frame :=
  writes.foldl (fun frame write => frame.insert write.1 write.2) frame

/-- The names of a frame and what they mean determine it. -/
lemma eq_of_get?_eq {frame frame' : Frame} (hnames : frame.names = frame'.names)
    (hget : ∀ name, frame.get? name = frame'.get? name) : frame = frame' :=
  Frame.ext (eq_of_lookup_eq frame.nodup_names hnames hget)

/-- A frame has the names that were written, in the order in which they were first written, and
each has the value that was written last. -/
structure Records (writes : List (String × Value)) (frame : Frame) : Prop where
  names_eq : frame.names = (writes.map Prod.fst).eraseDups
  get?_eq : ∀ name, frame.get? name = writes.reverse.lookup name

namespace Records

variable {frame frame' : Frame} {writes writes' : List (String × Value)}

lemma empty : Records [] Frame.empty := ⟨rfl, fun _ => rfl⟩

lemma insert (h : frame.Records writes) (name : String) (value : Value) :
    (frame.insert name value).Records (writes ++ [(name, value)]) where
  names_eq := by
    rw [names_insert, h.names_eq, List.map_append, List.map_singleton, eraseDups_concat]
    simp only [List.mem_eraseDups]
  get?_eq := by
    intro other
    rw [get?_insert, h.get?_eq, List.reverse_append, List.reverse_singleton, List.singleton_append,
      lookup_cons_ite]

lemma insertAll (h : frame.Records writes) (more : List (String × Value)) :
    (frame.insertAll more).Records (writes ++ more) := by
  induction more generalizing frame writes with
  | nil => rwa [List.append_nil]
  | cons write more ih =>
    have hrest := ih (h.insert write.1 write.2)
    rwa [List.append_assoc] at hrest

/-- A frame is a record of its own bindings. -/
lemma self (frame : Frame) : frame.Records frame.bindings where
  names_eq := (eraseDups_eq_self frame.nodup_names).symm
  get?_eq := fun name => (lookup_reverse frame.nodup_names name).symm

/-- The names of a frame are those that were written. -/
lemma contains_iff (h : frame.Records writes) {name : String} :
    frame.contains name ↔ name ∈ writes.map Prod.fst := by
  rw [Frame.contains_iff, h.names_eq, List.mem_eraseDups]

/-- Which writes a frame records but for the order of the last ones determines the frame. -/
lemma eq (h : frame.Records writes) (h' : frame'.Records writes')
    (hnames : (writes.map Prod.fst).eraseDups = (writes'.map Prod.fst).eraseDups)
    (hlast : ∀ name, writes.reverse.lookup name = writes'.reverse.lookup name) :
    frame = frame' := by
  refine eq_of_get?_eq ?_ fun name => ?_
  · rw [h.names_eq, h'.names_eq, hnames]
  · rw [h.get?_eq, h'.get?_eq, hlast]

end Records

/-- Writing the bindings of a mapping comes to the same as writing the pairs that it was made
of. -/
lemma insertAll_ofList (frame : Frame) (pairs : List (String × Value)) :
    frame.insertAll (ofList pairs).bindings = frame.insertAll pairs := by
  have hmapping : (ofList pairs).Records pairs := Records.empty.insertAll pairs
  have hnames : (ofList pairs).bindings.map Prod.fst = (pairs.map Prod.fst).eraseDups :=
    hmapping.names_eq
  refine ((Records.self frame).insertAll _).eq ((Records.self frame).insertAll _) ?_ fun name => ?_
  · rw [List.map_append, List.map_append, hnames, eraseDups_append_eraseDups]
  · rw [List.reverse_append, List.reverse_append, List.lookup_append, List.lookup_append,
      lookup_reverse (ofList pairs).nodup_names, ← hmapping.get?_eq]
    rfl

end Frame

namespace Store

variable {σ σ' : Store} {scope : Scope}

/-- What is written to a scope is written to its frame. -/
lemma frame_setAll (h : scope.frame < σ.frames.size) (writes : List (String × Value)) :
    (σ.setAll scope writes).frame scope.frame = (σ.frame scope.frame).insertAll writes := by
  induction writes generalizing σ with
  | nil => rfl
  | cons write rest ih =>
    rw [setAll, ih (by rwa [size_set]), frame_set h, if_pos rfl]
    rfl

/-- Stores with the same frames and the same number of closures are the same. -/
lemma eq_of_frame_eq (hsize : σ.frames.size = σ'.frames.size) (hstamps : σ.stamps = σ'.stamps)
    (hframe : ∀ id, σ.frame id = σ'.frame id) : σ = σ' := by
  obtain ⟨frames, stamps⟩ := σ
  obtain ⟨frames', stamps'⟩ := σ'
  obtain rfl : stamps = stamps' := hstamps
  refine congrArg (Store.mk · stamps) (Array.ext hsize fun id hid hid' => ?_)
  have heq := hframe id
  rwa [frame, frame, Array.getElem?_eq_getElem hid, Array.getElem?_eq_getElem hid'] at heq

/-- **To bind the names of a mapping is to bind its pairs one after another**, also if the
mapping was made of pairs with repeated names. -/
lemma update_ofList (σ : Store) (scope : Scope) (pairs : List (String × Value)) :
    σ.update scope (.ofList pairs) = σ.setAll scope pairs := by
  refine eq_of_frame_eq (by simp [update]) (by simp [update]) fun id => ?_
  by_cases hid : id = scope.frame
  · subst hid
    by_cases hlt : scope.frame < σ.frames.size
    · rw [update, frame_setAll hlt, frame_setAll hlt, Frame.insertAll_ofList]
    · rw [frame_of_size_le _ (by simpa [update] using hlt),
        frame_of_size_le _ (by simpa using hlt)]
  · rw [update, frame_setAll_of_ne _ _ hid, frame_setAll_of_ne _ _ hid]

end Store

end MiniLisp
