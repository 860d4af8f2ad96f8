/-
# What the reader can give

The values that some source denotes: numbers, texts that have a body, symbols that are runs
of symbol characters and do not spell a number, and lists of such values.
-/
import MiniLisp.Proofs.Reader.Grammar
import MiniLisp.Proofs.Value.Occurs

namespace MiniLisp.Reader

/-- A value that can be read. -/
inductive IsReadable : Value → Prop
  | number {x : Binary64} (h : x ≠ .nan) : IsReadable (.number x)
  | text {s : String} (h : IsTextBody s.toList) : IsReadable (.text s)
  | symbol {name : String} (hne : name.toList ≠ []) (hrun : ∀ c ∈ name.toList, isSymbolChar c)
    (hspells : ∀ d, ¬ Decimal.Spells name.toList d) : IsReadable (.symbol name)
  | list {items : List Value} (h : ∀ v ∈ items, IsReadable v) : IsReadable (.list items)

lemma isReadable_of_occurs {v w : Value} (h : v.Occurs w) (hw : IsReadable w) :
    IsReadable v := by
  induction h with
  | refl => exact hw
  | item hmem _ ih =>
    cases hw with
    | list hitems => exact ih (hitems _ hmem)

lemma toBinary64_ne_nan (d : Decimal) : d.toBinary64 ≠ .nan := by
  rw [Decimal.toBinary64, Binary64.ofRank]
  split
  · intro h
    cases h
  · intro h
    cases h

mutual

/-- What is denoted can be read. -/
theorem Denotes.isReadable {token rest : List Char} {v : Value} :
    Denotes token rest v → IsReadable v
  | .number _ _ _ => .number (toBinary64_ne_nan _)
  | .symbol hne hrun _ hspells => .symbol (by simpa) (by simpa) (by simpa)
  | .text hbody => .text (by simpa)
  | .empty _ => .list (by simp)
  | .list _ hfirst htail => .list (List.forall_mem_cons.2 ⟨hfirst.isReadable, htail.areReadable⟩)

/-- So can the elements of a list. -/
theorem DenotesTail.areReadable {tail rest : List Char} {vs : List Value} :
    DenotesTail tail rest vs → ∀ v ∈ vs, IsReadable v
  | .close _ => nofun
  | .item _ _ hitem htail => List.forall_mem_cons.2 ⟨hitem.isReadable, htail.areReadable⟩

end

/-- What the reader gives can be read. -/
theorem isReadable_of_parse {source : Source} {v : Value} {c : Cursor}
    (h : parse source = .ok (v, c)) : IsReadable v := by
  rw [parse] at h
  split at h
  · cases h
  · split at h
    · rename_i hread
      cases h
      obtain ⟨_, -, hdenotes⟩ := expr_eq_ok_iff.1 hread
      exact hdenotes.isReadable
    · cases h

end MiniLisp.Reader
