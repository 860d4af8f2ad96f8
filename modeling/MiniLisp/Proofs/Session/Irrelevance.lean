/-
# Irrelevant sources

If nothing that a source defines is mentioned in the other sources of a session, then the
source might as well be left out: the others are answered as if it had never been there.
This is so whether it gives a value, fails or cannot be read, and it may stand anywhere.

The session without the source and the session with it are compared by shifted frames and
stamps, since evaluating the source made some, and the names that the source defines are
hidden.  That no other source mentions such a name means that no value bound to another name
mentions it either, and so it is never looked up.
-/
import MiniLisp.Proofs.Eval.Alteration
import MiniLisp.Proofs.Eval.Shift
import MiniLisp.Proofs.Session.Run

namespace MiniLisp

/-! ### What sources say -/

namespace Reader

/-- The names that the expression read from a source defines where it is evaluated. -/
def definedBy (source : Source) : List String :=
  match parse source with
  | .ok (line, _) => line.defined
  | .error _ => []

/-- The names that occur anywhere in the expression read from a source. -/
def mentionedBy (source : Source) : List String :=
  match parse source with
  | .ok (line, _) => line.mentioned
  | .error _ => []

end Reader

/-! ### Answers that are alike -/

/-- What a failure is but for when and where the closures in it were made. -/
def Failure.outline : Failure → Failure
  | .unreadable e => .unreadable e
  | .failed e => .failed (e.relabel Value.outlining)

/-- Two answers that show no difference: their values are the same, closures compared by
parameters and bodies, or their failures are, and so are the texts that are displayed. -/
structure Answer.Alike (answer other : Answer) : Prop where
  result_eq : (answer.result.map Value.outline).mapError Failure.outline =
    (other.result.map Value.outline).mapError Failure.outline
  display_eq : answer.display.mapError Failure.message = other.display.mapError Failure.message

namespace Answer

lemma Alike.refl (answer : Answer) : answer.Alike answer := ⟨rfl, rfl⟩

/-- Relabelled results show no difference if names stay. -/
lemma alike_of_relabelResult {f : Relabelling} (hname : ∀ name, f.name name = name)
    {code code' : Value} {left left' : Nat} {run run' : Run Value}
    (h : run'.result = relabelResult f run.result) :
    (evaluated code left run).Alike (evaluated code' left' run') := by
  cases hresult : run.result with
  | ok v =>
    have hv : (evaluated code left run).result = .ok v := by
      rw [result_evaluated, hresult]
      rfl
    have hv' : (evaluated code' left' run').result = .ok (v.relabel f) := by
      rw [result_evaluated, h, hresult]
      rfl
    constructor
    · rw [hv, hv']
      exact congrArg Except.ok (Value.outline_relabel hname v).symm
    · rw [display, display, hv, hv']
      simp only [Value.display?_relabel hname]
  | error e =>
    have he : (evaluated code left run).result = .error (.failed e) := by
      rw [result_evaluated, hresult]
      rfl
    have he' : (evaluated code' left' run').result = .error (.failed (e.relabel f)) := by
      rw [result_evaluated, h, hresult]
      rfl
    constructor
    · rw [he, he']
      exact congrArg (Except.error <| Failure.failed ·)
        (EvalError.relabel_outlining_relabel hname e).symm
    · rw [display, display, he, he']
      exact congrArg Except.error (EvalError.message_relabel hname e).symm

end Answer

/-- The bindings of the root but for those of some names, closures compared by parameters and
bodies. -/
def Session.outlineExcept (names : List String) (session : Session) : List (String × Value) :=
  ((session.store.frame session.root.frame).except names).map (Prod.map id Value.outline)

/-! ### Sessions that correspond -/

/-- What is read is not relabelled if names stay. -/
lemma relabel_of_isReadable {f : Relabelling} (hname : ∀ name, f.name name = name) {v : Value}
    (h : Reader.IsReadable v) : v.relabel f = v :=
  Value.relabel_eq_self (fun name _ => hname name) fun c hc =>
    absurd (Session.isBelow_of_isReadable h 0 0 c hc).1 (Nat.not_lt_zero _)

/-- The stores and the roots of two sessions correspond. -/
structure Session.Matches (K : Correspondence) (session session' : Session) : Prop where
  root_eq : session'.root = K.scope session.root
  store : K.Matches session.store session'.store

namespace Session.Matches

variable {K : Correspondence} (hname : ∀ name, K.name name = name) {session session' : Session}
  (depth : Nat)

include hname

/-- A source that mentions no hidden name is answered alike. -/
lemma answerWithin (h : session.Matches K session') {source : Reader.Source}
    (hsource : ∀ name ∈ Reader.mentionedBy source, name ∉ K.hidden) :
    (session.answerWithin depth source).Alike (session'.answerWithin depth source) ∧
      (session.after (session.answerWithin depth source)).Matches K
        (session'.after (session'.answerWithin depth source)) := by
  cases hread : Reader.parse source with
  | error e =>
    rw [answerWithin_of_error hread, answerWithin_of_error hread]
    exact ⟨.refl _, h⟩
  | ok read =>
    obtain ⟨line, rest⟩ := read
    rw [answerWithin_of_ok hread, answerWithin_of_ok hread]
    have havoids : line.Avoids K.hidden := by
      rwa [Reader.mentionedBy, hread] at hsource
    have hsame : K.SameCode session.root line session'.root line :=
      ⟨h.root_eq, (relabel_of_isReadable hname (Reader.isReadable_of_parse hread)).symm, havoids⟩
    obtain ⟨hresult, hstore⟩ :=
      Correspondence.respects_sameCode depth _ _ _ _ hsame _ _ h.store
    exact ⟨Answer.alike_of_relabelResult hname hresult.eq_relabelResult, h.root_eq, hstore⟩

/-- So are any number of sources. -/
lemma answerAll (h : session.Matches K session') {sources : List Reader.Source}
    (hsources : ∀ source ∈ sources, ∀ name ∈ Reader.mentionedBy source, name ∉ K.hidden) :
    List.Forall₂ Answer.Alike (session.answerAll depth sources).1
        (session'.answerAll depth sources).1 ∧
      (session.answerAll depth sources).2.Matches K (session'.answerAll depth sources).2 := by
  induction sources generalizing session session' with
  | nil => exact ⟨.nil, h⟩
  | cons source sources ih =>
    obtain ⟨hfirst, hrest⟩ := List.forall_mem_cons.1 hsources
    obtain ⟨halike, hafter⟩ := h.answerWithin hname depth hfirst
    obtain ⟨halikes, hlast⟩ := ih hafter hrest
    exact ⟨.cons halike halikes, hlast⟩

/-- The roots show the same bindings. -/
lemma outlineExcept_eq (h : session.Matches K session') :
    session'.outlineExcept K.hidden = session.outlineExcept K.hidden := by
  have hhidden : K.hidden.map K.name = K.hidden :=
    map_eq_self fun name _ => hname name
  have hbindings := h.store.bindings_eq session.root.frame
  rw [hhidden, ← K.frame_scope, ← h.root_eq] at hbindings
  rw [outlineExcept, hbindings, List.map_map]
  exact List.map_congr_left fun binding _ =>
    Prod.ext (hname binding.1) (Value.outline_relabel hname binding.2)

end Session.Matches

/-! ### A source more -/

lemma definesOnly_defined (names : List String) :
    Value.DefinesOnly names fun code => code.defined ⊆ names where
  parts h hpart := fun _ hname => h (Value.defined_subset_of_mem_parts hpart hname)
  parameter h := h (by simp)
  function h := h (by simp)

/-- What a source does to the store of a session, whether it is answered by a value or not. -/
lemma Session.altersOnly_after {session : Session} (hclosed : session.store.IsClosed)
    (hroot : session.store.Has session.root) (depth : Nat) (source : Reader.Source) :
    let after := (session.after (session.answerWithin depth source)).store
    session.store.AltersOnly (Reader.definedBy source) after ∧ session.store.Extends after := by
  cases hread : Reader.parse source with
  | error e =>
    rw [answerWithin_of_error hread]
    exact ⟨.refl _ _, Nat.le_refl _, Nat.le_refl _, hclosed⟩
  | ok read =>
    obtain ⟨line, rest⟩ := read
    rw [answerWithin_of_ok hread, Reader.definedBy, hread]
    have hline : session.store.Knows line :=
      isBelow_of_isReadable (Reader.isReadable_of_parse hread) _ _
    exact ⟨(definesOnly_defined line.defined).evaluate (List.Subset.refl _) depth _ _,
      (hclosed.evaluate hroot hline depth).1⟩

/-- The sessions after some sources that mention no hidden name, one of them with a source
more, correspond. -/
lemma Session.matches_after (depth : Nat) {before : List Reader.Source} {line : Reader.Source}
    (hbefore : ∀ source ∈ before, ∀ name ∈ Reader.mentionedBy source,
      name ∉ Reader.definedBy line) :
    let session := (fresh.answerAll depth before).2
    ∃ K : Correspondence, (∀ name, K.name name = name) ∧ K.hidden = Reader.definedBy line ∧
      session.Matches K (session.after (session.answerWithin depth line)) := by
  intro session
  have hfresh : fresh.Matches
      (.shifting fresh.store fresh.store 0 0 (Reader.definedBy line)) fresh :=
    { root_eq := rfl
      store := matches_shifting Store.isClosed_newDefault rfl rfl (fun _ _ => rfl)
        fun id binding hmem => Value.avoids_inert (Frame.isInert_of_mem_builtins
          (Store.mem_builtins_of_mem_newDefault (List.mem_of_mem_filter hmem))) }
  -- The session corresponds to itself: its values do not mention the hidden names.
  have hself := (hfresh.answerAll (fun _ => rfl) depth hbefore).2
  obtain ⟨hclosed, hroot⟩ := isClosed_answerAll depth before
  obtain ⟨halters, hextends⟩ := altersOnly_after hclosed hroot depth line
  refine ⟨.shifting session.store (session.after (session.answerWithin depth line)).store
      ((session.after (session.answerWithin depth line)).store.frames.size -
        session.store.frames.size)
      ((session.after (session.answerWithin depth line)).store.stamps - session.store.stamps)
      (Reader.definedBy line), fun _ => rfl, rfl, (scope_shifting hroot).symm, ?_⟩
  exact matches_shifting hclosed (Nat.add_sub_of_le hextends.size_le).symm
    (Nat.add_sub_of_le hextends.stamps_le).symm halters.except_eq hself.store.avoids

/-- **Irrelevant sources do not interfere.**  Let a session have a source that defines no name
mentioned in any other one, and leave it out.  Then, to whatever depth evaluations may nest,
each other source has an answer that shows no difference, in its value or failure and in what
is displayed.  In the end all names but those that the source defines are bound in the root in
the same order and to the same values, closures compared by parameters and bodies.  A source
without definitions may be left out in any case. -/
theorem irrelevant_source_does_not_interfere (depth : Nat) (before after : List Reader.Source)
    (line : Reader.Source)
    (h : ∀ source ∈ before ++ after, ∀ name ∈ Reader.mentionedBy source,
      name ∉ Reader.definedBy line) :
    let others := Session.fresh.answerAll depth (before ++ after)
    let all := Session.fresh.answerAll depth (before ++ line :: after)
    List.Forall₂ Answer.Alike others.1 (all.1.eraseIdx before.length) ∧
      others.2.outlineExcept (Reader.definedBy line) =
        all.2.outlineExcept (Reader.definedBy line) := by
  intro others all
  obtain ⟨hbefore, hafter⟩ := List.forall_mem_append.1 h
  obtain ⟨K, hname, hhidden, hmatches⟩ := Session.matches_after depth hbefore
  obtain ⟨halike, hlast⟩ := hmatches.answerAll hname depth (hhidden ▸ hafter)
  have hothers : others = _ := Session.answerAll_append before after
  have hall : all = _ := Session.answerAll_append before (line :: after)
  have hlength : (Session.fresh.answerAll depth before).1.length = before.length :=
    Session.length_answerAll before
  rw [hothers, hall]
  refine ⟨?_, ?_⟩
  · rw [List.eraseIdx_append_of_length_le (Nat.le_of_eq hlength), hlength, Nat.sub_self]
    exact List.rel_append (List.forall₂_same.2 fun answer _ => .refl answer) halike
  · have hroot := hlast.outlineExcept_eq hname
    rw [hhidden] at hroot
    exact hroot.symm

/-- The source left out defines a function while it evaluates the argument of a call, and the
call fails. -/
theorem irrelevant_call_does_not_interfere :
    let before : List Reader.Source := [.text "(defun f (x) (if x (quote (x)) w))"]
    let line : Reader.Source := .text "((f (defparameter z (defun g (y) z))) t)"
    let after : List Reader.Source := [.text "(f t)", .text "(f w)", .text "f"]
    let others := Session.fresh.answerAll 5 (before ++ after)
    let all := Session.fresh.answerAll 5 (before ++ line :: after)
    (∀ source ∈ before ++ after, ∀ name ∈ Reader.mentionedBy source,
        name ∉ Reader.definedBy line) ∧
      List.Forall₂ Answer.Alike others.1 (all.1.eraseIdx before.length) ∧
        others.2.outlineExcept (Reader.definedBy line) =
          all.2.outlineExcept (Reader.definedBy line) := by
  intro before line after others all
  have h : ∀ source ∈ before ++ after, ∀ name ∈ Reader.mentionedBy source,
      name ∉ Reader.definedBy line := by decide +kernel
  exact ⟨h, irrelevant_source_does_not_interfere 5 before after line h⟩

end MiniLisp
