/-
# Sessions are sound

In a session that begins with nothing but what is bound from the start, and whose sources are
read, nothing foreign ever gets in.  So every source gives a value that has a display form or
fails with an error of some kind, and it fails as unreadable just if no expression can be read
from it.
-/
import MiniLisp.Proofs.Eval.Proper
import MiniLisp.Proofs.Session.Lexical

namespace MiniLisp

/-- What is read is proper. -/
lemma Reader.IsReadable.isProper {v : Value} (h : IsReadable v) : v.IsProper := by
  induction h with
  | number => exact .number _
  | text => exact .text _
  | symbol => exact .symbol _
  | list _ ih => exact .list ih

namespace Session

/-- What is bound from the start is proper. -/
lemma isProper_fresh : fresh.store.Binds Value.IsProper := fun _ _ hmem =>
  Frame.of_mem_builtins .t .native _ (Store.mem_builtins_of_mem_newDefault hmem)

/-- One source in a session where nothing foreign is bound. -/
lemma isProper_answerWithin {session : Session} (h : session.store.Binds Value.IsProper)
    (depth : Nat) (source : Reader.Source) :
    let answer := session.answerWithin depth source
    (session.after answer).store.Binds Value.IsProper ∧
      ((∃ v, answer.result = .ok v ∧ answer.display = .ok v.display) ∨
        ∃ failure, answer.result = .error failure ∧ answer.display = .error failure ∧
          (failure.kind?.isSome ∨ failure = .failed .tooDeep)) := by
  intro answer
  cases hread : Reader.parse source with
  | error e =>
    have hanswer : answer = .unreadable e := answerWithin_of_error hread
    rw [hanswer]
    exact ⟨h, Or.inr ⟨.unreadable e, rfl, rfl, Or.inl rfl⟩⟩
  | ok read =>
    obtain ⟨line, rest⟩ := read
    have hanswer : answer = .evaluated line rest.rest.length
        (evaluate depth session.root line session.store) := answerWithin_of_ok hread
    have hline : line.IsProper := (Reader.isReadable_of_parse hread).isProper
    obtain ⟨hbinds, hvalue, herror⟩ := h.evaluate_proper hline depth session.root
    refine ⟨?_, ?_⟩
    · rw [hanswer]
      exact hbinds
    · cases hresult : (evaluate depth session.root line session.store).result with
      | ok v =>
        have hv : answer.result = .ok v := by
          rw [hanswer, Answer.result_evaluated_of_ok hresult]
        exact Or.inl ⟨v, hv, Answer.display_of_ok hv (hvalue v hresult).isDisplayable⟩
      | error e =>
        have he : answer.result = .error (.failed e) := by
          rw [hanswer, Answer.result_evaluated_of_error hresult]
        exact Or.inr ⟨.failed e, he, Answer.display_of_error he,
          (herror e hresult).imp_right fun htooDeep => congrArg _ htooDeep⟩

/-- It fails as unreadable just if nothing can be read. -/
lemma display_eq_unreadable_iff {session : Session} {depth : Nat} {source : Reader.Source} :
    (∃ failure, (session.answerWithin depth source).display = .error failure ∧
      failure.kind? = some .unreadable) ↔ ∃ e, Reader.parse source = .error e := by
  cases hread : Reader.parse source with
  | error e =>
    rw [answerWithin_of_error hread]
    exact ⟨fun _ => ⟨e, rfl⟩, fun _ => ⟨.unreadable e, rfl, rfl⟩⟩
  | ok read =>
    obtain ⟨line, rest⟩ := read
    rw [answerWithin_of_ok hread]
    refine ⟨?_, nofun⟩
    rintro ⟨failure, hdisplay, hkind⟩
    obtain ⟨e, rfl⟩ := Answer.exists_of_display_evaluated hdisplay
    exact absurd hkind e.kind?_ne_unreadable

/-- A source that cannot be read changes nothing. -/
lemma after_of_error {session : Session} {depth : Nat} {source : Reader.Source} {e : ReadError}
    (h : Reader.parse source = .error e) :
    session.after (session.answerWithin depth source) = session := by
  rw [answerWithin_of_error h]
  rfl

/-- Sources leave bindings and give values where nothing is foreign. -/
lemma isProper_answerAll (depth : Nat) (sources : List Reader.Source) :
    let answered := fresh.answerAll depth sources
    answered.2.store.IsProper (traceAll answered.1) ∧
      ∀ answer ∈ answered.1, ∀ v, answer.result = .ok v → v.IsProper := by
  have hstart : fresh.store.IsProper [] := ⟨isProper_fresh, fun _ he => nomatch he⟩
  exact keeps_answerAll .proper depth sources
    (fun _ _ ⟨_, _, _, hread⟩ => (Reader.isReadable_of_parse hread).isProper) hstart

/-- What a session holds at any time is proper. -/
lemma isProper_of_held {answers : List Answer} {last : Session}
    (hstore : last.store.IsProper (traceAll answers))
    (hgiven : ∀ answer ∈ answers, ∀ v, answer.result = .ok v → v.IsProper) {v : Value}
    (h : Held answers last v) : v.IsProper := by
  cases h with
  | given hanswer hv => exact hgiven _ hanswer _ hv
  | bound hbinding => exact hstore.binds _ _ hbinding
  | parameter hevent => exact hstore.events _ hevent
  | function hevent => exact .closure _ _ _ (hstore.events _ hevent)
  | argument hevent hv => exact (hstore.events _ hevent).2 _ hv

/-- The body of a function that a session holds was read. -/
lemma isReadable_of_isLexical {lines : Value → Prop} {root : Scope} {past : List Event}
    (hlines : ∀ line, lines line → Reader.IsReadable line) {v : Value}
    (h : v.IsLexical lines root past) {stamp : Nat} {parameters : List String} {body : Value}
    {captured : Scope} (hoccurs : (Value.closure stamp parameters body captured).Occurs v) :
    Reader.IsReadable body := by
  obtain ⟨name, -, line, nest, hline, hwithin, -⟩ := h stamp parameters body captured hoccurs
  have hbody : body.Occurs line :=
    (Definition.body_occurs_code ⟨name, parameters, body⟩).trans hwithin.occurs
  exact Reader.isReadable_of_occurs hbody (hlines line hline)

end Session

/-- **Sessions are sound.**  Whatever sources a fresh session is given, also those that cannot be
read and those that fail, and to whatever depth it evaluates:

* there is nothing foreign in what is ever bound or given, and the body of every function is
  something that can be read;
* every source gives a value and its display form, or fails, and does not fail anew when the
  failure is shown; the failure has a kind unless the evaluation nests too deeply;
* a source fails as unreadable just if no expression can be read from it, and then the session
  is what it was;
* native functions that need an argument refuse to have none, and a quotient is computed only
  where no divisor is zero. -/
theorem sessions_are_sound (depth : Nat) (sources : List Reader.Source) :
    let answered := Session.fresh.answerAll depth sources
    (∀ v, Session.Held answered.1 answered.2 v → v.IsProper ∧
      ∀ stamp parameters body captured,
        (Value.closure stamp parameters body captured).Occurs v → Reader.IsReadable body) ∧
    (∀ before source after, sources = before ++ source :: after →
      let session := (Session.fresh.answerAll depth before).2
      let answer := session.answerWithin depth source
      ((∃ v, answer.result = .ok v ∧ answer.display = .ok v.display) ∨
        ∃ failure, answer.result = .error failure ∧ answer.display = .error failure ∧
          (failure.kind?.isSome ∨ failure = .failed .tooDeep)) ∧
      ((∃ failure, answer.display = .error failure ∧ failure.kind? = some .unreadable) ↔
        ∃ e, Reader.parse source = .error e) ∧
      ((∃ e, Reader.parse source = .error e) → session.after answer = session)) ∧
    (∀ f : Native, f ≠ .add → f.apply [] = .error (.nativeArity f)) ∧
    ∀ dividend divisors v, Native.div.apply (dividend :: divisors) = .ok v →
      ∀ u ∈ divisors, ∃ y, u = .number y ∧ y.isZero = false := by
  intro answered
  have hlines : ∀ line, Reader.IsLine sources line → Reader.IsReadable line := by
    rintro line ⟨source, -, rest, hread⟩
    exact Reader.isReadable_of_parse hread
  obtain ⟨hproper, hgiven⟩ := Session.isProper_answerAll depth sources
  obtain ⟨hlexical, hlexicalGiven⟩ := Session.keeps_answerAll
    (.lexical (Reader.IsLine sources) Session.fresh.root hlines) depth sources
    (fun _ line hline => ⟨line, [], hline, .line, .root⟩) (isLexical_fresh _)
  refine ⟨fun v hv => ⟨Session.isProper_of_held hproper hgiven hv, ?_⟩, ?_, ?_, ?_⟩
  · intro stamp parameters body captured hoccurs
    exact Session.isReadable_of_isLexical hlines
      (isLexical_of_held hlexical hlexicalGiven hv) hoccurs
  · intro before source after _ session answer
    have hbinds := (Session.isProper_answerAll depth before).1.binds
    exact ⟨(Session.isProper_answerWithin hbinds depth source).2,
      Session.display_eq_unreadable_iff, fun ⟨_, he⟩ => Session.after_of_error he⟩
  · intro f hf
    cases f with
    | add => exact absurd rfl hf
    | _ => rfl
  · exact fun dividend divisors v h => Native.exists_of_apply_div h

end MiniLisp
