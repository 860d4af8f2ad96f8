/-
# Sessions

A session evaluates one source after another in one root scope, so what a source defines
stays for those that follow, also if the source fails later on.  Of a source only the first
expression is read.
-/
import MiniLisp.Eval.Basic
import MiniLisp.Reader.Basic
import MiniLisp.Session.Record

namespace MiniLisp

/-- Why a source gave no value. -/
inductive Failure where
  /-- No expression could be read. -/
  | unreadable (e : ReadError)
  /-- The evaluation failed. -/
  | failed (e : EvalError)
deriving Repr

/-- The kind of a failure. -/
def Failure.kind? : Failure → Option FailureKind
  | .unreadable _ => some .unreadable
  | .failed e => e.kind?

/-- The failure in words. -/
def Failure.message : Failure → String
  | .unreadable e => e.message
  | .failed e => e.message

/-- What becomes of a source. -/
inductive Answer where
  /-- No expression could be read. -/
  | unreadable (e : ReadError)
  /-- An expression was read, some characters follow it, and it was evaluated. -/
  | evaluated (code : Value) (left : Nat) (run : Run Value)

namespace Answer

/-- Reads the first expression of a source and evaluates it in a scope. -/
def ofSource (depth : Nat) (scope : Scope) (source : Reader.Source) (σ : Store) : Answer :=
  match Reader.parse source with
  | .error e => .unreadable e
  | .ok (code, rest) => .evaluated code rest.rest.length (evaluate depth scope code σ)

/-- The value or the failure. -/
def result : Answer → Except Failure Value
  | .unreadable e => .error (.unreadable e)
  | .evaluated _ _ run =>
    match run.result with
    | .ok v => .ok v
    | .error e => .error (.failed e)

/-- The display form of the value, or the failure. -/
def display (answer : Answer) : Except Failure String :=
  match answer.result with
  | .error e => .error e
  | .ok v =>
    match v.display? with
    | .ok s => .ok s
    | .error e => .error (.failed e)

/-- The store after a source that found the store `σ`. -/
def store (σ : Store) : Answer → Store
  | .unreadable _ => σ
  | .evaluated _ _ run => run.store

/-- What happened while a source was evaluated, in order. -/
def trace : Answer → List Event
  | .unreadable _ => []
  | .evaluated _ _ run => run.trace

/-- The records of reading and evaluating. -/
def records : Answer → List Record
  | .unreadable _ => []
  | .evaluated code left run =>
    .read code left :: .evaluating code :: run.trace.filterMap Event.record?

end Answer

/-- A store and the root scope that sources are evaluated in. -/
structure Session where
  /-- The store as the sources so far left it. -/
  store : Store
  /-- The scope that sources are evaluated in. -/
  root : Scope

namespace Session

/-- The depth that evaluations may nest to. -/
def maxDepth : Nat := 10000

/-- A session before its first source. -/
def fresh : Session :=
  let (root, σ) := Store.empty.newDefault
  ⟨σ, root⟩

/-- What becomes of a source if evaluations may nest to a depth. -/
def answerWithin (depth : Nat) (session : Session) (source : Reader.Source) : Answer :=
  .ofSource depth session.root source session.store

/-- What becomes of a source. -/
def answer (session : Session) (source : Reader.Source) : Answer :=
  session.answerWithin maxDepth source

/-- The session after a source that had the given answer. -/
def after (session : Session) (answer : Answer) : Session :=
  { session with store := answer.store session.store }

/-- What becomes of sources one after another if evaluations may nest to a depth, and the
session after them. -/
def answerAll (depth : Nat) (session : Session) :
    List Reader.Source → List Answer × Session
  | [] => ([], session)
  | source :: rest =>
    let answer := session.answerWithin depth source
    let (answers, last) := (session.after answer).answerAll depth rest
    (answer :: answers, last)

/-- The bindings of the root, without those that hold from the start and were not changed. -/
def definitions (session : Session) : List (String × Value) :=
  (session.store.frame session.root.frame).bindings.filter fun (name, value) =>
    !Frame.isBuiltin name value

end Session

end MiniLisp
