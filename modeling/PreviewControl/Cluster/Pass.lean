import PreviewControl.Cluster.Call

/-!
# Passes

Passes: what the operator does, as a tree of calls with a branch for every answer. The cluster and
the clock are not part of it, so a pass can be followed against any sequence of answers. `attempt`
turns a failure into a value; a time beyond all representable years ends a pass for good.
-/
namespace PreviewControl

/-- What the operator does until it has a result. -/
inductive Pass (α : Type) where
  | done (result : α)
  | fail (failure : Failure)
  /-- A time beyond the representable years was asked for. -/
  | overflow
  | call (c : Call) (next : c.Answer → Pass α)
  | announce (event : Event) (next : Pass α)
  | count (measurement : Measurement) (next : Pass α)

namespace Pass

variable {α β : Type}

def bind (p : Pass α) (f : α → Pass β) : Pass β :=
  match p with
  | done a => f a
  | fail e => fail e
  | overflow => overflow
  | call c next => call c fun answer => (next answer).bind f
  | announce event next => announce event (next.bind f)
  | count measurement next => count measurement (next.bind f)

instance : Monad Pass where
  pure := done
  bind := bind

/-- A failure becomes a value. -/
def attempt : Pass α → Pass (Except Failure α)
  | done a => done (.ok a)
  | fail e => done (.error e)
  -- Nothing catches an overflow.
  | overflow => overflow
  | call c next => call c fun answer => (next answer).attempt
  | announce event next => announce event next.attempt
  | count measurement next => count measurement next.attempt

def ofExcept : Except Failure α → Pass α
  | .ok a => done a
  | .error e => fail e

def ofTime : Option α → Pass α
  | some a => done a
  | none => overflow

def request (c : Call) : Pass c.Reply := call c ofExcept

/-- Makes a call whose failure is an answer like any other. -/
def inquire (c : Call) : Pass c.Answer := call c done

def report (event : Event) : Pass Unit := announce event (done ())

def measure (measurement : Measurement) : Pass Unit := count measurement (done ())

inductive Outcome (α : Type) where
  | done (result : α)
  | failed (failure : Failure)
  | overflow
deriving Repr

/-- What answers calls, publishes events and takes measurements. -/
structure Handler (m : Type → Type) where
  answer : (c : Call) → m c.Answer
  publish : Event → m Unit
  record : Measurement → m Unit

def run {m : Type → Type} [Monad m] (h : Handler m) : Pass α → m (Outcome α)
  | done a => pure (.done a)
  | fail e => pure (.failed e)
  | overflow => pure .overflow
  | call c next => do run h (next (← h.answer c))
  | announce event next => do
    h.publish event
    run h next
  | count measurement next => do
    h.record measurement
    run h next

@[simp] theorem bind_done (a : α) (f : α → Pass β) : (done a).bind f = f a := rfl
@[simp] theorem bind_fail (e : Failure) (f : α → Pass β) : (fail e).bind f = fail e := rfl
@[simp] theorem bind_call (c : Call) (next : c.Answer → Pass α) (f : α → Pass β) :
    (call c next).bind f = call c fun answer => (next answer).bind f := rfl

theorem bind_pure (p : Pass α) : p.bind done = p := by
  induction p with
  | done | fail | overflow => rfl
  | call c next ih => simp only [bind, ih]
  | announce _ _ ih | count _ _ ih => simp only [bind, ih]

/-- It does not matter how three passes in a row are grouped. -/
theorem bind_assoc {γ : Type} (p : Pass α) (f : α → Pass β) (g : β → Pass γ) :
    (p.bind f).bind g = p.bind fun a => (f a).bind g := by
  induction p with
  | done | fail | overflow => rfl
  | call c next ih => simp only [bind, ih]
  | announce _ _ ih | count _ _ ih => simp only [bind, ih]

end Pass
end PreviewControl
