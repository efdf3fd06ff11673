import PreviewControl.Time.Span

/-!
# Waiting

Waiting for something by polling: polls at a fixed distance, none of which starts after the timeout.
A poll that fails is one that finds nothing, and a poll that starts in time may end late.
-/
namespace PreviewControl.Wait

inductive Finding (α : Type) where
  | ready (value : α)
  | notReady
  | failed (text : String)
deriving Repr

def Finding.value? {α : Type} : Finding α → Option α
  | ready a => some a
  | _ => none

/-- A poll: what it finds, and how many milliseconds it takes. -/
structure Poll (α : Type) where
  finding : Finding α
  millis : Nat := 0

/-- How waiting ends, after how many polls. -/
inductive Ending (α : Type) where
  | ready (value : α) (polls : Nat)
  | timedOut (polls : Nat)
  /-- The number of polls that was set as the limit did not do. -/
  | unfinished (polls : Nat)
deriving Repr

variable {α : Type} {m : Type → Type} [Monad m]

/-- Polls until there is a value or the timeout is over. The poll with number `k` starts after
`elapsed` milliseconds; at most `limit` more are made. -/
def pollFrom (timeout interval : Nat) (poll : Nat → m (Poll α)) :
    Nat → Nat → Nat → m (Ending α)
  | 0, k, _ => pure (.unfinished k)
  | limit + 1, k, elapsed =>
    -- Only the start counts: a poll that starts at the timeout is still made.
    if timeout < elapsed then pure (.timedOut k)
    else do
      let p ← poll k
      match p.finding.value? with
      | some a => pure (.ready a (k + 1))
      | none => pollFrom timeout interval poll limit (k + 1) (elapsed + p.millis + interval)

/-- Polls from the start. With a positive interval the limit is never reached: one poll at most
starts in each interval, and one more look at the clock ends the wait. -/
def pollUntil (timeout interval : Nat) (poll : Nat → m (Poll α)) : m (Ending α) :=
  pollFrom timeout interval poll (timeout / interval + 2) 0 0

/-- The poll with a given number out of a list, whose last one repeats; polls out of an empty list
find nothing. -/
def scripted (polls : List (Poll α)) (k : Nat) : Poll α :=
  (polls[min k (polls.length - 1)]?).getD ⟨.notReady, 0⟩

/-- Waits by polls out of a list. The limit leaves room for all polls of the list and for one in
every millisecond. -/
def follow (timeout interval : Nat) (polls : List (Poll α)) : Ending α :=
  Id.run (pollFrom timeout interval (fun k => pure (scripted polls k))
    (timeout + polls.length + 2) 0 0)

def timeoutMessage (timeout : Nat) (description : String) : String :=
  "timeout after " ++ Time.spanText timeout ++ " waiting for " ++ description

/-- What has been waited for, or the message to stop with. -/
def Ending.result (timeout : Nat) (description : String) : Ending α → Except String α
  | .ready a _ => .ok a
  | _ => .error (timeoutMessage timeout description)

/-- Waits until a poll finds what is described. -/
def waitFor (description : String) (timeout interval : Nat) (poll : Nat → m (Poll α)) :
    m (Except String α) := do
  return (← pollUntil timeout interval poll).result timeout description

end PreviewControl.Wait
