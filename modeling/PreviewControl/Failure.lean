import PreviewControl.Json.Fault
import PreviewControl.Text.Utf8

/-!
# Failures

What can go wrong, as causes: a rejected request, a broken transport, an unreadable answer, a spec
that cannot be acted on, a child that could not be put in place. `message` holds all the wording;
the other functions say what a failure means for the next attempt.
-/
namespace PreviewControl

/-- The error status of an answer of the API server. -/
structure ApiStatus where
  status : String
  message : String
  reason : String
  code : Nat
deriving DecidableEq, Repr, Inhabited

/-- Why no request can be made. -/
inductive Unaddressable where
  | noName
  | badCharacter
  | tooLong
deriving DecidableEq, Repr

def Unaddressable.message : Unaddressable → String
  | noName => "failed to validate request: A non-empty name is required"
  | badCharacter => "failed to build request: invalid uri character"
  | tooLong => "failed to build request: uri too long"

/-- Why an operation failed. -/
inductive Failure where
  | api (status : ApiStatus)
  /-- The request did not reach the server, or the answer did not come back. -/
  | transport (text : String)
  | unreadable (fault : Option Json.Fault)
  | notUtf8 (fault : Option Utf8.Fault)
  | unaddressable (cause : Unaddressable)
  | client
  /-- The record cannot be acted on as it is. -/
  | invalid (environment : String) (field : Option String) (text : String)
  /-- A value of a kind cannot be written or read. -/
  | serialization (kind : Option String) (text : String)
  /-- A child resource could not be put in place. -/
  | child (kind environment text : String)
  /-- An operation failed for a reason of its own. -/
  | internal (context text : String)
deriving DecidableEq, Repr, Inhabited

namespace Failure

def noContext : String := "unknown"

/-- An error status of the server that carries the general status word. -/
def rejected (code : Nat) (reason text : String) : Failure :=
  api { status := "Failure", message := text, reason := reason, code := code }

/-- A sentence with what is known about it. -/
def detailed (sentence : String) (detail : Option String) : String :=
  match detail with
  | some detail => sentence ++ ": " ++ detail
  | none => sentence

/-- The text of a failure of the client alone, without the words in front of it. -/
def clientText : Failure → String
  | api s => "ApiError: " ++ s.message ++ ": " ++ s.reason ++ " (ErrorResponse \x7b status: " ++
      Text.quote s.status ++ ", message: " ++ Text.quote s.message ++ ", reason: " ++
      Text.quote s.reason ++ ", code: " ++ toString s.code ++ " \x7d)"
  | transport text => "ServiceError: " ++ text
  | unreadable fault => detailed "Error deserializing response" (fault.map (·.message))
  | notUtf8 fault => detailed "UTF-8 Error" (fault.map (·.message))
  | unaddressable cause => "Failed to build request: " ++ cause.message
  | _ => "client error"

def message : Failure → String
  | invalid environment _ text => "validation error for " ++ environment ++ ": " ++ text
  | serialization _ text => "serialization error: " ++ text
  | child kind environment text =>
    "failed to materialize " ++ kind ++ " for " ++ environment ++ ": " ++ text
  | internal context text => "internal error [" ++ context ++ "]: " ++ text
  | f => "kubernetes error: " ++ f.clientText

/-- A write was based on a stale version of the record. -/
def isConflict : Failure → Bool
  | api s => s.code == 409
  | _ => false

def isNotFound : Failure → Bool
  | api s => s.code == 404
  | _ => false

/-- Trying again can succeed without a change of the spec. Conflicts and throttling can, other
rejections of the request cannot. -/
def isRetryable : Failure → Bool
  | api s => s.code == 409 || s.code == 429 || !(400 ≤ s.code && s.code < 500)
  | invalid .. => false
  | serialization .. => false
  | _ => true

theorem isRetryable_of_isConflict {f : Failure} (h : f.isConflict = true) :
    f.isRetryable = true := by
  cases f <;> simp_all [isConflict, isRetryable]

end Failure
end PreviewControl
