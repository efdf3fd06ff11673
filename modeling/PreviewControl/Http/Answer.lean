import PreviewControl.Cluster.Call
import PreviewControl.Http.Request
import PreviewControl.Http.Status
import PreviewControl.Json.Inspection.Typed
import PreviewControl.Json.Reader

/-!
# Reading answers

How answers of the API server are read: its error statuses, single objects, lists, and the answers
to deletions, which hold either a status or the object.
-/
namespace PreviewControl.Http

/-- The failure that an error status stands for: what the body says, if it is the description of a
status, or else the body itself as a text. -/
def failureOf (code : Nat) (text : String) : Failure :=
  let described := (Json.scan? text).bind fun j => do
    let fs ← j.members? ["status", "message", "reason", "code"]
    let status ← Json.field fs "status" Json.text?
    let message ← Json.defaulted fs "message" Json.text? ""
    let reason ← Json.defaulted fs "reason" Json.text? ""
    let n ← Json.field fs "code" Json.int?
    if FitsUnsigned 16 n then some (ApiStatus.mk status message reason n.toNat) else none
  .api (described.getD
    ⟨statusText code, Text.quote text, "Failed to parse error data", code⟩)

def textOf : Exchange → Except Failure String
  | .error text => .error (.transport text)
  | .ok response =>
    match String.fromUTF8? ⟨response.body.toArray⟩ with
    | none => .error (.notUtf8 (Utf8.fault? response.body))
    | some text =>
      if isErrorStatus response.status then .error (failureOf response.status text) else .ok text

/-- What is wrong with a text, as far as it is no JSON at all. -/
def jsonFault? (text : String) : Option Json.Fault :=
  Json.Inspection.fault? Json.Inspection.any text

/-- The value that a text holds, or else what is wrong with it. -/
def valueIn {α : Type} (read : Json → Option α) (fault? : String → Option Json.Fault)
    (text : String) : Except Failure α :=
  match (Json.scan? text).bind read with
  | some a => .ok a
  | none => .error (.unreadable (fault? text))

/-- The value that an answer holds. Where nobody is told what is wrong with it, it is enough to know
whether it is JSON. -/
def valueOf {α : Type} (e : Exchange) (read : Json → Option α)
    (fault? : String → Option Json.Fault := jsonFault?) : Except Failure α :=
  (textOf e).bind (valueIn read fault?)

/-- The object that an answer holds; the reason `NotFound` means that there is none. -/
def objectOf? {α : Type} (e : Exchange) (read : Json → Option α)
    (fault? : String → Option Json.Fault := jsonFault?) : Except Failure (Option α) :=
  match valueOf e read fault? with
  | .ok a => .ok (some a)
  | .error (.api s) => if s.reason = "NotFound" then .ok none else .error (.api s)
  | .error e => .error e

def listMetadata : Schema := .record "ListMeta"
  [Schema.opt "continue" .text, Schema.opt "remainingItemCount" .int64,
   Schema.opt "resourceVersion" .text, Schema.opt "selfLink" .text]

def list? {α : Type} (read : Json → Option α) : Json → Option (List α)
  | .obj fs => do
    let fs ← Json.distinct? ["metadata", "items"] fs
    let _ ← Json.defaulted fs "metadata" listMetadata.normalize .null
    let _ ← Json.settledFields? (fs.filter fun f => f.1 != "metadata" && f.1 != "items")
    match fs.lookup "items" with
    | some .null => some []
    | some j => Json.list? read j
    | none => none
  | _ => none

open Json.Inspection (text unsigned orNull list structureOf oneOf) in
/-- The form of a status in place of an object. -/
def statusForm : Json.Inspection Unit :=
  let cause := structureOf "StatusCause" [("reason", text), ("message", text), ("field", text)]
  let details := structureOf "StatusDetails"
    [("name", text), ("group", text), ("kind", text), ("uid", text), ("causes", list cause),
     ("retryAfterSeconds", unsigned 32)]
  structureOf "Status"
    [("status", orNull (oneOf ["Success", "Failure"])), ("code", unsigned 16), ("message", text),
     ("reason", text), ("details", orNull details)]

/-- Reads the answer to a deletion: a status, or the object that is deleted. Which of them it is
shows in the settled answer. -/
def deletionIn {α : Type} (read : Json → Option α) (fault? : String → Option Json.Fault)
    (text : String) : Except Failure Unit :=
  match Json.read? text with
  | none => .error (.unreadable (jsonFault? text))
  | some j =>
    if j.get? "kind" == some (.str "Status") then
      match Json.Inspection.fault? statusForm text with
      | none => .ok ()
      | some fault => .error (.unreadable (some fault))
    else (valueIn read fault? text).map fun _ => ()

/-- Whether a deletion found something; the code 404 means that there was nothing. -/
def deletedOf {α : Type} (e : Exchange) (read : Json → Option α)
    (fault? : String → Option Json.Fault := jsonFault?) : Except Failure Bool :=
  match (textOf e).bind (deletionIn read fault?) with
  | .ok () => .ok true
  -- Here the code decides, where for objects the reason does.
  | .error f => if f.isNotFound then .ok false else .error f

end PreviewControl.Http
