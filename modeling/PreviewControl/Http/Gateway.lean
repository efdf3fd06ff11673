import PreviewControl.Http.Request
import PreviewControl.Json.Reader

/-!
# Requests and answers as lines

Requests and answers as lines of JSON, by which a process without a network of its own speaks to one
that has one: a line for every request, and a line for its answer.
-/
namespace PreviewControl.Http.Gateway

def requestLine (r : Request) : String :=
  (Json.record [("method", some (.str r.method.name)), ("path", some (.str r.target.path)),
    ("query", if r.target.query.isEmpty then none else some (.textMap r.target.query)),
    ("contentType", r.contentType.map .str), ("body", r.body)]).compact

/-- Reads an answer: a status and a body, or the text of what broke on the way. -/
def exchange? (j : Json) : Option Exchange :=
  match j.get? "error" with
  | some broken => broken.text?.map .error
  | none => do
    let status ← (← j.get? "status").int?
    let body ← (← j.get? "body").text?
    return .ok ⟨status.toNat, body.toUTF8.toList⟩

def readAnswer (line : String) : Exchange :=
  ((Json.read? line).bind exchange?).getD (.error "the gateway sent no answer")

end PreviewControl.Http.Gateway
