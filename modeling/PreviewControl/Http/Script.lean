import PreviewControl.Http.Request

/-!
# A scripted server

An API server that answers by a list of routes and writes down the requests it gets.
-/
namespace PreviewControl.Http

structure Route where
  method : String
  path : String
  /-- How many requests the route still answers, if not all. -/
  times : Option Nat := none
  reply : Exchange

/-- The routes of a server and the requests it has got, the latest first. -/
structure Script where
  routes : List Route
  requests : List Request := []

namespace Script

def bytesOf (j : Json) : List UInt8 := j.canonical.compact.toUTF8.toList

def answers (request : Request) (r : Route) : Bool :=
  r.method == request.method.name && r.path == request.target.path && r.times != some 0

/-- The answer of the first route for a request, and all routes after it. -/
def take? (request : Request) : List Route → Option (Exchange × List Route)
  | [] => none
  | r :: rs =>
    if answers request r then some (r.reply, { r with times := r.times.map (· - 1) } :: rs)
    else (take? request rs).map fun (reply, rest) => (reply, r :: rest)

/-- The body that says that there is nothing under a path. -/
def notFoundBody : Json :=
  .obj [("apiVersion", .str "v1"), ("kind", .str "Status"), ("metadata", .obj []),
    ("status", .str "Failure"), ("message", .str "not found"), ("reason", .str "NotFound"),
    ("code", .int 404)]

def eventRoot : String := "/apis/events.k8s.io/"

/-- The answer where there is no route: events are accepted, what is applied is accepted too, and
nothing else exists. -/
def fallback (request : Request) : Response :=
  if eventRoot.toList.isPrefixOf request.target.path.toList then
    ⟨201, bytesOf (request.body.getD .null)⟩
  else if request.contentType = some applyPatch then ⟨200, bytesOf (.obj [])⟩
  else ⟨404, bytesOf notFoundBody⟩

def send (request : Request) : StateM Script Exchange := do
  let s ← get
  match take? request s.routes with
  | some (reply, routes) =>
    set { s with routes := routes, requests := request :: s.requests }
    return reply
  | none =>
    set { s with requests := request :: s.requests }
    return .ok (fallback request)

end Script
end PreviewControl.Http
