import PreviewControl.Json.Token

/-!
# Reading JSON

Reading JSON texts token by token. `scan?` gives a text as it is written, with repeated fields and
garbled parts in their places; `read?` gives the value it stands for.
-/
namespace PreviewControl.Json

/-- What stands around a value: the array or object that it is in, with what comes before it there,
the latest first. An object is sound as long as its names are. -/
inductive Frame where
  | item (before : List Json)
  | field (before : List (String × Json)) (sound : Bool) (name : String)

/-- How far a text has been read, with the frames around that place, the innermost first. -/
inductive Progress where
  | value (frames : List Frame)
  /-- The first item of an array or its end has to follow. -/
  | firstItem (frames : List Frame)
  /-- The first name in an object or its end has to follow. -/
  | firstName (frames : List Frame)
  | name (before : List (String × Json)) (sound : Bool) (frames : List Frame)
  /-- The colon behind a name has to follow. -/
  | colon (before : List (String × Json)) (sound : Bool) (name : String) (frames : List Frame)
  | complete (j : Json) (frames : List Frame)

namespace Progress

/-- An array or an object inside of frames, of which there may not be too many. -/
def nested (j : Json) (frames : List Frame) : Progress :=
  complete (if (frames.drop (maxDepth - 1)).isEmpty then j else garbled) frames

def begin? (frames : List Frame) : Token → Option Progress
  | .text (some s) => some (complete (str s) frames)
  | .text none => some (complete garbled frames)
  | .value j => some (complete j frames)
  | .openItems => some (firstItem frames)
  | .openFields => some (firstName frames)
  | _ => none

/-- A name in an object. One that cannot be read spoils the object. -/
def named (before : List (String × Json)) (sound : Bool) (s : Option String)
    (frames : List Frame) : Progress :=
  colon before (sound && s.isSome) (s.getD "") frames

def step? : Progress → Token → Option Progress
  | value frames, t => begin? frames t
  | firstItem frames, .closeItems => some (nested (arr []) frames)
  | firstItem frames, t => begin? (.item [] :: frames) t
  | firstName frames, .closeFields => some (nested (obj []) frames)
  | firstName frames, .text s => some (named [] true s frames)
  | name before sound frames, .text s => some (named before sound s frames)
  | colon before sound key frames, .colon => some (value (.field before sound key :: frames))
  | complete j (.item before :: frames), .comma => some (value (.item (j :: before) :: frames))
  | complete j (.item before :: frames), .closeItems =>
    some (nested (arr (j :: before).reverse) frames)
  | complete j (.field before sound key :: frames), .comma =>
    some (name ((key, j) :: before) sound frames)
  | complete j (.field before sound key :: frames), .closeFields =>
    some (nested (if sound then obj ((key, j) :: before).reverse else garbled) frames)
  | _, _ => none

def result? : Progress → Option Json
  | complete j [] => some j
  | _ => none

end Progress

/-- Reads a text that holds one value and nothing else but blanks, as it is written. -/
def scan? (text : String) : Option Json := do
  (← (← Token.ofText? text).foldlM Progress.step? (.value [])).result?

def read? (text : String) : Option Json := (scan? text).bind settled?

end PreviewControl.Json
