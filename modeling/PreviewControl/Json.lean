import PreviewControl.Numeric.Binary64

/-!
# JSON values

JSON values, and what can be looked up in them. A value as a text spells it may hold fields of one
name several times, and parts that are well formed but stand for no value; `settled?` makes a proper
value of it, or refuses it.
-/
namespace PreviewControl

/-- A JSON value. The fields of an object are a list of pairs; look-ups take the first with a name,
and in a settled value there is no other. -/
inductive Json where
  | null
  | bool (b : Bool)
  | int (n : Int)
  | real (x : Binary64)
  | str (s : String)
  | arr (items : List Json)
  | obj (fields : List (String × Json))
  /-- A part of a text that is well formed and yet stands for no value: a text with half of a
  surrogate pair, a number beyond the doubles, an object with an unreadable name, or an array or
  object inside too many others. -/
  | garbled
deriving Inhabited, Repr, BEq

namespace Json

/-- How many arrays and objects a text may have one in another. -/
def maxDepth : Nat := 127

def get? (key : String) : Json → Option Json
  | obj fields => fields.lookup key
  | _ => none

/-- The value at the end of a path of field names, null where the path leads nowhere. -/
def follow : List String → Json → Json
  | [], j => j
  | key :: path, j => follow path ((j.get? key).getD null)

def text? : Json → Option String
  | str s => some s
  | _ => none

def bool? : Json → Option Bool
  | bool b => some b
  | _ => none

def int? : Json → Option Int
  | int n => some n
  | _ => none

def items? : Json → Option (List Json)
  | arr xs => some xs
  | _ => none

def fields? : Json → Option (List (String × Json))
  | obj fs => some fs
  | _ => none

def isNull : Json → Bool
  | null => true
  | _ => false

/-- An object of the fields that have a value. -/
def record (fields : List (String × Option Json)) : Json :=
  obj (fields.filterMap fun f => f.2.map (f.1, ·))

def texts (xs : List String) : Json := arr (xs.map str)

def textMap (xs : List (String × String)) : Json := obj (xs.map fun x => (x.1, str x.2))

/-- Puts a field into a list of fields ordered by name, in place of a field of the same name. -/
def insertField (key : String) (value : Json) : List (String × Json) → List (String × Json)
  | [] => [(key, value)]
  | f :: fs =>
    if key == f.1 then (key, value) :: fs
    else if key < f.1 then (key, value) :: f :: fs
    else f :: insertField key value fs

/-- Gives the first field of a name another value. -/
def replaceField (key : String) (value : Json) : List (String × Json) → List (String × Json)
  | [] => []
  | f :: fs => if f.1 = key then (key, value) :: fs else f :: replaceField key value fs

def setField (key : String) (value : Json) (fields : List (String × Json)) :
    List (String × Json) :=
  if (fields.lookup key).isSome then replaceField key value fields
  else insertField key value fields

/-- Replaces or adds a field of an object; any other value becomes an object of this field alone. -/
def set (j : Json) (key : String) (value : Json) : Json :=
  match j with
  | obj fields => obj (setField key value fields)
  | _ => obj [(key, value)]

/-- Keeps the last of the fields of every name. -/
def lastOfEach {α : Type} : List (String × α) → List (String × α)
  | [] => []
  | f :: fs => if fs.any (·.1 == f.1) then lastOfEach fs else f :: lastOfEach fs

/-- Nothing goes where no name comes twice. -/
theorem lastOfEach_eq_self {α : Type} {fs : List (String × α)} (h : (fs.map (·.1)).Nodup) :
    lastOfEach fs = fs := by
  induction fs with
  | nil => rfl
  | cons f fs ih =>
    rw [List.map_cons, List.nodup_cons] at h
    have hf : fs.any (·.1 == f.1) = false := by
      rw [List.any_eq_false]
      intro g hg hgf
      exact h.1 (List.mem_map.2 ⟨g, hg, by simpa using hgf⟩)
    simp [lastOfEach, hf, ih h.2]

mutual

/-- The value that a text stands for: no part of it may be garbled, and of several fields with one
name the last one counts. -/
def settled? : Json → Option Json
  | arr xs => (settledItems? xs).map arr
  | obj fs => (settledFields? fs).map fun fs => obj (lastOfEach fs)
  | garbled => none
  | j => some j

def settledItems? : List Json → Option (List Json)
  | [] => some []
  | x :: xs => do return (← x.settled?) :: (← settledItems? xs)

/-- Settles the values of fields, repeated ones too. -/
def settledFields? : List (String × Json) → Option (List (String × Json))
  | [] => some []
  | (k, v) :: fs => do return (k, ← v.settled?) :: (← settledFields? fs)

end

end Json
end PreviewControl
