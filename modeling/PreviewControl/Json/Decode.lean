import PreviewControl.Json
import PreviewControl.Time.Rfc3339

/-!
# Typed values out of JSON

Reading typed values out of JSON. A reader gives `none` on a value of the wrong form. The three ways
to read a field differ in what a missing field and a null mean.
-/
namespace PreviewControl.Json

variable {α : Type}

/-- The fields of an object that may have each of the given names only once. -/
def distinct? (names : List String) (fields : List (String × Json)) :
    Option (List (String × Json)) :=
  if ((fields.map (·.1)).filter names.contains).Nodup then some fields else none

theorem distinct?_eq_some {fields : List (String × Json)} (names : List String)
    (h : (fields.map (·.1)).Nodup) : distinct? names fields = some fields :=
  if_pos (h.filter _)

/-- The fields of a record: those of an object, or the items of an array in the order of the names.
-/
def members? (names : List String) : Json → Option (List (String × Json))
  | obj fields => distinct? names fields
  | arr items => if items.length ≤ names.length then some (names.zip items) else none
  | _ => none

def field (fields : List (String × Json)) (name : String) (read : Json → Option α) : Option α :=
  (fields.lookup name).bind read

def optional (fields : List (String × Json)) (name : String) (read : Json → Option α) :
    Option (Option α) :=
  match fields.lookup name with
  | none => some none
  | some null => some none
  | some j => (read j).map some

/-- A field that may be missing, for which there is a value of its own then; it may not be null. -/
def defaulted (fields : List (String × Json)) (name : String) (read : Json → Option α) (value : α) :
    Option α :=
  match fields.lookup name with
  | none => some value
  | some j => read j

def list? (read : Json → Option α) : Json → Option (List α)
  | arr items => items.mapM read
  | _ => none

def textMap? : Json → Option (List (String × String))
  | obj fields => fields.mapM fun f => f.2.text?.map (f.1, ·)
  | _ => none

/-- A name out of a closed list: the text, or an object with this name and the value null. -/
def variant? : Json → Option String
  | str s => some s
  | obj [(s, null)] => some s
  | _ => none

def uint32? : Json → Option UInt32
  | int n => if FitsUnsigned 32 n then some (UInt32.ofNat n.toNat) else none
  | _ => none

def int64? : Json → Option Int64
  | int n => if FitsSigned 64 n then some (Int64.ofInt n) else none
  | _ => none

def instant? : Json → Option Instant
  | str s => Time.read? s
  | _ => none

def ofUInt32 (n : UInt32) : Json := int n.toNat

def ofInt64 (n : Int64) : Json := int n.toInt

def ofInstant (t : Instant) : Json := str (Time.print t)

end PreviewControl.Json
