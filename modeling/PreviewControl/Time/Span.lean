/-!
# Spans of time

The text of a span of time: whole seconds and the fraction after them, or, below a second,
milliseconds.
-/
namespace PreviewControl.Time

/-- The digits of a number of milliseconds below a second, behind a point and without zeros at the
end; nothing if there are none. -/
def millisFraction (millis : Nat) : List Char :=
  let ds := [millis / 100, millis / 10 % 10, millis % 10].map Nat.digitChar
  match (ds.reverse.dropWhile (· == '0')).reverse with
  | [] => []
  | ds => '.' :: ds

def spanText (millis : Nat) : String :=
  if millis = 0 then "0ns"
  else if millis < 1000 then toString millis ++ "ms"
  else toString (millis / 1000) ++ String.ofList (millisFraction (millis % 1000)) ++ "s"

end PreviewControl.Time
