import PreviewControl.Settings

/-!
# Arguments

The words of a command line as flags with values. A flag and its value stand in one word, with an
equals sign between them, or in two. A flag that is all in one word is checked at once. One with its
value in a word of its own is checked when the next flag begins or the words end, so that a word
that means nothing is found first.
-/
namespace PreviewControl.Arguments

structure Pending where
  flag : Flag
  value : Option String

structure State where
  given : List (Flag × String) := []
  pending : Option Pending := none

/-- Checks a flag with its value and enters it: the value has to be the first one for the flag, and
the flag has to be able to read it. -/
def enter (given : List (Flag × String)) (flag : Flag) (value : String) :
    Except ArgumentFault (List (Flag × String)) :=
  if (given.lookup flag).isSome then .error (.repeated flag)
  -- Only whether the value can be read matters here; it is set when all settings are known.
  else match flag.set value default with
    | .ok _ => .ok (given ++ [(flag, value)])
    | .error fault => .error fault

def settle (s : State) : Except ArgumentFault (List (Flag × String)) :=
  match s.pending with
  | some ⟨flag, some value⟩ => enter s.given flag value
  | some ⟨flag, none⟩ => .error (.noValue flag)
  | none => .ok s.given

/-- Checks the flag before this one and then this one, which has its value with it. -/
def whole (s : State) (flag : Flag) (value : String) : Except ArgumentFault State :=
  ((settle s).bind fun given => enter given flag value).map fun given => ⟨given, none⟩

/-- Checks the flag before this one and begins this one, whose value is in the next word. -/
def start (s : State) (flag : Flag) : Except ArgumentFault State :=
  (settle s).map fun given => ⟨given, some ⟨flag, none⟩⟩

/-- Reads a word that begins with two hyphens: a name, and a value after an equals sign if any. -/
def readLong (s : State) (word : String) (cs : List Char) : Except ArgumentFault State :=
  let name := String.ofList (cs.takeWhile (· != '='))
  let value := match cs.dropWhile (· != '=') with
    | _ :: r => some (String.ofList r)
    | [] => none
  match Flag.ofName? name with
  | some flag =>
    match value with
    | some value => if flag.isSwitch then .error (.unneededValue name) else whole s flag value
    | none => if flag.isSwitch then whole s flag "true" else start s flag
  | none =>
    if name = "help" then
      if value.isSome then .error (.unneededValue name)
      else (settle s).bind fun _ => .error .helpWanted
    else .error (.unknown word)

/-- Reads a word that is no flag: the value of the flag before it, if it waits for one. -/
def readValue (s : State) (word : String) : Except ArgumentFault State :=
  match s.pending with
  | some ⟨flag, none⟩ => .ok { s with pending := some ⟨flag, some word⟩ }
  | _ => .error (.unknown word)

/-- Reads words up to their end. After a word of two hyphens there may be no other. -/
def readFrom (s : State) : List String → Except ArgumentFault (List (Flag × String))
  | [] => settle s
  | word :: words =>
    match word.toList with
    -- Two hyphens alone end the flags, and there is nothing that could follow them.
    | ['-', '-'] =>
      match words with
      | [] => settle s
      | extra :: _ => .error (.unknown extra)
    | '-' :: '-' :: cs => (readLong s word cs).bind fun s => readFrom s words
    | '-' :: 'h' :: _ => (settle s).bind fun _ => .error .helpWanted
    | '-' :: _ :: _ => .error (.unknown word)
    -- A single hyphen is a word like any other.
    | _ => (readValue s word).bind fun s => readFrom s words

def read (words : List String) : Except ArgumentFault (List (Flag × String)) := readFrom {} words

/-- The settings that a command line gives together with the environment. -/
def settings (words : List String) (vars : List (String × String)) :
    Except ArgumentFault Settings :=
  (read words).bind fun given => Settings.resolve given vars

end PreviewControl.Arguments
