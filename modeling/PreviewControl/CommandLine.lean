import PreviewControl.Settings.Arguments

/-!
# The command line

The command line of the operator: what it is asked to do, and with which settings.
-/
namespace PreviewControl

inductive Command where
  | define
  /-- Put all environments in place and clean up those that have expired. -/
  | control (settings : Settings)
  /-- Clean up expired environments, once or until stopped. -/
  | clean (once : Bool) (settings : Settings)
deriving Inhabited

def ArgumentFault.message : ArgumentFault → String
  | unknown word => "unexpected argument: " ++ word
  | noValue flag => "a value is required for --" ++ flag.name
  | unreadable flag value => "invalid value for --" ++ flag.name ++ ": " ++ value
  | notAChoice flag value => "neither true nor false for --" ++ flag.name ++ ": " ++ value
  | repeated flag => "given more than once: --" ++ flag.name
  | unneededValue word => "no value is expected for --" ++ word
  | helpWanted => "help is asked for"

namespace Command

def flagLine (flag : Flag) : String :=
  "  --" ++ flag.name ++ (if flag.isSwitch then "" else " <VALUE>") ++ "  [" ++ flag.variable ++ "]"

def usage : String :=
  String.intercalate "\n"
    (["Usage: preview-operator [--crd] [controller | cleanup [--once]] [FLAGS]", "",
      "Flags, with the variables that stand in for them:"] ++ Flag.all.map flagLine)

def onceWord : String := "--once"

/-- Reads the words of a cleanup: flags, and among them the word for cleaning up once. -/
def readClean (words : List String) (vars : List (String × String)) :
    Except ArgumentFault Command :=
  match words.dropWhile (· != onceWord) with
  | [] => (Arguments.settings words vars).map (clean false)
  | _ :: after => do
    let before ← Arguments.read (words.takeWhile (· != onceWord))
    let given ← Arguments.readFrom ⟨before, none⟩ after
    return clean true (← Settings.resolve given vars)

/-- Reads a mode and its words. Without a mode the operator controls, by the variables alone. -/
def readMode (words : List String) (vars : List (String × String)) :
    Except ArgumentFault Command :=
  match words with
  | [] => (Settings.resolve [] vars).map control
  | "controller" :: rest => (Arguments.settings rest vars).map control
  | "cleanup" :: rest => readClean rest vars
  | word :: _ =>
    .error (if word = "--help" ∨ word = "-h" then .helpWanted else .unknown word)

def read (words : List String) (vars : List (String × String)) : Except ArgumentFault Command :=
  match words with
  | ["--crd"] => .ok define
  | "--crd" :: rest => (readMode rest vars).map fun _ => define
  | _ => readMode words vars

end Command
end PreviewControl
