import Std.Time.DateTime.Timestamp
import PreviewControl.CommandLine
import PreviewControl.Http.Gateway
import PreviewControl.Reconcile.Round
import PreviewControl.Startup.Install

/-!
# The operator as a program

The program. It takes its settings from the command line and the environment, and hands its requests
to a gateway: it writes them to standard output and reads the answers from standard input.
-/
namespace PreviewControl.Main

def clock : IO Instant := do
  let t ← Std.Time.Timestamp.now
  return (Instant.of? t.val.second.val t.val.nano.val.toNat).getD default

def sleep (seconds : Nat) : IO Unit :=
  IO.sleep (UInt32.ofNat (min (seconds * 1000) (UInt32.size - 1)))

def send (r : Http.Request) : IO Http.Exchange := do
  let output ← IO.getStdout
  output.putStrLn (Http.Gateway.requestLine r)
  output.flush
  let line ← (← IO.getStdin).getLine
  if line.isEmpty then throw (IO.userError "the gateway is closed")
  return Http.Gateway.readAnswer line

def handler : IO (Pass.Handler IO) := do
  return Http.handler send ⟨Http.controllerName, ← IO.getEnv "POD_NAME"⟩

/-- Makes rounds until the gateway is closed. -/
partial def control (h : Pass.Handler IO) (config : Config) : IO Unit := do
  sleep (← Reconcile.round h clock config)
  control h config

/-- Makes cleanup passes until the gateway is closed. -/
partial def clean (h : Pass.Handler IO) (config : Config) : IO Unit := do
  let _ ← (Cleanup.pass config.controlNamespace (← clock)).run h
  sleep config.cleanupSeconds
  clean h config

/-- Makes one cleanup pass, which fails if any deletion fails. -/
def cleanOnce (h : Pass.Handler IO) (config : Config) : IO Unit := do
  match ← (Cleanup.pass config.controlNamespace (← clock)).run h with
  | .done sum =>
    if sum.failed > 0 then
      throw (IO.userError (toString sum.failed ++ " expired environments could not be deleted"))
  | .failed e => throw (IO.userError ("Cleanup pass failed: " ++ e.message))
  | .overflow => throw (IO.userError "Cleanup pass failed")

def run : Command → IO Unit
  | .define => IO.println Definition.object.compact
  | .control settings => do
    match ← Install.install (sleep (Install.interval / 1000)) send with
    | .ok () => control (← handler) settings.config
    | .error message => throw (IO.userError message)
  | .clean true settings => do cleanOnce (← handler) settings.config
  | .clean false settings => do clean (← handler) settings.config

def givenVariables : IO (List (String × String)) := do
  let found ← Flag.all.mapM fun flag => do
    return (← IO.getEnv flag.variable).map (flag.variable, ·)
  return found.filterMap id

end PreviewControl.Main

open PreviewControl in
def main (words : List String) : IO UInt32 := do
  -- A command line that cannot be read ends with another code than a failure later on.
  match Command.read words (← Main.givenVariables) with
  | .error .helpWanted => do
    IO.println Command.usage
    return 0
  | .error fault => do
    IO.eprintln ("error: " ++ fault.message)
    return 2
  | .ok command =>
    try
      Main.run command
      return 0
    catch e =>
      IO.eprintln ("Error: " ++ toString e)
      return 1
