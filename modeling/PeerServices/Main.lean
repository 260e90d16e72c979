import PeerServices.CommandLine
import PeerServices.Network.Host
import Std.Async.Signal

/-!
# The program

Reads the arguments and the settings file, draws a key pair, prints what comes of the request, and
runs a peer until it is interrupted.
-/

namespace PeerServices.CommandLine

/-- The contents of the settings file at a path, or at the default path. -/
def readSettings (path : Option String) : IO (Option Bytes) := do
  let home := (← IO.getEnv "HOME").getD "/tmp"
  try
    let bytes ← IO.FS.readBinFile (path.getD (home ++ "/.tether/config.toml"))
    return some bytes.toList
  catch _ => return none

def drawKeypair : IO Keypair := do
  let seed ← IO.getRandomBytes 32
  return .ofSeed (.ofPadded 32 seed.toList)

def report (o : Outcome) : IO UInt32 := do
  for line in o.lines do
    IO.println line
  (← IO.getStdout).flush
  if let some failure := o.failure then
    IO.eprintln failure
  return UInt32.ofNat o.code

/-- Runs a peer until it is interrupted. The settings file has the given contents. -/
def runPeer (contents : Option Bytes) (drawn : Keypair) : IO UInt32 := do
  let settings := Settings.ofFile contents
  let listening ← (Host.listen settings.listenAddress).toBaseIO
  let bound := (listening.map (·.2)).mapError fun e => "IO error: " ++ Host.failureText e
  let o := outcome (some (.perform .run none)) (fun _ => contents) drawn fun _ => bound
  match Node.start settings drawn bound, listening with
  | .ok (node, _), .ok (server, _) =>
    let host ← Host.start node
    discard (host.serve server).asTask
    let interrupt ← (← Std.Async.Signal.Waiter.mk .sigint false).wait
    let code ← report o
    discard interrupt.block
    host.act Node.shutdown
    return code
  | _, _ => report o

def execute (request : Option Request) : IO UInt32 := do
  let drawn ← drawKeypair
  let contents ← match request with
    | some (.perform _ path) => readSettings path
    | _ => pure none
  match request with
  | some (.perform .run _) => runPeer contents drawn
  | _ =>
    if request.isNone then
      IO.eprintln (String.intercalate "\n" (help .program))
    report (outcome request (fun _ => contents) drawn .ok)

end PeerServices.CommandLine

def main (args : List String) : IO UInt32 :=
  PeerServices.CommandLine.execute (PeerServices.CommandLine.parse args)
