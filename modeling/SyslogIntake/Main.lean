import Std.Async.Signal
import Std.Async.System
import Std.Async.TCP
import Std.Async.Timer
import Std.Sync.CancellationToken
import Std.Sync.Mutex
import SyslogIntake.Startup.Daemon

/-!
# The program on a real machine

Files, variables, sockets and the clock are handed to the definitions of the library, and
what these say is carried out.  Every connection has a task of its own, which says what it
hears and when; the tasks take turns at the program that they share.  There is no TLS library
here, so an acceptor cannot be set up.
-/

namespace SyslogIntake
namespace Program

open Std.Async

def octetsOf (bytes : ByteArray) : Octets :=
  bytes.toList

/-- The tree with what is at a path. -/
def look (path : String) (tree : FileTree) : IO FileTree := do
  try
    return tree.addFile path (octetsOf (← IO.FS.readBinFile path))
  catch
    | .inappropriateType .. => return tree.addFolder path
    | _ => return tree

/-- The tree with an output at a path, if it can be opened. -/
def lookAtOutput (path : String) (tree : FileTree) : IO FileTree := do
  try
    let _ ← IO.FS.Handle.mk path .append
    return tree.addFile path []
  catch
    | .inappropriateType .. => return tree.addFolder path
    | _ => return tree

/-- The paths that settings read from. -/
def pathsOf (settings : Settings) : List String :=
  match settings.tls with
  | none => []
  | some tls => [tls.keyFile, tls.certFile] ++ tls.caFile.toList

def environment : IO (List Variable) := do
  let found ← Std.Internal.UV.System.osEnviron
  return found.toList.map fun (name, text) => ⟨name, text⟩

/-- What is said about a TLS library that is not there. -/
def noTls : String := "TLS is not available"

/-- An endpoint as an address of the operating system. -/
def addressOf : Endpoint → Std.Net.SocketAddress
  | .v4 ⟨a, b, c, d⟩ port => .v4 ⟨.ofParts a b c d, port⟩
  | .v6 address port _ =>
      let group := fun i => address.groups.getD i 0
      .v6
        ⟨.ofParts (group 0) (group 1) (group 2) (group 3) (group 4) (group 5) (group 6) (group 7),
          port⟩

/-- An address of the operating system as an endpoint. -/
def endpointOf : Std.Net.SocketAddress → Endpoint
  | .v4 address =>
      let octet := fun i => address.addr.octets.toList.getD i 0
      .v4 ⟨octet 0, octet 1, octet 2, octet 3⟩ address.port
  | .v6 address =>
      match Ipv6.ofGroups? address.addr.segments.toList with
      | some found => .v6 found address.port 0
      | none => .v4 ⟨0, 0, 0, 0⟩ address.port

/-- The refusal that an error says; sockets count their errors down from zero. -/
def refusalOf : IO.Error → Option Refusal
  | .unsupportedOperation code _ | .invalidArgument _ code _ | .resourceBusy code _
  | .permissionDenied _ code _ => Refusal.ofNumber? (0 - code).toNat
  | _ => none

def listenAt (endpoint : Endpoint) (server : TCP.Socket.Server) : IO (Except String Endpoint) := do
  try
    server.bind (addressOf endpoint)
    server.listen 1024
    return .ok (endpointOf (← server.getSockName))
  catch e =>
    return .error (((refusalOf e).map Refusal.report).getD (toString e))

/-- Write lines of the journal. -/
def tell (logLevel : String) (entries : List Entry) : IO Unit := do
  let out ← IO.getStderr
  for entry in entries.filter (Entry.isKeptAt logLevel) do
    out.putStrLn entry.shown
  out.flush

def finish (exit : Exit) : IO UInt32 := do
  match exit.report with
  | none => pure ()
  | some report => (← IO.getStderr).putStr report
  return UInt32.ofNat exit.status

/-- What the tasks of a program share. -/
structure Shared where
  daemon : Std.Mutex Daemon
  closing : Std.CancellationToken
  ending : Std.CancellationToken

namespace Shared

/-- Put octets at the end of a file. -/
def append (path : String) (added : Octets) : IO Unit := do
  if !added.isEmpty then
    let handle ← IO.FS.Handle.mk path .append
    handle.write ⟨added.toArray⟩
    handle.flush

/-- Carry out what a program has to say and to write. -/
def carryOut (daemon : Daemon) : IO Daemon := do
  let (load, daemon) := daemon.carryOff
  tell daemon.settings.logLevel load.journal
  try
    append daemon.sink.path load.output
    return daemon
  catch e =>
    let (load, daemon) := (daemon.loseOutput (toString e)).carryOff
    tell daemon.settings.logLevel load.journal
    return daemon

/-- Change a program, and carry out what comes of it. -/
def change {α : Type} (shared : Shared) (next : Daemon → α × Daemon) : IO α :=
  shared.daemon.atomically do
    let (result, daemon) := next (← get)
    set (← carryOut daemon)
    return result

def view {α : Type} (shared : Shared) (f : Daemon → α) : IO α :=
  shared.daemon.atomically do
    return f (← get)

/-- Hear from a client; nobody listens beyond the deadline, or when the program ends. -/
def hear (shared : Shared) (client : TCP.Socket.Client) (left : Option Nat) : IO Heard := do
  try
    let heard : Async Heard := do
      let mut events : Array (Selectable Heard) := #[
        .case (client.recvSelector 4096) fun bytes => return match bytes with
          | none => .ended
          | some bytes => .octets (octetsOf bytes),
        .case shared.ending.selector fun _ => return .nothing]
      if let some milliseconds := left then
        events := events.push
          (.case (← Selector.sleep (.ofNat milliseconds)) fun _ => return .nothing)
      Selectable.one events
    heard.block
  catch e =>
    return .fault (toString e)

/-- Go on with a conversation that began at some time until it is over. -/
partial def converse (shared : Shared) (client : TCP.Socket.Client) (begun : Nat)
    (c : Conversation) : IO Unit := do
  let now ← IO.monoMsNow
  let heard ← shared.hear client (c.deadline.map fun due => begun + due - now)
  let time := (← IO.monoMsNow) - begun
  match ← shared.change fun daemon => daemon.hear time heard c with
  | some c => shared.converse client begun c
  | none => pure ()

/-- Take a client in, and talk to it in a task of its own. -/
def takeIn (shared : Shared) (client : TCP.Socket.Client) : IO Unit := do
  let peer := endpointOf (← client.getPeerName)
  let localEnd := endpointOf (← client.getSockName)
  match ← shared.change fun daemon => daemon.arrive peer localEnd with
  | none => pure ()
  | some c =>
      let _ ← IO.asTask (shared.converse client (← IO.monoMsNow) c) .dedicated

/-- Accept clients until the program is interrupted. -/
partial def acceptAll (shared : Shared) (server : TCP.Socket.Server) : IO Unit := do
  let arrived : Async (Option TCP.Socket.Client) :=
    Selectable.one #[
      .case server.acceptSelector fun client => return some client,
      .case shared.closing.selector fun _ => return none]
  match ← arrived.block with
  | none => pure ()
  | some client =>
      try
        shared.takeIn client
      catch _ =>
        pure ()
      shared.acceptAll server

/-- Wait until the program has no connections, or for so long. -/
partial def waitIdle (shared : Shared) (limit : Nat) : IO Unit := do
  if !(← shared.view Daemon.isIdle) && (← IO.monoMsNow) < limit then
    IO.sleep 10
    shared.waitIdle limit

end Shared

/-- Run a program that is up until it is interrupted. -/
def work (daemon : Daemon) (server : TCP.Socket.Server) : IO UInt32 := do
  let shared : Shared :=
    ⟨← Std.Mutex.new daemon.carryOff.2, ← Std.CancellationToken.new, ← Std.CancellationToken.new⟩
  let waiter ← Signal.Waiter.mk .sigint false
  let accepting ← IO.asTask (shared.acceptAll server) .dedicated
  let _ ← (← waiter.wait).block
  shared.change fun daemon => ((), daemon.interrupt)
  shared.closing.cancel
  let _ ← IO.wait accepting
  shared.waitIdle ((← IO.monoMsNow) + daemon.patience)
  shared.change fun daemon => ((), daemon.stop)
  shared.ending.cancel
  finish (← shared.view Daemon.exit)

/-- Start the program with a command line that was understood. -/
def begin (asked : CommandLine) : IO UInt32 := do
  let tree ← match asked.configFile with
    | none => pure FileTree.empty
    | some path => (Settings.filesOf path).foldlM (fun tree path => look path tree) .empty
  let host : Host :=
    { tree
      environment := ← environment
      understand := fun _ => .error noTls
      answers := { Tls.Answers.default with failures := [(.new, noTls)] }
      listen := .ok }
  match host.settings asked with
  | .error fault => finish (.ofFault fault)
  | .ok settings =>
      let tree ← (pathsOf settings).foldlM (fun tree path => look path tree) tree
      let tree ← lookAtOutput settings.output tree
      let server ← TCP.Socket.Server.mk
      let listening ← listenAt settings.listen server
      let (entries, launched) := { host with tree, listen := fun _ => listening }.start settings
      tell settings.logLevel entries
      match launched with
      | .running daemon => work daemon server
      | .stopped fault => finish (.ofFault fault)
      | .crashed => finish .crashed

def usage : String :=
  "Usage: " ++ name ++ String.join (Switch.all.map fun switch => " [--" ++ switch.name ++ " VALUE]")

end Program
end SyslogIntake

open SyslogIntake in
/-- Run the program. -/
def main (arguments : List String) : IO UInt32 := do
  match CommandLine.read arguments with
  | .ok asked => Program.begin asked
  | .error stop =>
      match stop with
      | .told .version => IO.println (Program.name ++ " " ++ Program.version)
      | .told .help => IO.println Program.usage
      | .misuse => (← IO.getStderr).putStrLn Program.usage
      Program.finish (.ofStop stop)
