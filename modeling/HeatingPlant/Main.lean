import Std.Async.Signal
import Std.Async.TCP
import Std.Async.Timer
import Std.Sync.Mutex
import Std.Time
import HeatingPlant.CommandLine.Path
import HeatingPlant.CommandLine.Plan

/-!
# The program

The outermost layer: the command line, the file tree, the network, the clock and the signal to stop.

## Main definitions

* `Running` — the service that all threads share, and its journal
* `main` — the program

## Design notes

Everything that is decided is decided by the pure modules.  Threads share one service under a lock:
the timer steps it, and every connection hands over its bytes and sends what comes back.

Nothing is proved about this layer.  What it does to the file tree is rehearsed on a model of it,
with the same plan, the same journal and the same way to the journal's directory.
-/

namespace HeatingPlant.CommandLine

open Std.Async Std.Net

/-- A system error in words, with its number. -/
def systemText : IO.Error → String
  | .noFileOrDirectory _ code _ => s!"No such file or directory (os error {code})"
  | .alreadyExists _ code _ => s!"File exists (os error {code})"
  | .permissionDenied _ code _ => s!"Permission denied (os error {code})"
  | .inappropriateType _ code details => details.capitalize ++ s!" (os error {code})"
  | .resourceBusy code details => details.capitalize ++ s!" (os error {code})"
  | .otherError code details => details.capitalize ++ s!" (os error {code})"
  | e => toString e

/-- What a path to a settings file leads to. -/
def lookUp (path : String) : IO SettingsFile := do
  try return .bytes (← IO.FS.readBinFile path)
  catch
    | .noFileOrDirectory .. => return .missing
    | _ => return .unreadable

/-- The journal's file, created if need be with the directories on the way. -/
def openJournal (path : String) : IO IO.FS.Stream := do
  let directory := parentPath path
  unless directory.isEmpty do IO.FS.createDirAll directory
  return .ofHandle (← IO.FS.Handle.mk path .append)

/-- The present time. -/
def timeText : IO String := do
  let now ← Std.Time.Timestamp.now
  return (Std.Time.DateTime.ofTimestampWithZone now .UTC).toISO8601String

/-- The service that all threads share, and its journal. -/
structure Running where
  /-- What was decided at the start. -/
  launch : Launch
  /-- Where the journal goes. -/
  stream : IO.FS.Stream
  /-- The service. -/
  shared : Std.Mutex Service

namespace Running

/-- Notices written to the journal. -/
def tell (running : Running) (notices : List ServiceNotice) : IO Unit := do
  let lines := running.launch.lines (← timeText) notices
  unless lines.isEmpty do
    running.stream.putStr lines
    running.stream.flush

/-- One change of the shared service. -/
def change {α : Type} (running : Running) (act : Service → Service × α) : IO α :=
  running.shared.atomically do
    let (service, result) := act (← get)
    set service
    return result

/-- Bytes from a client, or the end of them, handed to its session: what to send, and whether the
session ended. -/
def feed (running : Running) (id : Nat) (bytes : Option ByteArray) : IO (ByteArray × Bool) := do
  let (sent, finished, notices) ← running.change fun service =>
    let service :=
      match bytes with
      | some bytes => service.receive id bytes.toList
      | none => service.finishInput id
    let progress := service.settle id
    let gone := (progress.service.find? id).isNone
    (progress.service, progress.sent, gone, progress.notices)
  running.tell notices
  return (⟨sent.toArray⟩, finished)

/-- A connection served until its session ends. -/
partial def serveClient (running : Running) (id : Nat) (client : TCP.Socket.Client) :
    Async Unit := do
  let received ← try client.recv? 4096 catch _ => pure none
  let (reply, finished) ← running.feed id received
  let delivered ←
    try
      unless reply.isEmpty do client.send reply
      pure true
    catch _ => pure false
  if finished then
    try client.shutdown catch _ => pure ()
  else if delivered then serveClient running id client
  else discard <| running.feed id none

/-- The address of a peer. -/
def peerOf (client : TCP.Socket.Client) : IO Endpoint := do
  match ← client.getPeerName with
  | .v4 address =>
    let part := address.addr.octets.get
    return ⟨.v4 (part 0) (part 1) (part 2) (part 3), address.port⟩
  | .v6 address => return ⟨.v6 address.addr.segments 0, address.port⟩

/-- Clients let in, or turned away, one after the other. -/
partial def acceptClients (running : Running) (server : TCP.Socket.Server) : Async Unit := do
  try
    let client ← server.accept
    let peer ← peerOf client
    let (id, notices) ← running.change fun service => service.connect peer
    running.tell notices
    match id with
    | some id => background (running.serveClient id client)
    | none => client.shutdown
  catch _ => sleep 50
  acceptClients running server

/-- The timer: a step at every deadline, until the service stops.  A deadline that was missed by
more than a tick is given up. -/
partial def keepTime (running : Running) (interval deadline : Nat) : Async Unit := do
  let now ← IO.monoMsNow
  if now < deadline then sleep (.ofNat (min 50 (deadline - now)))
  let stopping ← running.change fun service => (service, service.stopping)
  if stopping then return
  else if (← IO.monoMsNow) < deadline then keepTime running interval deadline
  else
    let notices ← running.change Service.tick
    running.tell notices
    let next := deadline + interval
    let now ← IO.monoMsNow
    keepTime running interval (if next < now then now + interval else next)

/-- The service from the moment it listens to its end. -/
def run (running : Running) (server : TCP.Socket.Server) : IO Unit := do
  let interval := running.launch.settings.timing.tickInterval.toNat
  running.tell running.launch.opening
  let stopSignal ← Signal.Waiter.mk .sigint false
  let signalled ← stopSignal.wait
  discard <| (running.acceptClients server).asTask
  discard <| (running.keepTime interval ((← IO.monoMsNow) + interval)).asTask
  discard <| signalled.block
  let notices ← running.change running.launch.closing
  running.tell notices

end Running

/-- An endpoint for the network. -/
def socketAddress (endpoint : Endpoint) : SocketAddress :=
  match endpoint.host with
  | .v4 a b c d => .v4 ⟨.ofParts a b c d, endpoint.port⟩
  | .v6 groups _ => .v6 ⟨⟨groups⟩, endpoint.port⟩

/-- A socket that listens at an endpoint. -/
def listenAt (endpoint : Endpoint) : IO TCP.Socket.Server := do
  let server ← TCP.Socket.Server.mk
  server.bind (socketAddress endpoint)
  server.listen 128
  return server

/-- The service started and run to its end, or why it did not start. -/
def Running.start (running : Running) : IO (Option StartError) := do
  let listen := running.launch.settings.server.listen
  match ← (listenAt listen).toBaseIO with
  | .ok server =>
    running.run server
    return none
  | .error e => return some (.bind listen (systemText e))

/-- The program once its options and settings are known to be good. -/
def Launch.execute (launch : Launch) : IO Report := do
  match Service.start? launch.settings with
  | .error e => return .failure e.message
  | .ok service =>
    let stream ←
      match launch.settings.common.logFile with
      | some path => openJournal path
      | none => IO.getStderr
    let running : Running := ⟨launch, stream, ← Std.Mutex.new service⟩
    running.tell launch.greeting
    match ← running.start with
    | none => return .quiet
    | some e =>
      running.tell [.failed e.message]
      return .failure e.message

/-- What the options of the command line come to. -/
def Invocation.execute (invocation : Invocation) : IO Report := do
  let file ←
    match invocation with
    | .run options => options.config.mapM lookUp
    | _ => pure none
  match invocation.plan fun _ => file.getD .missing with
  | .finish report => return report
  | .launch launch => launch.execute

end HeatingPlant.CommandLine

open HeatingPlant.CommandLine in
/-- The program: its exit code is that of its report. -/
def main (words : List String) : IO UInt32 := do
  let report ←
    try (parse (← IO.getEnv "LOG_FILE") words).execute
    catch e => pure (.failure (systemText e))
  IO.print report.output
  if let some message := report.message then IO.eprintln message
  return report.code.toUInt32
