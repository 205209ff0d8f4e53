import HeatingPlant.CommandLine.Options
import HeatingPlant.Journal.Line
import HeatingPlant.Service
import HeatingPlant.Settings.Document

/-!
# From options to a plan

What the program does for the options it was given and the settings file it found.

## Main definitions

* `Options.apply` — settings with the choices of the command line over them
* `Report` — how the program ends
* `Plan`, `plan` — to end at once, or to start the service
* `Launch` — everything that is decided when the service starts
* `Launch.greeting`, `Launch.opening`, `Launch.closing` — what there is to tell on the way
* `Launch.lines` — notices as the journal takes them

## Design notes

The settings of the file must be valid on their own, and again with the choices of the command line
over them.
-/

namespace HeatingPlant.CommandLine

/-- The settings with the choices of the command line over them. -/
def Options.apply (options : Options) (settings : Settings) : Settings :=
  { settings with
    server := { settings.server with listen := options.listen.getD settings.server.listen }
    timing :=
      { settings.timing with
        tickInterval := options.tickInterval.getD settings.timing.tickInterval }
    common := { settings.common with logFile := options.logFile.or settings.common.logFile } }

/-- How the program ends. -/
structure Report where
  /-- Its exit code. -/
  code : UInt8
  /-- What it prints. -/
  output : String
  /-- Its last words on standard error. -/
  message : Option String
  deriving DecidableEq, Repr

namespace Report

/-- An end with nothing to say. -/
def quiet : Report := ⟨0, "", none⟩

/-- An end that prints something. -/
def printing (output : String) : Report := ⟨0, output, none⟩

/-- An end on a failure. -/
def failure (reason : String) : Report := ⟨1, "", some (programName ++ ": " ++ reason)⟩

end Report

/-- How the program is used. -/
def helpText : String :=
  "Simulated heating-plant PLC with a Modbus/TCP register server\n\n" ++
  "Usage: " ++ programName ++ " [OPTIONS]\n\n" ++
  "Options:\n" ++
  "  -c, --config <FILE>    Settings file; built-in settings when absent\n" ++
  "  -l, --listen <ADDR>    Where to listen\n" ++
  "      --tick-ms <MS>     Milliseconds per tick\n" ++
  "  -v, --verbose          Log more\n" ++
  "      --json             Log in JSON\n" ++
  "      --log-file <FILE>  Append the log to this file [env: LOG_FILE]\n" ++
  "      --print-config     Print the effective settings and exit\n" ++
  "  -h, --help             Print this text\n" ++
  "  -V, --version          Print the version\n"

/-- Everything that is decided when the service starts. -/
structure Launch where
  /-- The effective settings, which are valid. -/
  settings : Settings
  /-- The settings file that was named. -/
  config : Option String
  /-- Least urgent notices that the journal takes. -/
  level : Level
  /-- Whether the journal is written as JSON. -/
  json : Bool
  deriving DecidableEq, Repr

namespace Launch

/-- The notices before the service listens. -/
def greeting (launch : Launch) : List ServiceNotice :=
  [.starting launch.settings.common.serviceName, .settingsFrom launch.config,
    .startup launch.settings.startup]

/-- The notices as soon as it listens. -/
def opening (launch : Launch) : List ServiceNotice :=
  [.listening launch.settings.server.listen, .waiting, .timerStarted launch.settings.timing]

/-- The service shut down because it was interrupted, and the notices from there to the end. -/
def closing (launch : Launch) (service : Service) : Service × List ServiceNotice :=
  let (service, notices) := service.shutDown
  (service, [.interrupted] ++ notices ++
    [.timerStopped service.timer.steps,
      .finished launch.settings.common.serviceName service.plant])

/-- The lines that the journal takes of some notices. -/
def lines (launch : Launch) (time : String) (notices : List ServiceNotice) : String :=
  journalLines launch.level launch.json time (notices.map ServiceNotice.entry)

end Launch

/-- What the program does. -/
inductive Plan where
  /-- It ends at once. -/
  | finish (report : Report)
  /-- It starts the service. -/
  | launch (launch : Launch)
  deriving DecidableEq, Repr

/-- What the program does for its options and the settings file that they name. -/
def Options.plan (options : Options) (file : Option SettingsFile) : Plan :=
  match (Settings.load file).bind fun settings => (options.apply settings).checked with
  | .error e => .finish (.failure e.message)
  | .ok settings =>
    if options.printConfig then .finish (.printing settings.toToml)
    else
      .launch
        { settings := settings
          config := options.config
          level := if options.verbose then .debug else settings.common.logLevel
          json := options.json }

/-- What the program does, once the settings file that the options name has been looked for. -/
def Invocation.plan (find : String → SettingsFile) : Invocation → Plan
  | .misuse => .finish ⟨2, "", none⟩
  | .help => .finish (.printing helpText)
  | .version => .finish (.printing (programName ++ " " ++ programVersion ++ "\n"))
  | .run options => options.plan (options.config.map find)

end HeatingPlant.CommandLine
