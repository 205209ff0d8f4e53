import HeatingPlant.Settings.Check
import HeatingPlant.Settings.Fields
import HeatingPlant.Toml.Reader

/-!
# Settings as a document

The document that says settings, section by section.

## Main definitions

* `CommonSettings.fields` and so on — the keys of each section
* `SettingsSection`, `Settings.sections` — the sections
* `Settings.ofTable?`, `Settings.ofToml` — settings from a document
* `Settings.toToml` — the document of settings

## Design notes

One list of fields serves both ways.  A document overlays the reference settings with what it says.
The common section is shared with other services, so that it may hold keys that mean nothing here;
the other sections, and the document itself, may not.
-/

namespace HeatingPlant

open Toml

/-- The keys of the common section. -/
def CommonSettings.fields : List (Field CommonSettings) :=
  [.of "log_level" .level logLevel fun x s => { s with logLevel := x },
    .of "service_name" .text serviceName fun x s => { s with serviceName := x },
    .of "log_file" (.optional .text) logFile fun x s => { s with logFile := x }]

/-- The keys of the server section. -/
def ServerSettings.fields : List (Field ServerSettings) :=
  [.of "listen" .endpoint listen fun x s => { s with listen := x },
    .of "max_clients" (.optional .word64) maxClients fun x s => { s with maxClients := x }]

/-- The keys of the timer section. -/
def TimerSettings.fields : List (Field TimerSettings) :=
  [.of "tick_interval_ms" .word64 tickInterval fun x s => { s with tickInterval := x },
    .of "status_log_every" .word32 reportEvery fun x s => { s with reportEvery := x }]

/-- The keys of the building's section. -/
def ThermalParameters.fields : List (Field ThermalParameters) :=
  [.of "loss_factor" .quantity lossFactor fun x s => { s with lossFactor := x },
    .of "max_power_kw" .quantity maxPower fun x s => { s with maxPower := x },
    .of "thermal_mass" .quantity thermalMass fun x s => { s with thermalMass := x },
    .of "slew_rate" .quantity slewRate fun x s => { s with slewRate := x }]

/-- The keys of the controller's section. -/
def Controller.fields : List (Field Controller) :=
  [.of "deadband" .quantity deadband fun x s => { s with deadband := x }]

/-- The keys of the startup section. -/
def InitialConditions.fields : List (Field InitialConditions) :=
  [.of "inside_temp" .quantity insideTemperature fun x s => { s with insideTemperature := x },
    .of "outside_temp" .quantity outsideTemperature fun x s => { s with outsideTemperature := x },
    .of "supply_temp" .quantity supplyTemperature fun x s => { s with supplyTemperature := x },
    .of "setpoint" .quantity setpoint fun x s => { s with setpoint := x },
    .of "valve" .byte valve fun x s => { s with valve := x },
    .of "mode" .mode mode fun x s => { s with mode := x }]

/-- A section of settings. -/
structure SettingsSection where
  /-- Its name. -/
  name : String
  /-- The settings with this section as a document gives it. -/
  read : Value → Settings → Option Settings
  /-- The lines of this section. -/
  lines : Settings → List (String × Scalar)

/-- A section that holds the fields of one record. -/
def SettingsSection.of {α : Type} (name : String) (fields : List (Field α)) (strict : Bool)
    (defaults : α) (get : Settings → α) (put : α → Settings → Settings) :
    SettingsSection where
  name := name
  read value settings := (readRecord fields strict defaults value).map fun part => put part settings
  lines settings := writeRecord fields (get settings)

namespace Settings

/-- The sections in order. -/
def sections : List SettingsSection :=
  [.of "shared" CommonSettings.fields false .reference common fun x s => { s with common := x },
    .of "server" ServerSettings.fields true .reference server fun x s => { s with server := x },
    .of "simulation" TimerSettings.fields true .reference timing fun x s => { s with timing := x },
    .of "physics" ThermalParameters.fields true .reference thermal
      fun x s => { s with thermal := x },
    .of "controller" Controller.fields true .reference controller
      fun x s => { s with controller := x },
    .of "initial" InitialConditions.fields true .reference startup
      fun x s => { s with startup := x }]

/-- One section of a document read into settings. -/
def readSection (settings : Settings) (entry : String × Value) : Option Settings :=
  match sections.find? (fun part => part.name = entry.1) with
  | some part => part.read entry.2 settings
  | none => none

/-- The settings that a document's table says, over the reference settings. -/
def ofTable? (table : Entries) : Option Settings := table.foldlM readSection reference

/-- The settings that a document says, valid or not. -/
def ofToml (document : String) : Except SettingsError Settings :=
  match (Toml.read document).bind ofTable? with
  | some settings => .ok settings
  | none => .error .unreadable

/-- The document that says the settings. -/
def toToml (settings : Settings) : String :=
  Toml.write (sections.map fun part => ⟨part.name, part.lines settings⟩)

end Settings

/-- The common section that a document of its own says. -/
def CommonSettings.ofToml (document : String) : Except SettingsError CommonSettings :=
  match (Toml.read document).bind (readEntries CommonSettings.fields false .reference) with
  | some common => .ok common
  | none => .error .unreadable

/-- What a path to a settings file leads to. -/
inductive SettingsFile where
  /-- Nothing. -/
  | missing
  /-- Something that is not a file of bytes. -/
  | unreadable
  /-- A file. -/
  | bytes (content : ByteArray)

/-- The text of a settings file. -/
def SettingsFile.text : SettingsFile → Except SettingsError String
  | missing => .error .notFound
  | unreadable => .error .unreadable
  | bytes content =>
    match String.fromUTF8? content with
    | some text => .ok text
    | none => .error .unreadable

/-- The settings that a file says, or the reference settings if there is none, provided that they
are valid. -/
def Settings.load : Option SettingsFile → Except SettingsError Settings
  | none => reference.checked
  | some file => do (← ofToml (← file.text)).checked

end HeatingPlant
