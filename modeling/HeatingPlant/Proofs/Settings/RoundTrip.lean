import HeatingPlant.CommandLine.Plan
import HeatingPlant.Proofs.Settings.Fields
import HeatingPlant.Proofs.Settings.Soundness

/-!
# Settings read back

The document of valid settings says these settings, so that the program can be started again with
what it printed.

## Main definitions

* `NamesFit` — names and keys that need no quotes and differ
* `SettingsSection.Carries` — what reading a section makes of other settings
* `Options.Repeats` — a command line that chooses nothing but what another one chose

## Main statements

* `CommonSettings.along` and so on — each section consists of fields that read back
* `Settings.along_sections` — and valid settings of such sections
* `Settings.ofToml_toToml` — the document of valid settings says them
* `Options.Repeats.plan_eq` — what the program prints is printed again when it is the settings
  file
* `Settings.toToml_loads_back` — all of it

## Design notes

Of validity only the finite quantities are needed: what is not a number would be written without
its bits.  The choices of a command line are in what the program prints, so that making them again
changes nothing.
-/

namespace HeatingPlant

open Toml Codec

/-! ### Sections -/

/-- A section's name and its keys need no quotes, and no two keys are the same. -/
def NamesFit {α : Type} (name : String) (fields : List (Field α)) : Prop :=
  IsBareKey name ∧ (∀ field ∈ fields, IsBareKey field.key) ∧ (fields.map Field.key).Nodup

instance {α : Type} (name : String) (fields : List (Field α)) :
    Decidable (NamesFit name fields) :=
  inferInstanceAs (Decidable (_ ∧ _ ∧ _))

/-- The table of a section, with its name. -/
def SettingsSection.entry (settings : Settings) (part : SettingsSection) : String × Value :=
  (part.name, .table .header ((part.lines settings).map asPair))

/-- A document can give a section away, and reading its table makes `next` of the settings
`base`. -/
def SettingsSection.Carries (part : SettingsSection) (settings base next : Settings) : Prop :=
  (⟨part.name, part.lines settings⟩ : Toml.Section).WellFormed ∧
    part.read (part.entry settings).2 base = some next

/-- **A section whose fields read back puts its record in place.** -/
theorem SettingsSection.carries_of {α : Type} {name : String} {fields : List (Field α)}
    {strict : Bool} {defaults : α} {get : Settings → α} {put : α → Settings → Settings}
    {settings base : Settings}
    (h : Along (fun field => field.Carries (get settings)) fields defaults (get settings))
    (hnames : NamesFit name fields) :
    (SettingsSection.of name fields strict defaults get put).Carries settings base
      (put (get settings) base) := by
  obtain ⟨hname, hbare, hkeys⟩ := hnames
  refine ⟨wellFormed_writeRecord hname hbare hkeys h, ?_⟩
  have hread := readEntries_writeRecord hkeys strict h
  show (readEntries fields strict defaults _).map _ = _
  exact (congrArg _ hread).trans (Option.map_some ..)

theorem CommonSettings.along (common : CommonSettings) :
    Along (fun field => field.Carries common) CommonSettings.fields .reference common := by
  refine .cons (Field.carries_of (readsBack_level _) nofun)
    (.cons (Field.carries_of (readsBack_text _) nofun)
      (.cons (Field.carries_of (.optional fun y _ => readsBack_text y) fun hleft => ?_) (.nil _)))
  have hnone : common.logFile = none := eq_none_of_write hleft nofun
  rw [hnone]
  rfl

theorem ServerSettings.along (server : ServerSettings) :
    Along (fun field => field.Carries server) ServerSettings.fields .reference server := by
  refine .cons (Field.carries_of (readsBack_endpoint _) nofun)
    (.cons (Field.carries_of (.optional fun y _ => readsBack_word64 y) fun hleft => ?_) (.nil _))
  have hnone : server.maxClients = none := eq_none_of_write hleft nofun
  rw [hnone]
  rfl

theorem TimerSettings.along (timing : TimerSettings) :
    Along (fun field => field.Carries timing) TimerSettings.fields .reference timing :=
  .cons (Field.carries_of (readsBack_word64 _) nofun)
    (.cons (Field.carries_of (readsBack_word32 _) nofun) (.nil _))

namespace Settings

variable {settings : Settings}

theorem along_thermal (h : settings.Sound) :
    Along (fun field => field.Carries settings.thermal) ThermalParameters.fields .reference
      settings.thermal :=
  .cons (Field.carries_of (readsBack_quantity h.lossFactor.1) nofun)
    (.cons (Field.carries_of (readsBack_quantity h.maxPower.1) nofun)
      (.cons (Field.carries_of (readsBack_quantity h.thermalMass.1) nofun)
        (.cons (Field.carries_of (readsBack_quantity h.slewRate.1) nofun) (.nil _))))

theorem along_controller (h : settings.Sound) :
    Along (fun field => field.Carries settings.controller) Controller.fields .reference
      settings.controller :=
  .cons (Field.carries_of (readsBack_quantity h.deadband.1) nofun) (.nil _)

theorem along_startup (h : settings.Sound) :
    Along (fun field => field.Carries settings.startup) InitialConditions.fields .reference
      settings.startup := by
  have hinside : settings.startup.insideTemperature.isFinite = true :=
    Floating.isFinite_of_between (by decide) (by decide) h.insideTemperature.1 h.insideTemperature.2
  have hsetpoint : settings.startup.setpoint.isFinite = true :=
    Floating.isFinite_of_between (by decide) (by decide) h.setpoint.1 h.setpoint.2
  exact .cons (Field.carries_of (readsBack_quantity hinside) nofun)
    (.cons (Field.carries_of (readsBack_quantity h.outsideTemperature) nofun)
      (.cons (Field.carries_of (readsBack_quantity h.supplyTemperature) nofun)
        (.cons (Field.carries_of (readsBack_quantity hsetpoint) nofun)
          (.cons (Field.carries_of (readsBack_byte _) nofun)
            (.cons (Field.carries_of (readsBack_mode _) nofun) (.nil _))))))

theorem nodup_names : (sections.map SettingsSection.name).Nodup := by decide

/-- **Settings are their sections**, read over the reference settings one after the other. -/
theorem along_sections (h : settings.Sound) :
    Along (fun part => part.Carries settings) sections reference settings :=
  .cons (SettingsSection.carries_of settings.common.along (by decide))
    (.cons (SettingsSection.carries_of settings.server.along (by decide))
      (.cons (SettingsSection.carries_of settings.timing.along (by decide))
        (.cons (SettingsSection.carries_of (along_thermal h) (by decide))
          (.cons (SettingsSection.carries_of (along_controller h) (by decide))
            (.cons (SettingsSection.carries_of (along_startup h) (by decide))
              (.nil _))))))

/-- The document of valid settings has a table for each section. -/
theorem read_toToml (h : settings.Sound) :
    Toml.read settings.toToml = some (sections.map (·.entry settings)) := by
  have hparts :
    ∀ part ∈ sections.map fun part => (⟨part.name, part.lines settings⟩ : Toml.Section),
      part.WellFormed := by
    intro part hmem
    obtain ⟨origin, horigin, rfl⟩ := List.mem_map.mp hmem
    obtain ⟨x, y, hcarries⟩ := (along_sections h).exists_of_mem horigin
    exact hcarries.1
  have hdistinct :
    ((sections.map fun part => (⟨part.name, part.lines settings⟩ : Toml.Section)).map
      (·.name)).Nodup := by
    rw [List.map_map]
    exact nodup_names
  rw [toToml, Toml.read_write hparts hdistinct, List.map_map]
  rfl

/-- **The tables of valid settings say them.** -/
theorem ofTable?_entries (h : settings.Sound) :
    ofTable? (sections.map (·.entry settings)) = some settings := by
  rw [ofTable?, ← List.filterMap_eq_map]
  refine (along_sections h).foldlM_eq fun part hmem x y hcarries => ?_
  show readSection x (part.entry settings) = some y
  unfold readSection SettingsSection.entry
  dsimp only
  rw [find?_of_nodup nodup_names hmem]
  exact hcarries.2

/-- **The document of valid settings says them.** -/
theorem ofToml_toToml (h : settings.Valid) : ofToml settings.toToml = .ok settings := by
  rw [ofToml, read_toToml h.sound, Option.bind_some, ofTable?_entries h.sound]

/-- Checked settings are valid ones, unchanged. -/
theorem checked_eq_ok {result : Settings} :
    settings.checked = .ok result ↔ settings.Valid ∧ result = settings := by
  unfold checked Valid
  cases settings.defect? <;> simp [eq_comm]

theorem checked_of_valid (h : settings.Valid) : settings.checked = .ok settings :=
  checked_eq_ok.mpr ⟨h, rfl⟩

/-- The bytes of a text are read as this text. -/
theorem text_bytes_toUTF8 (text : String) : (SettingsFile.bytes text.toUTF8).text = .ok text := by
  have hread : String.fromUTF8? text.toUTF8 = some text := dif_pos text.isValidUTF8
  rw [SettingsFile.text, hread]

/-- A file with the document of valid settings leads to them. -/
theorem load_toToml (h : settings.Valid) :
    load (some (.bytes settings.toToml.toUTF8)) = .ok settings := by
  simp only [load, text_bytes_toUTF8, bind, Except.bind, ofToml_toToml h]
  exact checked_of_valid h

end Settings

/-! ### Starting again -/

namespace CommandLine

/-- A command line that chooses nothing for the settings but what another one chose. -/
structure Options.Repeats (again options : Options) : Prop where
  /-- Where to listen. -/
  listen : again.listen = none ∨ again.listen = options.listen
  /-- Milliseconds per tick. -/
  tickInterval : again.tickInterval = none ∨ again.tickInterval = options.tickInterval
  /-- The journal's file. -/
  logFile : again.logFile = none ∨ again.logFile = options.logFile

/-- Choices that were made change nothing when they are made again. -/
theorem Options.Repeats.apply_apply {again options : Options} (h : again.Repeats options)
    (settings : Settings) : again.apply (options.apply settings) = options.apply settings := by
  have hlisten : again.listen.getD (options.listen.getD settings.server.listen) =
      options.listen.getD settings.server.listen := by
    rcases h.listen with heq | heq <;> rw [heq]
    · rfl
    · cases options.listen <;> rfl
  have htick : again.tickInterval.getD (options.tickInterval.getD settings.timing.tickInterval) =
      options.tickInterval.getD settings.timing.tickInterval := by
    rcases h.tickInterval with heq | heq <;> rw [heq]
    · rfl
    · cases options.tickInterval <;> rfl
  have hlog : again.logFile.or (options.logFile.or settings.common.logFile) =
      options.logFile.or settings.common.logFile := by
    rcases h.logFile with heq | heq <;> rw [heq]
    · rfl
    · cases options.logFile <;> rfl
  simp only [Options.apply, hlisten, htick, hlog]

/-- A failure is told apart by its exit code. -/
theorem Report.failure_ne_printing (reason output : String) :
    failure reason ≠ printing output := by
  intro h
  have hcode : (1 : UInt8) = 0 := congrArg Report.code h
  exact absurd hcode (by decide)

/-- What is printed is the document of the settings that the choices make, which are valid. -/
theorem Options.plan_eq_printing {options : Options} {file : Option SettingsFile} {text : String}
    (h : options.plan file = .finish (.printing text)) (hprint : options.printConfig = true) :
    ∃ settings, (options.apply settings).Valid ∧ text = (options.apply settings).toToml := by
  unfold Options.plan at h
  cases hplan : (Settings.load file).bind fun settings => (options.apply settings).checked with
  | error e =>
      rw [hplan] at h
      exact absurd (Plan.finish.inj h) (Report.failure_ne_printing _ _)
  | ok result =>
      rw [hplan] at h
      dsimp only at h
      rw [if_pos hprint] at h
      cases hload : Settings.load file with
      | error e =>
          rw [hload] at hplan
          cases hplan
      | ok settings =>
          rw [hload] at hplan
          obtain ⟨hvalid, rfl⟩ := Settings.checked_eq_ok.mp hplan
          exact ⟨settings, hvalid, (congrArg Report.output (Plan.finish.inj h)).symm⟩

theorem Options.plan_of_load {options : Options} {file : Option SettingsFile} {settings : Settings}
    (hload : Settings.load file = .ok settings) (hvalid : (options.apply settings).Valid)
    (hprint : options.printConfig = true) :
    options.plan file = .finish (.printing (options.apply settings).toToml) := by
  have hchecked : (Settings.load file).bind (fun settings => (options.apply settings).checked) =
      .ok (options.apply settings) := by
    rw [hload]
    exact Settings.checked_of_valid hvalid
  rw [Options.plan, hchecked]
  exact if_pos hprint

/-- **What was printed is printed again** when it is the settings file, with the same choices on the
command line or without them. -/
theorem Options.Repeats.plan_eq {options again : Options} {file : Option SettingsFile}
    {text : String} (h : again.Repeats options) (hprint : options.printConfig = true)
    (hagain : again.printConfig = true) (hplan : options.plan file = .finish (.printing text)) :
    again.plan (some (.bytes text.toUTF8)) = .finish (.printing text) := by
  obtain ⟨settings, hvalid, rfl⟩ := Options.plan_eq_printing hplan hprint
  have hsame := h.apply_apply settings
  have hload := Settings.load_toToml hvalid
  rw [Options.plan_of_load hload (hsame.symm ▸ hvalid) hagain, hsame]

end CommandLine

/-- **Valid settings survive being written and read.**  Their document says them, in every part,
and they are found valid again; so do the bytes of a file with it, and written again it is the
same document.  What the program prints of its settings, for any choices and any file, is a file
for which it prints the same, with these choices or without. -/
theorem Settings.toToml_loads_back :
    (∀ settings : Settings, settings.Valid →
      ofToml settings.toToml = .ok settings ∧ settings.checked = .ok settings ∧
        load (some (.bytes settings.toToml.toUTF8)) = .ok settings ∧
          (ofToml settings.toToml).map toToml = .ok settings.toToml) ∧
      ∀ (options again : CommandLine.Options) (file : Option SettingsFile) (text : String),
        options.printConfig = true → again.printConfig = true → again.Repeats options →
          options.plan file = .finish (.printing text) →
            again.plan (some (.bytes text.toUTF8)) = .finish (.printing text) := by
  constructor
  · intro settings h
    have hread := ofToml_toToml h
    refine ⟨hread, checked_of_valid h, load_toToml h, ?_⟩
    rw [hread]
    rfl
  · intro options again file text hprint hagain hrepeats hplan
    exact hrepeats.plan_eq hprint hagain hplan

/-- A name with both kinds of quotes, a backslash and several lines, a journal file with a control
character, an address with a scope, a limit beyond the signed numbers, negative zero outdoors and
the least float at all for the supply: this is said by its document, and printed again. -/
theorem Settings.toToml_loads_back_quoted :
    let settings : Settings :=
      { reference with
        common := ⟨.trace, "a \"b\" 'c' \\\n\t\"\"\" d", some "C:\\log\x01\x7f"⟩
        server :=
          ⟨⟨.v6 #v[0xfe80, 0, 0, 1, 0, 0, 0, 0xab] 3, 502⟩, some 18446744073709551615⟩
        startup := { InitialConditions.reference with
          outsideTemperature := -0.0, supplyTemperature := Float.ofBits 1, mode := .manual } }
    let options : CommandLine.Options := { printConfig := true, tickInterval := some 250 }
    (settings.Valid ∧ ofToml settings.toToml = .ok settings) ∧
      options.plan (some (.bytes settings.toToml.toUTF8)) =
          .finish (.printing (options.apply settings).toToml) ∧
        options.plan (some (.bytes (options.apply settings).toToml.toUTF8)) =
          .finish (.printing (options.apply settings).toToml) := by
  intro settings options
  have hvalid : settings.Valid := by decide
  have hplan : options.plan (some (.bytes settings.toToml.toUTF8)) =
      .finish (.printing (options.apply settings).toToml) :=
    CommandLine.Options.plan_of_load (load_toToml hvalid) (by decide) rfl
  have hrepeats : options.Repeats options := ⟨.inr rfl, .inr rfl, .inr rfl⟩
  exact ⟨⟨hvalid, (toToml_loads_back.1 settings hvalid).1⟩, hplan,
    toToml_loads_back.2 options options _ _ rfl rfl hrepeats hplan⟩

end HeatingPlant
