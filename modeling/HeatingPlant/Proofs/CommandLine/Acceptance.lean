import HeatingPlant.Proofs.Settings.Overlay

/-!
# Which settings the program goes on with

The program looks at its settings twice: at those of the file, or the reference settings without
one, and at what the command line makes of them.  It goes on if it finds no defect either time,
and then with the latter.

## Main definitions

* `Settings.said` — what a settings file says, valid or not
* `Plan.PastSettings` — the program prints its settings or starts
* `Options.goOn` — what it does with settings that it accepts

## Main statements

* `Options.plan_of_said` — the plan, from the first defect or the settings without one
* `Options.pastSettings_iff` — the program goes on exactly if both settings are valid
* `accepts_iff_both_valid` — the same for the words of a command line, with what it goes on with

## Design notes

That the effective settings are valid is not enough.  What a file says must make sense by itself,
whatever the command line has to say about it: `override_rescues_nothing` is a file with too short
a tick, and a command line with a longer one, that are refused together.  As long as files are
valid by themselves, only the effective settings count.
-/

namespace HeatingPlant

open Toml

/-- The settings that a file says, valid or not, or the reference settings if there is none. -/
def Settings.said : Option SettingsFile → Except SettingsError Settings
  | none => .ok reference
  | some file => file.text.bind ofToml

theorem Settings.said_bytes (text : String) :
    said (some (.bytes text.toUTF8)) = ofToml text := by
  rw [said, text_bytes_toUTF8]
  rfl

theorem Settings.checked_of_defect {settings : Settings} {defect : Defect}
    (h : settings.defect? = some defect) : settings.checked = .error (.invalid defect) := by
  rw [checked, h]

theorem Settings.load_eq (file : Option SettingsFile) : load file = (said file).bind checked := by
  cases file with
  | none => rfl
  | some file =>
      show (file.text.bind fun text => (ofToml text).bind checked) =
        (file.text.bind ofToml).bind checked
      cases file.text <;> rfl

namespace CommandLine

variable {options : Options} {file : Option SettingsFile} {settings : Settings}

/-- The program gets past its settings: it prints them, or starts. -/
def Plan.PastSettings : Plan → Prop
  | .finish report => report.code = 0
  | .launch _ => True

/-- What the program does with settings that it accepts. -/
def Options.goOn (options : Options) (settings : Settings) : Plan :=
  if options.printConfig then .finish (.printing settings.toToml)
  else
    .launch
      { settings := settings
        config := options.config
        level := if options.verbose then .debug else settings.common.logLevel
        json := options.json }

theorem Options.goOn_of_printConfig (h : options.printConfig = true) (settings : Settings) :
    options.goOn settings = .finish (.printing settings.toToml) :=
  if_pos h

theorem Options.pastSettings_goOn (options : Options) (settings : Settings) :
    (options.goOn settings).PastSettings := by
  unfold goOn
  split
  · exact rfl
  · trivial

/-- **The first defect decides**: one of the file's settings, then one of the effective ones.
Without any the program goes on with the effective settings. -/
theorem Options.plan_of_said (h : Settings.said file = .ok settings) :
    options.plan file =
      match settings.defect?.or (options.apply settings).defect? with
      | some defect => .finish (.failure (SettingsError.invalid defect).message)
      | none => options.goOn (options.apply settings) := by
  have hload : Settings.load file = settings.checked := by
    rw [Settings.load_eq, h]
    rfl
  rw [Options.plan, hload]
  cases hfirst : settings.defect? with
  | some defect =>
      rw [Settings.checked_of_defect hfirst]
      rfl
  | none =>
      have hmerged : settings.checked.bind (fun settings => (options.apply settings).checked) =
          (options.apply settings).checked := by
        rw [Settings.checked_of_valid hfirst]
        rfl
      rw [hmerged]
      cases hsecond : (options.apply settings).defect? with
      | some defect =>
          rw [Settings.checked_of_defect hsecond]
          rfl
      | none =>
          rw [Settings.checked_of_valid hsecond]
          rfl

theorem Options.plan_of_valid (h : Settings.said file = .ok settings) (hvalid : settings.Valid)
    (heffective : (options.apply settings).Valid) :
    options.plan file = options.goOn (options.apply settings) := by
  rw [plan_of_said h, hvalid, heffective]
  rfl

/-- **The program goes on exactly if both settings are valid.** -/
theorem Options.pastSettings_iff (h : Settings.said file = .ok settings) :
    (options.plan file).PastSettings ↔ settings.Valid ∧ (options.apply settings).Valid := by
  have hnone : settings.Valid ∧ (options.apply settings).Valid ↔
      settings.defect?.or (options.apply settings).defect? = none := Option.or_eq_none_iff.symm
  rw [plan_of_said h, hnone]
  cases settings.defect?.or (options.apply settings).defect? with
  | some defect =>
      refine iff_of_false ?_ nofun
      show ¬(1 : UInt8) = 0
      decide
  | none => exact iff_of_true (options.pastSettings_goOn _) rfl

/-- The choices that the program runs with are those of its words, and the environment's journal
file if they name none. -/
theorem parse_eq_run {logFile : Option String} {words : List String}
    (h : parse logFile words = .run options) :
    ∃ given, parseFrom {} (words.map (·.toList)) = .run given ∧
      options = { given with logFile := given.logFile.or logFile } := by
  unfold parse at h
  cases hgiven : parseFrom {} (words.map (·.toList)) with
  | run given =>
      refine ⟨given, rfl, ?_⟩
      rw [hgiven] at h
      obtain ⟨config, listen, tickInterval, verbose, json, chosen, printConfig⟩ := given
      cases chosen with
      | some path => exact (Invocation.run.inj h).symm
      | none =>
          cases logFile with
          | none => exact (Invocation.run.inj h).symm
          | some path =>
              by_cases hempty : path = ""
              · simp [Options.withEnvironment, path?, hempty] at h
              · simpa [Options.withEnvironment, path?, hempty, eq_comm] using h
  | help => rw [hgiven] at h; cases h
  | version => rw [hgiven] at h; cases h
  | misuse => rw [hgiven] at h; cases h

theorem plan_of_parse {logFile : Option String} {words : List String}
    (h : parse logFile words = .run options) (find : String → SettingsFile) :
    (parse logFile words).plan find = options.plan (options.config.map find) := by
  rw [h]
  rfl

/-- **The program judges the file by itself and then the effective settings.**  For every file
that says settings, or none, and for all words of a command line and every journal file of the
environment: the program gets past its settings exactly if those of the file and the effective
ones are valid, and then prints or starts with the effective ones; else it names the first defect.
When the settings of two files are valid by themselves, two command lines that make the same
effective settings of them are accepted or refused alike, and print the same. -/
theorem accepts_iff_both_valid :
    (∀ (logFile : Option String) (words : List String) (find : String → SettingsFile)
        (options : Options) (settings : Settings),
      parse logFile words = .run options →
      Settings.said (options.config.map find) = .ok settings →
        (∃ given, parseFrom {} (words.map (·.toList)) = .run given ∧
          options = { given with logFile := given.logFile.or logFile }) ∧
        (((parse logFile words).plan find).PastSettings ↔
          settings.Valid ∧ (options.apply settings).Valid) ∧
        (((parse logFile words).plan find).PastSettings →
          (parse logFile words).plan find = options.goOn (options.apply settings)) ∧
        (¬((parse logFile words).plan find).PastSettings →
          ∃ defect, settings.defect?.or (options.apply settings).defect? = some defect ∧
            (parse logFile words).plan find =
              .finish (.failure (SettingsError.invalid defect).message))) ∧
      ∀ (one other : Options) (file file' : Option SettingsFile) (settings settings' : Settings),
        Settings.said file = .ok settings → Settings.said file' = .ok settings' →
        settings.Valid → settings'.Valid → one.apply settings = other.apply settings' →
          ((one.plan file).PastSettings ↔ (other.plan file').PastSettings) ∧
            (one.printConfig = true → other.printConfig = true →
              one.plan file = other.plan file') := by
  refine ⟨fun logFile words find options settings hparse hsaid => ?_,
    fun one other file file' settings settings' hsaid hsaid' hvalid hvalid' heffective =>
      ⟨?_, ?_⟩⟩
  · rw [plan_of_parse hparse]
    have haccepts : (options.plan (options.config.map find)).PastSettings ↔ _ :=
      Options.pastSettings_iff hsaid
    refine ⟨parse_eq_run hparse, haccepts, fun hpast => ?_, fun hrefused => ?_⟩
    · obtain ⟨hvalid, heffective⟩ := haccepts.mp hpast
      exact Options.plan_of_valid hsaid hvalid heffective
    · rw [Options.plan_of_said hsaid] at hrefused ⊢
      cases hdefect : settings.defect?.or (options.apply settings).defect? with
      | some defect => exact ⟨defect, rfl, rfl⟩
      | none =>
          rw [hdefect] at hrefused
          exact absurd (options.pastSettings_goOn _) hrefused
  · rw [Options.pastSettings_iff hsaid, Options.pastSettings_iff hsaid', heffective]
    simp only [hvalid, hvalid', true_and]
  · intro hprint hprint'
    rw [Options.plan_of_said hsaid, Options.plan_of_said hsaid', heffective, hvalid, hvalid']
    rw [Options.goOn_of_printConfig hprint, Options.goOn_of_printConfig hprint']

/-! ### A file of one line -/

/-- The document that chooses the tick and nothing else. -/
def tickDocument (interval : UInt64) : List Toml.Section :=
  [⟨"simulation", [("tick_interval_ms", .integer interval.toNat)]⟩]

/-- The reference settings with another tick. -/
def ticking (interval : UInt64) : Settings :=
  { Settings.reference with timing := { TimerSettings.reference with tickInterval := interval } }

theorem said_tickDocument (interval : UInt64) :
    Settings.said (some (.bytes (Toml.write (tickDocument interval)).toUTF8)) =
      .ok (ticking interval) := by
  have hname : IsBareKey "simulation" := by decide
  have hkey : IsBareKey "tick_interval_ms" := by decide
  have hwell : ∀ part ∈ tickDocument interval, part.WellFormed := by
    intro part hmem
    obtain rfl := List.mem_singleton.mp hmem
    refine ⟨hname, fun line hline => ?_, List.nodup_singleton _⟩
    obtain rfl := List.mem_singleton.mp hline
    exact ⟨hkey, trivial⟩
  have hread := Toml.read_write hwell (List.nodup_singleton _)
  have hknown : "simulation" ∈ Settings.sections.map (·.name) := by decide
  have hkeys : SettingsKey.isKnown "simulation" "tick_interval_ms" = true := by decide
  have hskips : Skips "simulation" [("tick_interval_ms", .scalar (.integer interval.toNat))] := by
    intro pair hmem hunknown
    obtain rfl := List.mem_singleton.mp hmem
    exact absurd hkeys (ne_true_of_eq_false hunknown)
  have hsays : Says ((tickDocument interval).map Section.entry) [⟨.tickInterval, interval⟩] :=
    @Says.cons _ _ _ _ [⟨.tickInterval, interval⟩] [] hknown hskips
      (.cons ⟨rfl, rfl⟩ .nil) .nil
  have htable := Settings.ofTable?_says hsays (.of_read hread) (.refl _)
  rw [Settings.said_bytes, Settings.ofToml, hread, Option.bind_some, htable]
  rfl

/-- A file with a tick of half a second, a command line with a quarter and a journal file in the
environment: the program prints the settings with these two.  It prints the same without the
environment if the command line names the journal file. -/
theorem accepts_iff_both_valid_quarter :
    let find := fun _ => SettingsFile.bytes (Toml.write (tickDocument 500)).toUTF8
    let words := ["--print-config", "-c", "plc.toml", "--tick-ms", "250"]
    let options : Options :=
      { config := some "plc.toml", tickInterval := some 250, logFile := some "plc.log",
        printConfig := true }
    let other : Options :=
      { tickInterval := some 250, logFile := some "plc.log", printConfig := true }
    (parse (some "plc.log") words).plan find =
        .finish (.printing (options.apply (ticking 500)).toToml) ∧
      other.plan none = (parse (some "plc.log") words).plan find := by
  intro find words options other
  have hparse : parse (some "plc.log") words = .run options := by decide +kernel
  have hsaid : Settings.said (options.config.map find) = .ok (ticking 500) := said_tickDocument 500
  have hvalid : (ticking 500).Valid := by decide
  have heffective : (options.apply (ticking 500)).Valid := by decide
  have hprint : options.printConfig = true := rfl
  -- nothing but what the file says counts from here on
  clear_value find
  obtain ⟨-, hiff, hgo, -⟩ :=
    accepts_iff_both_valid.1 (some "plc.log") words find options (ticking 500) hparse hsaid
  have hgoes := hgo (hiff.mpr ⟨hvalid, heffective⟩)
  refine ⟨hgoes.trans (Options.goOn_of_printConfig hprint _), ?_⟩
  rw [plan_of_parse hparse]
  exact (accepts_iff_both_valid.2 other options none _ .reference (ticking 500) rfl hsaid
    (by decide) hvalid rfl).2 rfl hprint

/-- **The command line does not rescue a file.**  With a tick of a tenth of a second the valve would
not move, so that a file with it is refused, although the command line asks for a second.  The
effective settings are valid, and those of the same command line without the file, which is
accepted. -/
theorem override_rescues_nothing :
    let text := "[simulation]\ntick_interval_ms = 100\n"
    let find := fun _ => SettingsFile.bytes text.toUTF8
    let words := ["--print-config", "-c", "plc.toml", "--tick-ms", "1000"]
    let others := ["--print-config", "--tick-ms", "1000"]
    let options : Options :=
      { config := some "plc.toml", tickInterval := some 1000, printConfig := true }
    let other : Options := { tickInterval := some 1000, printConfig := true }
    (parse none words = .run options ∧
        Settings.said (options.config.map find) = .ok (ticking 100)) ∧
      (parse none others = .run other ∧
        Settings.said (other.config.map find) = .ok .reference) ∧
      options.apply (ticking 100) = other.apply .reference ∧
      (options.apply (ticking 100)).Valid ∧
      ¬((parse none words).plan find).PastSettings ∧
      (parse none words).plan find =
        .finish (.failure (SettingsError.invalid (.valveStuck 5 100)).message) ∧
      ((parse none others).plan find).PastSettings := by
  intro text find words others options other
  have hparse : parse none words = .run options := by decide +kernel
  have hother : parse none others = .run other := by decide +kernel
  have htext : text = Toml.write (tickDocument 100) := by decide +kernel
  have hfind : find "plc.toml" = .bytes (Toml.write (tickDocument 100)).toUTF8 :=
    congrArg (fun text => SettingsFile.bytes text.toUTF8) htext
  have hsaid : Settings.said (options.config.map find) = .ok (ticking 100) :=
    (congrArg (fun file => Settings.said (some file)) hfind).trans (said_tickDocument 100)
  have hsaid' : Settings.said (other.config.map find) = .ok .reference := rfl
  have hsame : options.apply (ticking 100) = other.apply .reference := rfl
  have heffective : (options.apply (ticking 100)).Valid := by decide
  have hstuck : (ticking 100).defect? = some (.valveStuck 5 100) := by decide
  have hinvalid : ¬(ticking 100).Valid := by decide
  clear_value find
  refine ⟨⟨hparse, hsaid⟩, ⟨hother, hsaid'⟩, hsame, heffective, ?_, ?_, ?_⟩
  · rw [plan_of_parse hparse, Options.pastSettings_iff hsaid]
    exact fun h => hinvalid h.1
  · rw [plan_of_parse hparse, Options.plan_of_said hsaid, hstuck]
    rfl
  · rw [plan_of_parse hother]
    exact (Options.pastSettings_iff hsaid').mpr ⟨by decide, hsame ▸ heffective⟩

end CommandLine

end HeatingPlant
