import Mathlib.Data.List.Forall2
import HeatingPlant.Proofs.Settings.Fields
import HeatingPlant.Settings.Document

/-!
# What a document can choose

The keys that settings have, what may be chosen under each, the values that a document can choose it
with, and that a section reads exactly these.

## Main definitions

* `Value.IsText`, `Value.IsName`, `Value.IsWhole`, `Value.IsQuantity` — how a document says things
* `Codec.Means` — what values a codec reads, and as what
* `SettingsKey` — a key, with its place, what it takes, how that is written and what it changes
* `SettingsSection.Takes` — what a section makes of a table
* `Field.Chooses` — reading a field is making a choice under a key

## Main statements

* `SettingsKey.put_comm` — choices under different keys may be made in any order
* `readInside_eq_some_iff` — one key of a section, read into the settings
* `SettingsSection.takes_of` — a section whose fields stand for its keys takes them
* `Settings.exists_takes` — so does every section

## Design notes

A section replaces its record as a whole, and a choice changes one field of it.  So a section is
unfolded into steps on the settings themselves, one for each key; what they start from, the settings
with the reference settings of the section, is the `reset` of `SettingsSection.Takes`.  The keys are
listed here once more, independently of the fields, with the values that each may be written as.
-/

namespace HeatingPlant

open Toml

/-! ### Values -/

namespace Toml.Value

/-- The value is a text. -/
def IsText (text : String) (value : Value) : Prop := value = .scalar (.string text)

/-- The value is a name, or a table of this name alone with nothing under it. -/
def IsName (name : String) (value : Value) : Prop :=
  value = .scalar (.string name) ∨
    (∃ origin inner, value = .table origin [(name, .table inner [])]) ∨
      ∃ origin, value = .table origin [(name, .array [])]

/-- The value is a whole number. -/
def IsWhole (n : ℕ) (value : Value) : Prop := value = .scalar (.integer n)

/-- The value is a real number, or a whole number of 64 bits with a sign or without, and denotes the
quantity. -/
def IsQuantity (x : Float) (value : Value) : Prop :=
  (∃ number : Number, value = .scalar (.real number) ∧ number.toFloat? = some x) ∨
    ∃ i : ℤ, value = .scalar (.integer i) ∧ -2 ^ 63 ≤ i ∧ i < 2 ^ 64 ∧ x = Float.ofInt i

end Toml.Value

/-! ### Codecs -/

namespace Codec

variable {α β : Type}

/-- The codec reads a value as `x` exactly if `x` may be written so. -/
def Means (codec : Codec α) (written : α → Value → Prop) : Prop :=
  ∀ value x, codec.read value = some x ↔ written x value

theorem means_text : text.Means Value.IsText := by
  intro value x
  unfold text Value.IsText
  dsimp only
  split
  case h_1 => simp
  case h_2 hother => exact iff_of_false nofun fun h => hother _ h

theorem means_natural (largest : ℕ) :
    (natural largest).Means fun n value => value.IsWhole n ∧ n ≤ largest := by
  intro value n
  unfold natural Value.IsWhole
  dsimp only
  split
  case h_1 i =>
    rw [Option.ite_none_right_eq_some]
    simp only [Value.scalar.injEq, Scalar.integer.injEq, Option.some.injEq]
    omega
  case h_2 hother => exact iff_of_false nofun fun h => hother _ h.1

theorem means_keyword : keyword.Means Value.IsName := by
  intro value name
  unfold keyword Value.IsName
  dsimp only
  split
  all_goals simp_all

theorem means_quantity : quantity.Means Value.IsQuantity := by
  intro value x
  unfold quantity Value.IsQuantity
  dsimp only
  split
  case h_1 number => simp
  case h_2 i =>
    rw [Option.ite_none_right_eq_some]
    simp only [Value.scalar.injEq, Scalar.integer.injEq, Option.some.injEq, reduceCtorEq, false_and,
      exists_false, false_or, exists_eq_left']
    constructor
    · rintro ⟨⟨hlow, hhigh⟩, rfl⟩
      exact ⟨by omega, by omega, rfl⟩
    · rintro ⟨hlow, hhigh, rfl⟩
      exact ⟨⟨by omega, by omega⟩, rfl⟩
  case h_3 => simp_all

/-- What stands for a value may be written like it. -/
theorem Means.map {codec : Codec α} {written : α → Value → Prop} {into : α → Option β}
    {back : β → α} (h : codec.Means written) :
    (codec.map into back).Means fun y value => ∃ x, written x value ∧ into x = some y := by
  intro value y
  show (codec.read value).bind into = some y ↔ _
  rw [Option.bind_eq_some_iff]
  exact exists_congr fun x => and_congr_left' (h value x)

theorem Means.optional {codec : Codec α} {written : α → Value → Prop}
    (h : codec.Means written) :
    codec.optional.Means fun x value => ∃ y, x = some y ∧ written y value := by
  intro value x
  show (codec.read value).map some = some x ↔ _
  rw [Option.map_eq_some_iff]
  exact exists_congr fun y => by rw [h value y, and_comm, eq_comm]

/-- Words are written as their numbers. -/
theorem means_word {largest : ℕ} {ofNat : ℕ → β} {toNat : β → ℕ}
    (hof : ∀ x, ofNat (toNat x) = x) (hto : ∀ n ≤ largest, toNat (ofNat n) = n)
    (hle : ∀ x, toNat x ≤ largest) :
    ((natural largest).map (some ∘ ofNat) toNat).Means fun x => Value.IsWhole (toNat x) := by
  intro value x
  rw [(means_natural largest).map value x]
  constructor
  · rintro ⟨n, ⟨hwhole, hn⟩, hx⟩
    rwa [← Option.some.inj hx, hto n hn]
  · exact fun hwhole => ⟨toNat x, ⟨hwhole, hle x⟩, congrArg some (hof x)⟩

theorem means_byte : byte.Means fun x => Value.IsWhole x.toNat :=
  means_word (fun _ => UInt8.ofNat_toNat)
    (fun _ hn => UInt8.toNat_ofNat_of_lt' (Nat.lt_succ_of_le hn))
    fun x => Nat.le_of_lt_succ x.toNat_lt

theorem means_word32 : word32.Means fun x => Value.IsWhole x.toNat :=
  means_word (fun _ => UInt32.ofNat_toNat)
    (fun _ hn => UInt32.toNat_ofNat_of_lt' (Nat.lt_succ_of_le hn))
    fun x => Nat.le_of_lt_succ x.toNat_lt

theorem means_word64 : word64.Means fun x => Value.IsWhole x.toNat :=
  means_word (fun _ => UInt64.ofNat_toNat)
    (fun _ hn => UInt64.toNat_ofNat_of_lt' (Nat.lt_succ_of_le hn))
    fun x => Nat.le_of_lt_succ x.toNat_lt

/-- Names are written as they are. -/
theorem means_named {ofName? : String → Option β} {name : β → String}
    (hsome : ∀ x, ofName? (name x) = some x)
    (hname : ∀ text x, ofName? text = some x → name x = text) :
    (keyword.map ofName? name).Means fun x => Value.IsName (name x) := by
  intro value x
  rw [means_keyword.map value x]
  constructor
  · rintro ⟨text, htext, hx⟩
    rwa [hname text x hx]
  · exact fun hvalue => ⟨name x, hvalue, hsome x⟩

theorem means_level : level.Means fun x => Value.IsName x.keyword :=
  means_named Level.ofKeyword?_keyword fun _ _ h => by simpa using List.find?_some h

theorem means_mode : mode.Means fun x => Value.IsName x.keyword :=
  means_named ControlMode.ofKeyword?_keyword fun _ _ h => by simpa using List.find?_some h

end Codec

/-! ### Keys -/

/-- The keys of settings. -/
inductive SettingsKey where
  | logLevel
  | serviceName
  | logFile
  | listen
  | maxClients
  | tickInterval
  | reportEvery
  | lossFactor
  | maxPower
  | thermalMass
  | slewRate
  | deadband
  | insideTemperature
  | outsideTemperature
  | supplyTemperature
  | setpoint
  | valve
  | mode
  deriving DecidableEq, Repr

namespace SettingsKey

/-- All keys. -/
def all : List SettingsKey :=
  [logLevel, serviceName, logFile, listen, maxClients, tickInterval, reportEvery,
    lossFactor, maxPower,
    thermalMass, slewRate, deadband, insideTemperature, outsideTemperature,
      supplyTemperature, setpoint,
    valve, mode]

theorem mem_all (key : SettingsKey) : key ∈ all := by cases key <;> decide

/-- The section that the key stands in, and its name there. -/
def place : SettingsKey → String × String
  | logLevel => ("shared", "log_level")
  | serviceName => ("shared", "service_name")
  | logFile => ("shared", "log_file")
  | listen => ("server", "listen")
  | maxClients => ("server", "max_clients")
  | tickInterval => ("simulation", "tick_interval_ms")
  | reportEvery => ("simulation", "status_log_every")
  | lossFactor => ("physics", "loss_factor")
  | maxPower => ("physics", "max_power_kw")
  | thermalMass => ("physics", "thermal_mass")
  | slewRate => ("physics", "slew_rate")
  | deadband => ("controller", "deadband")
  | insideTemperature => ("initial", "inside_temp")
  | outsideTemperature => ("initial", "outside_temp")
  | supplyTemperature => ("initial", "supply_temp")
  | setpoint => ("initial", "setpoint")
  | valve => ("initial", "valve")
  | mode => ("initial", "mode")

/-- Whether a section has a key of this name. -/
def isKnown (part name : String) : Bool := all.any (·.place = (part, name))

theorem isKnown_iff {part name : String} :
    isKnown part name = true ↔ ∃ key : SettingsKey, key.place = (part, name) := by
  simp [isKnown, mem_all]

/-- What is chosen under the key. -/
def Chosen : SettingsKey → Type
  | logLevel => Level
  | serviceName | logFile => String
  | listen => Endpoint
  | maxClients | tickInterval => UInt64
  | reportEvery => UInt32
  | valve => UInt8
  | mode => ControlMode
  | lossFactor | maxPower | thermalMass | slewRate | deadband | insideTemperature
  | outsideTemperature | supplyTemperature | setpoint => Float

/-- How a document says what is chosen under the key. -/
def WrittenAs : (key : SettingsKey) → key.Chosen → Value → Prop
  | logLevel, x => Value.IsName (Level.keyword x)
  | serviceName, x | logFile, x => Value.IsText x
  | listen, x => fun value => ∃ text, Value.IsText text value ∧ Endpoint.ofText? text = some x
  | maxClients, x | tickInterval, x => Value.IsWhole (UInt64.toNat x)
  | reportEvery, x => Value.IsWhole (UInt32.toNat x)
  | valve, x => Value.IsWhole (UInt8.toNat x)
  | mode, x => Value.IsName (ControlMode.keyword x)
  | lossFactor, x | maxPower, x | thermalMass, x | slewRate, x | deadband, x
  | insideTemperature, x | outsideTemperature, x | supplyTemperature, x | setpoint, x =>
    Value.IsQuantity x

/-- The settings with another choice under the key. -/
def put : (key : SettingsKey) → key.Chosen → Settings → Settings
  | logLevel, x, s => { s with common := { s.common with logLevel := x } }
  | serviceName, x, s => { s with common := { s.common with serviceName := x } }
  | logFile, x, s => { s with common := { s.common with logFile := some x } }
  | listen, x, s => { s with server := { s.server with listen := x } }
  | maxClients, x, s => { s with server := { s.server with maxClients := some x } }
  | tickInterval, x, s => { s with timing := { s.timing with tickInterval := x } }
  | reportEvery, x, s => { s with timing := { s.timing with reportEvery := x } }
  | lossFactor, x, s => { s with thermal := { s.thermal with lossFactor := x } }
  | maxPower, x, s => { s with thermal := { s.thermal with maxPower := x } }
  | thermalMass, x, s => { s with thermal := { s.thermal with thermalMass := x } }
  | slewRate, x, s => { s with thermal := { s.thermal with slewRate := x } }
  | deadband, x, s => { s with controller := { s.controller with deadband := x } }
  | insideTemperature, x, s => { s with startup := { s.startup with insideTemperature := x } }
  | outsideTemperature, x, s => { s with startup := { s.startup with outsideTemperature := x } }
  | supplyTemperature, x, s => { s with startup := { s.startup with supplyTemperature := x } }
  | setpoint, x, s => { s with startup := { s.startup with setpoint := x } }
  | valve, x, s => { s with startup := { s.startup with valve := x } }
  | mode, x, s => { s with startup := { s.startup with mode := x } }

/-- **Choices under different keys may be made in any order.** -/
theorem put_comm {key other : SettingsKey} (hne : key ≠ other) (x : key.Chosen) (y : other.Chosen)
    (s : Settings) : key.put x (other.put y s) = other.put y (key.put x s) := by
  cases key <;> cases other <;> first | rfl | exact absurd rfl hne

end SettingsKey

/-! ### Sections -/

variable {α β : Type}

/-- What a section makes of a table: it starts from the settings with its own reference settings,
and takes one key after the other. -/
structure SettingsSection.Takes (part : SettingsSection) (reset : Settings → Settings)
    (step : Settings → String × Value → Option Settings) : Prop where
  /-- A table is read key by key. -/
  read_table : ∀ origin entries base,
    part.read (.table origin entries) base = entries.foldlM step (reset base)
  /-- A key of the section is put in place. -/
  step_written : ∀ {key : SettingsKey} {x value} (s), key.place.1 = part.name →
    key.WrittenAs x value → step s (key.place.2, value) = some (key.put x s)
  /-- A key of the section with a value that says nothing is refused. -/
  step_not_written : ∀ {key : SettingsKey} {value} (s), key.place.1 = part.name →
    (∀ x, ¬key.WrittenAs x value) → step s (key.place.2, value) = none
  /-- The common section skips other keys if they can be read; all others refuse them. -/
  step_unknown : ∀ {name value} (s), SettingsKey.isKnown part.name name = false →
    step s (name, value) = if part.name = "shared" ∧ value.isReadable then some s else none
  /-- The reference settings are where all sections start from. -/
  reset_reference : reset .reference = .reference
  /-- Keys of other sections do not matter. -/
  reset_put : ∀ {key : SettingsKey} (x s), key.place.1 ≠ part.name →
    reset (key.put x s) = key.put x (reset s)

/-- Reading a field of a record inside the settings is making a choice under a key. -/
def Field.Chooses (get : Settings → α) (put : α → Settings → Settings) (field : Field α)
    (key : SettingsKey) : Prop :=
  field.key = key.place.2 ∧ ∀ value s s',
    (field.read value (get s)).map (fun part => put part s) = some s' ↔
      ∃ x, key.WrittenAs x value ∧ key.put x s = s'

theorem Field.chooses_of {get : Settings → α} {put : α → Settings → Settings}
    {name : String} {key : SettingsKey} {codec : Codec β} {written : β → Value → Prop}
    {getField : α → β} {putField : β → α → α} (hname : name = key.place.2)
    (hmeans : codec.Means written)
    (hput : ∀ value s s', (∃ y, written y value ∧ put (putField y (get s)) s = s') ↔
      ∃ x, key.WrittenAs x value ∧ key.put x s = s') :
    (Field.of name codec getField putField).Chooses get put key := by
  refine ⟨hname, fun value s s' => ?_⟩
  rw [← hput]
  show (((codec.read value).map fun part => putField part (get s)).map _) = some s' ↔ _
  rw [Option.map_map, Option.map_eq_some_iff]
  exact exists_congr fun y => and_congr_left' (hmeans value y)

theorem Field.chooses_of_optional {get : Settings → α} {put : α → Settings → Settings}
    {name : String} {key : SettingsKey} {codec : Codec β} {written : β → Value → Prop}
    {getField : α → Option β} {putField : Option β → α → α} (hname : name = key.place.2)
    (hmeans : codec.Means written)
    (hput : ∀ value s s', (∃ y, written y value ∧ put (putField (some y) (get s)) s = s') ↔
      ∃ x, key.WrittenAs x value ∧ key.put x s = s') :
    (Field.of name codec.optional getField putField).Chooses get put key := by
  refine chooses_of hname hmeans.optional fun value s s' => ?_
  rw [← hput]
  constructor
  · rintro ⟨_, ⟨y, rfl, hwritten⟩, hs⟩
    exact ⟨y, hwritten, hs⟩
  · rintro ⟨y, hwritten, hs⟩
    exact ⟨some y, ⟨y, rfl, hwritten⟩, hs⟩

/-- What one of two lists has is matched in the other. -/
theorem exists_of_mem_right {γ δ : Type} {R : γ → δ → Prop} {as : List γ}
    {bs : List δ} {b : δ} (h : List.Forall₂ R as bs)
    (hmem : b ∈ bs) : ∃ a ∈ as, R a b := by
  induction h with
  | nil => exact absurd hmem List.not_mem_nil
  | cons hfirst hrest ih =>
      obtain rfl | hmem := List.mem_cons.mp hmem
      · exact ⟨_, List.mem_cons_self, hfirst⟩
      · obtain ⟨a, ha, hR⟩ := ih hmem
        exact ⟨a, List.mem_cons_of_mem _ ha, hR⟩

section Records

variable {fields : List (Field α)} {strict : Bool} {get : Settings → α}
  {put : α → Settings → Settings} {keys : List SettingsKey}

/-- A record is a part of the settings: it can be looked at and replaced by itself. -/
structure IsPartOf (get : Settings → α) (put : α → Settings → Settings) : Prop where
  /-- What was put is there. -/
  get_put : ∀ x s, get (put x s) = x
  /-- Nothing is left of what was there. -/
  put_put : ∀ x y s, put x (put y s) = put x s
  /-- What is there need not be put. -/
  put_get : ∀ s, put (get s) s = s

/-- One key of a section read into the settings. -/
def readInside (fields : List (Field α)) (strict : Bool) (get : Settings → α)
    (put : α → Settings → Settings) (s : Settings) (entry : String × Value) :
    Option Settings :=
  (readEntry fields strict (get s) entry).map fun part => put part s

/-- A record read from a table goes into the settings key by key. -/
theorem map_readEntries (hat : IsPartOf get put) (entries : Entries) (record : α) (s : Settings) :
    (readEntries fields strict record entries).map (fun part => put part s) =
      entries.foldlM (readInside fields strict get put) (put record s) := by
  induction entries generalizing record with
  | nil => rfl
  | cons entry entries ih =>
      have hstep : readInside fields strict get put (put record s) entry =
          (readEntry fields strict record entry).map fun part => put part s := by
        rw [readInside, hat.get_put]
        exact congrArg (Option.map · _) (funext fun part => hat.put_put part record s)
      rw [readEntries, List.foldlM_cons, List.foldlM_cons, hstep]
      cases readEntry fields strict record entry with
      | none => rfl
      | some next => exact ih next

/-- A key of the section is read as the choice that its value says, if there is one. -/
theorem readInside_eq_some_iff (hchooses : List.Forall₂ (Field.Chooses get put) fields keys)
    (hnodup : (fields.map Field.key).Nodup) {key : SettingsKey} (hmem : key ∈ keys)
    {value : Value} {s s' : Settings} :
    readInside fields strict get put s (key.place.2, value) = some s' ↔
      ∃ x, key.WrittenAs x value ∧ key.put x s = s' := by
  obtain ⟨field, hfield, hname, hread⟩ := exists_of_mem_right hchooses hmem
  have hfind : fields.find? (fun field => field.key = key.place.2) = some field :=
    hname ▸ find?_of_nodup hnodup hfield
  rw [readInside, readEntry]
  dsimp only
  rw [hfind]
  exact hread value s s'

/-- **A section whose fields stand for its keys takes them.** -/
theorem SettingsSection.takes_of {name : String} {defaults : α}
    (hchooses : List.Forall₂ (Field.Chooses get put) fields keys)
    (hkeys : ∀ key : SettingsKey, key ∈ keys ↔ key.place.1 = name)
    (hnodup : (fields.map Field.key).Nodup) (hstrict : strict = decide (name ≠ "shared"))
    (hat : IsPartOf get put) (hreference : put defaults .reference = .reference)
    (hother : ∀ (key : SettingsKey) x s, key.place.1 ≠ name →
      put defaults (key.put x s) = key.put x (put defaults s)) :
    (SettingsSection.of name fields strict defaults get put).Takes (put defaults)
      (readInside fields strict get put) where
  read_table _ entries base := map_readEntries hat entries defaults base
  step_written := by
    intro key x value s hname hwritten
    exact (readInside_eq_some_iff hchooses hnodup ((hkeys key).mpr hname)).mpr
      ⟨x, hwritten, rfl⟩
  step_not_written := by
    intro key value s hname hwritten
    refine Option.eq_none_iff_forall_ne_some.mpr fun s' hs' => ?_
    obtain ⟨x, hx, -⟩ :=
      (readInside_eq_some_iff hchooses hnodup ((hkeys key).mpr hname)).mp hs'
    exact hwritten x hx
  step_unknown := by
    intro other value s hunknown
    have hfind : fields.find? (fun field => field.key = other) = none := by
      refine List.find?_eq_none.mpr fun field hfield hkey => ?_
      obtain ⟨key, hmem, hchoose⟩ := exists_of_mem_right hchooses.flip hfield
      have hplace : key.place = (name, other) :=
        Prod.ext ((hkeys key).mp hmem) (hchoose.1.symm.trans (of_decide_eq_true hkey))
      exact absurd (SettingsKey.isKnown_iff.mpr ⟨key, hplace⟩) (ne_true_of_eq_false hunknown)
    rw [readInside, readEntry]
    dsimp only
    rw [hfind]
    show Option.map _ (if strict then _ else _) = if name = "shared" ∧ _ then _ else _
    by_cases hname : name = "shared"
    · rw [hstrict, hname]
      by_cases hreadable : value.isReadable = true
      · simp [hreadable, hat.put_get]
      · simp [hreadable]
    · simp [hstrict, hname]
  reset_reference := hreference
  reset_put := fun x s hne => hother _ x s hne

end Records

namespace Settings

theorem chooses_common :
    List.Forall₂ (Field.Chooses common fun x s => { s with common := x }) CommonSettings.fields
      [.logLevel, .serviceName, .logFile] :=
  .cons (Field.chooses_of rfl Codec.means_level fun _ _ _ => Iff.rfl)
    (.cons (Field.chooses_of rfl Codec.means_text fun _ _ _ => Iff.rfl)
      (.cons (Field.chooses_of_optional rfl Codec.means_text fun _ _ _ => Iff.rfl) .nil))

theorem chooses_server :
    List.Forall₂ (Field.Chooses server fun x s => { s with server := x }) ServerSettings.fields
      [.listen, .maxClients] :=
  .cons (Field.chooses_of rfl Codec.means_text.map fun _ _ _ => Iff.rfl)
    (.cons (Field.chooses_of_optional rfl Codec.means_word64 fun _ _ _ => Iff.rfl) .nil)

theorem chooses_timing :
    List.Forall₂ (Field.Chooses timing fun x s => { s with timing := x }) TimerSettings.fields
      [.tickInterval, .reportEvery] :=
  .cons (Field.chooses_of rfl Codec.means_word64 fun _ _ _ => Iff.rfl)
    (.cons (Field.chooses_of rfl Codec.means_word32 fun _ _ _ => Iff.rfl) .nil)

theorem chooses_thermal :
    List.Forall₂ (Field.Chooses thermal fun x s => { s with thermal := x })
      ThermalParameters.fields [.lossFactor, .maxPower, .thermalMass, .slewRate] :=
  .cons (Field.chooses_of rfl Codec.means_quantity fun _ _ _ => Iff.rfl)
    (.cons (Field.chooses_of rfl Codec.means_quantity fun _ _ _ => Iff.rfl)
      (.cons (Field.chooses_of rfl Codec.means_quantity fun _ _ _ => Iff.rfl)
        (.cons (Field.chooses_of rfl Codec.means_quantity fun _ _ _ => Iff.rfl) .nil)))

theorem chooses_controller :
    List.Forall₂ (Field.Chooses controller fun x s => { s with controller := x })
      Controller.fields [.deadband] :=
  .cons (Field.chooses_of rfl Codec.means_quantity fun _ _ _ => Iff.rfl) .nil

theorem chooses_startup :
    List.Forall₂ (Field.Chooses startup fun x s => { s with startup := x })
      InitialConditions.fields
      [.insideTemperature, .outsideTemperature, .supplyTemperature, .setpoint, .valve, .mode] :=
  .cons (Field.chooses_of rfl Codec.means_quantity fun _ _ _ => Iff.rfl)
    (.cons (Field.chooses_of rfl Codec.means_quantity fun _ _ _ => Iff.rfl)
      (.cons (Field.chooses_of rfl Codec.means_quantity fun _ _ _ => Iff.rfl)
        (.cons (Field.chooses_of rfl Codec.means_quantity fun _ _ _ => Iff.rfl)
          (.cons (Field.chooses_of rfl Codec.means_byte fun _ _ _ => Iff.rfl)
            (.cons (Field.chooses_of rfl Codec.means_mode fun _ _ _ => Iff.rfl) .nil)))))

/-- **Every section takes its keys.** -/
theorem exists_takes : ∀ part ∈ sections, ∃ reset step, part.Takes reset step := by
  simp only [sections, List.forall_mem_cons]
  refine ⟨⟨_, _, SettingsSection.takes_of chooses_common ?_ (by decide) (by decide)
      ⟨fun _ _ => rfl, fun _ _ _ => rfl, fun _ => rfl⟩ rfl ?_⟩,
    ⟨_, _, SettingsSection.takes_of chooses_server ?_ (by decide) (by decide)
      ⟨fun _ _ => rfl, fun _ _ _ => rfl, fun _ => rfl⟩ rfl ?_⟩,
    ⟨_, _, SettingsSection.takes_of chooses_timing ?_ (by decide) (by decide)
      ⟨fun _ _ => rfl, fun _ _ _ => rfl, fun _ => rfl⟩ rfl ?_⟩,
    ⟨_, _, SettingsSection.takes_of chooses_thermal ?_ (by decide) (by decide)
      ⟨fun _ _ => rfl, fun _ _ _ => rfl, fun _ => rfl⟩ rfl ?_⟩,
    ⟨_, _, SettingsSection.takes_of chooses_controller ?_ (by decide) (by decide)
      ⟨fun _ _ => rfl, fun _ _ _ => rfl, fun _ => rfl⟩ rfl ?_⟩,
    ⟨_, _, SettingsSection.takes_of chooses_startup ?_ (by decide) (by decide)
      ⟨fun _ _ => rfl, fun _ _ _ => rfl, fun _ => rfl⟩ rfl ?_⟩,
    fun _ hmem => absurd hmem List.not_mem_nil⟩
  -- which keys the section has, and that no other key touches it
  all_goals
    intro key
    cases key <;> first | decide | exact fun _ _ _ => rfl | exact fun _ _ h => absurd rfl h

end Settings

end HeatingPlant
