import HeatingPlant.Proofs.Settings.Choices
import HeatingPlant.Proofs.Settings.RoundTrip
import HeatingPlant.Proofs.Toml.Distinct

/-!
# Settings over the reference settings

A document overlays the reference settings with the choices that it says, and with nothing else.

## Main definitions

* `Choice`, `Settings.choosing` — a choice under a key, and settings with choices made
* `Says` — the tables of a document say choices, and nothing else but what is skipped
* `Faulty` — a table that says something else somewhere

## Main statements

* `Settings.ofTable?_says` — what is read from tables that say choices
* `Settings.readSection_known` — what the common section holds besides
* `Settings.ofTable?_faulty` — what is read from a table with a fault
* `Settings.ofToml_overlays` — the same for documents

## Design notes

Which choices are made does not depend on their order, because no document says a key twice.  A
section is read over its own reference settings, not over what stands there; these are the same
until its only table is read.
-/

namespace HeatingPlant

open Toml

/-- A key and what is chosen under it. -/
structure Choice where
  /-- The key. -/
  key : SettingsKey
  /-- What is chosen. -/
  chosen : key.Chosen

/-- A key and its value in a section say a choice. -/
def Choice.IsSaidBy (name : String) (pair : String × Value) (choice : Choice) : Prop :=
  choice.key.place = (name, pair.1) ∧ choice.key.WrittenAs choice.chosen pair.2

/-- The keys of a table that its section knows, with their values. -/
def SettingsKey.known (part : String) (pairs : Entries) : Entries :=
  pairs.filter fun pair => isKnown part pair.1

/-- Whatever else stands in the table is skipped: it is the common section, and the values can be
read. -/
def Skips (part : String) (pairs : Entries) : Prop :=
  ∀ pair ∈ pairs, SettingsKey.isKnown part pair.1 = false →
    part = "shared" ∧ pair.2.isReadable = true

instance (part : String) (pairs : Entries) : Decidable (Skips part pairs) :=
  inferInstanceAs (Decidable (∀ pair ∈ pairs, _))

/-- Tables of sections say choices, key by key, and nothing else that is not skipped. -/
inductive Says : Entries → List Choice → Prop
  | nil : Says [] []
  | cons {name : String} {origin : Origin} {pairs rest : Entries} {here others : List Choice}
      (hname : name ∈ Settings.sections.map (·.name)) (hskips : Skips name pairs)
      (hpairs : List.Forall₂ (Choice.IsSaidBy name) (SettingsKey.known name pairs) here)
      (hrest : Says rest others) :
      Says ((name, .table origin pairs) :: rest) (here ++ others)

/-- Somewhere a table says what is no choice. -/
inductive Faulty (table : Entries) : Prop
  /-- Something that is not a section. -/
  | unknownSection {name : String} {value : Value} (hentry : (name, value) ∈ table)
      (hname : name ∉ Settings.sections.map (·.name))
  /-- A key that its section does not know, unless it is the common one. -/
  | unknownKey {part name : String} {origin : Origin} {pairs : Entries} {value : Value}
      (hentry : (part, .table origin pairs) ∈ table) (hpair : (name, value) ∈ pairs)
      (hpart : part ≠ "shared") (hunknown : SettingsKey.isKnown part name = false)
  /-- A known key with a value that says no choice. -/
  | badValue {part name : String} {origin : Origin} {pairs : Entries} {value : Value}
      {key : SettingsKey} (hentry : (part, .table origin pairs) ∈ table)
      (hpair : (name, value) ∈ pairs) (hplace : key.place = (part, name))
      (hvalue : ∀ x, ¬key.WrittenAs x value)
  /-- A value of the common section that cannot be read at all. -/
  | unreadable {part name : String} {origin : Origin} {pairs : Entries} {value : Value}
      (hentry : (part, .table origin pairs) ∈ table) (hpair : (name, value) ∈ pairs)
      (hunknown : SettingsKey.isKnown part name = false) (hvalue : value.isReadable = false)

/-! ### Choices -/

variable {choices order : List Choice} {table pairs : Entries} {name : String}

namespace Settings

/-- The settings with choices made one after the other. -/
def choosing (base : Settings) (choices : List Choice) : Settings :=
  choices.foldl (fun s choice => choice.key.put choice.chosen s) base

theorem choosing_append (base : Settings) (choices others : List Choice) :
    base.choosing (choices ++ others) = (base.choosing choices).choosing others :=
  List.foldl_append

/-- **Choices under different keys may be made in any order.** -/
theorem choosing_perm (base : Settings) (hkeys : (choices.map Choice.key).Nodup)
    (hperm : order.Perm choices) : base.choosing order = base.choosing choices := by
  refine hperm.foldl_eq' (fun one hone other hother s => ?_) base
  by_cases heq : one.key = other.key
  · have hmem := hperm.mem_iff.mp hone
    rw [List.inj_on_of_nodup_map hkeys hmem (hperm.mem_iff.mp hother) heq]
  · exact SettingsKey.put_comm (Ne.symm heq) _ _ s

end Settings

/-- What is said under different keys is chosen under different keys. -/
theorem nodup_of_forall₂ (hpairs : List.Forall₂ (Choice.IsSaidBy name) pairs choices)
    (hnodup : (pairs.map (·.1)).Nodup) : (choices.map (·.key.place)).Nodup := by
  have hplaces : choices.map (·.key.place) = (pairs.map (·.1)).map (Prod.mk name) := by
    clear hnodup
    induction hpairs with
    | nil => rfl
    | cons hfirst hrest ih => rw [List.map_cons, List.map_cons, List.map_cons, hfirst.1, ih]
  rw [hplaces]
  exact hnodup.map (Prod.mk_right_injective name)

theorem place_of_forall₂ (hpairs : List.Forall₂ (Choice.IsSaidBy name) pairs choices)
    {choice : Choice} (hmem : choice ∈ choices) : choice.key.place.1 = name := by
  obtain ⟨pair, -, hsaid⟩ := exists_of_mem_right hpairs hmem
  exact congrArg Prod.fst hsaid.1

namespace Says

/-- Choices are said in tables of their sections. -/
theorem place_mem (h : Says table choices) {choice : Choice} (hmem : choice ∈ choices) :
    choice.key.place.1 ∈ table.map (·.1) := by
  induction h with
  | nil => exact absurd hmem List.not_mem_nil
  | cons hname hskips hpairs hrest ih =>
      obtain hhere | hothers := List.mem_append.mp hmem
      · exact List.mem_cons.mpr (.inl (place_of_forall₂ hpairs hhere))
      · exact List.mem_cons_of_mem _ (ih hothers)

/-- **No key is chosen twice** by a table that has no key twice. -/
theorem nodup_keys (h : Says table choices) (hdistinct : table.Distinct) :
    (choices.map Choice.key).Nodup := by
  suffices hplaces : (choices.map (·.key.place)).Nodup by
    rw [← Function.comp_def, ← List.map_map] at hplaces
    exact hplaces.of_map _
  induction h with
  | nil => exact List.nodup_nil
  | cons hname hskips hpairs hrest ih =>
      have hnames := List.nodup_cons.mp hdistinct.nodup
      rw [List.map_append]
      refine List.nodup_append.mpr ⟨?_, ?_, ?_⟩
      · have hinside := (hdistinct.value _ List.mem_cons_self).inside
        exact nodup_of_forall₂ hpairs (hinside.nodup.sublist (List.filter_sublist.map _))
      · exact ih ⟨hnames.2, fun entry hmem =>
          hdistinct.value entry (List.mem_cons_of_mem _ hmem)⟩
      · intro place hhere other hothers heq
        obtain ⟨one, hone, rfl⟩ := List.mem_map.mp hhere
        obtain ⟨two, htwo, rfl⟩ := List.mem_map.mp hothers
        have hmem := hrest.place_mem htwo
        rw [← heq, place_of_forall₂ hpairs hone] at hmem
        exact hnames.1 hmem

end Says

/-! ### Reading sections -/

section Takes

variable {part : SettingsSection} {reset : Settings → Settings}
  {step : Settings → String × Value → Option Settings}

/-- Choices in other sections do not matter for where a section starts from. -/
theorem SettingsSection.Takes.reset_choosing (h : part.Takes reset step)
    (hother : ∀ choice ∈ choices, choice.key.place.1 ≠ part.name) (s : Settings) :
    reset (s.choosing choices) = (reset s).choosing choices := by
  induction choices generalizing s with
  | nil => rfl
  | cons choice choices ih =>
      obtain ⟨hfirst, hrest⟩ := List.forall_mem_cons.mp hother
      show reset ((choice.key.put choice.chosen s).choosing choices) = _
      rw [ih hrest, h.reset_put choice.chosen s hfirst]
      rfl

/-- **A section makes the choices that its table says.** -/
theorem SettingsSection.Takes.foldlM_step (h : part.Takes reset step)
    (hpairs : List.Forall₂ (Choice.IsSaidBy part.name) pairs choices) (s : Settings) :
    pairs.foldlM step s = some (s.choosing choices) := by
  induction hpairs generalizing s with
  | nil => rfl
  | @cons pair choice pairs choices hfirst hrest ih =>
      have hstep := h.step_written s (congrArg Prod.fst hfirst.1) hfirst.2
      rw [hfirst.1] at hstep
      rw [List.foldlM_cons]
      show (step s (pair.1, pair.2)).bind _ = _
      rw [hstep]
      exact ih _

/-- What a table says besides may as well be left out. -/
theorem SettingsSection.Takes.foldlM_known (h : part.Takes reset step)
    (hskips : Skips part.name pairs) (s : Settings) :
    pairs.foldlM step s = (SettingsKey.known part.name pairs).foldlM step s := by
  induction pairs generalizing s with
  | nil => rfl
  | cons pair pairs ih =>
      obtain ⟨hfirst, hrest⟩ := List.forall_mem_cons.mp hskips
      unfold SettingsKey.known at ih ⊢
      rw [List.filter_cons]
      split
      case isTrue =>
        rw [List.foldlM_cons, List.foldlM_cons]
        exact congrArg _ (funext fun next => ih hrest next)
      case isFalse hunknown =>
        have hunknown' := Bool.eq_false_of_not_eq_true hunknown
        have hstep : step s (pair.1, pair.2) = some s := by
          rw [h.step_unknown s hunknown', if_pos (hfirst hunknown')]
        rw [List.foldlM_cons]
        show (step s (pair.1, pair.2)).bind _ = _
        rw [hstep]
        exact ih hrest s

end Takes

namespace Settings

/-- The section with a name. -/
theorem exists_section (hname : name ∈ sections.map (·.name)) :
    ∃ part ∈ sections, part.name = name ∧
      ∀ value s, readSection s (name, value) = part.read value s := by
  obtain ⟨part, hpart, rfl⟩ := List.mem_map.mp hname
  refine ⟨part, hpart, rfl, fun value s => ?_⟩
  rw [readSection, find?_of_nodup nodup_names hpart]

theorem readSection_of_not_mem {value : Value} (hname : name ∉ sections.map (·.name))
    (s : Settings) :
    readSection s (name, value) = none := by
  have hfind : sections.find? (fun part => part.name = name) = none :=
    List.find?_eq_none.mpr fun part hpart heq =>
      hname (List.mem_map.mpr ⟨part, hpart, of_decide_eq_true heq⟩)
  rw [readSection, hfind]

/-- Settings in which the sections that a table names are as they are in the reference settings. -/
def FreshFor (base : Settings) (names : List String) : Prop :=
  ∀ part : SettingsSection, part.name ∈ names → ∀ reset step, part.Takes reset step →
    reset base = base

theorem freshFor_reference (names : List String) : FreshFor reference names :=
  fun _ _ _ _ htakes => htakes.reset_reference

/-- **Tables make the choices that they say.** -/
theorem foldlM_readSection (h : Says table choices) (hnames : (table.map (·.1)).Nodup)
    {base : Settings} (hfresh : base.FreshFor (table.map (·.1))) :
    table.foldlM readSection base = some (base.choosing choices) := by
  induction h generalizing base with
  | nil => rfl
  | @cons name origin pairs rest here others hname hskips hpairs hrest ih =>
      obtain ⟨hnew, hothers⟩ := List.nodup_cons.mp hnames
      obtain ⟨part, hpart, rfl, hread⟩ := exists_section hname
      obtain ⟨reset, step, htakes⟩ := exists_takes part hpart
      have hfirst :
        readSection base (part.name, .table origin pairs) = some (base.choosing here) := by
        rw [hread, htakes.read_table, hfresh part List.mem_cons_self reset step htakes,
          htakes.foldlM_known hskips, htakes.foldlM_step hpairs]
      have hlater : (base.choosing here).FreshFor (rest.map (·.1)) := by
        intro other hother reset step htakes
        have hne : ∀ choice ∈ here, choice.key.place.1 ≠ other.name := by
          intro choice hmem heq
          rw [place_of_forall₂ hpairs hmem] at heq
          exact hnew (heq ▸ hother)
        rw [htakes.reset_choosing hne,
          hfresh other (List.mem_cons_of_mem _ hother) reset step htakes]
      rw [List.foldlM_cons, hfirst, choosing_append]
      exact ih hothers hlater

/-- **A table that says choices is read as the reference settings with these choices**, in whatever
order. -/
theorem ofTable?_says (h : Says table choices) (hdistinct : table.Distinct)
    (hperm : order.Perm choices) : ofTable? table = some (reference.choosing order) := by
  rw [choosing_perm _ (h.nodup_keys hdistinct) hperm]
  exact foldlM_readSection h hdistinct.nodup (freshFor_reference _)

/-- **Other keys of the common section change nothing** if their values can be read at all. -/
theorem readSection_known {origin origin' : Origin} (hskips : Skips name pairs) (s : Settings) :
    readSection s (name, .table origin pairs) =
      readSection s (name, .table origin' (SettingsKey.known name pairs)) := by
  by_cases hname : name ∈ sections.map (·.name)
  · obtain ⟨part, hpart, rfl, hread⟩ := exists_section hname
    obtain ⟨reset, step, htakes⟩ := exists_takes part hpart
    rw [hread, hread, htakes.read_table, htakes.read_table, htakes.foldlM_known hskips]
  · rw [readSection_of_not_mem hname, readSection_of_not_mem hname]

/-- What one entry makes impossible is impossible. -/
theorem foldlM_eq_none {σ ε : Type} {f : σ → ε → Option σ} {entries : List ε} {entry : ε}
    (hmem : entry ∈ entries) (h : ∀ s, f s entry = none) (s : σ) :
    entries.foldlM f s = none := by
  induction entries generalizing s with
  | nil => exact absurd hmem List.not_mem_nil
  | cons first entries ih =>
      rw [List.foldlM_cons]
      obtain rfl | hmem := List.mem_cons.mp hmem
      · rw [h s]
        rfl
      · cases f s first with
        | none => rfl
        | some next => exact ih hmem next

/-- A section refuses its table if it refuses one key of it. -/
theorem readSection_eq_none {origin : Origin} {pair : String × Value} (hpair : pair ∈ pairs)
    (hrefused : ∀ part ∈ sections, part.name = name →
      ∀ reset step, part.Takes reset step →
      ∀ s, step s pair = none) (s : Settings) :
    readSection s (name, .table origin pairs) = none := by
  by_cases hname : name ∈ sections.map (·.name)
  · obtain ⟨part, hpart, hpartName, hread⟩ := exists_section hname
    obtain ⟨reset, step, htakes⟩ := exists_takes part hpart
    rw [hread, htakes.read_table]
    exact foldlM_eq_none hpair (hrefused part hpart hpartName reset step htakes) _
  · exact readSection_of_not_mem hname s

/-- **A table with a fault is refused**, whatever else it says. -/
theorem ofTable?_faulty (h : Faulty table) : ofTable? table = none := by
  cases h with
  | unknownSection hentry hname => exact foldlM_eq_none hentry (readSection_of_not_mem hname) _
  | unknownKey hentry hpair hpart hunknown =>
      refine foldlM_eq_none hentry (readSection_eq_none hpair ?_) _
      rintro part hmem rfl reset step htakes s
      rw [htakes.step_unknown s hunknown, if_neg fun h => hpart h.1]
  | badValue hentry hpair hplace hvalue =>
      refine foldlM_eq_none hentry (readSection_eq_none hpair ?_) _
      rintro part hmem rfl reset step htakes s
      have hstep := htakes.step_not_written s (congrArg Prod.fst hplace) hvalue
      rwa [hplace] at hstep
  | unreadable hentry hpair hunknown hvalue =>
      refine foldlM_eq_none hentry (readSection_eq_none hpair ?_) _
      rintro part hmem rfl reset step htakes s
      rw [htakes.step_unknown s hunknown, if_neg fun h => ne_true_of_eq_false hvalue h.2]

/-! ### Documents -/

/-- **A document overlays the reference settings with what it says and nothing else.**  When its
tables say choices, it is read as the reference settings with exactly these choices, in whatever
order they stand in it or are made, and whatever the common section holds that means nothing here;
so documents that say the same choices are read alike.  Whatever the rest of a document is, other
keys of the common section may as well be left out.  And with anything else in one place the
document is refused, whatever stands in the others. -/
theorem ofToml_overlays :
    (∀ (document : String) (table : Entries) (choices order : List Choice),
      Toml.read document = some table → Says table choices → order.Perm choices →
        ofToml document = .ok (reference.choosing order) ∧
          ∀ (other : String) (table' : Entries), Toml.read other = some table' →
            Says table' order → ofToml other = ofToml document) ∧
      (∀ (document other : String) (before after pairs : Entries) (origin origin' : Origin),
        Toml.read document = some (before ++ ("shared", .table origin pairs) :: after) →
        Toml.read other =
          some (before ++ ("shared", .table origin' (SettingsKey.known "shared" pairs)) ::
            after) →
        Skips "shared" pairs → ofToml document = ofToml other) ∧
      ∀ (document : String) (table : Entries),
        Toml.read document = some table → Faulty table →
        ofToml document = .error .unreadable := by
  refine ⟨fun document table choices order hread hsays hperm => ?_,
    fun document other before after pairs origin origin' hread hread' hskips => ?_,
    fun document table hread hfaulty => ?_⟩
  · have hresult : ofToml document = .ok (reference.choosing order) := by
      rw [ofToml, hread, Option.bind_some, ofTable?_says hsays (.of_read hread) hperm]
    refine ⟨hresult, fun other table' hread' hsays' => ?_⟩
    rw [hresult, ofToml, hread', Option.bind_some, ofTable?_says hsays' (.of_read hread') (.refl _)]
  · have hshared : ∀ s, readSection s ("shared", .table origin pairs) =
        readSection s ("shared", .table origin' (SettingsKey.known "shared" pairs)) :=
      readSection_known hskips
    have hsame : ofTable? (before ++ ("shared", .table origin pairs) :: after) =
        ofTable? (before ++ ("shared", .table origin' (SettingsKey.known "shared" pairs)) ::
          after) := by
      simp only [ofTable?, List.foldlM_append, List.foldlM_cons, hshared]
    rw [ofToml, ofToml, hread, hread', Option.bind_some, Option.bind_some, hsame]
  · rw [ofToml, hread, Option.bind_some, ofTable?_faulty hfaulty]

/-- A manual start with at most eight clients, said in two orders, of which the second comes with
the site of the plant in the common section, which means nothing here; another common section with
it and without; and a leak in the building, of which nothing is known. -/
theorem ofToml_overlays_manual :
    let start : List Toml.Section :=
      [⟨"initial", [("mode", .string "manual"), ("valve", .integer 70)]⟩,
        ⟨"server", [("max_clients", .integer 8)]⟩]
    let turned : List Toml.Section :=
      [⟨"shared", [("site", .string "north")]⟩, ⟨"server", [("max_clients", .integer 8)]⟩,
        ⟨"initial", [("valve", .integer 70), ("mode", .string "manual")]⟩]
    let extended : List Toml.Section :=
      [⟨"shared", [("site", .string "north"), ("log_level", .string "loud")]⟩]
    let plain : List Toml.Section := [⟨"shared", [("log_level", .string "loud")]⟩]
    let leaking : List Toml.Section := [⟨"physics", [("leak", .integer 1)]⟩]
    let settings : Settings :=
      { reference with
        server := { ServerSettings.reference with maxClients := some 8 }
        startup := { InitialConditions.reference with mode := .manual, valve := 70 } }
    ofToml (Toml.write start) = .ok settings ∧
      ofToml (Toml.write turned) = ofToml (Toml.write start) ∧
      ofToml (Toml.write extended) = ofToml (Toml.write plain) ∧
      ofToml (Toml.write leaking) = .error .unreadable := by
  intro start turned extended plain leaking settings
  have hfit : ∀ parts ∈ [start, turned, extended, plain, leaking],
      (∀ part ∈ parts, part.WellFormed) ∧ (parts.map (·.name)).Nodup := by decide
  have hread : ∀ parts ∈ [start, turned, extended, plain, leaking],
      Toml.read (Toml.write parts) = some (parts.map Section.entry) :=
    fun parts hmem => Toml.read_write (hfit parts hmem).1 (hfit parts hmem).2
  let manual : Choice := ⟨.mode, ControlMode.manual⟩
  let open70 : Choice := ⟨.valve, (70 : UInt8)⟩
  let eight : Choice := ⟨.maxClients, (8 : UInt64)⟩
  have hstart : Says (start.map Section.entry) [manual, open70, eight] :=
    @Says.cons _ _ _ _ [manual, open70] [eight] (by decide) (by decide)
      (.cons ⟨rfl, .inl rfl⟩ (.cons ⟨rfl, rfl⟩ .nil))
      (@Says.cons _ _ _ _ [eight] [] (by decide) (by decide) (.cons ⟨rfl, rfl⟩ .nil) .nil)
  have hturned : Says (turned.map Section.entry) [eight, open70, manual] :=
    @Says.cons _ _ _ _ [] [eight, open70, manual] (by decide) (by decide) .nil
      (@Says.cons _ _ _ _ [eight] [open70, manual] (by decide) (by decide)
        (.cons ⟨rfl, rfl⟩ .nil)
        (@Says.cons _ _ _ _ [open70, manual] [] (by decide) (by decide)
          (.cons ⟨rfl, rfl⟩ (.cons ⟨rfl, .inl rfl⟩ .nil)) .nil))
  have hperm : [eight, open70, manual].Perm [manual, open70, eight] :=
    List.reverse_perm [manual, open70, eight]
  obtain ⟨hresult, hsame⟩ := ofToml_overlays.1 _ _ _ _ (hread start (by simp)) hstart hperm
  have hskips : Skips "shared"
      [("site", .scalar (.string "north")), ("log_level", .scalar (.string "loud"))] := by decide
  have hleak : Faulty (leaking.map Section.entry) :=
    @Faulty.unknownKey _ "physics" "leak" .header [("leak", .scalar (.integer 1))]
      (.scalar (.integer 1)) List.mem_cons_self List.mem_cons_self (by decide) (by decide)
  refine ⟨hresult, hsame _ _ (hread turned (by simp)) hturned, ?_, ?_⟩
  · exact ofToml_overlays.2.1 _ _ [] [] _ .header .header (hread extended (by simp))
      (hread plain (by simp)) hskips
  · exact ofToml_overlays.2.2 _ _ (hread leaking (by simp)) hleak

end Settings

end HeatingPlant
