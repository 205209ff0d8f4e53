import HeatingPlant.CommandLine.Rehearsal
import HeatingPlant.Proofs.CommandLine.Acceptance
import HeatingPlant.Proofs.CommandLine.Disk

/-!
# What a run of the program leaves behind

Whatever the words of its command line, the program leaves the files that it found as they were, but
for its journal at the end of one of them, and says with its exit code whether it went well.

## Main definitions

* `Report.Regular` — a report of success, or of a failure with its name

## Main statements

* `Endpoint.refusal?_eq_none_iff` — the endpoints that can be had
* `Launch.outcome_of_valid` — with valid settings only the endpoint decides whether there is a
  service
* `Launch.rehearse_cases` — no journal, none that could be opened, or all of it at the end of
  its file
* `Launch.textAt_journal` — where the journal is found
* `textAt_rehearse`, `shows_rehearse` — nothing is lost, and nothing happens where nothing may
* `plan_rehearse` — started again, the program plans the same
* `report_rehearse` — how the program ends
* `findSettings_usual` — a settings file in the working directory is found

## Design notes

That the program plans the same again takes a settings file that is not the journal: one that is has
got lines that say no settings.
-/

namespace HeatingPlant

/-! ### Endpoints that can be had -/

theorem Host.refusal?_eq_none_iff {host : Host} : host.refusal? = none ↔ host.isOwn = true := by
  unfold refusal?
  split
  · rename_i hown
    exact iff_of_true rfl hown
  · rename_i hforeign
    refine iff_of_false ?_ hforeign
    split
    · split
      · nofun
      · split <;> nofun
    · nofun

/-- An address of the computer does not stand for a group. -/
theorem Host.isMulticast_of_isOwn {host : Host} (h : host.isOwn = true) :
    host.isMulticast = false := by
  cases host with
  | v4 a b c d => rfl
  | v6 groups scope =>
      have hfirst : groups.toList.head? = some (groups.get ⟨0, by decide⟩) := by
        rw [List.head?_eq_getElem?]
        exact Vector.getElem?_toList.trans (Vector.getElem?_eq_getElem (by decide))
      have hzero : groups.toList.head? = some 0 := by
        rw [isOwn, Bool.or_eq_true, decide_eq_true_eq, decide_eq_true_eq] at h
        obtain hmapped | hunspecified := h
        · cases hgroups : groups.toList with
          | nil => simp [hgroups] at hmapped
          | cons first rest =>
              rw [hgroups, List.take_succ_cons, List.cons.injEq] at hmapped
              exact congrArg some hmapped.1
        · rw [hunspecified]
          rfl
      rw [isMulticast, ← Option.some.inj (hzero.symm.trans hfirst)]
      rfl

/-- **An endpoint can be had if the computer has its address, and its port is not kept.** -/
theorem Endpoint.refusal?_eq_none_iff {endpoint : Endpoint} :
    endpoint.refusal? = none ↔ endpoint.hasKeptPort = false ∧ endpoint.host.isOwn = true := by
  unfold refusal?
  split
  · rename_i hmulticast
    refine iff_of_false nofun fun h => ?_
    rw [Host.isMulticast_of_isOwn h.2] at hmulticast
    cases hmulticast
  · split
    · rename_i hkept
      exact iff_of_false nofun fun h => absurd hkept (ne_true_of_eq_false h.1)
    · rename_i hfree
      rw [Host.refusal?_eq_none_iff]
      exact (and_iff_right (eq_false_of_ne_true hfree)).symm

namespace CommandLine

variable {disk : Disk} {launch : Launch} {options : Options} {logFile : Option String}
  {words : List String}

/-! ### From a plan to a service -/

/-- What starts has valid settings, and a settings file that could be read, if one was named. -/
theorem Options.launch_of_plan {file : Option SettingsFile}
    (h : options.plan file = .launch launch) :
    launch.settings.Valid ∧ launch.config = options.config ∧
      ∀ found ∈ file, ∃ content, found = .bytes content := by
  unfold plan at h
  split at h
  · cases h
  · rename_i settings hload
    split at h
    · cases h
    · cases h
      cases hfile : Settings.load file with
      | error e =>
          rw [hfile] at hload
          cases hload
      | ok loaded =>
          rw [hfile] at hload
          have hvalid := (Settings.checked_eq_ok.mp hload).1
          refine ⟨?_, rfl, ?_⟩
          · rw [(Settings.checked_eq_ok.mp hload).2]
            exact hvalid
          · rintro found rfl
            cases found with
            | missing => cases hfile
            | unreadable => cases hfile
            | bytes content => exact ⟨content, rfl⟩

/-- **With valid settings only the endpoint decides whether there is a service.** -/
theorem Launch.outcome_of_valid (h : launch.settings.Valid) :
    launch.outcome =
      match launch.settings.server.listen.refusal? with
      | none => (launch.greeting ++ launch.course (.start launch.settings), .quiet)
      | some refusal =>
        let reason := (StartError.bind launch.settings.server.listen refusal.message).message
        (launch.greeting ++ [.failed reason], .failure reason) := by
  have hstart : Service.start? launch.settings = .ok (.start launch.settings) := by
    rw [Service.start?, Settings.checked_of_valid h]
  have hlisten : Service.listen? launch.settings =
      match launch.settings.server.listen.refusal? with
      | none => .ok (.start launch.settings)
      | some refusal => .error (.bind launch.settings.server.listen refusal.message) := by
    rw [Service.listen?, hstart]
    rfl
  rw [outcome, hlisten]
  cases launch.settings.server.listen.refusal? <;> rfl

/-! ### The journal -/

/-- **No journal is asked for, or it cannot be opened, or it is at the end of its file**, and
there are new directories at most besides. -/
theorem Launch.rehearse_cases (launch : Launch) (disk : Disk) :
    (launch.settings.common.logFile = none ∧ launch.rehearse disk = (disk, launch.outcome.2)) ∨
      ∃ path, launch.settings.common.logFile = some path ∧
        ((∃ e : DiskError, disk.Widens (launch.rehearse disk).1 ∧
            (launch.rehearse disk).2 = .failure e.message) ∨
          ∃ place, (launch.rehearse disk).1.resolve path = .ok place ∧
            disk.Records place (launch.lines "" launch.outcome.1) (launch.rehearse disk).1 ∧
            (launch.rehearse disk).2 = launch.outcome.2) := by
  unfold rehearse
  cases hpath : launch.settings.common.logFile with
  | none => exact .inl ⟨rfl, rfl⟩
  | some path =>
      refine .inr ⟨path, rfl, ?_⟩
      dsimp only
      obtain ⟨later, e, hopen, hwidens⟩ | ⟨later, place, hopen, -, -⟩ :=
        disk.openForAppend_cases path
      · rw [hopen]
        exact .inl ⟨e, hwidens, rfl⟩
      · obtain ⟨hresolve, hrecords⟩ := Disk.records_append_of_open hopen _
        rw [hopen]
        exact .inr ⟨place, hresolve, hrecords, rfl⟩

/-- **A journal that can be opened is found where it was asked for**, after what was there
before. -/
theorem Launch.textAt_journal {path : String} {place : List String} {opened : Disk}
    (hpath : launch.settings.common.logFile = some path)
    (hopen : disk.openForAppend path = (opened, .ok place))
    (hkeeps : disk.shows place ≠ some .void) :
    (launch.rehearse disk).1.textAt path =
      .ok (((disk.shows place).bind Kind.text?).getD "" ++ launch.lines "" launch.outcome.1) := by
  obtain ⟨hresolve, hrecords⟩ := Disk.records_append_of_open hopen _
  rw [rehearse, hpath]
  dsimp only
  rw [hopen]
  exact hrecords.textAt_of_keeps hresolve hkeeps

/-- A run of the program leaves the files as they were, or has its journal at the end of one. -/
theorem rehearse_cases (disk : Disk) (logFile : Option String) (words : List String) :
    disk.Widens (rehearse disk logFile words).1 ∨
      ∃ launch path place, (parse logFile words).plan (findSettings disk) = .launch launch ∧
        launch.settings.common.logFile = some path ∧
        (rehearse disk logFile words).1.resolve path = .ok place ∧
        disk.Records place (launch.lines "" launch.outcome.1) (rehearse disk logFile words).1 := by
  unfold rehearse
  split
  · exact .inl (.refl disk)
  · rename_i launch hplan
    rcases launch.rehearse_cases disk with
      ⟨-, hnone⟩ | ⟨path, hpath, ⟨e, hwidens, -⟩ | ⟨place, hresolve, hrecords, -⟩⟩
    · rw [hnone]
      exact .inl (.refl disk)
    · exact .inl hwidens
    · exact .inr ⟨launch, path, place, hplan, hpath, hresolve, hrecords⟩

/-- **No run of the program takes anything from a file.** -/
theorem textAt_rehearse {path content : String} (h : disk.textAt path = .ok content) :
    ∃ more, (rehearse disk logFile words).1.textAt path = .ok (content ++ more) := by
  obtain hwidens | ⟨launch, _, _, -, -, -, hrecords⟩ := rehearse_cases disk logFile words
  · exact ⟨"", by rw [String.append_empty, hwidens.textAt_of_ok h]⟩
  · obtain hsame | ⟨-, hmore⟩ := hrecords.textAt_of_ok h
    · exact ⟨"", by rw [String.append_empty, hsame]⟩
    · exact ⟨_, hmore⟩

/-- **Nothing happens where nothing may.** -/
theorem shows_rehearse {place : List String} (h : disk.mayChange place = false) :
    (rehearse disk logFile words).1.shows place = disk.shows place := by
  obtain hwidens | ⟨launch, path, found, -, -, -, hrecords⟩ := rehearse_cases disk logFile words
  · exact (hwidens.widensAt place).shows_of_not_mayChange h
  · refine (hrecords.widensAt place ?_).shows_of_not_mayChange h
    rintro rfl
    rw [hrecords.mayChange] at h
    cases h

theorem findSettings_of_textAt {path text : String} (h : disk.textAt path = .ok text) :
    findSettings disk path = .bytes text.toUTF8 := by
  rw [findSettings, h]

theorem textAt_of_findSettings {path : String} {content : ByteArray}
    (h : findSettings disk path = .bytes content) :
    ∃ text, disk.textAt path = .ok text ∧ content = text.toUTF8 := by
  unfold findSettings at h
  split at h
  · rename_i text htext
    cases h
    exact ⟨text, htext, rfl⟩
  · cases h
  · cases h

/-- A settings file that is not the journal says after a run what it said before. -/
theorem textAt_settings_rehearse {config : String}
    (hplan : (parse logFile words).plan (findSettings disk) = .launch launch)
    (hconfig : ∀ path ∈ launch.settings.common.logFile,
      (rehearse disk logFile words).1.resolve config ≠
        (rehearse disk logFile words).1.resolve path)
    {content : String} (h : disk.textAt config = .ok content) :
    (rehearse disk logFile words).1.textAt config = .ok content := by
  obtain hwidens | ⟨_, path, place, hplan', hpath, hresolve, hrecords⟩ :=
    rehearse_cases disk logFile words
  · exact hwidens.textAt_of_ok h
  · obtain rfl := Plan.launch.inj (hplan.symm.trans hplan')
    obtain hsame | ⟨hfound, -⟩ := hrecords.textAt_of_ok h
    · exact hsame
    · exact absurd ((hrecords.resolve hfound).trans hresolve.symm) (hconfig path hpath)

/-- **Started again, the program plans the same**, unless its settings file is its journal. -/
theorem plan_rehearse (hplan : (parse logFile words).plan (findSettings disk) = .launch launch)
    (hconfig : ∀ config ∈ launch.config, ∀ path ∈ launch.settings.common.logFile,
      (rehearse disk logFile words).1.resolve config ≠
        (rehearse disk logFile words).1.resolve path) :
    (parse logFile words).plan (findSettings (rehearse disk logFile words).1) = .launch launch := by
  cases hparse : parse logFile words with
  | help => rw [hparse] at hplan; cases hplan
  | version => rw [hparse] at hplan; cases hplan
  | misuse => rw [hparse] at hplan; cases hplan
  | run options =>
      have hoptions := (plan_of_parse hparse (findSettings disk)).symm.trans hplan
      show options.plan (options.config.map (findSettings (rehearse disk logFile words).1)) = _
      rw [← hoptions]
      cases hfile : options.config with
      | none => rfl
      | some config =>
          obtain ⟨-, hnamed, hread⟩ := Options.launch_of_plan hoptions
          rw [hfile] at hnamed hread
          obtain ⟨content, hfound⟩ := hread (findSettings disk config) rfl
          obtain ⟨text, htext, -⟩ := textAt_of_findSettings hfound
          have hlater := textAt_settings_rehearse hplan (hconfig config hnamed) htext
          rw [Option.map_some, Option.map_some, findSettings_of_textAt htext,
            findSettings_of_textAt hlater]

/-! ### The end of a run -/

/-- A report of success, or of a failure with its name. -/
inductive Report.Regular : Report → Prop
  | printing (output : String) : Regular (.printing output)
  | failure (reason : String) : Regular (.failure reason)

theorem Options.regular_of_plan {file : Option SettingsFile} {report : Report}
    (h : options.plan file = .finish report) : report.Regular := by
  unfold plan at h
  split at h
  · cases h
    exact .failure _
  · split at h
    · cases h
      exact .printing _
    · cases h

theorem Launch.regular_outcome (launch : Launch) : launch.outcome.2.Regular := by
  unfold outcome
  split
  · exact .printing ""
  · exact .failure _

theorem Launch.regular_rehearse (launch : Launch) (disk : Disk) :
    (launch.rehearse disk).2.Regular := by
  obtain ⟨-, hnone⟩ | ⟨path, -, ⟨e, -, hfailure⟩ | ⟨place, -, -, hreport⟩⟩ :=
    launch.rehearse_cases disk
  · rw [hnone]
    exact launch.regular_outcome
  · rw [hfailure]
    exact .failure _
  · rw [hreport]
    exact launch.regular_outcome

/-- **The program ends well, or with a failure that it names**, unless its words make no sense. -/
theorem report_rehearse (disk : Disk) (logFile : Option String) (words : List String) :
    (parse logFile words = .misuse ∧ (rehearse disk logFile words).2 = ⟨2, "", none⟩) ∨
      (rehearse disk logFile words).2.Regular := by
  unfold rehearse
  cases hparse : parse logFile words with
  | misuse => exact .inl ⟨rfl, rfl⟩
  | help => exact .inr (.printing _)
  | version => exact .inr (.printing _)
  | run options =>
      right
      dsimp only [Invocation.plan]
      cases hplan : options.plan (options.config.map (findSettings disk)) with
      | finish report => exact Options.regular_of_plan hplan
      | launch launch => exact launch.regular_rehearse disk

/-! ### A file in the working directory -/

/-- A directory stays one whatever is put elsewhere, or into it, one thing after the other. -/
theorem Node.directory_at?_foldl_put {home : List String} {entries : List (List String × Node)}
    (h : ∀ entry ∈ entries, ¬entry.1 <+: home) {root : Node}
    (hroot : (root.at? home).map kind = some .directory) :
    ((entries.foldl (fun root entry => put entry.2 entry.1 root) root).at? home).map kind =
      some .directory := by
  induction entries generalizing root with
  | nil => exact hroot
  | cons entry entries ih =>
      exact ih (fun other hmem => h other (List.mem_cons_of_mem entry hmem))
        (directory_at?_put entry.2 hroot (h entry List.mem_cons_self))

/-- The working directory of a usual system is there, unless it should be at or under a file. -/
theorem Disk.shows_usual_home {home : List String}
    (h : ∀ entry ∈ usualFiles, ¬entry.1 <+: home) :
    (usual home).shows home = some .directory := by
  have hput : ∀ root, (Node.put (.directory []) home root).at? home = some (.directory []) :=
    fun root => by simpa [Node.at?] using Node.at?_put (.directory []) home root []
  rw [shows, node?, usual]
  dsimp only
  -- the working directory is put last of the directories, and the files after it
  rw [List.foldl_append, List.map_append, List.foldl_append]
  exact Node.directory_at?_foldl_put h (congrArg (Option.map Node.kind) (hput _))

/-- **On a usual system a settings file in the working directory is found.** -/
theorem findSettings_usual {home : List String} {name : String} (hname : IsPlainName name)
    (hhome : ∀ entry ∈ Disk.usualFiles, ¬entry.1 <+: home) (content : String) :
    findSettings ((Disk.usual home).putFile name content) name = .bytes content.toUTF8 :=
  findSettings_of_textAt (hname.textAt_putFile (Disk.shows_usual_home hhome) content)

end CommandLine

end HeatingPlant
