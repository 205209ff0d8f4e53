import HeatingPlant.Operation
import HeatingPlant.Proofs.Facility.Crash
import HeatingPlant.Proofs.Plant.AfterBurst
import HeatingPlant.Proofs.Plant.HeatBalance

/-!
# The trace of the status

Every step of the timer tells of the change of status that it brought, and reports now and then.
What it tells is the whole history of the status: replayed from the startup, the changes give the
status as it is.  The burst is the last of them.

## Main definitions

* `Status.Leads` — a chain of changes leads from one status to another
* `Operation.stepping` — the operation as it stands whenever a step of a run begins
* `Operation.change`, `Operation.notices` — the change of status that such a step brings, and
  all that it tells
* `StatusChange.ToldBy` — a notice tells of a change in the words that it deserves
* `Operation.TellsStep` — what a single step tells

## Main statements

* `Operation.change_eq` — a step brings a change exactly if the status is another one after it
* `Operation.leads_run` — the changes of a run are a chain
* `Status.Leads.countP_burst`, `Status.Leads.eq_nil_of_burst` — a chain that no burst starts
  ends with it
* `Operation.tellsStep` — what each step of a run tells
* `Operation.status_trace` — the trace of every run

## Design notes

A change is told by the step that brought it, and nobody else changes the status.  So the trace is
read off the operations in which the steps begin, whatever comes between them.
-/

namespace HeatingPlant

open Modbus

/-! ### Chains of changes -/

namespace Status

/-- A chain of changes leads from a status to another one: each change is one, and starts from
where the one before ended. -/
inductive Leads : Status → List StatusChange → Status → Prop
  | nil (status : Status) : Leads status [] status
  | cons {first last : Status} {change : StatusChange} {rest : List StatusChange}
      (starts : change.before = first) (differs : change.before ≠ change.after)
      (later : Leads change.after rest last) : Leads first (change :: rest) last

namespace Leads

variable {first middle last : Status} {changes more : List StatusChange}

theorem append (h : Leads first changes middle) (h' : Leads middle more last) :
    Leads first (changes ++ more) last := by
  induction h with
  | nil => exact h'
  | cons starts differs later ih => exact .cons starts differs (ih h')

/-- No change follows a burst, if none starts from one. -/
theorem eq_nil_of_burst (h : Leads first changes last) (hfirst : first = .burst)
    (hstarts : ∀ change ∈ changes, change.before ≠ .burst) : changes = [] := by
  cases h with
  | nil => rfl
  | cons starts => exact absurd (starts.trans hfirst) (hstarts _ List.mem_cons_self)

/-- **A chain that starts with whole pipes has one change to a burst if it ends there, and else
none**, if no change starts from a burst. -/
theorem countP_burst (h : Leads first changes last) (hfirst : first ≠ .burst)
    (hstarts : ∀ change ∈ changes, change.before ≠ .burst) :
    changes.countP (·.after = .burst) = if last = .burst then 1 else 0 := by
  induction h with
  | nil => rw [List.countP_nil, if_neg hfirst]
  | @cons first last change rest starts differs later ih =>
      obtain ⟨-, hrest⟩ := List.forall_mem_cons.mp hstarts
      by_cases hburst : change.after = .burst
      · obtain rfl := later.eq_nil_of_burst hburst hrest
        cases later
        simp [hburst]
      · rw [List.countP_cons_of_neg (by simpa using hburst), ih hburst hrest]

/-- **Nothing comes after the change to a burst.** -/
theorem eq_nil_of_after_burst (h : Leads first changes last)
    (hstarts : ∀ change ∈ changes, change.before ≠ .burst) {earlier later : List StatusChange}
    {change : StatusChange} (hchanges : changes = earlier ++ change :: later)
    (hburst : change.after = .burst) : later = [] := by
  induction h generalizing earlier with
  | nil => cases earlier <;> cases hchanges
  | cons starts differs hlater ih =>
      obtain ⟨-, hrest⟩ := List.forall_mem_cons.mp hstarts
      cases earlier with
      | nil =>
          cases hchanges
          exact hlater.eq_nil_of_burst hburst hrest
      | cons _ earlier =>
          cases hchanges
          exact ih hrest rfl

end Leads

end Status

/-! ### The words of a notice -/

/-- Whether a notice is the periodic report. -/
def Notice.isStatusLine : Notice → Bool
  | statusLine _ => true
  | _ => false

/-- The notice tells of the change in the words that it deserves. -/
structure StatusChange.ToldBy (change : StatusChange) (notice : Notice) : Prop where
  /-- There is something to tell. -/
  differs : change.before ≠ change.after
  /-- A burst has words of its own. -/
  burst : (∃ temperature ticks, notice = .pipesBurst temperature ticks) ↔ change.after = .burst
  /-- It is the only error. -/
  error : notice.level = .error ↔ change.after = .burst
  /-- Any other change for the worse is a warning. -/
  warn : notice.level = .warn ↔ change.after ≠ .burst ∧ change.before < change.after
  /-- One for the better is not. -/
  info : notice.level = .info ↔ change.after < change.before

/-- **A change of status is told in the words that it deserves.** -/
theorem StatusChange.toldBy_changeNotice {change : StatusChange}
    (h : change.before ≠ change.after) (s : State) : change.ToldBy (changeNotice s change) := by
  have hfalls : ¬change.before < change.after ↔ change.after < change.before := by
    have hne : change.before.severity ≠ change.after.severity := mt Status.severity_injective h
    show ¬change.before.severity < change.after.severity ↔
      change.after.severity < change.before.severity
    omega
  by_cases hburst : change.after = .burst
  · have hrises : ¬change.after < change.before := by
      have hmost := Status.le_burst change.before
      rw [hburst]
      exact Nat.not_lt.mpr hmost
    rw [changeNotice, if_pos hburst]
    exact ⟨h, iff_of_true ⟨_, _, rfl⟩ hburst, iff_of_true rfl hburst,
      iff_of_false nofun fun hwarn => hwarn.1 hburst, iff_of_false nofun hrises⟩
  · have hlevel : (Notice.statusChanged change s.insideTemperature).level =
        if change.before < change.after then .warn else .info := rfl
    rw [changeNotice, if_neg hburst]
    by_cases hworse : change.before < change.after
    · rw [if_pos hworse] at hlevel
      refine ⟨h, iff_of_false nofun hburst, ?_, ?_, ?_⟩
      · exact iff_of_false (hlevel ▸ nofun) hburst
      · exact iff_of_true hlevel ⟨hburst, hworse⟩
      · exact iff_of_false (hlevel ▸ nofun) fun hbetter => hfalls.mpr hbetter hworse
    · rw [if_neg hworse] at hlevel
      refine ⟨h, iff_of_false nofun hburst, ?_, ?_, ?_⟩
      · exact iff_of_false (hlevel ▸ nofun) hburst
      · exact iff_of_false (hlevel ▸ nofun) fun hwarn => hworse hwarn.2
      · exact iff_of_true hlevel (hfalls.mp hworse)

/-- What is told of a change, if there is one, is no report. -/
theorem kinds_of_mem_map_changeNotice {s : State} {change : Option StatusChange} {notice : Notice}
    (h : notice ∈ (change.map (changeNotice s)).toList) :
    notice.isStatusChange = true ∧ notice.isStatusLine = false := by
  obtain ⟨change, -, rfl⟩ := Option.map_eq_some_iff.mp (Option.mem_toList.mp h)
  unfold changeNotice
  split
  · exact ⟨rfl, rfl⟩
  · exact ⟨rfl, rfl⟩

/-- A report is due at the multiples of the period, and never if that is zero. -/
theorem Timer.reportDue_iff {timer : Timer} {steps : ℕ} :
    timer.reportDue steps = true ↔ 0 < timer.reportEvery ∧ timer.reportEvery ∣ steps := by
  rw [reportDue, Bool.and_eq_true, decide_eq_true_iff, decide_eq_true_iff, Nat.dvd_iff_mod_eq_zero]

namespace Operation

variable {operation : Operation}

/-! ### One step -/

/-- The change of status that a step brings. -/
def change (operation : Operation) : Option StatusChange :=
  (operation.plant.step operation.timer.dynamics).2

/-- What a step tells. -/
def notices (operation : Operation) : List Notice := (operation.timer.step operation.plant).2.2

/-- **A step brings a change exactly if the status is another one after it.** -/
theorem change_eq (operation : Operation) :
    operation.change =
      if operation.plant.status = (operation.after .step).plant.status then none
      else some ⟨operation.plant.status, (operation.after .step).plant.status⟩ := by
  have hafter : (operation.after .step).plant =
      (operation.plant.tick operation.timer.dynamics.thermal operation.timer.dynamics.dt).1.control
        operation.timer.dynamics.controller := plant_after operation .step
  rw [hafter, State.status_control]
  show (operation.plant.tick _ _).2 = _
  cases hburst : operation.plant.pipesBurst with
  | true => rw [State.tick_of_pipesBurst hburst, if_pos rfl]
  | false =>
      rw [State.tick_of_intact hburst, State.tick, hburst]
      rfl

/-- A step of a burst plant brings none. -/
theorem change_of_pipesBurst (h : operation.plant.pipesBurst = true) : operation.change = none := by
  show (operation.plant.tick _ _).2 = none
  rw [State.tick_of_pipesBurst h]

theorem leads_step (operation : Operation) :
    Status.Leads operation.plant.status operation.change.toList
      (operation.after .step).plant.status := by
  rw [change_eq]
  split
  · rename_i hsame
    rw [← hsame]
    exact .nil _
  · rename_i hdiffers
    exact .cons rfl hdiffers (.nil _)

/-- Nothing but a step changes the status. -/
theorem status_after {occurrence : Occurrence} (h : occurrence ≠ .step) :
    (operation.after occurrence).plant.status = operation.plant.status := by
  rw [plant_after]
  cases occurrence with
  | step => exact absurd rfl h
  | request request => exact (State.writtenFrom_serve operation.plant request.action).status
  | crash reason => exact State.status_crash

/-- What a single step tells: the change of status that it brought, if there was one, and the
report, if it is due. -/
structure TellsStep (operation : Operation) : Prop where
  /-- The change is told, in the words that it deserves. -/
  change : ∀ change, operation.change = some change →
    change.ToldBy (changeNotice (operation.after .step).plant change)
  /-- It is told once, and there is no other. -/
  changes : operation.notices.filter Notice.isStatusChange =
    (operation.change.map (changeNotice (operation.after .step).plant)).toList
  /-- It is the burst exactly if the pipes burst in this step. -/
  burst : (∃ change, operation.change = some change ∧ change.after = .burst) ↔
    operation.plant.pipesBurst = false ∧ (operation.after .step).plant.pipesBurst = true
  /-- The report is due whenever the number of the step is a multiple of the period. -/
  line : operation.notices.filter Notice.isStatusLine =
    if 0 < operation.timer.reportEvery ∧
      operation.timer.reportEvery ∣ operation.timer.steps + 1 then
      [.statusLine (operation.after .step).plant]
    else []
  /-- Nothing else is told. -/
  all : ∀ notice ∈ operation.notices,
    notice.isStatusChange = true ∨ notice.isStatusLine = true

theorem notices_eq (operation : Operation) :
    operation.notices =
      (operation.change.map (changeNotice (operation.after .step).plant)).toList ++
        if 0 < operation.timer.reportEvery ∧
            operation.timer.reportEvery ∣ operation.timer.steps + 1 then
          [.statusLine (operation.after .step).plant]
        else [] := by
  simp only [← Timer.reportDue_iff]
  rfl

/-- **A step tells of the burst exactly if the pipes burst in it.** -/
theorem change_burst_iff (h : operation.plant.Coherent) :
    (∃ change, operation.change = some change ∧ change.after = .burst) ↔
      operation.plant.pipesBurst = false ∧ (operation.after .step).plant.pipesBurst = true := by
  have hnext : (operation.after .step).plant.Coherent := by
    rw [plant_after]
    exact h.after _ _
  rw [change_eq]
  constructor
  · rintro ⟨change, hchange, hburst⟩
    split at hchange
    · cases hchange
    · rename_i hdiffers
      cases hchange
      refine ⟨eq_false_of_ne_true fun hbefore => hdiffers ?_, hnext.burst_iff.mp hburst⟩
      exact (h.burst_iff.mpr hbefore).trans hburst.symm
  · rintro ⟨hbefore, hafter⟩
    have hburst := hnext.burst_iff.mpr hafter
    have hdiffers : operation.plant.status ≠ (operation.after .step).plant.status := by
      rw [hburst, Ne, h.burst_iff, hbefore]
      exact Bool.false_ne_true
    exact ⟨_, if_neg hdiffers, hburst⟩

/-- **What a step tells.** -/
theorem tellsStep (h : operation.plant.Coherent) : operation.TellsStep where
  change := by
    intro change hchange
    rw [change_eq] at hchange
    split at hchange
    · cases hchange
    · rename_i hdiffers
      cases hchange
      exact StatusChange.toldBy_changeNotice hdiffers _
  changes := by
    rw [notices_eq, List.filter_append,
      List.filter_eq_self.mpr fun _ hmem => (kinds_of_mem_map_changeNotice hmem).1]
    split
    · exact List.append_nil _
    · exact List.append_nil _
  burst := change_burst_iff h
  line := by
    rw [notices_eq, List.filter_append, List.filter_eq_nil_iff.mpr fun _ hmem =>
      Bool.eq_false_iff.mp (kinds_of_mem_map_changeNotice hmem).2]
    split
    · rfl
    · rfl
  all := by
    intro notice hnotice
    rw [notices_eq, List.mem_append] at hnotice
    rcases hnotice with hchange | hline
    · exact .inl (kinds_of_mem_map_changeNotice hchange).1
    · split at hline
      · rw [List.mem_singleton.mp hline]
        exact .inr rfl
      · cases hline

/-! ### Runs -/

/-- The operation as it stands whenever a step of some occurrences begins. -/
def stepping (operation : Operation) : List Occurrence → List Operation
  | [] => []
  | occurrence :: rest =>
    (if occurrence = .step then [operation] else []) ++ (operation.after occurrence).stepping rest

theorem stepping_cons_step (operation : Operation) (rest : List Occurrence) :
    operation.stepping (.step :: rest) = operation :: (operation.after .step).stepping rest := rfl

theorem stepping_cons_of_ne {occurrence : Occurrence} (h : occurrence ≠ .step)
    (operation : Operation) (rest : List Occurrence) :
    operation.stepping (occurrence :: rest) = (operation.after occurrence).stepping rest := by
  rw [stepping, if_neg h, List.nil_append]

/-- Where a step begins is a place that the run comes to. -/
theorem exists_of_mem_stepping {occurrences : List Occurrence} {begun : Operation}
    (h : begun ∈ operation.stepping occurrences) :
    ∃ before later, occurrences = before ++ .step :: later ∧ begun = operation.run before := by
  induction occurrences generalizing operation with
  | nil => cases h
  | cons occurrence rest ih =>
      rw [stepping, List.mem_append] at h
      rcases h with hfirst | hlater
      · split at hfirst
        · rename_i hstep
          exact ⟨[], rest, by rw [hstep]; rfl, List.mem_singleton.mp hfirst⟩
        · cases hfirst
      · obtain ⟨before, later, rfl, rfl⟩ := ih hlater
        exact ⟨occurrence :: before, later, rfl, rfl⟩

/-- The changes of status that the steps of some occurrences bring. -/
def changes (operation : Operation) (occurrences : List Occurrence) : List StatusChange :=
  (operation.stepping occurrences).filterMap change

/-- **The changes of a run lead from the status before it to the status after it.** -/
theorem leads_run (operation : Operation) (occurrences : List Occurrence) :
    Status.Leads operation.plant.status (operation.changes occurrences)
      (operation.run occurrences).plant.status := by
  induction occurrences generalizing operation with
  | nil => exact .nil _
  | cons occurrence rest ih =>
      have hlater := ih (operation.after occurrence)
      by_cases hstep : occurrence = .step
      · subst hstep
        have hchanges : operation.changes (.step :: rest) =
            operation.change.toList ++ (operation.after .step).changes rest := by
          rw [changes, stepping_cons_step, List.filterMap_cons]
          cases operation.change <;> rfl
        rw [hchanges]
        exact operation.leads_step.append hlater
      · rw [changes, stepping_cons_of_ne hstep, ← status_after hstep]
        exact hlater

/-- No change starts from a burst. -/
theorem before_ne_burst {occurrences : List Occurrence}
    (h : ∀ begun ∈ operation.stepping occurrences, begun.plant.Coherent) :
    ∀ change ∈ operation.changes occurrences, change.before ≠ .burst := by
  intro change hmem hburst
  obtain ⟨begun, hbegun, hchange⟩ := List.mem_filterMap.mp hmem
  have hbefore : change.before = begun.plant.status := by
    rw [change_eq] at hchange
    split at hchange
    · cases hchange
    · cases hchange
      rfl
  rw [change_of_pipesBurst ((h begun hbegun).burst_iff.mp (hbefore.symm.trans hburst))] at hchange
  cases hchange

/-- **What a run tells are the notices of its steps**, but for the crashes of the controller. -/
theorem told_run (operation : Operation) (occurrences : List Occurrence) :
    (operation.run occurrences).told.filter (!·.tellsCrash) =
      operation.told.filter (!·.tellsCrash) ++
        (operation.stepping occurrences).flatMap notices := by
  induction occurrences generalizing operation with
  | nil => simp [stepping]
  | cons occurrence rest ih =>
      rw [run_cons, ih]
      cases occurrence with
      | step =>
          have htold : (operation.after .step).told = operation.told ++ operation.notices := rfl
          have hkept : operation.notices.filter (!·.tellsCrash) = operation.notices := by
            have hnone := operation.timer.countP_tellsCrash_step operation.plant
            rw [List.countP_eq_zero] at hnone
            exact List.filter_eq_self.mpr fun notice hnotice => by simpa using hnone notice hnotice
          rw [htold, List.filter_append, hkept, stepping_cons_step, List.flatMap_cons,
            List.append_assoc]
      | request request => rfl
      | crash reason =>
          have htold : (operation.after (.crash reason)).told =
              operation.told ++ (operation.plant.reportCrash reason).2.2 := rfl
          have hcrash : (operation.plant.reportCrash reason).2.2.filter (!·.tellsCrash) = [] := by
            unfold State.reportCrash
            dsimp only
            split
            · rfl
            · rfl
          rw [htold, List.filter_append, hcrash, List.append_nil]
          rfl

/-- The steps of a run are numbered one after the other. -/
theorem numbers_stepping (operation : Operation) (occurrences : List Occurrence) :
    (operation.stepping occurrences).map (·.timer.steps + 1) =
      List.range' (operation.timer.steps + 1) (occurrences.count .step) := by
  induction occurrences generalizing operation with
  | nil => rfl
  | cons occurrence rest ih =>
      by_cases hstep : occurrence = .step
      · subst hstep
        have hnext : (operation.after .step).timer.steps = operation.timer.steps + 1 := rfl
        rw [stepping_cons_step, List.map_cons, ih, hnext, List.count_cons_self, List.range'_succ]
      · rw [stepping_cons_of_ne hstep, ih, timer_after hstep, List.count_cons_of_ne hstep]

/-- The period of the report stays what it was. -/
theorem reportEvery_run (operation : Operation) (occurrences : List Occurrence) :
    (operation.run occurrences).timer.reportEvery = operation.timer.reportEvery := by
  induction occurrences generalizing operation with
  | nil => rfl
  | cons occurrence rest ih =>
      rw [run_cons, ih]
      cases occurrence <;> rfl

/-- **The trace of the status.**  Whatever happens between the steps of a run from startup, the
notices of the steps are all that is told, but for the crashes of the controller; the steps are
numbered from one on, and each tells of the change of status that it brought and of nothing else,
but for the report at the multiples of its period.  The changes are a chain from the status at
startup to the status as it is.  One of them is the burst if the pipes have burst, and nothing
comes after it. -/
theorem status_trace (settings : Settings) (occurrences : List Occurrence) :
    let first := start settings
    let last := first.run occurrences
    let steps := first.stepping occurrences
    let changes := first.changes occurrences
    last.told.filter (!·.tellsCrash) = steps.flatMap notices ∧
      steps.map (·.timer.steps + 1) = List.range' 1 (occurrences.count .step) ∧
      (∀ step ∈ steps, step.TellsStep ∧
        step.timer.reportEvery = settings.timing.reportEvery.toNat) ∧
      Status.Leads settings.startup.state.status changes last.plant.status ∧
      changes.countP (·.after = .burst) = (if last.plant.pipesBurst then 1 else 0) ∧
      ∀ earlier change later, changes = earlier ++ change :: later → change.after = .burst →
        later = [] := by
  intro first last steps changes
  have hcoherent : ∀ before, (first.run before).plant.Coherent := by
    intro before
    rw [plant_run]
    exact (Settings.coherent_startup settings).run _ _
  have hsteps : ∀ step ∈ steps, step.plant.Coherent ∧
      step.timer.reportEvery = settings.timing.reportEvery.toNat := by
    intro step hstep
    obtain ⟨before, later, -, rfl⟩ := exists_of_mem_stepping hstep
    exact ⟨hcoherent before, reportEvery_run first before⟩
  have hchain : Status.Leads settings.startup.state.status changes last.plant.status :=
    leads_run first occurrences
  have hstarts : ∀ change ∈ changes, change.before ≠ .burst :=
    before_ne_burst fun step hstep => (hsteps step hstep).1
  refine ⟨?_, numbers_stepping first occurrences, ?_, hchain, ?_, ?_⟩
  · exact (told_run first occurrences).trans (List.nil_append _)
  · exact fun step hstep => ⟨tellsStep (hsteps step hstep).1, (hsteps step hstep).2⟩
  · have hintact : settings.startup.state.status ≠ .burst := Status.ofTemperature_ne_burst _
    rw [hchain.countP_burst hintact hstarts]
    simp only [(hcoherent occurrences).burst_iff, last]
  · exact fun earlier change later => hchain.eq_nil_of_after_burst hstarts

/-- The reference plant in a frozen building, whose pipes burst in the first step, and whose
controller crashes before the second. -/
theorem status_trace_frozenStart :
    let first := start .frozenStart
    let occurrences : List Occurrence :=
      [.step, .crash "protocol backend failure: MBAP length 601 exceeds maximum ADU (254)", .step]
    Settings.frozenStart.Valid ∧ first.changes occurrences = [⟨.frozen, .burst⟩] ∧
      Status.Leads .frozen (first.changes occurrences) .burst ∧
      (first.changes occurrences).countP (·.after = .burst) = 1 ∧
      (∀ step ∈ first.stepping occurrences, step.TellsStep) ∧
      ∀ later, first.changes occurrences = ⟨.frozen, .burst⟩ :: later → later = [] := by
  intro first occurrences
  have hchanges : first.changes occurrences = [⟨.frozen, .burst⟩] := by decide +kernel
  have hfrozen : Settings.frozenStart.startup.state.status = .frozen := by decide +kernel
  have hstatus : ((start .frozenStart).run occurrences).plant.status = .burst := by decide +kernel
  have hburst : ((start .frozenStart).run occurrences).plant.pipesBurst = true := by decide +kernel
  obtain ⟨-, -, hsteps, hchain, hcount, hlast⟩ := status_trace .frozenStart occurrences
  rw [hfrozen, hstatus] at hchain
  rw [hburst, if_pos rfl] at hcount
  refine ⟨by decide +kernel, hchanges, hchain, hcount,
    fun step hstep => (hsteps step hstep).1, ?_⟩
  exact fun later hlater => hlast [] ⟨.frozen, .burst⟩ later hlater rfl

end Operation

end HeatingPlant
