import HeatingPlant.Proofs.Facility.LastWriter
import HeatingPlant.Proofs.Plant.Degraded

/-!
# The valve command after a crash

A crash shuts the valve command, and the controller never sets it again.  Clients still can: a
request is accepted for its words alone.  So the command of a plant without control is what
clients made of the zero that the crash left there.  It has no effect, since nothing lets heat
through any more.

## Main definitions

* `requested` — the actions that clients request in a history

## Main statements

* `State.valveCommand_run` — what a history does to the command of a plant without control
* `State.controllerRunning_run_iff` — a controller runs on exactly as long as there is no crash
* `Settings.command_after_crash` — the command after the crash, from the requests since then
* `Settings.command_set_after_crash` — it need not be zero
-/

namespace HeatingPlant

/-- The actions that clients request in a history, in order. -/
def requested (events : List Event) : List Modbus.Action :=
  events.filterMap fun
    | .request action => some action
    | _ => none

namespace State

variable {s : State} {dynamics : Dynamics}

/-- Without control no step moves the command. -/
theorem valveCommand_step (hdead : s.controllerRunning = false) :
    (s.after dynamics .step).valveCommand = s.valveCommand := by
  show (s.step dynamics).1.valveCommand = _
  rw [step_fst, control_of_not_running (controllerRunning_tick.trans hdead), valveCommand_tick]

/-- A request shows in each register the word that it leaves there. -/
theorem publish_serve (s : State) (action : Modbus.Action) (register : Register) :
    (serve s action).1.publish register = (action.leaves? register).getD (s.publish register) := by
  rw [serve_eq_take]
  refine publish_take s (fun register word h => ?_) register
  rw [← lastWrite_singleton] at h
  exact takes_of_lastWrite h

/-- **The command of a plant without control is the last one that a client has written**, and stays
what it was if none has. -/
theorem valveCommand_run (hdead : s.controllerRunning = false) (events : List Event) :
    (s.run dynamics events).publish .valveCommand =
      (lastWrite (requested events) .valveCommand).getD (s.publish .valveCommand) := by
  induction events generalizing s with
  | nil => rfl
  | cons event later ih =>
      rw [run_cons, ih (controllerRunning_after hdead event)]
      cases event with
      | step =>
          show (lastWrite (requested later) .valveCommand).getD
            (s.after dynamics .step).valveCommand.toUInt16 = _
          rw [valveCommand_step hdead]
          rfl
      | request action =>
          have happend := lastWrite_append [action] (requested later)
          show (lastWrite (requested later) .valveCommand).getD
              ((serve s action).1.publish .valveCommand) =
            (lastWrite ([action] ++ requested later) .valveCommand).getD _
          rw [happend, publish_serve, Option.getD_or, lastWrite_singleton]
      | crash =>
          show (lastWrite (requested later) .valveCommand).getD
            (s.crash.1.publish .valveCommand) = _
          rw [crash_of_not_running hdead]
          rfl

/-- **A running controller runs on exactly as long as there is no crash.** -/
theorem controllerRunning_run_iff (hrunning : s.controllerRunning = true) {events : List Event} :
    (s.run dynamics events).controllerRunning = true ↔ .crash ∉ events := by
  constructor
  · intro halive hcrash
    obtain ⟨before, later, rfl⟩ := List.append_of_mem hcrash
    rw [run_append, run_cons] at halive
    cases halive.symm.trans (controllerRunning_run (controllerRunning_crash _) later)
  · intro hnone
    refine eq_true_of_ne_false fun hdead => ?_
    obtain ⟨before, event, later, rfl, hbefore, hafter⟩ := exists_event
      (P := fun s => s.controllerRunning = false) (by rw [hrunning]; exact Bool.noConfusion) hdead
    have hcrash := eq_crash_of_controllerRunning (eq_true_of_ne_false hbefore) hafter
    exact hnone (List.mem_append_right before (hcrash ▸ List.mem_cons_self))

/-- The command after the crash of a running controller, and a history since then. -/
theorem valveCommand_run_crash (hrunning : s.controllerRunning = true) (later : List Event) :
    (s.run dynamics (.crash :: later)).publish .valveCommand =
      (lastWrite (requested later) .valveCommand).getD 0 := by
  have hshut : s.crash.1.publish .valveCommand = 0 := by
    rw [crash, if_pos hrunning]
    rfl
  rw [run_cons, ← hshut]
  exact valveCommand_run (controllerRunning_crash s) later

end State

namespace Settings

variable {settings : Settings}

/-- **A plant without control has the command that a client has written last since the crash**,
and a shut one if none has: its history is cut at the first crash, and neither steps, reads and
writes that are not accepted nor further crashes make any difference. -/
theorem command_after_crash {events : List Event}
    (hdead : (settings.startup.state.run settings.dynamics events).controllerRunning = false) :
    let s := settings.startup.state.run settings.dynamics events
    (∃ before later, events = before ++ .crash :: later ∧ .crash ∉ before) ∧
      ∀ before later, events = before ++ .crash :: later → .crash ∉ before →
        s.valveCommand.toUInt16 = (lastWrite (requested later) .valveCommand).getD 0 ∧
          s.registers[1]? = some ((lastWrite (requested later) .valveCommand).getD 0) := by
  intro s
  refine ⟨?_, ?_⟩
  · obtain ⟨before, event, later, rfl, hbefore, hafter⟩ := State.exists_event
      (P := fun s => s.controllerRunning = false) Bool.noConfusion hdead
    have hrunning := eq_true_of_ne_false hbefore
    obtain rfl := State.eq_crash_of_controllerRunning hrunning hafter
    exact ⟨before, later, rfl, (State.controllerRunning_run_iff rfl).mp hrunning⟩
  · rintro before later rfl hbefore
    have hrunning :
      (settings.startup.state.run settings.dynamics before).controllerRunning = true :=
      (State.controllerRunning_run_iff rfl).mpr hbefore
    have hcommand : s.publish .valveCommand =
        (lastWrite (requested later) .valveCommand).getD 0 := by
      rw [← State.valveCommand_run_crash hrunning later, ← State.run_append]
    exact ⟨hcommand,
      (State.registers_getElem?_index s .valveCommand).trans (congrArg some hcommand)⟩

/-- The reference plant after a crash: a client opens the valve to 77 percent, and neither a word
that is out of range nor a step or a second crash makes any difference. -/
theorem command_after_crash_reference :
    let events : List Event :=
      [.step, .crash, .request (.writeSingle 1 77), .request (.writeSingle 1 101), .crash, .step]
    (reference.startup.state.run reference.dynamics events).controllerRunning = false ∧
      (reference.startup.state.run reference.dynamics events).valveCommand.toUInt16 = 77 := by
  intro events
  have hdead :
    (reference.startup.state.run reference.dynamics events).controllerRunning = false := by
    decide +kernel
  have hcommand := ((command_after_crash hdead).2 [.step] _ rfl (by decide)).1
  exact ⟨hdead, hcommand⟩

/-- **A plant without control may have a command that is not zero.** -/
theorem command_set_after_crash :
    reference.Valid ∧ ∃ s, reference.Reaches s ∧ s.controllerRunning = false ∧
    s.valveCommand ≠ 0 :=
  ⟨by decide,
    reference.startup.state.run reference.dynamics [.crash, .request (.writeSingle 1 77)],
    ⟨_, rfl⟩, by decide +kernel, by decide +kernel⟩

end Settings

end HeatingPlant
