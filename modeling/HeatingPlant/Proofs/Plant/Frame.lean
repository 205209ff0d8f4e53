import HeatingPlant.History

/-!
# What each event leaves alone

Every event of a history touches a few fields of the plant and no others.

## Main definitions

* `State.WrittenFrom` — what a client's writes can make of a state

## Main statements

* `tick_fst_eq`, `control_eq`, `crash_fst_eq` — a tick, the controller and a crash, each with the
  fields that it sets
* `writtenFrom_serve` — a request sets the three writable fields, to values in their ranges

## Design notes

One equation says everything that an event leaves alone; the lemmas for single fields are read off
it.  What an event does to the fields that it sets is said where that is needed.
-/

namespace HeatingPlant

namespace State

variable {parameters : ThermalParameters} {controller : Controller} {dt : Float} {s t u : State}

/-! ### A tick -/

theorem reclassify_eq (s : State) :
    s.reclassify =
      { s with status := s.reclassify.status, pipesBurst := s.reclassify.pipesBurst } := by
  unfold reclassify
  split
  · rfl
  · dsimp only
    split <;> rfl

/-- An intact plant runs through the four parts of a tick. -/
theorem tick_of_intact (h : s.pipesBurst = false) :
    (s.tick parameters dt).1 =
      ((s.advanceClocks.moveValve parameters dt).exchangeHeat parameters dt).reclassify := by
  simp [tick, h]

/-- A tick leaves the weather, the supply, the client's choices and the controller alone. -/
theorem tick_fst_eq (s : State) :
    (s.tick parameters dt).1 = { (s.tick parameters dt).1 with
      outsideTemperature := s.outsideTemperature
      supplyTemperature := s.supplyTemperature
      setpoint := s.setpoint
      valveCommand := s.valveCommand
      mode := s.mode
      controllerRunning := s.controllerRunning } := by
  cases h : s.pipesBurst
  · rw [tick_of_intact h, reclassify_eq]
    rfl
  · rw [tick_of_pipesBurst h]

@[simp] theorem outsideTemperature_tick :
    (s.tick parameters dt).1.outsideTemperature = s.outsideTemperature := by
  rw [tick_fst_eq]

@[simp] theorem setpoint_tick : (s.tick parameters dt).1.setpoint = s.setpoint := by
  rw [tick_fst_eq]

@[simp] theorem valveCommand_tick : (s.tick parameters dt).1.valveCommand = s.valveCommand := by
  rw [tick_fst_eq]

@[simp] theorem mode_tick : (s.tick parameters dt).1.mode = s.mode := by
  rw [tick_fst_eq]

@[simp] theorem controllerRunning_tick :
    (s.tick parameters dt).1.controllerRunning = s.controllerRunning := by
  rw [tick_fst_eq]

/-- The valve of an intact plant ends a tick where it was moved. -/
theorem valvePosition_tick (h : s.pipesBurst = false) :
    (s.tick parameters dt).1.valvePosition = (s.moveValve parameters dt).valvePosition := by
  rw [tick_of_intact h, reclassify_eq]
  rfl

/-- Its indoor temperature ends where the exchange of heat left it. -/
theorem insideTemperature_tick (h : s.pipesBurst = false) :
    (s.tick parameters dt).1.insideTemperature =
      ((s.moveValve parameters dt).exchangeHeat parameters dt).insideTemperature := by
  rw [tick_of_intact h, reclassify_eq]
  rfl

/-! ### The controller -/

/-- The controller sets the valve command and nothing else. -/
theorem control_eq (s : State) :
    s.control controller = { s with valveCommand := (s.control controller).valveCommand } := by
  unfold control
  split <;> rfl

@[simp] theorem insideTemperature_control :
    (s.control controller).insideTemperature = s.insideTemperature := by
  rw [control_eq]

@[simp] theorem outsideTemperature_control :
    (s.control controller).outsideTemperature = s.outsideTemperature := by
  rw [control_eq]

@[simp] theorem setpoint_control : (s.control controller).setpoint = s.setpoint := by
  rw [control_eq]

@[simp] theorem valvePosition_control : (s.control controller).valvePosition = s.valvePosition := by
  rw [control_eq]

@[simp] theorem status_control : (s.control controller).status = s.status := by
  rw [control_eq]

@[simp] theorem controllerRunning_control :
    (s.control controller).controllerRunning = s.controllerRunning := by
  rw [control_eq]

@[simp] theorem pipesBurst_control : (s.control controller).pipesBurst = s.pipesBurst := by
  rw [control_eq]

/-- A controller that is not in charge does nothing. -/
theorem control_of_not_underControl (h : s.underControl = false) : s.control controller = s := by
  rw [control, h]
  rfl

theorem control_of_not_running (h : s.controllerRunning = false) : s.control controller = s :=
  control_of_not_underControl (by simp [underControl, h])

theorem control_of_pipesBurst (h : s.pipesBurst = true) : s.control controller = s :=
  control_of_not_underControl (by simp [underControl, h])

/-- A step is a tick and then the controller's answer. -/
theorem step_fst (dynamics : Dynamics) (s : State) :
    (s.step dynamics).1 = (s.tick dynamics.thermal dynamics.dt).1.control dynamics.controller := rfl

/-! ### A crash -/

/-- A crash shuts the valve command, stops the controller and starts its clock anew. -/
theorem crash_fst_eq (s : State) :
    s.crash.1 = { s with
      controllerRunning := false
      ticksWithoutControl := s.crash.1.ticksWithoutControl
      valveCommand := s.crash.1.valveCommand } := by
  cases h : s.controllerRunning
  · rw [crash_of_not_running h, ← h]
  · rw [crash, if_pos h]

@[simp] theorem insideTemperature_crash : s.crash.1.insideTemperature = s.insideTemperature := by
  rw [crash_fst_eq]

@[simp] theorem outsideTemperature_crash : s.crash.1.outsideTemperature = s.outsideTemperature := by
  rw [crash_fst_eq]

@[simp] theorem setpoint_crash : s.crash.1.setpoint = s.setpoint := by
  rw [crash_fst_eq]

@[simp] theorem valvePosition_crash : s.crash.1.valvePosition = s.valvePosition := by
  rw [crash_fst_eq]

@[simp] theorem status_crash : s.crash.1.status = s.status := by
  rw [crash_fst_eq]

@[simp] theorem pipesBurst_crash : s.crash.1.pipesBurst = s.pipesBurst := by
  rw [crash_fst_eq]

/-! ### Requests -/

/-- What a client's writes can make of `s`: the three writable fields may have changed, the command
and the setpoint only to values in their ranges. -/
structure WrittenFrom (s t : State) : Prop where
  /-- Every other field is kept. -/
  eq_with : t = { s with valveCommand := t.valveCommand, setpoint := t.setpoint, mode := t.mode }
  /-- A new command is a percentage. -/
  valveCommand : t.valveCommand = s.valveCommand ∨ t.valveCommand ≤ Valve.fullyOpen
  /-- A new setpoint is read off a word in range. -/
  setpoint : t.setpoint = s.setpoint ∨
    ∃ word ≤ largestSetpointWord, t.setpoint = Tenths.decode word

namespace WrittenFrom

theorem refl (s : State) : WrittenFrom s s := ⟨rfl, Or.inl rfl, Or.inl rfl⟩

theorem trans (hst : WrittenFrom s t) (htu : WrittenFrom t u) : WrittenFrom s u where
  eq_with := by
    rw [htu.eq_with, hst.eq_with]
  valveCommand := by
    rcases htu.valveCommand with heq | hle
    · rw [heq]
      exact hst.valveCommand
    · exact Or.inr hle
  setpoint := by
    rcases htu.setpoint with heq | hword
    · rw [heq]
      exact hst.setpoint
    · exact Or.inr hword

theorem insideTemperature (h : WrittenFrom s t) : t.insideTemperature = s.insideTemperature := by
  rw [h.eq_with]

theorem outsideTemperature (h : WrittenFrom s t) : t.outsideTemperature = s.outsideTemperature := by
  rw [h.eq_with]

theorem valvePosition (h : WrittenFrom s t) : t.valvePosition = s.valvePosition := by
  rw [h.eq_with]

theorem status (h : WrittenFrom s t) : t.status = s.status := by
  rw [h.eq_with]

theorem controllerRunning (h : WrittenFrom s t) : t.controllerRunning = s.controllerRunning := by
  rw [h.eq_with]

theorem pipesBurst (h : WrittenFrom s t) : t.pipesBurst = s.pipesBurst := by
  rw [h.eq_with]

end WrittenFrom

theorem writtenFrom_write (s : State) (register : Register) (word : UInt16) :
    WrittenFrom s (s.write register word) := by
  unfold write
  cases register with
  | valveCommand =>
      dsimp only
      split
      · rename_i hword
        refine ⟨rfl, Or.inr ?_, Or.inl rfl⟩
        -- the word is at most 100, so that its low byte is the word
        rw [UInt16.le_iff_toNat_le] at hword
        rw [UInt8.le_iff_toNat_le, UInt16.toNat_toUInt8]
        exact Nat.le_trans (Nat.mod_le _ _) hword
      · exact .refl s
  | setpoint =>
      dsimp only
      split
      · rename_i hword
        exact ⟨rfl, Or.inl rfl, Or.inr ⟨word, hword, rfl⟩⟩
      · exact .refl s
  | mode =>
      dsimp only
      split
      · exact ⟨rfl, Or.inl rfl, Or.inl rfl⟩
      · exact .refl s
  | _ => exact .refl s

theorem writtenFrom_writeRegister (s : State) (index : Nat) (word : UInt16) :
    WrittenFrom s (s.writeRegister index word) := by
  unfold writeRegister
  split
  · exact writtenFrom_write ..
  · exact .refl s

theorem writtenFrom_writeBlock (s : State) (start : Nat) (words : List UInt16) :
    WrittenFrom s (s.writeBlock start words) := by
  induction words generalizing s start with
  | nil => exact .refl s
  | cons word rest ih => exact (writtenFrom_writeRegister s start word).trans (ih _ _)

/-- **A request does to the plant what writes can do, and nothing else.** -/
theorem writtenFrom_serve (s : State) (action : Modbus.Action) :
    WrittenFrom s (serve s action).1 := by
  unfold serve
  split
  · exact writtenFrom_writeBlock ..
  · exact .refl s

/-! ### Any event -/

/-- The weather does not change. -/
@[simp] theorem outsideTemperature_after (dynamics : Dynamics) (s : State) (event : Event) :
    (s.after dynamics event).outsideTemperature = s.outsideTemperature := by
  cases event with
  | step =>
      show (s.step dynamics).1.outsideTemperature = _
      rw [step_fst, outsideTemperature_control, outsideTemperature_tick]
  | request action => exact (writtenFrom_serve s action).outsideTemperature
  | crash => exact outsideTemperature_crash

/-- What does not hold at first and holds in the end came about at some event. -/
theorem exists_event {dynamics : Dynamics} {P : State → Prop} (hfirst : ¬P s)
    {events : List Event} (hlast : P (s.run dynamics events)) :
    ∃ before event later, events = before ++ event :: later ∧ ¬P (s.run dynamics before) ∧
      P ((s.run dynamics before).after dynamics event) := by
  induction events generalizing s with
  | nil => exact absurd hlast hfirst
  | cons event rest ih =>
      by_cases hnext : P (s.after dynamics event)
      · exact ⟨[], event, rest, rfl, hfirst, hnext⟩
      · obtain ⟨before, event', later, rfl, hbefore, hafter⟩ := ih hnext hlast
        exact ⟨event :: before, event', later, rfl, hbefore, hafter⟩

end State

end HeatingPlant
