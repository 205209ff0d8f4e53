import HeatingPlant.Proofs.Facility.LastWriter

/-!
# Who may write what

Four kinds of writer share the record of the plant: the tick, the controller, clients and a crash.
This file says which fields each of them may change, when, and to what.

## Main definitions

* `Writer` — one of them, with what it brings along
* `Writer.offers` — the words that a writer has for the registers
* `State.writtenBy`, `State.writtenByAll` — the record after one writer, and after many
* `State.Governed` — the controller and the clock of its absence are what the writers made of them
* `Writer.Authorized` — a writer has changed nothing but what it may change

## Main statements

* `State.run_eq_writtenByAll` — the histories of the plant are runs of its writers
* `State.Governed.writtenBy` — the controller and its clock, one writer later
* `Writer.authorized` — what a single writer changes
* `Settings.write_authority` — in every run, every writer keeps to its own fields

## Design notes

A step of time is a tick and then the controller.  They are taken apart here, so that anything may
come between them.
-/

namespace HeatingPlant

open Modbus

/-- Those who write the shared record. -/
inductive Writer where
  /-- The tick of the building. -/
  | tick
  /-- The controller. -/
  | control
  /-- A client, with what it requests. -/
  | client (action : Action)
  /-- A client, with the words of a whole bank. -/
  | bank (words : Registers)
  /-- A crash. -/
  | crash
  deriving DecidableEq, Repr

/-- Whether a writer is a client. -/
def Writer.isClient : Writer → Bool
  | client _ | bank _ => true
  | _ => false

/-- The acceptable word that a writer has for a register; only clients have any. -/
def Writer.offers : Writer → Register → Option UInt16
  | client action, register => action.leaves? register
  | bank words, register => accepted 0 words.toList register
  | _, _ => none

/-- What is offered is acceptable. -/
theorem Writer.takes_of_offers {writer : Writer} {register : Register} {word : UInt16}
    (h : writer.offers register = some word) : register.takes word = true := by
  cases writer with
  | client action => exact action.takes_of_leaves? h
  | bank words => exact takes_of_accepted h
  | tick | control | crash => cases h

/-- The writers that take part in an event, in order. -/
def Event.writers : Event → List Writer
  | step => [.tick, .control]
  | request action => [.client action]
  | crash => [.crash]

namespace State

variable {s : State} {earlier : List Writer} {writer : Writer}

/-- The record after one of its writers. -/
def writtenBy (dynamics : Dynamics) (s : State) : Writer → State
  | .tick => (s.tick dynamics.thermal dynamics.dt).1
  | .control => s.control dynamics.controller
  | .client action => (serve s action).1
  | .bank words => s.writeAll words
  | .crash => s.crash.1

/-- The record after many of its writers. -/
def writtenByAll (dynamics : Dynamics) (s : State) (writers : List Writer) : State :=
  writers.foldl (·.writtenBy dynamics) s

theorem writtenByAll_append_singleton (dynamics : Dynamics) (s : State) (earlier : List Writer)
    (writer : Writer) :
    s.writtenByAll dynamics (earlier ++ [writer]) =
      (s.writtenByAll dynamics earlier).writtenBy dynamics writer := by
  rw [writtenByAll, List.foldl_append]
  rfl

/-- **Every history of the plant is a run of its writers.** -/
theorem run_eq_writtenByAll (dynamics : Dynamics) (s : State) (events : List Event) :
    s.run dynamics events = s.writtenByAll dynamics (events.flatMap Event.writers) := by
  induction events generalizing s with
  | nil => rfl
  | cons event rest ih =>
      rw [run_cons, ih, List.flatMap_cons]
      cases event <;> rfl

/-- Clients give the registers the words that they offer, and do nothing else. -/
theorem writtenBy_eq_take (h : writer.isClient = true) (dynamics : Dynamics) (s : State) :
    s.writtenBy dynamics writer = s.take writer.offers := by
  cases writer with
  | client action => exact serve_eq_take s action
  | bank words => exact s.writeAll_eq_take words
  | tick | control | crash => cases h

/-! ### The controller and its clock -/

/-- A tick under a running controller leaves the clock of its absence alone. -/
theorem ticksWithoutControl_tick (hrunning : s.controllerRunning = true)
    (parameters : ThermalParameters) (dt : Float) :
    (s.tick parameters dt).1.ticksWithoutControl = s.ticksWithoutControl := by
  cases h : s.pipesBurst
  · rw [tick_of_intact h, reclassify_eq]
    show s.advanceClocks.ticksWithoutControl = _
    rw [advanceClocks, if_pos hrunning]
  · rw [tick_of_pipesBurst h]

/-- Nobody but a crash stops the controller, and nobody starts it again. -/
theorem controllerRunning_writtenBy (dynamics : Dynamics) (s : State) (writer : Writer) :
    (s.writtenBy dynamics writer).controllerRunning = true ↔
      s.controllerRunning = true ∧ writer ≠ .crash := by
  cases writer with
  | tick => simp [writtenBy]
  | control => simp [writtenBy]
  | client _ | bank _ =>
      rw [writtenBy_eq_take rfl]
      simp [take]
  | crash => simp [writtenBy]

/-- The controller is dead once a crash was among the writers, and until then the clock of its
absence stands at zero. -/
structure Governed (s : State) (earlier : List Writer) : Prop where
  running_iff : s.controllerRunning = true ↔ .crash ∉ earlier
  clock : s.controllerRunning = true → s.ticksWithoutControl = 0

/-- **Every writer keeps the account of the controller and its clock.** -/
theorem Governed.writtenBy (h : s.Governed earlier) (dynamics : Dynamics) (writer : Writer) :
    (s.writtenBy dynamics writer).Governed (earlier ++ [writer]) := by
  have hiff := controllerRunning_writtenBy dynamics s writer
  refine ⟨?_, fun hlater => ?_⟩
  · rw [hiff, h.running_iff, List.mem_append, List.mem_singleton, not_or, ne_comm]
  · obtain ⟨hrunning, hne⟩ := hiff.mp hlater
    have hzero := h.clock hrunning
    cases writer with
    | tick => exact (ticksWithoutControl_tick hrunning _ _).trans hzero
    | control =>
        show (s.control _).ticksWithoutControl = 0
        rw [control_eq]
        exact hzero
    | client _ | bank _ =>
        rw [writtenBy_eq_take rfl]
        exact hzero
    | crash => exact absurd rfl hne

end State

/-! ### What each writer changes -/

namespace Writer

variable {s t : State} {earlier : List Writer} {writer : Writer}

/-- Where `t` differs from `s`, the writer may change it after those who wrote earlier, and if
clients choose the value, it is an acceptable one for its own register. -/
structure Authorized (earlier : List Writer) (writer : Writer) (s t : State) : Prop where
  /-- Nobody changes the weather. -/
  outsideTemperature : t.outsideTemperature = s.outsideTemperature
  /-- Nobody changes the supply. -/
  supplyTemperature : t.supplyTemperature = s.supplyTemperature
  insideTemperature : t.insideTemperature ≠ s.insideTemperature → writer = .tick
  heaterPower : t.heaterPower ≠ s.heaterPower → writer = .tick
  valvePosition : t.valvePosition ≠ s.valvePosition → writer = .tick
  status : t.status ≠ s.status → writer = .tick
  runtime : t.runtime ≠ s.runtime → writer = .tick
  pipesBurst : t.pipesBurst ≠ s.pipesBurst → writer = .tick
  /-- Clients set the setpoint, by a word of up to 400 tenths. -/
  setpoint : t.setpoint ≠ s.setpoint →
    ∃ word, writer.offers .setpoint = some word ∧ word ≤ 400 ∧
      t.setpoint = Tenths.decode word
  /-- Clients set the mode, by the word that publishes it. -/
  mode : t.mode ≠ s.mode → writer.offers .mode = some t.mode.code
  /-- The first crash stops the controller. -/
  controllerRunning : t.controllerRunning ≠ s.controllerRunning →
    writer = .crash ∧ .crash ∉ earlier ∧ t.controllerRunning = false
  /-- The clock of the controller's absence moves in ticks after the crash. -/
  ticksWithoutControl : t.ticksWithoutControl ≠ s.ticksWithoutControl →
    writer = .tick ∧ .crash ∈ earlier
  /-- The command is set by clients, with a word of up to 100; by the controller, if it is alive
  and in charge and the pipes are whole; and by the first crash. -/
  valveCommand : t.valveCommand ≠ s.valveCommand →
    (∃ word, writer.offers .valveCommand = some word ∧ word ≤ 100 ∧
      t.valveCommand = word.toUInt8) ∨
    (writer = .control ∧ s.mode = .auto ∧ s.controllerRunning = true ∧
      s.pipesBurst = false) ∨
    (writer = .crash ∧ .crash ∉ earlier)

theorem authorized_tick (h : s.Governed earlier) (dynamics : Dynamics) :
    Authorized earlier .tick s (s.writtenBy dynamics .tick) := by
  have heq : s.writtenBy dynamics .tick = _ := State.tick_fst_eq s
  have hcrashed : (s.writtenBy dynamics .tick).ticksWithoutControl ≠ s.ticksWithoutControl →
      .crash ∈ earlier := by
    intro hne
    by_contra hnone
    exact hne (State.ticksWithoutControl_tick (h.running_iff.mpr hnone) _ _)
  exact {
    outsideTemperature := by rw [heq]
    supplyTemperature := by rw [heq]
    insideTemperature := fun _ => rfl
    heaterPower := fun _ => rfl
    valvePosition := fun _ => rfl
    status := fun _ => rfl
    runtime := fun _ => rfl
    pipesBurst := fun _ => rfl
    setpoint := fun hne => absurd (by rw [heq]) hne
    mode := fun hne => absurd (by rw [heq]) hne
    controllerRunning := fun hne => absurd (by rw [heq]) hne
    ticksWithoutControl := fun hne => ⟨rfl, hcrashed hne⟩
    valveCommand := fun hne => absurd (by rw [heq]) hne }

/-- A writer that leaves the building alone answers for the choices of the clients, for the
command and for the controller. -/
theorem authorized_of_eq_with
    (heq : t = { s with
      setpoint := t.setpoint
      mode := t.mode
      controllerRunning := t.controllerRunning
      valveCommand := t.valveCommand })
    (hsetpoint : t.setpoint ≠ s.setpoint →
      ∃ word, writer.offers .setpoint = some word ∧ word ≤ 400 ∧
      t.setpoint = Tenths.decode word)
    (hmode : t.mode ≠ s.mode → writer.offers .mode = some t.mode.code)
    (hrunning : t.controllerRunning ≠ s.controllerRunning →
      writer = .crash ∧ .crash ∉ earlier ∧ t.controllerRunning = false)
    (hvalve : t.valveCommand ≠ s.valveCommand →
      (∃ word, writer.offers .valveCommand = some word ∧ word ≤ 100 ∧
        t.valveCommand = word.toUInt8) ∨
      (writer = .control ∧ s.mode = .auto ∧ s.controllerRunning = true ∧
        s.pipesBurst = false) ∨
      (writer = .crash ∧ .crash ∉ earlier)) :
    Authorized earlier writer s t where
  outsideTemperature := by rw [heq]
  supplyTemperature := by rw [heq]
  insideTemperature := fun hne => absurd (by rw [heq]) hne
  heaterPower := fun hne => absurd (by rw [heq]) hne
  valvePosition := fun hne => absurd (by rw [heq]) hne
  status := fun hne => absurd (by rw [heq]) hne
  runtime := fun hne => absurd (by rw [heq]) hne
  pipesBurst := fun hne => absurd (by rw [heq]) hne
  setpoint := hsetpoint
  mode := hmode
  controllerRunning := hrunning
  ticksWithoutControl := fun hne => absurd (by rw [heq]) hne
  valveCommand := hvalve

theorem authorized_control (earlier : List Writer) (dynamics : Dynamics) (s : State) :
    Authorized earlier .control s (s.writtenBy dynamics .control) := by
  have heq : s.writtenBy dynamics .control = _ := State.control_eq s
  refine authorized_of_eq_with (by rw [heq]) (fun hne => absurd (by rw [heq]) hne)
    (fun hne => absurd (by rw [heq]) hne) (fun hne => absurd (by rw [heq]) hne) fun hne => ?_
  have hacts : s.underControl = true := by
    by_contra hidle
    rw [Bool.not_eq_true] at hidle
    exact hne (congrArg State.valveCommand (State.control_of_not_underControl hidle))
  simp only [State.underControl, Bool.and_eq_true, decide_eq_true_eq, Bool.not_eq_true'] at hacts
  exact .inr (.inl ⟨rfl, hacts.1.2, hacts.1.1, hacts.2⟩)

theorem authorized_crash (h : s.Governed earlier) (dynamics : Dynamics) :
    Authorized earlier .crash s (s.writtenBy dynamics .crash) := by
  show Authorized earlier .crash s s.crash.1
  cases hrunning : s.controllerRunning with
  | false =>
      rw [State.crash_of_not_running hrunning]
      exact authorized_of_eq_with rfl (absurd rfl) (absurd rfl) (absurd rfl) (absurd rfl)
  | true =>
      have hfirst : .crash ∉ earlier := h.running_iff.mp hrunning
      have hclock : s.ticksWithoutControl = 0 := h.clock hrunning
      have hcrash : s.crash.1 = { s with controllerRunning := false, valveCommand := 0 } := by
        -- the clock that the crash sets back has not moved yet
        rw [State.crash, if_pos hrunning, ← hclock]
      rw [hcrash]
      exact authorized_of_eq_with rfl (absurd rfl) (absurd rfl) (fun _ => ⟨rfl, hfirst, rfl⟩)
        fun _ => .inr (.inr ⟨rfl, hfirst⟩)

/-- Whoever gives the registers what he offers, keeps to what clients may do. -/
theorem authorized_take (earlier : List Writer) (writer : Writer) (s : State) :
    Authorized earlier writer s (s.take writer.offers) := by
  refine authorized_of_eq_with rfl ?_ ?_ (absurd rfl) ?_
  · intro hne
    cases hword : writer.offers .setpoint with
    | none => exact absurd (by rw [State.take, hword, Option.elim_none]) hne
    | some word =>
        have hle : word ≤ 400 := of_decide_eq_true (takes_of_offers hword)
        exact ⟨word, rfl, hle, by rw [State.take, hword, Option.elim_some]⟩
  · intro hne
    cases hword : writer.offers .mode with
    | none => exact absurd (by rw [State.take, hword, Option.elim_none]) hne
    | some word =>
        have hle : word ≤ 1 := of_decide_eq_true (takes_of_offers hword)
        have hcode := ControlMode.ofCode?_eq word
        rw [if_pos hle, ControlMode.ofCode?_eq_some_iff] at hcode
        rw [State.take, hword, Option.elim_some, ← hcode]
  · intro hne
    cases hword : writer.offers .valveCommand with
    | none => exact absurd (by rw [State.take, hword, Option.elim_none]) hne
    | some word =>
        have hle : word ≤ 100 := of_decide_eq_true (takes_of_offers hword)
        exact .inl ⟨word, rfl, hle, by rw [State.take, hword, Option.elim_some]⟩

/-- **Every writer keeps to what it may change.** -/
theorem authorized (h : s.Governed earlier) (dynamics : Dynamics) (writer : Writer) :
    Authorized earlier writer s (s.writtenBy dynamics writer) := by
  cases writer with
  | tick => exact authorized_tick h dynamics
  | control => exact authorized_control earlier dynamics s
  | client _ | bank _ =>
      rw [State.writtenBy_eq_take rfl]
      exact authorized_take ..
  | crash => exact authorized_crash h dynamics

end Writer

/-! ### Every run -/

namespace Settings

/-- Every run from startup keeps the account of the controller and its clock. -/
theorem governed (settings : Settings) (earlier : List Writer) :
    (settings.startup.state.writtenByAll settings.dynamics earlier).Governed earlier := by
  induction earlier using List.reverseRecOn with
  | nil => exact ⟨iff_of_true rfl List.not_mem_nil, fun _ => rfl⟩
  | append_singleton earlier writer ih =>
      rw [State.writtenByAll_append_singleton]
      exact ih.writtenBy settings.dynamics writer

/-- Nobody has ever changed the weather or the supply. -/
theorem surroundings_writtenByAll (settings : Settings) (writers : List Writer) :
    (settings.startup.state.writtenByAll settings.dynamics writers).outsideTemperature =
        settings.startup.outsideTemperature ∧
      (settings.startup.state.writtenByAll settings.dynamics writers).supplyTemperature =
        settings.startup.supplyTemperature := by
  induction writers using List.reverseRecOn with
  | nil => exact ⟨rfl, rfl⟩
  | append_singleton earlier writer ih =>
      have hlast := Writer.authorized (settings.governed earlier) settings.dynamics writer
      rw [State.writtenByAll_append_singleton]
      exact ⟨hlast.outsideTemperature.trans ih.1, hlast.supplyTemperature.trans ih.2⟩

/-- **Every writer keeps to its own fields, whoever wrote before it.**  In every run from startup
the weather and the supply are those of the settings, and whatever a writer changes is its to
change. -/
theorem write_authority (settings : Settings) (earlier : List Writer) (writer : Writer) :
    let s := settings.startup.state.writtenByAll settings.dynamics earlier
    let t := settings.startup.state.writtenByAll settings.dynamics (earlier ++ [writer])
    (t.outsideTemperature = settings.startup.outsideTemperature ∧
      t.supplyTemperature = settings.startup.supplyTemperature) ∧
    Writer.Authorized earlier writer s t := by
  intro s t
  refine ⟨settings.surroundings_writtenByAll (earlier ++ [writer]), ?_⟩
  have ht : t = s.writtenBy settings.dynamics writer :=
    State.writtenByAll_append_singleton settings.dynamics settings.startup.state earlier writer
  rw [ht]
  exact Writer.authorized (settings.governed earlier) settings.dynamics writer

end Settings

end HeatingPlant
