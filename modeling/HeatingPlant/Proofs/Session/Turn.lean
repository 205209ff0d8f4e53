import HeatingPlant.Proofs.Modbus.BackendFailure
import HeatingPlant.Proofs.Plant.Frame

/-!
# What a turn of a session does

A turn either finds the backend failed, and then crashes the controller and does nothing else to the
plant, or it does to the plant what a request can do.

## Main definitions

* `Session.FailsBackend` — the next turn finds the backend failed
* `Session.MeetsOversizedHeader` — the same, said of the bytes on the wire
* `Notice.tellsCrash` — whether a notice tells that the controller crashed

## Main statements

* `Session.failsBackend_iff` — the two descriptions agree
* `Session.turn_of_failsBackend`, `Session.turn_of_not_failsBackend` — the two kinds of turn
-/

namespace HeatingPlant

open Modbus

/-- Whether a notice tells that the controller crashed. -/
def Notice.tellsCrash : Notice → Bool
  | controllerCrashed .. => true
  | _ => false

namespace Session

variable {session : Session} {fault : Fault}

/-- The session goes on, and what it reads next is a failure of the backend. -/
def FailsBackend (session : Session) : Prop :=
  session.shutdown.raised session.served .polling session.source.drained = false ∧
    ∃ length, session.source.decode.1 = .error (.backend length)

/-- The session goes on, and the next seven bytes of its stream arrive and are a header whose length
field is beyond the largest frame; the other fields may be anything. -/
def MeetsOversizedHeader (session : Session) : Prop :=
  session.shutdown.raised session.served .polling session.source.drained = false ∧
    ∃ t₁ t₂ p₁ p₂ l₁ l₂ unit rest,
      session.source.bytes = t₁ :: t₂ :: p₁ :: p₂ :: l₁ :: l₂ :: unit :: rest ∧
      (session.source.readExact 7).1 = .ok [t₁, t₂, p₁, p₂, l₁, l₂, unit] ∧
      254 < (Word.ofBytes l₁ l₂).toNat

/-- **The backend fails exactly on a whole header with a length beyond the largest frame.** -/
theorem failsBackend_iff : session.FailsBackend ↔ session.MeetsOversizedHeader := by
  refine and_congr_right fun _ => ?_
  simp only [Source.decode_eq_backend_iff]
  constructor
  · rintro ⟨_, bytes, header, hread, hheader, -, hlong⟩
    unfold Header.ofBytes? at hheader
    split at hheader
    · cases hheader
      have htake := Source.readExact_eq_take _ _ _ hread
      have hbytes := List.take_append_drop headerLength session.source.bytes
      rw [← htake] at hbytes
      exact ⟨_, _, _, _, _, _, _, _, hbytes.symm, hread, hlong⟩
    · cases hheader
  · rintro ⟨t₁, t₂, p₁, p₂, l₁, l₂, unit, _, -, hread, hlong⟩
    exact ⟨_, _, _, hread, rfl, rfl, hlong⟩

/-! ### The end of a session -/

/-- Any fault but a failure of the backend leaves the plant alone and tells of no crash. -/
theorem terminate_of_not_backend (session : Session) (plant : State) (phase : Phase)
    (h : fault.isBackendFailure = false) :
    (session.terminate plant phase fault).plant = plant ∧
      (session.terminate plant phase fault).notices.countP Notice.tellsCrash = 0 := by
  unfold terminate
  simp only [h, Bool.false_eq_true, if_false]
  split
  · exact ⟨rfl, rfl⟩
  · split <;> exact ⟨rfl, rfl⟩

/-- A failure of the backend crashes the controller, and tells of it if there was a crash. -/
theorem terminate_of_backend (session : Session) (plant : State) (phase : Phase)
    (length : UInt16) :
    (session.terminate plant phase (.backend length)).plant = plant.crash.1 ∧
      (session.terminate plant phase (.backend length)).notices.countP Notice.tellsCrash =
        if plant.controllerRunning then 1 else 0 := by
  refine ⟨rfl, ?_⟩
  show List.countP Notice.tellsCrash (_ :: if plant.crash.2 then [_] else []) = _
  rw [State.crash_snd]
  cases plant.controllerRunning <;> rfl

/-! ### A turn -/

/-- A fault that a turn reads is no failure of the backend, unless the turn finds the backend
failed. -/
theorem isBackendFailure_of_not_failsBackend (h : ¬session.FailsBackend)
    (hgoing : session.shutdown.raised session.served .polling session.source.drained = false)
    (hdecode : session.source.decode.1 = .error fault) : fault.isBackendFailure = false := by
  cases fault with
  | backend length => exact absurd ⟨hgoing, length, hdecode⟩ h
  | _ => rfl

theorem turn_of_failsBackend (plant : State) (h : session.FailsBackend) :
    (session.turn plant).plant = plant.crash.1 ∧
      (session.turn plant).notices.countP Notice.tellsCrash =
        if plant.controllerRunning then 1 else 0 := by
  obtain ⟨hgoing, length, hdecode⟩ := h
  unfold turn
  simp only [hgoing, Bool.false_eq_true, if_false, hdecode]
  exact terminate_of_backend _ plant .reading length

/-- A request is answered without a crash, whether or not its reply can be sent. -/
theorem answer_writtenFrom (session : Session) (plant : State) (request : Request) :
    State.WrittenFrom plant (session.answer plant request).plant ∧
      (session.answer plant request).notices.countP Notice.tellsCrash = 0 := by
  have hserve := State.writtenFrom_serve plant request.action
  unfold answer
  dsimp only
  split
  · exact ⟨hserve, rfl⟩
  · rename_i fault sink hsend
    have hfault : fault.isBackendFailure = false :=
      Sink.isBackendFailure_send (congrArg Prod.fst hsend)
    obtain ⟨hplant, hcount⟩ := terminate_of_not_backend { session with sink := sink }
      (serve plant request.action).1 .replying hfault
    refine ⟨?_, ?_⟩
    · rw [hplant]
      exact hserve
    · rw [List.countP_cons_of_neg (by simp [Notice.tellsCrash])]
      exact hcount

/-- **A turn that finds no failure of the backend does what a request can do.** -/
theorem turn_of_not_failsBackend (plant : State) (h : ¬session.FailsBackend) :
    State.WrittenFrom plant (session.turn plant).plant ∧
      (session.turn plant).notices.countP Notice.tellsCrash = 0 := by
  unfold turn
  split
  · exact ⟨.refl plant, rfl⟩
  · rename_i hgoing
    dsimp only
    split
    · rename_i fault hdecode
      have hfault := isBackendFailure_of_not_failsBackend h (by simpa using hgoing) hdecode
      obtain ⟨hplant, hcount⟩ := terminate_of_not_backend
        { session with source := session.source.decode.2 } plant .reading hfault
      refine ⟨?_, hcount⟩
      rw [hplant]
      exact .refl plant
    · exact answer_writtenFrom _ plant _

end Session

end HeatingPlant
