import HeatingPlant.Facility

/-!
# The request loop as a run of turns

A session on its own runs through a loop; in the facility it takes turns.  Left alone there, it
comes to the same end.

## Main definitions

* `Session.afterTurns` — a session and the plant after so many turns

## Main statements

* `Session.run_of_finish_eq_some`, `Session.run_of_finish_eq_none` — the loop, one turn at a time
* `Facility.exists_run_eq_finishSession` — a session that is left alone runs through its loop
-/

namespace HeatingPlant

namespace Session

variable {session next : Session} {plant : State} {finish : SessionEnd}

theorem run_of_finish_eq_some (h : (session.turn plant).finish = some finish) :
    session.run plant = ⟨finish, (session.turn plant).session, (session.turn plant).plant,
      (session.turn plant).notices⟩ := by
  rw [run]
  split
  · rename_i heq
    rw [heq] at h ⊢
    cases h
    rfl
  · rename_i heq
    rw [heq] at h
    cases h

theorem run_of_finish_eq_none (h : (session.turn plant).finish = none) :
    session.run plant =
      { (session.turn plant).session.run (session.turn plant).plant with
        notices := (session.turn plant).notices ++
          ((session.turn plant).session.run (session.turn plant).plant).notices } := by
  rw [run]
  split
  · rename_i heq
    rw [heq] at h
    cases h
  · rename_i heq
    rw [heq]

/-- The session and the plant after so many turns of the request loop, if the session lasts that
long.  Each of these turns serves one request. -/
def afterTurns (session : Session) (plant : State) : (turns : Nat) → Option (Session × State)
  | 0 => some (session, plant)
  | turns + 1 =>
    let turn := session.turn plant
    if turn.finish.isNone then turn.session.afterTurns turn.plant turns else none

theorem afterTurns_succ (h : (session.turn plant).finish = none) (turns : Nat) :
    session.afterTurns plant (turns + 1) =
      (session.turn plant).session.afterTurns (session.turn plant).plant turns := by
  rw [afterTurns, h, Option.isNone_none, if_pos rfl]

theorem finish_eq_none_of_afterTurns {turns : Nat} {later : Session × State}
    (h : session.afterTurns plant (turns + 1) = some later) :
    (session.turn plant).finish = none := by
  cases hfinish : (session.turn plant).finish with
  | none => rfl
  | some finish =>
      rw [afterTurns, hfinish, Option.isNone_some, if_neg Bool.false_ne_true] at h
      cases h

/-- **The loop goes on from where so many turns have led.** -/
theorem exists_run_of_afterTurns {turns : Nat} {later : State}
    (h : session.afterTurns plant turns = some (next, later)) :
    ∃ notices, session.run plant =
      { next.run later with notices := notices ++ (next.run later).notices } := by
  induction turns generalizing session plant with
  | zero =>
      cases h
      exact ⟨[], rfl⟩
  | succ turns ih =>
      have hfinish := finish_eq_none_of_afterTurns h
      rw [afterTurns_succ hfinish] at h
      obtain ⟨notices, hrun⟩ := ih h
      refine ⟨(session.turn plant).notices ++ notices, ?_⟩
      rw [run_of_finish_eq_none hfinish, hrun]
      dsimp only
      rw [List.append_assoc]

end Session

namespace Facility

variable {facility : Facility} {place : Nat} {session : Session}

theorem session?_eq_some_iff :
    facility.session? place = some session ↔
      facility.visits[place]? = some ⟨session, none⟩ := by
  unfold session?
  split
  · rename_i other h
    simp [h]
  · rename_i h
    simp only [reduceCtorEq, false_iff]
    exact fun h' => h _ h'

theorem after_turn_of_none (h : facility.session? place = none) :
    facility.after (.turn place) = facility := by
  unfold after turn
  simp only [h]

theorem after_turn (h : facility.session? place = some session) :
    facility.after (.turn place) =
      { facility with
        plant := (session.turn facility.plant).plant
        visits := facility.visits.set place
          ⟨(session.turn facility.plant).session, (session.turn facility.plant).finish⟩
        journal := facility.journal ++ (session.turn facility.plant).notices } := by
  unfold after turn
  simp only [h]

/-- The facility after the session at a place has run through its loop. -/
def finishSession (facility : Facility) (place : Nat) (session : Session) : Facility :=
  let outcome := session.run facility.plant
  { facility with
    plant := outcome.plant
    visits := facility.visits.set place ⟨outcome.session, some outcome.finish⟩
    journal := facility.journal ++ outcome.notices }

/-- **A session that is left alone runs through its loop.** -/
theorem exists_run_eq_finishSession (h : facility.session? place = some session) :
    ∃ turns, facility.run (List.replicate turns (.turn place)) =
      facility.finishSession place session := by
  -- each turn that does not end the session takes bytes off its source
  induction hbytes : session.source.bytes.length using Nat.strongRecOn
    generalizing facility session with
  | _ bytes ih =>
      cases hfinish : (session.turn facility.plant).finish with
      | some finish =>
          refine ⟨1, ?_⟩
          show facility.after (.turn place) = _
          rw [after_turn h, finishSession, Session.run_of_finish_eq_some hfinish, hfinish]
      | none =>
          have hplace : place < facility.visits.length :=
            (List.getElem?_eq_some_iff.mp (session?_eq_some_iff.mp h)).1
          have hnext : (facility.after (.turn place)).session? place =
              some (session.turn facility.plant).session := by
            rw [session?_eq_some_iff, after_turn h, hfinish]
            exact List.getElem?_set_self hplace
          have hlt := Session.turn_lt hfinish
          obtain ⟨turns, hturns⟩ := ih _ (hbytes ▸ hlt) hnext rfl
          refine ⟨turns + 1, ?_⟩
          rw [List.replicate_succ, run_cons, hturns, finishSession, finishSession,
            Session.run_of_finish_eq_none hfinish, after_turn h]
          simp only [List.set_set, List.append_assoc]

end Facility

end HeatingPlant
