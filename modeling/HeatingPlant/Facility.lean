import HeatingPlant.Session
import HeatingPlant.Settings.Sections

/-!
# The plant among its clients

One plant, its timer, and any number of sessions, which take turns in any order.

## Main definitions

* `Visit` — a session, and how it ended once it has
* `Facility` — the plant, the timer, the visits and the journal so far
* `Move` — a step of the timer, or a turn of one session
* `Facility.after`, `Facility.run` — the facility after one move, and after many

## Design notes

A visit brings its whole byte stream along, with the pace of the bytes and the way they end; a
client that connects late is one whose first turn comes late.  No limit on clients is kept here,
so that whatever holds of these runs holds under any limit.  A session that has ended takes no
more turns.
-/

namespace HeatingPlant

/-- A session, and how it ended once it has. -/
structure Visit where
  /-- The session as it stands. -/
  session : Session
  /-- How it ended; `none` as long as it lasts. -/
  finish : Option SessionEnd

/-- The plant, its timer and its clients. -/
structure Facility where
  /-- The timer. -/
  timer : Timer
  /-- The plant. -/
  plant : State
  /-- The sessions, lasting and ended. -/
  visits : List Visit
  /-- What was told so far. -/
  journal : List Notice

/-- What can happen in the facility. -/
inductive Move where
  /-- A step of the timer. -/
  | step
  /-- A turn of the session at that place. -/
  | turn (place : Nat)
  deriving DecidableEq, Repr

namespace Facility

/-- The facility at startup, with the sessions that it is going to see. -/
def start (settings : Settings) (sessions : List Session) : Facility where
  timer := settings.timer
  plant := settings.startup.state
  visits := sessions.map fun session => ⟨session, none⟩
  journal := []

/-- The facility after a step of the timer. -/
def step (facility : Facility) : Facility :=
  let (timer, plant, notices) := facility.timer.step facility.plant
  { facility with timer := timer, plant := plant, journal := facility.journal ++ notices }

/-- The session at a place, as long as it lasts. -/
def session? (facility : Facility) (place : Nat) : Option Session :=
  match facility.visits[place]? with
  | some ⟨session, none⟩ => some session
  | _ => none

/-- The facility after a turn of the session at a place; nothing happens where none lasts. -/
def turn (facility : Facility) (place : Nat) : Facility :=
  match facility.session? place with
  | none => facility
  | some session =>
    let turn := session.turn facility.plant
    { facility with
      plant := turn.plant
      visits := facility.visits.set place ⟨turn.session, turn.finish⟩
      journal := facility.journal ++ turn.notices }

/-- The facility after a move. -/
def after (facility : Facility) : Move → Facility
  | .step => facility.step
  | .turn place => facility.turn place

/-- The facility after a list of moves. -/
def run (facility : Facility) (moves : List Move) : Facility := moves.foldl after facility

@[simp] theorem run_nil (facility : Facility) : facility.run [] = facility := rfl

@[simp] theorem run_cons (facility : Facility) (move : Move) (rest : List Move) :
    facility.run (move :: rest) = (facility.after move).run rest := rfl

theorem run_append (facility : Facility) (first second : List Move) :
    facility.run (first ++ second) = (facility.run first).run second :=
  List.foldl_append

end Facility

end HeatingPlant
