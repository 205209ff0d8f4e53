import HeatingPlant.Proofs.Facility.LastWriter

/-!
# Clients that nobody notices

A client that only reads, is refused, or writes what no register takes, and whose stream does not
end on a failure of the backend, might as well not be there: without it and its turns the plant
and the other clients come to the same.

## Main definitions

* `Source.Harmless` — a stream of bytes that decodes to nothing that the plant takes notice of
* `Move.without`, `Facility.without` — a move and a facility without the client at a place
* `Facility.Shadowed` — a facility goes on as another does that lacks one of its clients

## Main statements

* `Source.harmless_iff_of_framing` — what a harmless stream is on the wire
* `Session.turn_of_harmless` — a turn of a harmless client leaves the plant alone, and the
  client harmless
* `Facility.Shadowed.after`, `Facility.Shadowed.run` — one move, and any run, with the client
  and without
* `Facility.harmless_unnoticed` — plant, timer and other clients do not depend on a harmless
  client

## Design notes

The client and its turns are taken out of the run, and those at the places after it move up by
one.  Nothing is asked of the others, nor of how replies to the client are taken: it may stop
listening.  A facility keeps no limit on its clients, under which one client could keep another
one out.
-/

namespace HeatingPlant

open Modbus

/-! ### Harmless streams -/

namespace Modbus.Source

variable {source : Source} {request : Request} {fault : Fault}

/-- Whatever the source comes to before its first fault writes no register, and that fault is no
failure of the backend. -/
inductive Harmless : Source → Prop
  | ends {source : Source} {fault : Fault} (hdecode : source.decode.1 = .error fault)
      (hfault : fault.isBackendFailure = false) : Harmless source
  | goesOn {source : Source} {request : Request} (hdecode : source.decode.1 = .ok request)
      (hleaves : ∀ register, request.action.leaves? register = none)
      (hrest : Harmless source.decode.2) : Harmless source

theorem harmless_iff_of_error (h : source.decode.1 = .error fault) :
    source.Harmless ↔ fault.isBackendFailure = false := by
  refine ⟨fun hharmless => ?_, .ends h⟩
  cases hharmless with
  | ends hdecode hfault =>
      rw [h] at hdecode
      cases hdecode
      exact hfault
  | goesOn hdecode =>
      rw [h] at hdecode
      cases hdecode

theorem harmless_iff_of_ok (h : source.decode.1 = .ok request) :
    source.Harmless ↔
      (∀ register, request.action.leaves? register = none) ∧ source.decode.2.Harmless := by
  refine ⟨fun hharmless => ?_, fun ⟨hleaves, hrest⟩ => .goesOn h hleaves hrest⟩
  cases hharmless with
  | ends hdecode =>
      rw [h] at hdecode
      cases hdecode
  | goesOn hdecode hleaves hrest =>
      rw [h] at hdecode
      cases hdecode
      exact ⟨hleaves, hrest⟩

/-- The end of the stream is no failure of the backend, however it ends. -/
theorem isBackendFailure_finishFault (source : Source) :
    source.finishFault.isBackendFailure = false := by
  unfold finishFault
  split
  · exact Fault.isBackendFailure_ofTransport _
  · rfl

/-- **On the wire a harmless stream is a run of frames none of which leaves a word in a register,
and then anything but a header that fails the backend.** -/
theorem harmless_iff_of_framing {frames : List Frame} {tail : List UInt8} {ending : Ending}
    (h : source.Delivers) (hframing : Framing source.bytes frames tail ending) :
    source.Harmless ↔
      (∀ f ∈ frames, ∀ register, f.request.action.leaves? register = none) ∧
        ∀ length, ending ≠ .fault (.backend length) := by
  induction frames generalizing source with
  | nil =>
      have hdecode := (decode_of_delivers h).1
      have hbytes : source.bytes = tail := hframing.bytes_eq
      have hfound := hframing.stops.ending?_scan
      rw [← hbytes] at hfound
      cases hscan : scan source.bytes with
      | incomplete =>
          rw [hscan] at hdecode hfound
          cases hfound
          rw [harmless_iff_of_error hdecode, isBackendFailure_finishFault]
          simp
      | request request rest =>
          rw [hscan] at hfound
          cases hfound
      | fault fault rest =>
          rw [hscan] at hdecode hfound
          cases hfound
          rw [harmless_iff_of_error hdecode]
          cases fault <;> simp [Fault.isBackendFailure]
  | cons f frames ih =>
      obtain ⟨hdecode, ⟨n, hpast⟩, hrest⟩ := decode_of_delivers h
      have hbytes := hframing.bytes_eq
      rw [List.flatMap_cons, List.append_assoc] at hbytes
      rw [hbytes, f.scan_append] at hdecode hrest
      rw [harmless_iff_of_ok hdecode, ih (hpast.delivers h) ⟨hrest, hframing.stops⟩,
        List.forall_mem_cons, and_assoc]

end Modbus.Source

namespace Session

variable {session : Session} {plant : State}

/-- A turn that does not end the session has served a request. -/
theorem exists_request_of_finish_eq_none (h : (session.turn plant).finish = none) :
    ∃ request, session.request? = some request ∧
      (session.turn plant).session.source = session.source.decode.2 := by
  unfold turn at h ⊢
  split at h
  · cases h
  rename_i hgoing
  rw [if_neg hgoing]
  rw [Bool.not_eq_true] at hgoing
  dsimp only at h ⊢
  split at h
  · exact absurd h (finish_terminate _ _ _ _)
  · rename_i request hdecode
    refine ⟨request, request?_eq_some_iff.mpr ⟨hgoing, hdecode⟩, ?_⟩
    unfold answer at h ⊢
    dsimp only at h ⊢
    split at h
    · rfl
    · exact absurd h (finish_terminate _ _ _ _)

/-- **A turn of a harmless client leaves the plant alone, and the client harmless if it stays.** -/
theorem turn_of_harmless (h : session.source.Harmless) (plant : State) :
    (session.turn plant).plant = plant ∧
      ((session.turn plant).finish = none → (session.turn plant).session.source.Harmless) := by
  constructor
  · cases hrequest : session.request? with
    | some request =>
        have hdecode := (request?_eq_some_iff.mp hrequest).2
        have hleaves : request.action.leaves? = fun _ => none :=
          funext ((Source.harmless_iff_of_ok hdecode).mp h).1
        rw [(turn_of_request hrequest plant).1, serve_eq_take, hleaves, State.take_none]
    | none =>
        refine plant_turn_of_none hrequest ?_ plant
        rintro ⟨-, length, hfails⟩
        exact absurd ((Source.harmless_iff_of_error hfails).mp h) (by simp [Fault.isBackendFailure])
  · intro hstays
    obtain ⟨request, hrequest, hsource⟩ := exists_request_of_finish_eq_none hstays
    rw [hsource]
    exact ((Source.harmless_iff_of_ok (request?_eq_some_iff.mp hrequest).2).mp h).2

end Session

/-! ### Runs without a client -/

/-- A move without the client at a place: it is nobody's move if it was that client's turn, and
clients after it have moved up by one. -/
def Move.without (place : Nat) : Move → Option Move
  | step => some step
  | turn other =>
    if other < place then some (turn other)
    else if other = place then none
    else some (turn (other - 1))

namespace Facility

variable {place : Nat} {facility others : Facility}

/-- The facility without the client at a place. -/
def without (facility : Facility) (place : Nat) : Facility :=
  { facility with visits := facility.visits.eraseIdx place }

/-- The client at a place is harmless, if it is there and has not ended. -/
def HarmlessAt (facility : Facility) (place : Nat) : Prop :=
  ∀ session, facility.session? place = some session → session.source.Harmless

/-- A facility goes on as `others`, which lack the harmless client at a place. -/
structure Shadowed (place : Nat) (facility others : Facility) : Prop where
  harmless : facility.HarmlessAt place
  timer : facility.timer = others.timer
  plant : facility.plant = others.plant
  visits : facility.visits.eraseIdx place = others.visits

theorem shadowed_without (h : facility.HarmlessAt place) :
    Shadowed place facility (facility.without place) := ⟨h, rfl, rfl, rfl⟩

namespace Shadowed

variable {other : Nat}

/-- Clients before the place stay where they are. -/
theorem session?_of_lt (h : Shadowed place facility others) (hother : other < place) :
    others.session? other = facility.session? other := by
  rw [session?, session?, ← h.visits, List.getElem?_eraseIdx_of_lt hother]

/-- Clients after the place have moved up by one. -/
theorem session?_of_gt (h : Shadowed place facility others) (hother : place < other) :
    others.session? (other - 1) = facility.session? other := by
  have hplace : place ≤ other - 1 := Nat.le_sub_one_of_lt hother
  rw [session?, session?, ← h.visits, List.getElem?_eraseIdx_of_ge hplace,
    Nat.sub_add_cancel (Nat.zero_lt_of_lt hother)]

theorem after_step (h : Shadowed place facility others) :
    Shadowed place (facility.after .step) (others.after .step) := by
  have hstep : facility.timer.step facility.plant = others.timer.step others.plant := by
    rw [h.timer, h.plant]
  exact {
    harmless := h.harmless
    timer := congrArg Prod.fst hstep
    plant := congrArg (·.2.1) hstep
    visits := h.visits }

/-- The harmless client takes a turn, and the others need not know. -/
theorem after_own_turn (h : Shadowed place facility others) :
    Shadowed place (facility.after (.turn place)) others := by
  cases hsession : facility.session? place with
  | none =>
      rw [after_turn_of_none hsession]
      exact h
  | some session =>
      obtain ⟨hplant, hstays⟩ :=
        session.turn_of_harmless (h.harmless session hsession) facility.plant
      have hplace : place < facility.visits.length :=
        (List.getElem?_eq_some_iff.mp (session?_eq_some_iff.mp hsession)).1
      rw [after_turn hsession]
      refine ⟨?_, h.timer, hplant.trans h.plant, List.eraseIdx_set_eq.trans h.visits⟩
      intro next hnext
      rw [session?_eq_some_iff, List.getElem?_set_self hplace, Option.some.injEq,
        Visit.mk.injEq] at hnext
      obtain ⟨rfl, hfinish⟩ := hnext
      exact hstays hfinish

/-- Another client takes the same turn in both facilities, at its place in each. -/
theorem after_turn_of_ne (h : Shadowed place facility others) (hother : other ≠ place)
    {moved : Nat} (hsession : others.session? moved = facility.session? other)
    (hset : ∀ visit, (facility.visits.set other visit).eraseIdx place =
      (facility.visits.eraseIdx place).set moved visit) :
    Shadowed place (facility.after (.turn other)) (others.after (.turn moved)) := by
  cases hfound : facility.session? other with
  | none =>
      rw [after_turn_of_none hfound, after_turn_of_none (hsession.trans hfound)]
      exact h
  | some session =>
      rw [after_turn hfound, after_turn (hsession.trans hfound), ← h.plant]
      refine ⟨fun last hlast => h.harmless last ?_, h.timer, rfl, ?_⟩
      · rw [session?_eq_some_iff, List.getElem?_set_ne hother] at hlast
        exact session?_eq_some_iff.mpr hlast
      · rw [← h.visits]
        exact hset _

/-- **Every move does the same with the harmless client and without it.** -/
theorem after (h : Shadowed place facility others) (move : Move) :
    Shadowed place (facility.after move) (others.run (move.without place).toList) := by
  cases move with
  | step => exact h.after_step
  | turn other =>
      rw [Move.without]
      obtain hlt | rfl | hgt := Nat.lt_trichotomy other place
      · rw [if_pos hlt]
        exact h.after_turn_of_ne (Nat.ne_of_lt hlt) (h.session?_of_lt hlt)
          fun _ => List.eraseIdx_set_gt hlt
      · rw [if_neg (Nat.lt_irrefl _), if_pos rfl]
        exact h.after_own_turn
      · rw [if_neg (Nat.not_lt_of_gt hgt), if_neg (Nat.ne_of_gt hgt)]
        exact h.after_turn_of_ne (Nat.ne_of_gt hgt) (h.session?_of_gt hgt)
          fun _ => List.eraseIdx_set_lt hgt

/-- **So does every run.** -/
theorem run (h : Shadowed place facility others) (moves : List Move) :
    Shadowed place (facility.run moves) (others.run (moves.filterMap (Move.without place))) := by
  induction moves generalizing facility others with
  | nil => exact h
  | cons move rest ih =>
      have hrest := ih (h.after move)
      rw [← run_append] at hrest
      cases hmove : move.without place with
      | none =>
          rw [List.filterMap_cons_none hmove]
          rwa [hmove] at hrest
      | some kept =>
          rw [List.filterMap_cons_some hmove]
          rwa [hmove] at hrest

end Shadowed

/-- **Nobody notices a harmless client.**  Take it and its turns out of a run: the plant and the
timer are as they were, and the other visits too, with all that was sent in them and whether and
how they have ended.  As it holds of every run, it holds after every move of one. -/
theorem harmless_unnoticed (h : facility.HarmlessAt place) (moves : List Move) :
    let last := facility.run moves
    let others := (facility.without place).run (moves.filterMap (Move.without place))
    last.plant = others.plant ∧ last.timer = others.timer ∧
      last.visits.eraseIdx place = others.visits := by
  intro last others
  have hlast := (shadowed_without h).run moves
  exact ⟨hlast.plant, hlast.timer, hlast.visits⟩

/-- A client reads the bank, offers three registers words that they do not take, writes to a
register that nobody writes, asks for a function that there is not, and leaves off in a foreign
protocol; all the while one client opens the valve and another one reads. -/
theorem harmless_unnoticed_stranger :
    let writer := client [0, 1, 0, 0, 0, 6, 1, 6, 0, 1, 0, 77]
    let stranger := client <|
      [0, 1, 0, 0, 0, 6, 1, 3, 0, 0, 0, 10] ++
      [0, 2, 0, 0, 0, 13, 1, 16, 0, 1, 0, 3, 6, 0, 101, 1, 145, 0, 2] ++
      [0, 3, 0, 0, 0, 6, 1, 6, 0, 9, 0, 1] ++
      [0, 4, 0, 0, 0, 4, 1, 5, 0, 0] ++ [0, 5, 0, 7, 0, 6, 1, 6]
    let reader := client [0, 1, 0, 0, 0, 6, 1, 3, 0, 1, 0, 3]
    let facility := start .reference [writer, stranger, reader]
    let last := facility.run
      [.turn 1, .turn 0, .turn 1, .step, .turn 1, .turn 2, .turn 1, .turn 1, .turn 1, .step]
    let others := (start .reference [writer, reader]).run [.turn 0, .step, .turn 1, .step]
    facility.HarmlessAt 1 ∧ last.plant = others.plant ∧ last.timer = others.timer ∧
      last.visits.eraseIdx 1 = others.visits := by
  intro writer stranger reader facility last others
  have hstops :
      Stops (Header.toBytes ⟨5, 7, 6, 1⟩ ++ [6]) (.fault (.malformed (.foreignProtocol 7))) :=
    .foreign (by decide) (by decide) (by decide)
  have hframing : Framing stranger.source.bytes
      [⟨1, 1, 3, [0, 0, 0, 10], by decide⟩,
        ⟨2, 1, 16, [0, 1, 0, 3, 6, 0, 101, 1, 145, 0, 2], by decide⟩,
        ⟨3, 1, 6, [0, 9, 0, 1], by decide⟩, ⟨4, 1, 5, [0, 0], by decide⟩] _ _ :=
    ⟨by decide, hstops⟩
  have hharmless : facility.HarmlessAt 1 := by
    rintro _ ⟨⟩
    refine (Source.harmless_iff_of_framing (Source.delivers_steady _ none) hframing).mpr
      ⟨fun f hf register => ?_, nofun⟩
    simp only [List.mem_cons, List.not_mem_nil, or_false] at hf
    obtain rfl | rfl | rfl | rfl := hf <;> cases register <;> decide
  exact ⟨hharmless, harmless_unnoticed hharmless _⟩

end Facility

end HeatingPlant
