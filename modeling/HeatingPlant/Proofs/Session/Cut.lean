import HeatingPlant.Proofs.Session.Meaning

/-!
# Sessions that are cut off

A client can be cut off at any byte: between two frames, in the middle of a header or of a data
unit.  Its session then comes as far as it would have come before it saw anything of the rest.
Whatever it would have gone on to do, it has done nothing else and nothing in part.

## Main definitions

* `Session.Prolongs` — a session whose bytes go on where those of another end

## Main statements

* `Modbus.Framing.append` — more bytes leave the frames that were there, and what stopped them
  if it was a header
* `Session.exists_afterTurns_of_framing` — the states that a session goes through are those
  after its first few requests
* `Session.cut_off` — what a session has in common with one that prolongs it

## Design notes

The two sessions need not see their bytes in the same pieces.  A session that ends because its
bytes do is told apart from one that a header ends: only the first is a matter of where the bytes
were cut.
-/

namespace HeatingPlant

open Modbus

/-! ### More bytes -/

namespace Modbus

variable {bytes tail more : List UInt8} {frames : List Frame} {fault : Fault}

/-- A header that stops a run of frames does so whatever comes after the bytes. -/
theorem Stops.append (h : Stops bytes (.fault fault)) (more : List UInt8) :
    Stops (bytes ++ more) (.fault fault) := by
  have happend := h.take_append (bytes.drop headerLength ++ more)
  rwa [← List.append_assoc, List.take_append_drop] at happend

/-- **More bytes leave the frames that were there.**  If a header stopped them it still does, and
otherwise more of them may come. -/
theorem Framing.append {ending : Ending} (h : Framing bytes frames tail ending)
    (more : List UInt8) :
    ∃ later rest last, Framing (bytes ++ more) (frames ++ later) rest last ∧
      ((∃ fault, ending = .fault fault) → later = [] ∧ last = ending) := by
  obtain ⟨rfl, hstops⟩ := h
  cases ending with
  | fault fault =>
      refine ⟨[], tail ++ more, .fault fault, ⟨?_, hstops.append more⟩,
        fun _ => ⟨rfl, rfl⟩⟩
      rw [List.append_nil, List.append_assoc]
  | incomplete =>
      obtain ⟨later, rest, last, hlater⟩ := exists_framing (tail ++ more)
      refine ⟨later, rest, last, ⟨?_, hlater.stops⟩,
        fun ⟨fault, hfault⟩ => nomatch hfault⟩
      rw [List.flatMap_append, List.append_assoc, List.append_assoc, hlater.bytes_eq]

end Modbus

/-! ### The states in between -/

namespace Session

variable {session cut whole : Session} {frames : List Frame} {more rest : List UInt8}

/-- **A session goes through the states that its frames lead to**, one after the other. -/
theorem exists_afterTurns_of_framing (h : session.Undisturbed)
    (hbytes : session.source.bytes = frames.flatMap Frame.toBytes ++ rest) (plant : State) :
    ∃ next, next.Undisturbed ∧ next.source.bytes = rest ∧
      session.afterTurns plant frames.length =
        some (next, plant.afterWrites (frames.map Frame.request)) := by
  induction frames generalizing session plant with
  | nil => exact ⟨session, h, hbytes, rfl⟩
  | cons f frames ih =>
      rw [List.flatMap_cons, List.append_assoc] at hbytes
      obtain ⟨hfinish, hplant, hnext, hrest, -, -⟩ := turn_of_frame h hbytes plant
      rw [List.length_cons, afterTurns_succ hfinish, hplant, List.map_cons, State.afterWrites_cons]
      exact ih hnext hrest (serve plant f.request.action).1

theorem replies_append (plant : State) (first second : List Request) :
    replies plant (first ++ second) =
      replies plant first ++ replies (plant.afterWrites first) second := by
  induction first generalizing plant with
  | nil => rfl
  | cons request first ih =>
      rw [List.cons_append, replies_cons, replies_cons, ih, State.afterWrites_cons,
        List.cons_append]

/-! ### Cutting off -/

/-- A session does no more to the plant at its end than the crash that it ends on. -/
theorem plantOn_eq (s : State) (ending : Ending) :
    plantOn s ending = if endOn ending = .backendCrash then s.crash.1 else s := by
  cases ending with
  | incomplete => rfl
  | fault fault => cases fault <;> rfl

/-- A session whose bytes go on where those of another end, and that starts out with the same
count and the same bytes sent. -/
structure Prolongs (whole cut : Session) (more : List UInt8) : Prop where
  bytes : whole.source.bytes = cut.source.bytes ++ more
  taken : whole.sink.taken = cut.sink.taken
  served : whole.served = cut.served

/-- **A session that is cut off has done the first part of what it would have done.**  The bytes
that it sent are the first ones, the requests that it counted are no more, and it leaves the plant
in the state that the longer session has after as many requests, save for the crash if it ended on
one.  If it did not end because its bytes did, the rest makes no difference at all. -/
theorem cut_off (hcut : cut.Undisturbed) (hwhole : whole.Undisturbed)
    (h : whole.Prolongs cut more) (plant : State) :
    (cut.run plant).session.sink.taken <+: (whole.run plant).session.sink.taken ∧
      (∃ requests before, (cut.run plant).session.served = cut.served + requests ∧
        (cut.run plant).session.served ≤ (whole.run plant).session.served ∧
        (cut.afterTurns plant requests).map Prod.snd = some before ∧
        (whole.afterTurns plant requests).map Prod.snd = some before ∧
        (cut.run plant).plant =
          if (cut.run plant).finish = .backendCrash then before.crash.1 else before) ∧
      ((cut.run plant).finish ≠ .peerClosed →
        (whole.run plant).session.sink.taken = (cut.run plant).session.sink.taken ∧
          (whole.run plant).session.served = (cut.run plant).session.served ∧
          (whole.run plant).finish = (cut.run plant).finish ∧
          (whole.run plant).plant = (cut.run plant).plant) := by
  obtain ⟨frames, tail, ending, hframing⟩ := exists_framing cut.source.bytes
  obtain ⟨later, rest, last, hmore, hsame⟩ := hframing.append more
  rw [← h.bytes] at hmore
  have hfirst := answers_of_framing hcut plant hframing
  obtain ⟨_, -, -, hturns⟩ := exists_afterTurns_of_framing hcut hframing.bytes_eq plant
  have hall := answers_of_framing hwhole plant hmore
  have hbytes : whole.source.bytes =
      frames.flatMap Frame.toBytes ++ (later.flatMap Frame.toBytes ++ rest) := by
    rw [hmore.bytes_eq, List.flatMap_append, List.append_assoc]
  obtain ⟨_, -, -, hlonger⟩ := exists_afterTurns_of_framing hwhole hbytes plant
  refine ⟨?_, ⟨frames.length, plant.afterWrites (frames.map Frame.request), hfirst.served, ?_,
    by rw [hturns]; rfl, by rw [hlonger]; rfl, ?_⟩, fun hfinish => ?_⟩
  · rw [hfirst.taken, hall.taken, h.taken, List.map_append, replies_append, List.flatten_append,
      ← List.append_assoc]
    exact List.prefix_append _ _
  · rw [hfirst.served, hall.served, h.served, List.length_append]
    omega
  · rw [hfirst.plant, hfirst.finish]
    exact plantOn_eq _ ending
  · -- a header stopped the frames, and it still does
    have hfault : ∃ fault, ending = .fault fault := by
      cases ending with
      | incomplete => exact absurd hfirst.finish hfinish
      | fault fault => exact ⟨fault, rfl⟩
    obtain ⟨rfl, rfl⟩ := hsame hfault
    rw [List.append_nil] at hall
    rw [hall.taken, hall.served, hall.finish, hall.plant, h.taken, h.served]
    exact ⟨hfirst.taken.symm, hfirst.served.symm, hfirst.finish.symm, hfirst.plant.symm⟩

/-- The talkative client, cut off in the middle of its second frame. -/
def interrupted : Session := talkative.withBytes (talkative.source.bytes.take 20)

/-- The register is not written, and the backend does not fail: the client has one reply of two,
and the plant is what it was. -/
theorem cut_off_interrupted :
    interrupted.Undisturbed ∧ talkative.Undisturbed ∧
      talkative.Prolongs interrupted (talkative.source.bytes.drop 20) ∧
      ∀ plant, (interrupted.run plant).session.served ≤ (talkative.run plant).session.served ∧
        (interrupted.run plant).finish = .peerClosed ∧ (interrupted.run plant).plant = plant := by
  have hinterrupted : interrupted.Undisturbed :=
    ⟨fun _ => Nat.zero_lt_succ _, rfl, ⟨by decide, rfl, rfl⟩, rfl⟩
  have htalkative : talkative.Undisturbed :=
    ⟨fun _ => Nat.zero_lt_succ _, rfl, ⟨by decide, rfl, rfl⟩, rfl⟩
  have hprolongs : talkative.Prolongs interrupted (talkative.source.bytes.drop 20) :=
    ⟨by decide, rfl, rfl⟩
  have hframing :
    Framing interrupted.source.bytes [⟨1, 1, 3, [0, 0, 0, 2], by decide⟩] _ .incomplete :=
    ⟨by decide, @Stops.cut ⟨2, 0, 6, 1⟩ [6] (by decide) (by decide) rfl (by decide)⟩
  refine ⟨hinterrupted, htalkative, hprolongs, fun plant => ?_⟩
  have hanswers := answers_of_framing hinterrupted plant hframing
  obtain ⟨-, ⟨_, _, -, hserved, -⟩, -⟩ := cut_off hinterrupted htalkative hprolongs plant
  exact ⟨hserved, hanswers.finish, hanswers.plant⟩

end Session

end HeatingPlant
