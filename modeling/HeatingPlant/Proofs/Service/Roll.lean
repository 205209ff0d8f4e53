import HeatingPlant.Reception
import Mathlib.Data.List.Nodup

/-!
# The roll of a service

The count of clients, the register and the sessions are changed at different moments.  All that
there is to compare them by is the roll: who holds a slot, and who has an entry.

## Main definitions

* `Service.roll` — the sessions that hold a slot, each with whether it should have an entry
* `Service.Sound` — the count and the register agree with the roll
* `Service.Passes` — what an encounter can do to the three of them

## Main statements

* `Service.passes_meet` — every encounter does one of four things
* `Service.Passes.sound` — none of which brings the three apart
* `Service.retire_retire` — two steps wrap up a session that has ended
-/

namespace HeatingPlant

open Modbus

/-! ### Sessions keep their numbers -/

namespace Session

/-- A session keeps its number. -/
theorem id_turn (session : Session) (plant : State) :
    (session.turn plant).session.id = session.id := by
  have hterminate : ∀ (session : Session) (plant : State) (phase : Phase) (fault : Fault),
      (session.terminate plant phase fault).session.id = session.id := by
    intro session plant phase fault
    unfold terminate
    split
    · rfl
    · split
      · rfl
      · split <;> rfl
  unfold turn
  split
  · rfl
  · dsimp only
    split
    · exact hterminate _ _ _ _
    · unfold answer
      dsimp only
      split
      · rfl
      · exact hterminate _ _ _ _

end Session

namespace Connection

variable {connection : Connection}

/-- Whether two connections are of one session, and have come equally far as the register is
concerned. -/
def SameEntry (first second : Connection) : Prop :=
  first.session.id = second.session.id ∧ first.stage.isRegistered = second.stage.isRegistered

theorem sameEntry_receive (bytes : List UInt8) :
    (connection.receive bytes).SameEntry connection := by
  unfold receive
  split <;> exact ⟨rfl, rfl⟩

theorem sameEntry_cutOff (error : Option TransportError) :
    (connection.cutOff error).SameEntry connection := by
  unfold cutOff
  split <;> exact ⟨rfl, rfl⟩

/-- A turn of a session may end it, but leaves it its entry. -/
theorem sameEntry_afterTurn {turn : Session.Turn} (hid : turn.session.id = connection.session.id)
    (hserving : connection.stage = .serving) :
    (connection.afterTurn turn).SameEntry connection := by
  refine ⟨hid, ?_⟩
  rw [hserving, afterTurn]
  cases turn.finish <;> rfl

end Connection

namespace Service

variable {service before after : Service} {connection : Connection} {id : Nat}

/-! ### The roll -/

/-- The sessions that hold a slot, each with whether it should have its entry in the register. -/
def roll (service : Service) : List (Nat × Bool) :=
  service.connections.map fun connection =>
    (connection.session.id, connection.stage.isRegistered)

/-- The numbers of the sessions that hold a slot. -/
def numbers (service : Service) : List Nat := service.roll.map Prod.fst

/-- The count and the register agree with the roll. -/
structure Sound (service : Service) : Prop where
  /-- No two sessions have the same number. -/
  nodup : service.numbers.Nodup
  /-- The register has the entries of those that should have one, and no others. -/
  registry : service.registry = (service.roll.filter Prod.snd).map Prod.fst
  /-- Each session holds one slot. -/
  clients : service.clients = service.roll.length

/-- What an encounter can do to the roll, the register and the count, with the sessions that come
and that leave by it. -/
inductive Passes (before after : Service) : Option Nat → List Nat → Prop
  /-- Nobody comes or leaves. -/
  | stays (roll : after.roll = before.roll) (registry : after.registry = before.registry)
      (clients : after.clients = before.clients) (number : before.nextId ≤ after.nextId) :
      Passes before after none []
  /-- A client is let in under the next number. -/
  | comes (hroom : before.isFull = false)
      (roll : after.roll = before.roll ++ [(before.nextId, true)])
      (registry : after.registry = before.registry ++ [before.nextId])
      (clients : after.clients = before.clients + 1) (number : after.nextId = before.nextId + 1) :
      Passes before after (some before.nextId) []
  /-- A session that has ended loses its entry. -/
  | unregistered {id : Nat} (mem : (id, true) ∈ before.roll)
      (roll : after.roll = before.roll.map fun entry => if entry.1 = id then (id, false) else entry)
      (registry : after.registry = before.registry.filter (· ≠ id))
      (clients : after.clients = before.clients) (number : after.nextId = before.nextId) :
      Passes before after none []
  /-- A session without an entry frees its slot. -/
  | leaves {id : Nat} (mem : (id, false) ∈ before.roll)
      (roll : after.roll = before.roll.filter (·.1 ≠ id))
      (registry : after.registry = before.registry)
      (clients : after.clients = before.clients - 1) (number : after.nextId = before.nextId) :
      Passes before after none [id]

/-! ### Finding and changing connections -/

theorem mem_of_find? (h : service.find? id = some connection) :
    connection ∈ service.connections ∧ connection.session.id = id :=
  ⟨List.mem_of_find?_eq_some h, by simpa using List.find?_some h⟩

theorem mem_roll_of_find? (h : service.find? id = some connection) :
    (id, connection.stage.isRegistered) ∈ service.roll := by
  obtain ⟨hmem, rfl⟩ := mem_of_find? h
  exact List.mem_map_of_mem hmem

/-- A change that leaves a connection its number and its entry leaves the roll. -/
theorem roll_update {change : Connection → Connection}
    (h : ∀ connection ∈ service.connections, connection.session.id = id →
      (change connection).SameEntry connection) :
    (service.update id change).roll = service.roll := by
  unfold roll update
  rw [List.map_map]
  refine List.map_congr_left fun connection hmem => ?_
  by_cases hid : connection.session.id = id
  · obtain ⟨hnumber, hentry⟩ := h connection hmem hid
    simp [hid, hnumber, hentry]
  · simp [hid]

/-- With one number for each session, the one that is found is the only one. -/
theorem Sound.eq_of_mem (h : service.Sound) {first second : Connection}
    (hfirst : first ∈ service.connections) (hsecond : second ∈ service.connections)
    (hid : first.session.id = second.session.id) : first = second := by
  have hnodup : (service.connections.map fun connection => connection.session.id).Nodup := by
    have hnumbers := h.nodup
    rwa [numbers, roll, List.map_map] at hnumbers
  exact List.inj_on_of_nodup_map hnodup hfirst hsecond hid

/-- What a session that can go on makes of its turn. -/
theorem advance_of_ready (hfound : service.find? id = some connection)
    (hready : connection.isReady = true) (sink : Sink) :
    service.advance sink id =
      let turn := { connection.session with sink := sink }.turn service.plant
      ⟨{ service with plant := turn.plant }.update id (·.afterTurn turn),
        turn.session.sink.taken, turn.finish, turn.notices.map ServiceNotice.plant⟩ := by
  unfold advance
  rw [hfound]
  dsimp only
  rw [if_pos hready]

/-- Nothing happens in the turn of a session that is not there, or cannot go on. -/
theorem advance_of_not_ready
    (h : ∀ connection, service.find? id = some connection → connection.isReady = false)
    (sink : Sink) :
    service.advance sink id = ⟨service, [], none, []⟩ := by
  unfold advance
  split
  · rfl
  · rename_i connection hfound
    rw [h connection hfound]
    rfl

/-- A turn leaves the roll, the register and the count. -/
theorem advance_stays (hsound : service.Sound) (sink : Sink) (id : Nat) :
    (service.advance sink id).service.roll = service.roll ∧
      (service.advance sink id).service.registry = service.registry ∧
      (service.advance sink id).service.clients = service.clients ∧
      (service.advance sink id).service.nextId = service.nextId ∧
      (service.advance sink id).notices.filterMap ServiceNotice.departed? = [] := by
  by_cases h : ∃ connection, service.find? id = some connection ∧ connection.isReady = true
  · obtain ⟨connection, hfound, hready⟩ := h
    have hserving : connection.stage = .serving := by
      unfold Connection.isReady at hready
      simp only [Bool.and_eq_true, decide_eq_true_eq] at hready
      exact hready.1
    rw [advance_of_ready hfound hready]
    refine ⟨roll_update fun other hmem hid => ?_, rfl, rfl, rfl, ?_⟩
    · obtain ⟨hconnection, rfl⟩ := mem_of_find? hfound
      cases hsound.eq_of_mem hmem hconnection hid
      exact Connection.sameEntry_afterTurn (Session.id_turn _ _) hserving
    · simp [List.filterMap_map, Function.comp_def, ServiceNotice.departed?]
  · rw [advance_of_not_ready fun connection hfound => by
      simpa using fun hready => h ⟨connection, hfound, hready⟩]
    exact ⟨rfl, rfl, rfl, rfl, rfl⟩

/-- Nothing is to be wrapped up unless a session has ended. -/
theorem retire_of_none (h : service.find? id = none) : service.retire id = (service, []) := by
  unfold retire
  rw [h]

theorem retire_of_serving (h : service.find? id = some connection)
    (hstage : connection.stage = .serving) : service.retire id = (service, []) := by
  obtain ⟨session, inputEnded, stage⟩ := connection
  cases hstage
  unfold retire
  rw [h]

theorem retire_of_ended {finish : SessionEnd} (h : service.find? id = some connection)
    (hstage : connection.stage = .ended finish) :
    service.retire id =
      ((service.update id fun connection =>
        { connection with stage := .unregistered finish }).unregister id, []) := by
  obtain ⟨session, inputEnded, stage⟩ := connection
  cases hstage
  unfold retire
  rw [h]

theorem retire_of_unregistered {finish : SessionEnd} (h : service.find? id = some connection)
    (hstage : connection.stage = .unregistered finish) :
    service.retire id =
      ({ service.leave with
        connections := service.connections.filter fun connection => connection.session.id ≠ id },
      [.disconnected id connection.session.peer connection.session.served (service.clients - 1)
        finish]) := by
  obtain ⟨session, inputEnded, stage⟩ := connection
  cases hstage
  unfold retire
  rw [h]
  rfl

theorem passes_retire (id : Nat) :
    service.Passes (service.retire id).1 none
      ((service.retire id).2.filterMap ServiceNotice.departed?) := by
  cases h : service.find? id with
  | none =>
      rw [retire_of_none h]
      exact .stays rfl rfl rfl (Nat.le_refl _)
  | some connection =>
      have hmem := mem_roll_of_find? h
      cases hstage : connection.stage with
      | serving =>
          rw [retire_of_serving h hstage]
          exact .stays rfl rfl rfl (Nat.le_refl _)
      | ended finish =>
          rw [retire_of_ended h hstage]
          rw [hstage] at hmem
          refine .unregistered hmem ?_ rfl rfl rfl
          unfold unregister roll update
          rw [List.map_map, List.map_map]
          refine List.map_congr_left fun other _ => ?_
          by_cases hid : other.session.id = id <;> simp [hid, Stage.isRegistered]
      | unregistered finish =>
          rw [retire_of_unregistered h hstage]
          rw [hstage] at hmem
          refine .leaves hmem ?_ rfl rfl rfl
          unfold roll
          rw [List.filter_map]
          rfl

/-- An entry under the next number goes as it came. -/
theorem filter_register (hbelow : ∀ id ∈ service.registry, id < service.nextId) :
    (service.registry ++ [service.nextId]).filter (· ≠ service.nextId) = service.registry := by
  have hother : service.registry.filter (· ≠ service.nextId) = service.registry :=
    List.filter_eq_self.mpr fun id hid => decide_eq_true (Nat.ne_of_lt (hbelow id hid))
  rw [List.filter_append, hother]
  simp

/-- No encounter changes the limit, or asks the service to stop. -/
theorem limit_meet (service : Service) (encounter : Encounter) :
    (service.meet encounter).1.limit = service.limit ∧
      (service.meet encounter).1.stopping = service.stopping := by
  cases encounter with
  | arrive peer obstacle =>
      unfold meet letIn
      dsimp only
      split
      · exact ⟨rfl, rfl⟩
      · split
        · exact ⟨rfl, rfl⟩
        · split <;> exact ⟨rfl, rfl⟩
  | turn id sink =>
      unfold meet advance
      dsimp only
      split
      · exact ⟨rfl, rfl⟩
      · split <;> exact ⟨rfl, rfl⟩
  | retire id =>
      unfold meet retire
      dsimp only
      split <;> exact ⟨rfl, rfl⟩
  | receive => exact ⟨rfl, rfl⟩
  | cutOff => exact ⟨rfl, rfl⟩
  | tick => exact ⟨rfl, rfl⟩

/-- **Every encounter does one of four things** to the roll, the register and the count. -/
theorem passes_meet (hsound : service.Sound) (hopen : service.stopping = false)
    (hbelow : ∀ id ∈ service.registry, id < service.nextId) (encounter : Encounter) :
    service.Passes (service.meet encounter).1 (service.meet encounter).2.1
      ((service.meet encounter).2.2.filterMap ServiceNotice.departed?) := by
  cases encounter with
  | arrive peer obstacle =>
      unfold meet letIn
      dsimp only
      rw [hopen, if_neg Bool.false_ne_true]
      split
      · exact .stays rfl rfl rfl (Nat.le_refl _)
      · rename_i hroom
        rw [Bool.not_eq_true] at hroom
        split
        · exact .stays rfl rfl rfl (Nat.le_refl _)
        · exact .stays rfl rfl rfl (Nat.le_succ _)
        · exact .stays rfl rfl rfl (Nat.le_succ _)
        · exact .stays rfl (filter_register hbelow) rfl (Nat.le_succ _)
        · exact .comes hroom (List.map_append) rfl rfl rfl
  | receive id bytes =>
      exact .stays (roll_update fun _ _ _ => Connection.sameEntry_receive bytes) rfl rfl
        (Nat.le_refl _)
  | cutOff id error =>
      exact .stays (roll_update fun _ _ _ => Connection.sameEntry_cutOff error) rfl rfl
        (Nat.le_refl _)
  | turn id sink =>
      obtain ⟨hroll, hregistry, hclients, hnumber, hnotices⟩ := advance_stays hsound sink id
      unfold meet
      dsimp only
      rw [hnotices]
      exact .stays hroll hregistry hclients (Nat.le_of_eq hnumber.symm)
  | retire id => exact passes_retire id
  | tick =>
      have hnotices : service.tick.2.filterMap ServiceNotice.departed? = [] := by
        unfold tick
        simp [List.filterMap_map, Function.comp_def, ServiceNotice.departed?]
      unfold meet
      dsimp only
      rw [hnotices]
      exact .stays rfl rfl rfl (Nat.le_refl _)

/-! ### What stays true -/

variable {session : Option Nat} {departed : List Nat}

/-- The numbers afterwards: those that were there and the one that came, without those that left. -/
theorem Passes.numbers (h : before.Passes after session departed) :
    after.numbers = (before.numbers ++ session.toList).filter fun id => id ∉ departed := by
  cases h with
  | stays roll registry clients number => simp [Service.numbers, roll]
  | comes hroom roll registry clients number => simp [Service.numbers, roll]
  | @unregistered id mem roll registry clients number =>
      have hmap : (before.roll.map fun entry => if entry.1 = id then (id, false) else entry).map
          Prod.fst = before.numbers := by
        rw [List.map_map]
        refine List.map_congr_left fun entry _ => ?_
        by_cases h : entry.1 = id <;> simp [h]
      simp [Service.numbers, roll, hmap]
  | @leaves id mem roll registry clients number =>
      simp only [Service.numbers, roll, List.filter_map, Option.toList_none, List.append_nil,
        List.mem_singleton]
      rfl

/-- With one number for each session, filtering and erasing a number are the same. -/
theorem filter_ne_eq_erase {numbers : List Nat} (h : numbers.Nodup) (id : Nat) :
    (numbers.filter fun other => other ≠ id) = numbers.erase id := by
  rw [h.erase_eq_filter]
  refine List.filter_congr fun other _ => ?_
  by_cases hid : other = id <;> simp [hid]

theorem Passes.numbers_eq_erase {id : Nat} (h : before.Passes after none [id])
    (hsound : before.Sound) : after.numbers = before.numbers.erase id := by
  rw [h.numbers, ← filter_ne_eq_erase hsound.nodup]
  simp

/-- Those who leave were there. -/
theorem Passes.departed_subset (h : before.Passes after session departed) :
    departed ⊆ before.numbers := by
  cases h with
  | @leaves id mem roll registry clients number =>
      intro other hother
      cases List.mem_singleton.mp hother
      exact List.mem_map_of_mem mem
  | _ => exact List.nil_subset _

/-- Nobody leaves twice at once. -/
theorem Passes.nodup_departed (h : before.Passes after session departed) : departed.Nodup := by
  cases h with
  | leaves => exact List.nodup_cons.mpr ⟨List.not_mem_nil, .nil⟩
  | _ => exact .nil

/-- Who comes takes the next number, and no number is given twice. -/
theorem Passes.number (h : before.Passes after session departed) :
    before.nextId ≤ after.nextId ∧
      ∀ id ∈ session.toList, id = before.nextId ∧ id < after.nextId := by
  cases h with
  | stays roll registry clients number => exact ⟨number, nofun⟩
  | comes hroom roll registry clients number =>
      refine ⟨number ▸ Nat.le_succ _, fun id hid => ?_⟩
      cases List.mem_singleton.mp hid
      exact ⟨rfl, number ▸ Nat.lt_succ_self _⟩
  | unregistered mem roll registry clients number => exact ⟨Nat.le_of_eq number.symm, nofun⟩
  | leaves mem roll registry clients number => exact ⟨Nat.le_of_eq number.symm, nofun⟩

/-- There is room unless there are as many clients as the limit allows. -/
theorem isFull_eq_false_iff :
    service.isFull = false ↔
      ∀ limit, service.limit = some limit → service.clients < limit := by
  unfold isFull
  cases service.limit with
  | none => simp
  | some limit => simp

/-- Nobody comes in beyond the limit. -/
theorem Passes.within (h : before.Passes after session departed) {limit : Nat}
    (hlimit : before.limit = some limit) (hwithin : before.clients ≤ limit) :
    after.clients ≤ limit := by
  cases h with
  | stays roll registry clients number => exact clients ▸ hwithin
  | comes hroom roll registry clients number =>
      exact clients ▸ isFull_eq_false_iff.mp hroom limit hlimit
  | unregistered mem roll registry clients number => exact clients ▸ hwithin
  | leaves mem roll registry clients number =>
      exact clients ▸ Nat.le_trans (Nat.pred_le _) hwithin

/-- **The count, the register and the roll are kept together.** -/
theorem Passes.sound (h : before.Passes after session departed)
    (hfresh : ∀ id ∈ session.toList, id ∉ before.numbers) (hsound : before.Sound) :
    after.Sound := by
  have hnumbers := h.numbers
  cases h with
  | stays roll registry clients number =>
      exact ⟨by rw [Service.numbers, roll]; exact hsound.nodup,
        by rw [registry, roll]; exact hsound.registry,
        by rw [clients, roll]; exact hsound.clients⟩
  | comes hroom roll registry clients number =>
      refine ⟨?_, ?_, ?_⟩
      · have hnew : before.nextId ∉ before.numbers := hfresh _ (List.mem_singleton_self _)
        rw [Service.numbers, roll, List.map_append]
        exact List.nodup_append_comm.mp (List.nodup_cons.mpr ⟨hnew, hsound.nodup⟩)
      · rw [registry, roll, List.filter_append, List.map_append, hsound.registry]
        rfl
      · rw [clients, roll, List.length_append, hsound.clients]
        rfl
  | @unregistered id mem roll registry clients number =>
      refine ⟨?_, ?_, ?_⟩
      · rw [hnumbers]
        simpa using hsound.nodup
      · rw [registry, roll, hsound.registry]
        induction before.roll with
        | nil => rfl
        | cons entry rest ih =>
            by_cases h : entry.1 = id <;> by_cases hentry : entry.2 <;> simp_all
      · rw [clients, roll, List.length_map]
        exact hsound.clients
  | @leaves id mem roll registry clients number =>
      -- the one that leaves has no entry any more
      have hlone : ∀ entry ∈ before.roll, entry.2 = true → entry.1 ≠ id := by
        rintro entry hentry hregistered rfl
        rw [List.inj_on_of_nodup_map hsound.nodup hentry mem rfl] at hregistered
        cases hregistered
      have herase := (Passes.leaves mem roll registry clients number).numbers_eq_erase hsound
      refine ⟨?_, ?_, ?_⟩
      · rw [herase]
        exact hsound.nodup.erase id
      · rw [registry, roll, List.filter_filter, hsound.registry]
        refine congrArg (List.map Prod.fst) (List.filter_congr fun entry hentry => ?_)
        cases hregistered : entry.2 with
        | false => rfl
        | true => simpa using hlone entry hentry hregistered
      · have hmem : id ∈ before.numbers := List.mem_map_of_mem mem
        have hlength := congrArg List.length herase
        rw [List.length_erase_of_mem hmem, Service.numbers, Service.numbers, List.length_map,
          List.length_map] at hlength
        rw [clients, hlength, hsound.clients]

/-! ### Wrapping up -/

/-- A step of wrapping up keeps the three together. -/
theorem Sound.retire (h : service.Sound) (id : Nat) : (service.retire id).1.Sound :=
  (passes_retire id).sound nofun h

end Service

end HeatingPlant
