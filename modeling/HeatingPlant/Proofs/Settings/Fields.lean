import HeatingPlant.Proofs.Net.Endpoint
import HeatingPlant.Proofs.Toml.Documents
import HeatingPlant.Proofs.Toml.Reals
import HeatingPlant.Settings.Fields

/-!
# Records read back

A record whose parts are written, each on its own line, is the record that is read from these lines.

## Main definitions

* `Codec.ReadsBack` — a value that is written as what is read as it
* `Along` — steps one after the other
* `Field.Carries` — what reading a record's line for a field makes of another record

## Main statements

* `Codec.ReadsBack.map`, `Codec.ReadsBack.optional`, `Codec.readsBack_quantity` — the codecs
* `Field.carries_of` — a field whose codec reads back puts the record's part in place
* `readEntries_writeRecord` — a record reads back
* `wellFormed_writeRecord` — and a document can give it away

## Design notes

A part that is left out keeps what the record had that is read into, so that a field is described by
the record before and the one after, and a record by its fields in a row.
-/

namespace HeatingPlant

open Toml

variable {α β : Type}

/-! ### Codecs -/

namespace Codec

/-- A value that is written, if at all, as what is read as it. -/
def ReadsBack (codec : Codec α) (x : α) : Prop :=
  ∀ scalar, codec.write x = some scalar →
    scalar.Writable ∧ codec.read (.scalar scalar.asRead) = some x

theorem readsBack_text (x : String) : text.ReadsBack x := by
  rintro _ ⟨⟩
  exact ⟨trivial, rfl⟩

theorem readsBack_keyword (x : String) : keyword.ReadsBack x := by
  rintro _ ⟨⟩
  exact ⟨trivial, rfl⟩

theorem readsBack_natural {largest n : ℕ} (h : n ≤ largest) :
    (natural largest).ReadsBack n := by
  rintro _ ⟨⟩
  refine ⟨trivial, ?_⟩
  have hrange : 0 ≤ (n : ℤ) ∧ (n : ℤ) ≤ largest :=
    ⟨Int.natCast_nonneg n, Int.ofNat_le.mpr h⟩
  exact (if_pos hrange).trans (congrArg some (Int.toNat_natCast n))

/-- **A finite quantity reads back.** -/
theorem readsBack_quantity {x : Float} (h : x.isFinite = true) : quantity.ReadsBack x := by
  rintro _ ⟨⟩
  exact ⟨Scalar.writable_ofFloat h, Number.toFloat?_pointed h⟩

/-- What stands for a value reads back, and so does the value. -/
theorem ReadsBack.map {codec : Codec α} {into : α → Option β} {back : β → α} {y : β}
    (h : codec.ReadsBack (back y)) (hinto : into (back y) = some y) :
    (codec.map into back).ReadsBack y := by
  intro scalar hwrite
  obtain ⟨hwritable, hread⟩ := h scalar hwrite
  refine ⟨hwritable, ?_⟩
  show (codec.read _).bind into = some y
  rw [hread, Option.bind_some, hinto]

/-- What may be left out reads back if it is there. -/
theorem ReadsBack.optional {codec : Codec α} {x : Option α} (h : ∀ y ∈ x, codec.ReadsBack y) :
    codec.optional.ReadsBack x := by
  intro scalar hwrite
  obtain ⟨y, rfl, hy⟩ := Option.bind_eq_some_iff.mp hwrite
  obtain ⟨hwritable, hread⟩ := h y rfl scalar hy
  refine ⟨hwritable, ?_⟩
  show (codec.read _).map some = some (some y)
  rw [hread, Option.map_some]

/-- What may be left out and is left out is not there, if it would be written otherwise. -/
theorem eq_none_of_write {codec : Codec α} {x : Option α} (hleft : codec.optional.write x = none)
    (hwrite : ∀ y, codec.write y ≠ none) : x = none := by
  cases x with
  | none => rfl
  | some y => exact absurd hleft (hwrite y)

theorem readsBack_byte (x : UInt8) : byte.ReadsBack x :=
  (readsBack_natural (Nat.le_of_lt_succ x.toNat_lt)).map (congrArg some UInt8.ofNat_toNat)

theorem readsBack_word32 (x : UInt32) : word32.ReadsBack x :=
  (readsBack_natural (Nat.le_of_lt_succ x.toNat_lt)).map (congrArg some UInt32.ofNat_toNat)

theorem readsBack_word64 (x : UInt64) : word64.ReadsBack x :=
  (readsBack_natural (Nat.le_of_lt_succ x.toNat_lt)).map (congrArg some UInt64.ofNat_toNat)

theorem readsBack_level (x : Level) : level.ReadsBack x :=
  (readsBack_keyword x.keyword).map (Level.ofKeyword?_keyword x)

theorem readsBack_mode (x : ControlMode) : mode.ReadsBack x :=
  (readsBack_keyword x.keyword).map (ControlMode.ofKeyword?_keyword x)

theorem readsBack_endpoint (x : Endpoint) : endpoint.ReadsBack x :=
  (readsBack_text x.text).map (Endpoint.ofText?_text x)

end Codec

/-! ### Steps in a row -/

/-- Steps one after the other, from the first to the last of what they lead through. -/
inductive Along (step : β → α → α → Prop) : List β → α → α → Prop where
  | nil (x : α) : Along step [] x x
  | cons {i : β} {is : List β} {x y z : α} (first : step i x y) (others : Along step is y z) :
      Along step (i :: is) x z

/-- What each step writes leads, read in a row, where the steps lead. -/
theorem Along.foldlM_eq {ε : Type} {step : β → α → α → Prop}
    {read : α → ε → Option α} {write : β → Option ε} {is : List β} {x z : α}
    (h : Along step is x z)
    (hread : ∀ i ∈ is, ∀ x y, step i x y → match write i with
      | some entry => read x entry = some y
      | none => y = x) :
    (is.filterMap write).foldlM read x = some z := by
  induction h with
  | nil x => rfl
  | @cons i is x y z first others ih =>
      have hrest := ih fun j hmem => hread j (List.mem_cons_of_mem _ hmem)
      have hfirst := hread i List.mem_cons_self x y first
      cases hwrite : write i with
      | none =>
          rw [hwrite] at hfirst
          rw [List.filterMap_cons_none hwrite, ← hfirst, hrest]
      | some entry =>
          rw [hwrite] at hfirst
          dsimp only at hfirst
          rw [List.filterMap_cons_some hwrite, List.foldlM_cons, hfirst]
          exact hrest

theorem Along.exists_of_mem {step : β → α → α → Prop} {is : List β} {x z : α}
    (h : Along step is x z) {i : β} (hmem : i ∈ is) : ∃ x y, step i x y := by
  induction h with
  | nil x => exact absurd hmem List.not_mem_nil
  | cons first others ih =>
      rcases List.mem_cons.mp hmem with rfl | hmem
      · exact ⟨_, _, first⟩
      · exact ih hmem

/-- What has a name of its own is found by it. -/
theorem find?_of_nodup {name : β → String} {all : List β} {i : β}
    (hnames : (all.map name).Nodup)
    (hmem : i ∈ all) : all.find? (fun j => name j = name i) = some i := by
  induction all with
  | nil => exact absurd hmem List.not_mem_nil
  | cons j all ih =>
      rw [List.map_cons, List.nodup_cons] at hnames
      rcases List.mem_cons.mp hmem with rfl | hmem
      · rw [List.find?_cons_of_pos (by simp)]
      · have hne : name j ≠ name i := fun heq => hnames.1 (heq ▸ List.mem_map_of_mem hmem)
        rw [List.find?_cons_of_neg (by simpa using hne), ih hnames.2 hmem]

/-! ### Records -/

/-- What reading a record's line for a field, if it has one, makes of the record `base`. -/
def Field.Carries (field : Field α) (record base next : α) : Prop :=
  match field.write record with
  | some scalar => scalar.Writable ∧ field.read (.scalar scalar.asRead) base = some next
  | none => next = base

/-- **A field whose codec reads back puts the record's part in its place**, provided that it is
there already if it is left out. -/
theorem Field.carries_of {key : String} {codec : Codec β} {get : α → β}
    {put : β → α → α} {record base : α} (h : codec.ReadsBack (get record))
    (hleft : codec.write (get record) = none → put (get record) base = base) :
    (Field.of key codec get put).Carries record base (put (get record) base) := by
  show match codec.write (get record) with
    | some scalar => scalar.Writable ∧
        (codec.read (.scalar scalar.asRead)).map (fun part => put part base) =
          some (put (get record) base)
    | none => put (get record) base = base
  cases hwrite : codec.write (get record) with
  | none => exact hleft hwrite
  | some scalar =>
      obtain ⟨hwritable, hread⟩ := h scalar hwrite
      exact ⟨hwritable, by rw [hread, Option.map_some]⟩

section

variable {fields : List (Field α)} {record base next : α}

/-- **A record reads back** from the lines of its fields. -/
theorem readEntries_writeRecord (hkeys : (fields.map Field.key).Nodup) (strict : Bool)
    (h : Along (fun field => field.Carries record) fields base next) :
    readEntries fields strict base ((writeRecord fields record).map asPair) = some next := by
  rw [readEntries, writeRecord, List.map_filterMap]
  refine h.foldlM_eq fun field hmem x y hstep => ?_
  unfold Field.Carries at hstep
  cases hwrite : field.write record with
  | none =>
      rw [hwrite] at hstep
      exact hstep
  | some scalar =>
      rw [hwrite] at hstep
      simp only [Option.map_some, asPair, readEntry, find?_of_nodup hkeys hmem]
      exact hstep.2

theorem sublist_keys (fields : List (Field α)) (record : α) :
    ((writeRecord fields record).map (·.1)).Sublist (fields.map Field.key) := by
  induction fields with
  | nil => exact List.Sublist.refl _
  | cons field fields ih =>
      unfold writeRecord at ih ⊢
      rw [List.filterMap_cons, List.map_cons]
      cases field.write record with
      | none => exact ih.cons _
      | some scalar => exact ih.cons_cons _

/-- **A document can give a record away** whose keys differ and need no quotes. -/
theorem wellFormed_writeRecord {name : String} (hname : IsBareKey name)
    (hbare : ∀ field ∈ fields, IsBareKey field.key) (hkeys : (fields.map Field.key).Nodup)
    (h : Along (fun field => field.Carries record) fields base next) :
    (⟨name, writeRecord fields record⟩ : Toml.Section).WellFormed := by
  have hlines : ∀ line ∈ writeRecord fields record, ∃ field ∈ fields, line.1 = field.key ∧
      field.write record = some line.2 := by
    intro line hline
    obtain ⟨field, hmem, hsome⟩ := List.mem_filterMap.mp hline
    obtain ⟨scalar, hwrite, rfl⟩ := Option.map_eq_some_iff.mp hsome
    exact ⟨field, hmem, rfl, hwrite⟩
  refine ⟨hname, fun line hline => ?_, ?_⟩
  · obtain ⟨field, hmem, hkey, hwrite⟩ := hlines line hline
    obtain ⟨x, y, hstep⟩ := h.exists_of_mem hmem
    unfold Field.Carries at hstep
    rw [hwrite] at hstep
    exact ⟨hkey ▸ hbare field hmem, hstep.1⟩
  · exact hkeys.sublist (sublist_keys fields record)

end

end HeatingPlant
