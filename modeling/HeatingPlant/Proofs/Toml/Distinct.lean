import Mathlib.Data.List.Nodup
import HeatingPlant.Toml.Reader

/-!
# No key twice

The table that a document is read as, and every table inside it, has each key once: what a line adds
to a table is a key that the table does not have, or a change under a key that it has.

## Main definitions

* `Value.Distinct` — a value in which no table has a key twice
* `Entries.Distinct` — the entries of such a table

## Main statements

* `Entries.Distinct.alter` — a change at the end of a path keeps keys apart if the change itself
  does
* `readsDistinct` — what readers of values make with some fuel
* `Entries.Distinct.of_read` — a whole document

## Design notes

Nothing about a document's text is needed, only how its lines come together.  So each reader is
followed through its results, and the induction is on its fuel.
-/

namespace HeatingPlant.Toml

/-- No table of the value has a key twice. -/
inductive Value.Distinct : Value → Prop
  | scalar (scalar : Scalar) : Distinct (.scalar scalar)
  | array {elements : List Value} (h : ∀ value ∈ elements, Distinct value) :
      Distinct (.array elements)
  | tables {elements : List Value} (h : ∀ value ∈ elements, Distinct value) :
      Distinct (.tables elements)
  | table {origin : Origin} {entries : List (String × Value)} (hkeys : (entries.map (·.1)).Nodup)
      (hvalues : ∀ entry ∈ entries, Distinct entry.2) : Distinct (.table origin entries)

/-- No key stands twice among the entries, or in a table inside them. -/
structure Entries.Distinct (entries : Entries) : Prop where
  /-- The keys differ. -/
  nodup : (entries.map (·.1)).Nodup
  /-- So do those of each table inside. -/
  value : ∀ entry ∈ entries, entry.2.Distinct

variable {entries inner : Entries} {key : String} {value : Value} {origin : Origin}

theorem Value.Distinct.inside (h : (Value.table origin entries).Distinct) : entries.Distinct := by
  cases h with
  | table hkeys hvalues => exact ⟨hkeys, hvalues⟩

theorem Value.Distinct.elements {elements : List Value} (h : (Value.tables elements).Distinct) :
    ∀ value ∈ elements, value.Distinct := by
  cases h with
  | tables h => exact h

theorem Value.Distinct.tables_append {elements : List Value}
    (h : ∀ value ∈ elements, value.Distinct) (hvalue : value.Distinct) :
    (Value.tables (elements ++ [value])).Distinct := by
  refine .tables fun other hmem => ?_
  obtain hbefore | hlast := List.mem_append.mp hmem
  · exact h other hbefore
  · exact List.mem_singleton.mp hlast ▸ hvalue

namespace Entries

theorem distinct_nil : Distinct [] :=
  ⟨List.nodup_nil, fun _ hmem => absurd hmem List.not_mem_nil⟩

theorem Distinct.table (h : entries.Distinct) : (Value.table origin entries).Distinct :=
  .table h.nodup h.value

theorem Distinct.lookup (h : entries.Distinct) (hlookup : entries.lookup key = some value) :
    value.Distinct := by
  obtain ⟨before, after, rfl, -⟩ := List.lookup_eq_some_iff.mp hlookup
  exact h.value (key, value) (List.mem_append_right _ List.mem_cons_self)

theorem mem_set {entry : String × Value} (h : entry ∈ set key value entries) :
    entry = (key, value) ∨ entry ∈ entries := by
  induction entries with
  | nil => exact .inl (List.mem_singleton.mp h)
  | cons first rest ih =>
      rw [set] at h
      split at h
      · exact (List.mem_cons.mp h).imp_right (List.mem_cons_of_mem _)
      · obtain rfl | hrest := List.mem_cons.mp h
        · exact .inr List.mem_cons_self
        · exact (ih hrest).imp_right (List.mem_cons_of_mem _)

/-- Replacing a key's value, or adding a key, leaves the keys different. -/
theorem Distinct.set (h : entries.Distinct) (hvalue : value.Distinct) :
    (entries.set key value).Distinct := by
  refine ⟨?_, fun entry hmem => ?_⟩
  · have hkeys := h.nodup
    clear h hvalue
    induction entries with
    | nil => exact List.nodup_singleton _
    | cons first rest ih =>
        rw [List.map_cons, List.nodup_cons] at hkeys
        rw [Entries.set]
        split
        case isTrue heq => exact List.nodup_cons.mpr (heq ▸ hkeys)
        case isFalse hne =>
          refine List.nodup_cons.mpr ⟨fun hmem => ?_, ih hkeys.2⟩
          obtain ⟨entry, hentry, hfirst⟩ := List.mem_map.mp hmem
          obtain rfl | hrest := mem_set hentry
          · exact hne hfirst.symm
          · exact hkeys.1 (List.mem_map.mpr ⟨entry, hrest, hfirst⟩)
  · obtain rfl | hrest := mem_set hmem
    · exact hvalue
    · exact h.value entry hrest

/-- A change of a table's entries that leaves the keys different. -/
def Keeps (change : Entries → Option Entries) : Prop :=
  ∀ entries entries', Distinct entries → change entries = some entries' → Distinct entries'

/-- **A change at the end of a path keeps keys apart** if it does so where it is made. -/
theorem Distinct.alter {dotted : Bool} {change : Origin → Entries → Option Entries}
    (hchange : ∀ origin, Keeps (change origin)) (path : List String) (origin : Origin) :
    Keeps (Entries.alter dotted change path origin) := by
  induction path generalizing origin with
  | nil => exact hchange origin
  | cons key path ih =>
      intro entries entries' h halter
      unfold Entries.alter at halter
      split at halter
      case h_1 =>
        obtain ⟨inner, hinner, rfl⟩ := Option.map_eq_some_iff.mp halter
        exact h.set (ih _ [] inner distinct_nil hinner).table
      case h_2 origin' inner hlookup =>
        split at halter
        case isTrue =>
          obtain ⟨inner', hinner, rfl⟩ := Option.map_eq_some_iff.mp halter
          exact h.set (ih _ inner inner' (h.lookup hlookup).inside hinner).table
        case isFalse => cases halter
      case h_3 elements hlookup =>
        have hall := (h.lookup hlookup).elements
        split at halter
        case h_1 origin' inner hlast =>
          obtain ⟨inner', hinner, rfl⟩ := Option.map_eq_some_iff.mp halter
          have hlater := ih _ inner inner' (hall _ (List.mem_of_getLast? hlast)).inside hinner
          exact h.set (.tables_append (fun value hmem => hall value (List.dropLast_subset _ hmem))
            hlater.table)
        case h_2 => cases halter
      case h_4 => cases halter

theorem Distinct.define {path : List String} {entries' : Entries} (h : entries.Distinct)
    (hvalue : value.Distinct) (hdefine : entries.define path key value origin = some entries') :
    entries'.Distinct := by
  refine Distinct.alter (fun innermost inner inner' hinner hchange => ?_) path origin entries
    entries'
    h hdefine
  split at hchange
  · cases hchange
  · split at hchange
    · cases hchange
    · obtain rfl := Option.some.inj hchange
      exact hinner.set hvalue

theorem Distinct.reopen (h : entries.Distinct) (hreopen : entries.reopen key = some inner) :
    inner.Distinct := by
  unfold Entries.reopen at hreopen
  split at hreopen
  case h_1 => exact Option.some.inj hreopen ▸ distinct_nil
  case h_2 hlookup => exact Option.some.inj hreopen ▸ (h.lookup hlookup).inside
  case h_3 => cases hreopen

variable {path : List String} {fill : Entries → Option Entries}

theorem Distinct.openTable (hfill : Keeps fill) : Keeps (Entries.openTable path key fill) := by
  refine Distinct.alter (fun _ entries entries' h hchange => ?_) path .header
  obtain ⟨before, hreopen, hchange⟩ := Option.bind_eq_some_iff.mp hchange
  obtain ⟨inner, hinner, hchange⟩ := Option.bind_eq_some_iff.mp hchange
  obtain rfl := Option.some.inj hchange
  exact h.set (hfill before inner (h.reopen hreopen) hinner).table

theorem Distinct.append (hfill : Keeps fill) : Keeps (Entries.append path key fill) := by
  refine Distinct.alter (fun _ entries entries' h hchange => ?_) path .header
  obtain ⟨inner, hinner, hchange⟩ := Option.bind_eq_some_iff.mp hchange
  have helement : (Value.table .header inner).Distinct := (hfill [] inner distinct_nil hinner).table
  dsimp only at hchange
  split at hchange
  case h_1 =>
    obtain rfl := Option.some.inj hchange
    exact h.set (.tables fun value hmem => List.mem_singleton.mp hmem ▸ helement)
  case h_2 elements hlookup =>
    obtain rfl := Option.some.inj hchange
    exact h.set (.tables_append (h.lookup hlookup).elements helement)
  case h_3 => cases hchange

end Entries

/-! ### Values -/

/-- What is read with some fuel has no key twice. -/
structure ReadsDistinct (fuel : ℕ) : Prop where
  /-- A value. -/
  value : ∀ {depth text value rest},
    readValue fuel depth text = some (value, rest) → value.Distinct
  /-- The elements of an array. -/
  elements : ∀ {depth text values rest}, readElements fuel depth text = some (values, rest) →
    ∀ value ∈ values, value.Distinct
  /-- The entries of an inline table, added to others. -/
  pairs : ∀ {depth entries text entries' rest}, Entries.Distinct entries →
    readPairs fuel depth entries text = some (entries', rest) → entries'.Distinct

namespace ReadsDistinct

variable {fuel depth : ℕ} {text rest : List Char}

theorem value_succ {value : Value} (ih : ReadsDistinct fuel)
    (h : readValue (fuel + 1) depth text = some (value, rest)) : value.Distinct := by
  unfold readValue at h
  split at h
  case h_1 =>
    split at h
    · cases h
    · obtain ⟨⟨elements, after⟩, helements, heq⟩ := Option.map_eq_some_iff.mp h
      cases heq
      exact .array (ih.elements helements)
  case h_2 =>
    split at h
    · cases h
    · obtain ⟨⟨entries, after⟩, hpairs, heq⟩ := Option.map_eq_some_iff.mp h
      cases heq
      exact (ih.pairs Entries.distinct_nil hpairs).table
  all_goals
    obtain ⟨scalar, hscalar, heq⟩ := Option.map_eq_some_iff.mp h
    cases heq
    exact .scalar _

theorem elements_succ {values : List Value} (ih : ReadsDistinct fuel)
    (h : readElements (fuel + 1) depth text = some (values, rest)) :
    ∀ value ∈ values, value.Distinct := by
  unfold readElements at h
  obtain ⟨start, hstart, h⟩ := Option.bind_eq_some_iff.mp h
  dsimp only at h
  split at h
  case h_1 =>
    cases h
    exact fun _ hmem => absurd hmem List.not_mem_nil
  case h_2 =>
    obtain ⟨⟨first, after⟩, hfirst, h⟩ := Option.bind_eq_some_iff.mp h
    obtain ⟨next, hnext, h⟩ := Option.bind_eq_some_iff.mp h
    have hvalue := ih.value hfirst
    dsimp only at h
    split at h
    case h_1 =>
      cases h
      exact List.forall_mem_cons.mpr ⟨hvalue, fun _ hmem => absurd hmem List.not_mem_nil⟩
    case h_2 =>
      obtain ⟨⟨others, last⟩, hothers, h⟩ := Option.bind_eq_some_iff.mp h
      cases h
      exact List.forall_mem_cons.mpr ⟨hvalue, ih.elements hothers⟩
    case h_3 => cases h

theorem pairs_succ {entries entries' : Entries} (ih : ReadsDistinct fuel)
    (hentries : entries.Distinct)
    (h : readPairs (fuel + 1) depth entries text = some (entries', rest)) : entries'.Distinct := by
  unfold readPairs at h
  obtain ⟨start, hstart, h⟩ := Option.bind_eq_some_iff.mp h
  dsimp only at h
  split at h
  case h_1 =>
    cases h
    exact hentries
  case h_2 =>
    obtain ⟨⟨path, key, after⟩, hpath, h⟩ := Option.bind_eq_some_iff.mp h
    obtain ⟨next, hnext, h⟩ := Option.bind_eq_some_iff.mp h
    dsimp only at h
    split at h
    case h_1 =>
      obtain ⟨front, hfront, h⟩ := Option.bind_eq_some_iff.mp h
      obtain ⟨⟨value, after⟩, hvalue, h⟩ := Option.bind_eq_some_iff.mp h
      obtain ⟨defined, hdefined, h⟩ := Option.bind_eq_some_iff.mp h
      obtain ⟨last, hlast, h⟩ := Option.bind_eq_some_iff.mp h
      have hnew : defined.Distinct := hentries.define (ih.value hvalue) hdefined
      split at h
      case h_1 =>
        cases h
        exact hnew
      case h_2 => exact ih.pairs hnew h
      case h_3 => cases h
    case h_2 => cases h

end ReadsDistinct

/-- **No table of a value that is read has a key twice.** -/
theorem readsDistinct (fuel : ℕ) : ReadsDistinct fuel := by
  induction fuel with
  | zero => exact ⟨nofun, nofun, nofun⟩
  | succ fuel ih => exact ⟨ih.value_succ, ih.elements_succ, ih.pairs_succ⟩

/-! ### Lines and headers -/

/-- A line's key and value. -/
abbrev Pair := List String × String × Value

theorem distinct_of_readPair? {text rest : List Char} {pair : Pair}
    (h : readPair? text = some (pair, rest)) : pair.2.2.Distinct := by
  unfold readPair? at h
  obtain ⟨⟨path, key, after⟩, hpath, h⟩ := Option.bind_eq_some_iff.mp h
  dsimp only at h
  split at h
  case h_1 heq =>
    obtain ⟨⟨value, after⟩, hvalue, h⟩ := Option.bind_eq_some_iff.mp h
    obtain ⟨next, hnext, h⟩ := Option.bind_eq_some_iff.mp h
    cases h
    exact (readsDistinct _).value hvalue
  case h_2 => cases h

theorem distinct_of_readBody {fuel : ℕ} {text rest : List Char} {pairs : List Pair}
    (h : readBody fuel text = some (pairs, rest)) : ∀ pair ∈ pairs, pair.2.2.Distinct := by
  induction fuel generalizing text rest pairs with
  | zero => cases h
  | succ fuel ih =>
      unfold readBody at h
      obtain ⟨start, hstart, h⟩ := Option.bind_eq_some_iff.mp h
      dsimp only at h
      split at h
      case h_3 =>
        obtain ⟨⟨pair, after⟩, hpair, h⟩ := Option.bind_eq_some_iff.mp h
        obtain ⟨⟨others, last⟩, hothers, h⟩ := Option.bind_eq_some_iff.mp h
        cases h
        exact List.forall_mem_cons.mpr ⟨distinct_of_readPair? hpair, ih hothers⟩
      all_goals
        cases h
        exact fun _ hmem => absurd hmem List.not_mem_nil

namespace Entries

theorem keeps_defineAll {pairs : List Pair} (h : ∀ pair ∈ pairs, pair.2.2.Distinct) :
    Keeps (defineAll pairs) := by
  intro entries entries' hentries hdefine
  induction pairs generalizing entries with
  | nil => exact Option.some.inj hdefine ▸ hentries
  | cons pair pairs ih =>
      obtain ⟨hpair, hothers⟩ := List.forall_mem_cons.mp h
      rw [defineAll, List.foldlM_cons] at hdefine
      obtain ⟨defined, hdefined, hdefine⟩ := Option.bind_eq_some_iff.mp hdefine
      exact ih hothers defined (hentries.define hpair hdefined) hdefine

theorem Distinct.readSections {fuel : ℕ} {root table : Entries} {text : List Char}
    (hroot : root.Distinct) (h : readSections fuel root text = some table) : table.Distinct := by
  induction fuel generalizing root text with
  | zero => cases h
  | succ fuel ih =>
      unfold Toml.readSections at h
      split at h
      case h_1 => cases h
      case h_2 => exact Option.some.inj h ▸ hroot
      case h_3 fuel' text' heq =>
        obtain rfl := Nat.succ.inj heq
        obtain ⟨⟨header, lines⟩, hheader, h⟩ := Option.bind_eq_some_iff.mp h
        obtain ⟨⟨pairs, later⟩, hbody, h⟩ := Option.bind_eq_some_iff.mp h
        have hfill := keeps_defineAll (distinct_of_readBody hbody)
        dsimp only at h
        split at h
        case isTrue =>
          obtain ⟨next, hnext, h⟩ := Option.bind_eq_some_iff.mp h
          exact ih (Distinct.append hfill _ next hroot hnext) h
        case isFalse =>
          obtain ⟨next, hnext, h⟩ := Option.bind_eq_some_iff.mp h
          exact ih (Distinct.openTable hfill _ next hroot hnext) h
      case h_4 => cases h

/-- **No document says a key twice.** -/
theorem Distinct.of_read {document : String} {table : Entries} (h : read document = some table) :
    table.Distinct := by
  unfold read at h
  dsimp only at h
  split at h
  case isTrue => cases h
  case isFalse =>
    obtain ⟨⟨pairs, rest⟩, hbody, h⟩ := Option.bind_eq_some_iff.mp h
    obtain ⟨root, hroot, h⟩ := Option.bind_eq_some_iff.mp h
    have hdefined := keeps_defineAll (distinct_of_readBody hbody) [] root distinct_nil hroot
    exact hdefined.readSections h

end Entries

end HeatingPlant.Toml
