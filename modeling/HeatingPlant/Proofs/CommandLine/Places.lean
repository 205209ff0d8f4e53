import HeatingPlant.CommandLine.Disk

/-!
# Places in a file tree

Where the names of a path lead, and what changes when something is put there.  A place is only found
along directories, so that nothing on the way to it is replaced.

## Main definitions

* `Kind`, `Disk.shows` — what stands at a place, without what is under it
* `Disk.HasParent` — there is a directory for what stands at a place, or may come to stand there
* `IsPlainName` — a name that leads from a directory to what it names there

## Main statements

* `Disk.hasParent_of_walk` — names lead to places that have a directory
* `Disk.shows_put` — what is put at such a place changes nothing elsewhere
* `Disk.walk_of_directories` — names lead where they did as long as the directories are there
* `Disk.textAt_eq_ok_iff` — the text of a path is that of the place that it leads to
* `IsPlainName.textAt_putFile` — a file put into the working directory is found there
-/

namespace HeatingPlant.CommandLine

/-! ### Nodes -/

/-- What stands at a place, without what is under it. -/
inductive Kind where
  | directory
  | file (content : String)
  | void
  deriving DecidableEq

/-- The kind of a node. -/
def Node.kind : Node → Kind
  | directory _ => .directory
  | file content => .file content
  | void => .void

/-- The text of what is not a directory. -/
def Kind.text? : Kind → Option String
  | directory => none
  | file content => some content
  | void => some ""

namespace Node

variable {node next new : Node} {name : String} {place above rest other : List String}

theorem entries_eq_nil_of_kind (h : node.kind ≠ .directory) : node.entries = [] := by
  cases node with
  | directory => exact absurd rfl h
  | file => rfl
  | void => rfl

theorem at?_cons (node : Node) (name : String) (rest : List String) :
    node.at? (name :: rest) = (node.entries.lookup name).bind fun next => next.at? rest := rfl

theorem at?_append (node : Node) (above rest : List String) :
    node.at? (above ++ rest) = (node.at? above).bind fun next => next.at? rest := by
  induction above generalizing node with
  | nil => rfl
  | cons name above ih =>
      rw [List.cons_append, at?_cons, at?_cons, Option.bind_assoc]
      exact congrArg _ (funext ih)

/-- Only a directory has something under it. -/
theorem kind_of_at?_cons (h : node.at? (name :: rest) = some next) : node.kind = .directory := by
  refine Decidable.byContradiction fun hkind => ?_
  rw [at?_cons, entries_eq_nil_of_kind hkind] at h
  cases h

theorem at?_cons_of_entries (h : node.entries = []) (name : String) (rest : List String) :
    node.at? (name :: rest) = none := by
  rw [at?_cons, h]
  rfl

theorem lookup_filter_ne {first second : String} (h : second ≠ first)
    (entries : List (String × Node)) :
    (entries.filter fun entry => entry.1 ≠ first).lookup second = entries.lookup second := by
  induction entries with
  | nil => rfl
  | cons entry entries ih =>
      rw [List.filter_cons]
      by_cases hentry : entry.1 = first
      · rw [if_neg (by simpa using hentry), ih, List.lookup_cons,
          beq_eq_false_iff_ne.mpr (hentry ▸ h)]
      · rw [if_pos (by simpa using hentry), List.lookup_cons, List.lookup_cons, ih]

/-- What is put under one name is all that changes in a directory. -/
theorem lookup_put (new node : Node) (first second : String) (rest : List String) :
    (put new (first :: rest) node).entries.lookup second =
      if second = first then some (put new rest ((node.entries.lookup first).getD (.directory [])))
      else node.entries.lookup second := by
  rw [put, entries, List.lookup_cons]
  split
  · rename_i hsame
    rw [if_pos (beq_iff_eq.mp hsame)]
  · rename_i hother
    have hne := beq_eq_false_iff_ne.mp hother
    rw [if_neg hne, lookup_filter_ne hne]

/-- What is put at a place stands there, with all that is under it. -/
theorem at?_put (new : Node) (place : List String) (node : Node) (rest : List String) :
    (put new place node).at? (place ++ rest) = new.at? rest := by
  induction place generalizing node with
  | nil => rfl
  | cons name place ih =>
      rw [List.cons_append, at?_cons, lookup_put, if_pos rfl]
      exact ih _

/-- **What is put into a directory changes nothing elsewhere.** -/
theorem kind_at?_put (new : Node) (habove : (node.at? above).map kind = some .directory)
    (hother : ¬above ++ [name] <+: other) :
    ((put new (above ++ [name]) node).at? other).map kind = (node.at? other).map kind := by
  induction above generalizing node other with
  | nil =>
      cases other with
      | nil => exact habove.symm
      | cons second rest =>
          have hne : second ≠ name := by
            rintro rfl
            exact hother (List.prefix_append [second] rest)
          rw [List.nil_append, at?_cons, lookup_put, if_neg hne, at?_cons]
  | cons first above ih =>
      obtain ⟨found, hfound, hkind⟩ := Option.map_eq_some_iff.mp habove
      rw [at?_cons, Option.bind_eq_some_iff] at hfound
      obtain ⟨next, hlookup, hnext⟩ := hfound
      cases other with
      | nil =>
          have hnode : node.kind = .directory :=
            kind_of_at?_cons (by rw [at?_cons, hlookup]; exact hnext)
          exact congrArg some hnode.symm
      | cons second rest =>
          rw [List.cons_append, at?_cons, at?_cons, lookup_put]
          by_cases hsame : second = first
          · subst hsame
            rw [if_pos rfl, hlookup]
            exact ih (hnext ▸ congrArg some hkind) fun hprefix =>
              hother (List.cons_prefix_cons.mpr ⟨rfl, hprefix⟩)
          · rw [if_neg hsame]

/-- A directory stays one whatever is put elsewhere, or into it. -/
theorem directory_at?_put {node : Node} {place other : List String} (new : Node)
    (h : (node.at? place).map kind = some .directory) (hother : ¬other <+: place) :
    ((put new other node).at? place).map kind = some .directory := by
  induction other generalizing node place with
  | nil => exact absurd List.nil_prefix hother
  | cons first other ih =>
      cases place with
      | nil => rfl
      | cons second rest =>
          rw [at?_cons, lookup_put]
          split
          · rename_i hsame
            subst hsame
            refine ih ?_ fun hprefix => hother (List.cons_prefix_cons.mpr ⟨rfl, hprefix⟩)
            rw [at?_cons] at h
            cases hlookup : node.entries.lookup second with
            | none =>
                rw [hlookup] at h
                cases h
            | some next =>
                rw [hlookup] at h
                exact h
          · exact h

end Node

/-! ### Places -/

namespace Disk

variable {disk later : Disk} {place names found : List String} {name : String}

/-- What a disk shows at a place, without what is under it. -/
def shows (disk : Disk) (place : List String) : Option Kind := (disk.node? place).map Node.kind

/-- There is a directory for what stands at a place, or may come to stand there. -/
def HasParent (disk : Disk) (place : List String) : Prop :=
  ∀ above name, place = above ++ [name] → disk.shows above = some .directory

theorem node?_append (disk : Disk) (above rest : List String) :
    disk.node? (above ++ rest) = (disk.node? above).bind fun next => next.at? rest :=
  disk.root.at?_append above rest

theorem shows_of_node? {node : Node} (h : disk.node? place = some node) :
    disk.shows place = some node.kind := by
  rw [shows, h]
  rfl

/-- Above what stands anywhere there are directories. -/
theorem hasParent_of_shows {kind : Kind} (h : disk.shows place = some kind) :
    disk.HasParent place := by
  rintro above name rfl
  obtain ⟨node, hnode, -⟩ := Option.map_eq_some_iff.mp h
  rw [node?_append, Option.bind_eq_some_iff] at hnode
  obtain ⟨parent, hparent, hat⟩ := hnode
  rw [shows_of_node? hparent, Node.kind_of_at?_cons hat]

/-- **A leaf put at a place with a directory changes nothing elsewhere**, unless it replaces a
directory. -/
theorem shows_put (new : Node) (hparent : disk.HasParent place)
    (hleaf : disk.shows place ≠ some .directory) (hnew : new.entries = []) (other : List String) :
    (disk.put place new).shows other =
      if other = place then some new.kind else disk.shows other := by
  by_cases hunder : place <+: other
  · obtain ⟨rest, rfl⟩ := hunder
    have hput : (disk.put place new).node? (place ++ rest) = new.at? rest := Node.at?_put ..
    cases rest with
    | nil =>
        rw [if_pos (List.append_nil place), shows, hput]
        rfl
    | cons name rest =>
        -- there was nothing under it before, as there is nothing now
        have hbefore : disk.node? (place ++ name :: rest) = none := by
          rw [node?_append]
          cases hnode : disk.node? place with
          | none => rfl
          | some node =>
              rw [shows_of_node? hnode] at hleaf
              exact Node.at?_cons_of_entries
                (Node.entries_eq_nil_of_kind fun hkind => hleaf (congrArg some hkind)) name rest
        rw [if_neg (by simp), shows, hput, Node.at?_cons_of_entries hnew, shows, hbefore]
  · have hne : other ≠ place := by
      rintro rfl
      exact hunder (List.prefix_refl _)
    rw [if_neg hne]
    rcases List.eq_nil_or_concat place with rfl | ⟨above, name, hplace⟩
    · exact absurd List.nil_prefix hunder
    · rw [List.concat_eq_append] at hplace
      subst hplace
      exact Node.kind_at?_put new (hparent above name rfl) hunder

/-! ### Where names lead -/

theorem shows_eq_none_iff : disk.shows place = none ↔ disk.node? place = none :=
  Option.map_eq_none_iff

theorem shows_eq_directory_iff :
    disk.shows place = some .directory ↔
      ∃ entries, disk.node? place = some (.directory entries) := by
  constructor
  · intro h
    obtain ⟨node, hnode, hkind⟩ := Option.map_eq_some_iff.mp h
    cases node with
    | directory entries => exact ⟨entries, hnode⟩
    | file => cases hkind
    | void => cases hkind
  · rintro ⟨entries, hnode⟩
    exact shows_of_node? hnode

/-- A name is followed from a directory, and if it stands for anything, one step. -/
theorem walk_cons_eq_ok_iff :
    disk.walk place (name :: names) = .ok found ↔
      disk.shows place = some .directory ∧
        ∃ next, (if stepsOn name then step place name else .ok place) = .ok next ∧
          disk.walk next names = .ok found := by
  rw [shows_eq_directory_iff, walk]
  cases hnode : disk.node? place with
  | none => simp
  | some node =>
      cases node with
      | file => simp
      | void => simp
      | directory entries =>
          by_cases hsteps : stepsOn name
          · simp only [if_pos hsteps]
            cases step place name <;> simp [Except.bind]
          · simp [if_neg hsteps]

theorem HasParent.step (h : disk.HasParent place) (hplace : disk.shows place = some .directory)
    (hstep : step place name = .ok found) : disk.HasParent found := by
  unfold Disk.step at hstep
  split at hstep
  · cases hstep
    -- the directory above is there, and so is the one above that
    rintro above last hlast
    rcases List.eq_nil_or_concat place with rfl | ⟨front, final, rfl⟩
    · exact absurd hlast.symm (List.append_ne_nil_of_right_ne_nil above (List.cons_ne_nil last []))
    · rw [List.concat_eq_append, List.dropLast_concat] at hlast
      subst hlast
      exact hasParent_of_shows (h _ final (List.concat_eq_append)) above last rfl
  · split at hstep
    · cases hstep
    · cases hstep
      rintro above last hlast
      obtain ⟨rfl, -⟩ := List.append_inj' hlast rfl
      exact hplace

theorem HasParent.walk (h : disk.HasParent place) (hwalk : disk.walk place names = .ok found) :
    disk.HasParent found := by
  induction names generalizing place with
  | nil =>
      cases hwalk
      exact h
  | cons name rest ih =>
      obtain ⟨hplace, next, hnext, hrest⟩ := walk_cons_eq_ok_iff.mp hwalk
      refine ih ?_ hrest
      split at hnext
      · exact h.step hplace hnext
      · cases hnext
        exact h

/-- **Names lead to places that have a directory.** -/
theorem hasParent_of_walk (hnames : names ≠ []) (hwalk : disk.walk place names = .ok found) :
    disk.HasParent found := by
  obtain ⟨name, rest, rfl⟩ := List.exists_cons_of_ne_nil hnames
  exact (hasParent_of_shows (walk_cons_eq_ok_iff.mp hwalk).1).walk hwalk

/-- Where directories stay, names lead where they did. -/
theorem walk_of_directories
    (h : ∀ place, disk.shows place = some .directory → later.shows place = some .directory)
    (hwalk : disk.walk place names = .ok found) : later.walk place names = .ok found := by
  induction names generalizing place with
  | nil => exact hwalk
  | cons name rest ih =>
      obtain ⟨hplace, next, hnext, hrest⟩ := walk_cons_eq_ok_iff.mp hwalk
      exact walk_cons_eq_ok_iff.mpr ⟨h place hplace, next, hnext, ih hrest⟩

end Disk

/-! ### Paths -/

theorem splitPath_ne_nil (text : List Char) : splitPath text ≠ [] := by
  unfold splitPath
  split
  · exact List.cons_ne_nil _ _
  · exact List.cons_ne_nil _ _
  · split
    · exact List.cons_ne_nil _ _
    · exact List.cons_ne_nil _ _

theorem splitPath_of_not_mem {text : List Char} (h : '/' ∉ text) : splitPath text = [text] := by
  induction text with
  | nil => rfl
  | cons c rest ih =>
      have hc : c ≠ '/' := fun hslash => h (hslash ▸ List.mem_cons_self)
      rw [splitPath, ih fun hmem => h (List.mem_cons_of_mem c hmem)]
      exact hc

theorem pathNames_ne_nil (path : String) : pathNames path ≠ [] := by
  rw [pathNames, ne_eq, List.map_eq_nil_iff]
  exact splitPath_ne_nil _

namespace Disk

variable {disk later : Disk} {place : List String} {path text : String}

/-- A path that leads anywhere has names to follow. -/
theorem resolve_eq_ok_iff :
    disk.resolve path = .ok place ↔
      hasEnd path = false ∧ path ≠ "" ∧ isTooLong path = false ∧
        disk.walk (disk.start path) (pathNames path) = .ok place := by
  unfold resolve
  by_cases hend : hasEnd path
  · simp [hend]
  · by_cases hempty : path = ""
    · subst hempty
      simp [hend]
    · by_cases hlong : isTooLong path <;> simp [hend, hempty, hlong]

theorem hasParent_of_resolve (h : disk.resolve path = .ok place) : disk.HasParent place :=
  hasParent_of_walk (pathNames_ne_nil path) (resolve_eq_ok_iff.mp h).2.2.2

theorem resolve_of_directories (hhome : later.home = disk.home)
    (h : ∀ place, disk.shows place = some .directory → later.shows place = some .directory)
    (hresolve : disk.resolve path = .ok place) : later.resolve path = .ok place := by
  rw [resolve_eq_ok_iff] at hresolve ⊢
  obtain ⟨hend, hempty, hlong, hwalk⟩ := hresolve
  have hstart : later.start path = disk.start path := by rw [start, start, hhome]
  exact ⟨hend, hempty, hlong, hstart ▸ walk_of_directories h hwalk⟩

theorem textAt_eq_ok_iff :
    disk.textAt path = .ok text ↔
      ∃ place kind, disk.resolve path = .ok place ∧ disk.shows place = some kind ∧
        kind.text? = some text := by
  unfold textAt
  cases hresolve : disk.resolve path with
  | error e => simp [bind, Except.bind]
  | ok place =>
      simp only [bind, Except.bind]
      cases hnode : disk.node? place with
      | none => simp [shows, hnode]
      | some node => cases node <;> simp [shows, hnode, Node.kind, Kind.text?]

end Disk

/-! ### Plain names -/

/-- A name that leads from a directory to what it names there. -/
structure IsPlainName (name : String) : Prop where
  noSlash : '/' ∉ name.toList
  noEnd : hasEnd name = false
  stepsOn : stepsOn name = true
  notUp : name ≠ ".."
  short : name.utf8ByteSize ≤ longestName

variable {disk : Disk} {name : String}

theorem IsPlainName.pathNames_eq (h : IsPlainName name) : pathNames name = [name] := by
  rw [pathNames, splitPath_of_not_mem h.noSlash, List.map_singleton, String.ofList_toList]

/-- A plain name leads into the working directory. -/
theorem IsPlainName.resolve_eq (h : IsPlainName name)
    (hhome : disk.shows disk.home = some .directory) :
    disk.resolve name = .ok (disk.home ++ [name]) := by
  have hempty : name ≠ "" := by
    rintro rfl
    exact absurd h.stepsOn (by decide)
  have hlong : isTooLong name = false := by
    have hname := h.short
    rw [isTooLong, decide_eq_false_iff_not]
    unfold longestPath longestName at *
    omega
  have hstart : disk.start name = disk.home := by
    refine if_neg fun hroot => h.noSlash ?_
    rw [startsAtRoot, decide_eq_true_eq] at hroot
    exact List.mem_of_mem_head? hroot
  refine Disk.resolve_eq_ok_iff.mpr ⟨h.noEnd, hempty, hlong, ?_⟩
  rw [hstart, h.pathNames_eq]
  refine Disk.walk_cons_eq_ok_iff.mpr ⟨hhome, disk.home ++ [name], ?_, rfl⟩
  rw [if_pos h.stepsOn, Disk.step, if_neg h.notUp, if_neg (Nat.not_lt.mpr h.short)]

/-- **A file put into the working directory is found there.** -/
theorem IsPlainName.textAt_putFile (h : IsPlainName name)
    (hhome : disk.shows disk.home = some .directory) (content : String) :
    (disk.putFile name content).textAt name = .ok content := by
  have hkept : (disk.putFile name content).shows disk.home = some .directory := by
    refine (Node.kind_at?_put (.file content) hhome fun hprefix => ?_).trans hhome
    exact absurd hprefix.length_le (by simp)
  have hput : (disk.putFile name content).node? (disk.home ++ [name]) = some (.file content) := by
    have hat := Node.at?_put (.file content) (disk.home ++ [name]) disk.root []
    rw [List.append_nil] at hat
    exact hat
  exact Disk.textAt_eq_ok_iff.mpr
    ⟨disk.home ++ [name], .file content, h.resolve_eq hkept, Disk.shows_of_node? hput, rfl⟩

end HeatingPlant.CommandLine
