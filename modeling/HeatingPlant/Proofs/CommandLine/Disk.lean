import HeatingPlant.Proofs.CommandLine.Places

/-!
# What happens to a file tree

Making directories and appending to a file only ever add to a file tree, and only where there may be
changes.

## Main definitions

* `Disk.Widens` — a disk that has got new directories and nothing else
* `Disk.Records` — a disk that has got text at the end of one file, and new directories

## Main statements

* `Disk.openForAppend_cases` — a file is opened for more text, or there are new directories at
  most
* `Disk.records_append_of_open` — text that is appended is at the end of the file
* `Disk.Records.textAt`, `Disk.Records.textAt_of_keeps` — it is found where the file was asked for
* `Disk.Records.textAt_of_ok` — what was found before is still found, but for that text after it

## Design notes

What a failure leaves behind is covered as well: directories that were made before it stay.
-/

namespace HeatingPlant.CommandLine

namespace Disk

variable {disk later last : Disk} {place names other : List String} {path text : String}

/-! ### What is added -/

/-- At a place there is what there was, or a new directory where there may be changes. -/
def WidensAt (disk later : Disk) (place : List String) : Prop :=
  later.shows place = disk.shows place ∨
    disk.mayChange place = true ∧ disk.shows place = none ∧ later.shows place = some .directory

/-- A disk that has got new directories and nothing else. -/
structure Widens (disk later : Disk) : Prop where
  home : later.home = disk.home
  changeable : later.changeable = disk.changeable
  widensAt : ∀ place, disk.WidensAt later place

/-- What is a file at a place with some text after what was there. -/
def recorded (text : String) : Option Kind → Kind
  | some (.file content) => .file (content ++ text)
  | some .void => .void
  | _ => .file text

/-- A disk that has got text at the end of the file at a place, and new directories. -/
structure Records (place : List String) (text : String) (disk later : Disk) : Prop where
  home : later.home = disk.home
  changeable : later.changeable = disk.changeable
  mayChange : disk.mayChange place = true
  notDirectory : disk.shows place ≠ some .directory
  shows_eq : later.shows place = some (recorded text (disk.shows place))
  widensAt : ∀ other, other ≠ place → disk.WidensAt later other

theorem mayChange_congr (h : later.changeable = disk.changeable) (place : List String) :
    later.mayChange place = disk.mayChange place := by
  rw [mayChange, mayChange, h]

theorem WidensAt.trans (h : disk.WidensAt later place) (h' : later.WidensAt last place)
    (hchangeable : later.changeable = disk.changeable) : disk.WidensAt last place := by
  obtain hsame | ⟨hmay, hnone, hdirectory⟩ := h
  · obtain hsame' | ⟨hmay', hnone', hdirectory'⟩ := h'
    · exact .inl (hsame'.trans hsame)
    · exact .inr ⟨mayChange_congr hchangeable place ▸ hmay', hsame ▸ hnone', hdirectory'⟩
  · obtain hsame' | ⟨-, hnone', -⟩ := h'
    · exact .inr ⟨hmay, hnone, hsame'.trans hdirectory⟩
    · rw [hdirectory] at hnone'
      cases hnone'

/-- What stands at a place stays there. -/
theorem WidensAt.kept {kind : Kind} (h : disk.WidensAt later place)
    (hplace : disk.shows place = some kind) : later.shows place = some kind := by
  obtain hsame | ⟨-, hnone, -⟩ := h
  · exact hsame.trans hplace
  · rw [hplace] at hnone
    cases hnone

/-- A place where there is no directory now is as it was. -/
theorem WidensAt.shows_eq (h : disk.WidensAt later place)
    (hplace : later.shows place ≠ some .directory) :
    later.shows place = disk.shows place := by
  obtain hsame | ⟨-, -, hdirectory⟩ := h
  · exact hsame
  · exact absurd hdirectory hplace

theorem WidensAt.shows_of_not_mayChange (h : disk.WidensAt later place)
    (hmay : disk.mayChange place = false) : later.shows place = disk.shows place := by
  obtain hsame | ⟨hmay', -, -⟩ := h
  · exact hsame
  · rw [hmay] at hmay'
    cases hmay'

theorem Widens.refl (disk : Disk) : disk.Widens disk := ⟨rfl, rfl, fun _ => .inl rfl⟩

theorem Widens.trans (h : disk.Widens later) (h' : later.Widens last) : disk.Widens last where
  home := h'.home.trans h.home
  changeable := h'.changeable.trans h.changeable
  widensAt place := (h.widensAt place).trans (h'.widensAt place) h.changeable

theorem Widens.records (h : disk.Widens later) (h' : later.Records place text last) :
    disk.Records place text last := by
  have hsame := (h.widensAt place).shows_eq h'.notDirectory
  exact
    { home := h'.home.trans h.home
      changeable := h'.changeable.trans h.changeable
      mayChange := mayChange_congr h.changeable place ▸ h'.mayChange
      notDirectory := hsame ▸ h'.notDirectory
      shows_eq := hsame ▸ h'.shows_eq
      widensAt := fun other hother =>
        (h.widensAt other).trans (h'.widensAt other hother) h.changeable }

theorem Widens.resolve (h : disk.Widens later) (hresolve : disk.resolve path = .ok place) :
    later.resolve path = .ok place :=
  resolve_of_directories h.home (fun place => (h.widensAt place).kept) hresolve

theorem Records.resolve {found : List String} (h : disk.Records place text later)
    (hresolve : disk.resolve path = .ok found) : later.resolve path = .ok found := by
  refine resolve_of_directories h.home (fun other hother => ?_) hresolve
  exact (h.widensAt other fun hsame => h.notDirectory (hsame ▸ hother)).kept hother

/-! ### Directories -/

theorem widens_put (hparent : disk.HasParent place) (hnone : disk.shows place = none)
    (hmay : disk.mayChange place = true) : disk.Widens (disk.put place (.directory [])) where
  home := rfl
  changeable := rfl
  widensAt other := by
    have hshows := shows_put (.directory []) hparent (by rw [hnone]; nofun) rfl other
    by_cases hother : other = place
    · subst hother
      exact .inr ⟨hmay, hnone, hshows.trans (if_pos rfl)⟩
    · exact .inl (hshows.trans (if_neg hother))

theorem widens_makeDirectory (disk : Disk) (place : List String) {names : List String}
    (hnames : names ≠ []) :
    disk.Widens (disk.makeDirectory place names).1 := by
  unfold makeDirectory
  split
  · exact .refl disk
  · rename_i found hwalk
    split
    · rename_i hnone
      split
      · rename_i hmay
        exact widens_put (hasParent_of_walk hnames hwalk) (shows_eq_none_iff.mpr hnone) hmay
      · exact .refl disk
    · exact .refl disk
    · exact .refl disk
    · exact .refl disk

theorem widens_makeDirectories (disk : Disk) (place names : List String) :
    disk.Widens (disk.makeDirectories place names).1 := by
  induction names with
  | nil => exact .refl disk
  | cons name above ih =>
      have hmade : disk.Widens (disk.makeDirectory place (name :: above).reverse).1 :=
        disk.widens_makeDirectory place (by simp)
      unfold makeDirectories
      split
      · split
        · rename_i later found habove
          rw [habove] at ih
          exact ih.trans (later.widens_makeDirectory found (List.cons_ne_nil name []))
        · rename_i later cause habove
          rw [habove] at ih
          exact ih
      · exact hmade

theorem widens_makeParents (disk : Disk) (path : String) :
    disk.Widens (disk.makeParents path).1 := by
  unfold makeParents
  dsimp only
  split
  · exact .refl disk
  · split
    · exact .refl disk
    · exact widens_makeDirectories ..

/-! ### Files -/

/-- A file put where there may be changes, in place of nothing or of a file that it continues. -/
theorem records_put {content : String} (hparent : disk.HasParent place)
    (hno : disk.shows place ≠ some .directory) (hmay : disk.mayChange place = true)
    (hcontent : recorded text (disk.shows place) = .file content) :
    disk.Records place text (disk.put place (.file content)) := by
  have hshows := shows_put (.file content) hparent hno rfl
  exact
    { home := rfl
      changeable := rfl
      mayChange := hmay
      notDirectory := hno
      shows_eq := by rw [hshows, if_pos rfl, hcontent, Node.kind]
      widensAt := fun other hother => .inl (by rw [hshows, if_neg hother]) }

/-- What is recorded without a trace: no text, or any text on a device that keeps nothing. -/
theorem Records.refl {kind : Kind} (hshows : disk.shows place = some kind)
    (hkind : kind ≠ .directory) (hmay : disk.mayChange place = true)
    (hsame : recorded text (some kind) = kind) :
    disk.Records place text disk where
  home := rfl
  changeable := rfl
  mayChange := hmay
  notDirectory := by simpa [hshows] using hkind
  shows_eq := by rw [hshows, hsame]
  widensAt _ _ := .inl rfl

theorem recorded_empty {kind : Kind} (h : kind ≠ .directory) :
    recorded "" (some kind) = kind := by
  cases kind with
  | directory => exact absurd rfl h
  | file content => exact congrArg Kind.file String.append_empty
  | void => rfl

theorem recorded_ne_directory (text : String) (kind : Option Kind) :
    recorded text kind ≠ .directory := by
  unfold recorded
  split <;> nofun

theorem recorded_recorded (text more : String) (kind : Option Kind) :
    recorded more (some (recorded text kind)) = recorded (text ++ more) kind := by
  match kind with
  | some (.file content) => exact congrArg Kind.file String.append_assoc
  | some .void | some .directory | none => rfl

theorem Records.trans {more : String} (h : disk.Records place text later)
    (h' : later.Records place more last) : disk.Records place (text ++ more) last where
  home := h'.home.trans h.home
  changeable := h'.changeable.trans h.changeable
  mayChange := h.mayChange
  notDirectory := h.notDirectory
  shows_eq := by rw [h'.shows_eq, h.shows_eq, recorded_recorded]
  widensAt other hother := (h.widensAt other hother).trans (h'.widensAt other hother) h.changeable

/-- A file that is created unless it is there has got no text. -/
theorem records_created (hparent : disk.HasParent place)
    (hno : disk.shows place ≠ some .directory) (hmay : disk.mayChange place = true) :
    disk.Records place ""
      (if (disk.node? place).isSome then disk else disk.put place (.file "")) := by
  cases hnode : disk.node? place with
  | none => exact records_put hparent hno hmay (by rw [shows_eq_none_iff.mpr hnode]; rfl)
  | some node =>
      have hshows := shows_of_node? hnode
      have hkind : node.kind ≠ .directory := fun hkind => hno (hkind ▸ hshows)
      exact .refl hshows hkind hmay (recorded_empty hkind)

/-- A file is opened where its path leads, with nothing added to it yet, or nothing happens. -/
theorem openFile_cases (disk : Disk) (path : String) :
    (∃ e, disk.openFile path = (disk, .error e)) ∨
      ∃ later place, disk.openFile path = (later, .ok place) ∧
        later.resolve path = .ok place ∧ disk.Records place "" later := by
  unfold openFile
  split
  · exact .inl ⟨_, rfl⟩
  · split
    · exact .inl ⟨_, rfl⟩
    · rename_i place hresolve
      split
      · exact .inl ⟨_, rfl⟩
      · rename_i hno
        split
        · rename_i hmay
          have hnotDirectory : disk.shows place ≠ some .directory := fun hdirectory =>
            (shows_eq_directory_iff.mp hdirectory).elim hno
          have hopened := records_created (hasParent_of_resolve hresolve) hnotDirectory hmay
          exact .inr ⟨_, place, rfl, hopened.resolve hresolve, hopened⟩
        · exact .inl ⟨_, rfl⟩

/-- **A file is opened where its path leads, with nothing added to it yet**, or there are new
directories at most. -/
theorem openForAppend_cases (disk : Disk) (path : String) :
    (∃ later e, disk.openForAppend path = (later, .error e) ∧ disk.Widens later) ∨
      ∃ later place, disk.openForAppend path = (later, .ok place) ∧
        later.resolve path = .ok place ∧ disk.Records place "" later := by
  have hparents := disk.widens_makeParents path
  unfold openForAppend
  split
  · rename_i middle found hmade
    rw [hmade] at hparents
    obtain ⟨e, hfailed⟩ | ⟨later, place, hopened, hresolve, hrecords⟩ :=
      middle.openFile_cases path
    · exact .inl ⟨middle, e, hfailed, hparents⟩
    · exact .inr ⟨later, place, hopened, hresolve, hparents.records hrecords⟩
  · rename_i middle e hfailed
    rw [hfailed] at hparents
    exact .inl ⟨middle, e, rfl, hparents⟩

/-- What is appended to a file comes after what was there. -/
theorem records_append {kind : Kind} (hshows : disk.shows place = some kind)
    (hkind : kind ≠ .directory) (hmay : disk.mayChange place = true) :
    disk.Records place text (disk.append place text) := by
  obtain ⟨node, hnode, rfl⟩ := Option.map_eq_some_iff.mp hshows
  cases node with
  | directory entries => exact absurd rfl hkind
  | file content =>
      rw [append, hnode]
      exact records_put (hasParent_of_shows hshows) (by rw [hshows]; nofun) hmay
        (by rw [hshows]; rfl)
  | void =>
      rw [append, hnode]
      exact .refl hshows hkind hmay rfl

/-- **Text appended to a file that was opened is at its end**, and the file is still where its path
leads. -/
theorem records_append_of_open (h : disk.openForAppend path = (later, .ok place)) (text : String) :
    (later.append place text).resolve path = .ok place ∧
      disk.Records place text (later.append place text) := by
  obtain ⟨_, _, hfailed, -⟩ | ⟨_, _, hopen, hresolve, hopened⟩ :=
    disk.openForAppend_cases path
  · cases h.symm.trans hfailed
  · cases h.symm.trans hopen
    have happended : later.Records place text (later.append place text) :=
      records_append hopened.shows_eq (recorded_ne_directory _ _)
        (mayChange_congr hopened.changeable place ▸ hopened.mayChange)
    refine ⟨happended.resolve hresolve, ?_⟩
    have hrecords := hopened.trans happended
    rwa [String.empty_append] at hrecords

/-! ### Reading -/

/-- **What is recorded is found where the file was asked for.** -/
theorem Records.textAt (h : disk.Records place text later)
    (hresolve : later.resolve path = .ok place) :
    later.textAt path = .ok ((recorded text (disk.shows place)).text?.getD "") := by
  have hno := recorded_ne_directory text (disk.shows place)
  refine textAt_eq_ok_iff.mpr ⟨place, _, hresolve, h.shows_eq, ?_⟩
  cases hkind : recorded text (disk.shows place) with
  | directory => exact absurd hkind hno
  | file content => rfl
  | void => rfl

/-- It comes after what was there, unless this is a device that keeps nothing. -/
theorem Records.textAt_of_keeps (h : disk.Records place text later)
    (hresolve : later.resolve path = .ok place) (hkeeps : disk.shows place ≠ some .void) :
    later.textAt path = .ok (((disk.shows place).bind Kind.text?).getD "" ++ text) := by
  rw [h.textAt hresolve]
  cases hshows : disk.shows place with
  | none => exact congrArg Except.ok String.empty_append.symm
  | some kind =>
      cases kind with
      | directory => exact absurd hshows h.notDirectory
      | file content => rfl
      | void => exact absurd hshows hkeeps

/-- **What was found before is still found**, at most with the new text after it. -/
theorem Records.textAt_of_ok {content : String} (h : disk.Records place text later)
    (hread : disk.textAt path = .ok content) :
    later.textAt path = .ok content ∨
      disk.resolve path = .ok place ∧ later.textAt path = .ok (content ++ text) := by
  obtain ⟨found, kind, hresolve, hshows, htext⟩ := textAt_eq_ok_iff.mp hread
  have hresolve' := h.resolve hresolve
  by_cases hfound : found = place
  · subst hfound
    have hlater := h.textAt hresolve'
    rw [hshows] at hlater
    cases kind with
    | directory => cases htext
    | file before =>
        cases htext
        exact .inr ⟨hresolve, hlater⟩
    | void =>
        cases htext
        exact .inl hlater
  · exact .inl (textAt_eq_ok_iff.mpr
      ⟨found, kind, hresolve', (h.widensAt found hfound).kept hshows, htext⟩)

theorem Widens.textAt_of_ok {content : String} (h : disk.Widens later)
    (hread : disk.textAt path = .ok content) : later.textAt path = .ok content := by
  obtain ⟨found, kind, hresolve, hshows, htext⟩ := textAt_eq_ok_iff.mp hread
  exact textAt_eq_ok_iff.mpr
    ⟨found, kind, h.resolve hresolve, (h.widensAt found).kept hshows, htext⟩

end Disk

end HeatingPlant.CommandLine
