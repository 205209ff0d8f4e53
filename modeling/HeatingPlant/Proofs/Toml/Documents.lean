import HeatingPlant.Proofs.Toml.Bare
import HeatingPlant.Proofs.Toml.Strings
import HeatingPlant.Toml.Reader

/-!
# Documents read back

A document of sections with keys and scalars under them is read, once written, as the table that
says the same.

## Main definitions

* `IsBareKey` — a name that needs no quotes
* `IsWritableLine`, `Section.WellFormed` — a line, and a section, that a document can give away
* `asPair`, `Section.entry` — the entry of a table that says the same

## Main statements

* `readValue_valueText` — a scalar at the end of its line
* `readPair?_lineText` — a line
* `readBody_lines` — the lines of a section
* `readSections_sectionsText` — the sections
* `read_write` — a document reads back

## Design notes

Readers are handed the whole rest of a document.  So each statement has the text in question in
front of an arbitrary rest, as far as that does not run on in it, and answers with that rest.
-/

namespace HeatingPlant.Toml

variable {rest : List Char}

/-! ### Scalars -/

/-- A character of one kind is none of those that are not of this kind. -/
theorem not_mem_of_all {kind : Char → Bool} {others : List Char} {c : Char}
    (hothers : others.all (fun d => !kind d) = true) (h : kind c = true) : c ∉ others := by
  intro hmem
  have hc := List.all_eq_true.mp hothers c hmem
  rw [h] at hc
  cases hc

/-- What occurs in booleans and numbers ends none of them and begins nothing else. -/
theorem isBareChar_spec {c : Char} (h : isBareChar c = true) :
    isScalarChar c = true ∧ c ∉ ['[', '{', '"', '\''] := by
  refine ⟨?_, not_mem_of_all (by decide) h⟩
  rw [isScalarChar, Bool.not_eq_true']
  refine eq_false_of_ne_true fun hmem => ?_
  exact @not_mem_of_all isBareChar scalarEnds c (by decide) h (List.contains_iff_mem.mp hmem)

/-- Up to the end of a line, a bare value is its own text. -/
theorem scalarText_line {text : List Char} (h : ∀ c ∈ text, isScalarChar c = true) :
    scalarText (text ++ '\n' :: rest) = text := by
  induction text with
  | nil => rfl
  | cons c text ih =>
      rw [List.cons_append, scalarText, h c List.mem_cons_self, Bool.true_or, if_pos rfl,
        ih fun d hmem => h d (List.mem_cons_of_mem _ hmem)]

theorem readValue_bare (fuel depth : ℕ) {text : List Char} {scalar : Scalar} (hne : text ≠ [])
    (hchars : ∀ c ∈ text, isBareChar c = true) (hread : readScalar? text = some scalar) :
    readValue (fuel + 1) depth (text ++ '\n' :: rest) = some (.scalar scalar, '\n' :: rest) := by
  have htext := @scalarText_line rest _ fun c hmem => (isBareChar_spec (hchars c hmem)).1
  cases text with
  | nil => exact absurd rfl hne
  | cons c more =>
      have hc := (isBareChar_spec (hchars c List.mem_cons_self)).2
      have hother : ∀ {d : Char} {tail : List Char}, d ∈ ['[', '{', '"', '\''] →
          c :: more ++ '\n' :: rest = d :: tail → False := by
        intro d tail hd heq
        rw [List.cons_append, List.cons.injEq] at heq
        exact hc (heq.1 ▸ hd)
      rw [readValue]
      · rw [htext, hread, List.drop_left]
        rfl
      · exact fun _ => hother (by decide)
      · exact fun _ => hother (by decide)
      · exact fun _ => hother (by decide)
      · exact fun _ => hother (by decide)

theorem readValue_string (fuel depth : ℕ) (text : String) :
    readValue (fuel + 1) depth (stringText text ++ '\n' :: rest) =
      some (.scalar (.string text), '\n' :: rest) := by
  have hread := @readString?_stringText rest text
  obtain ⟨quote, more, htext, rfl | rfl⟩ := exists_stringText_eq_cons text <;>
    rw [htext, List.cons_append] at hread ⊢ <;>
    rw [readValue, hread] <;>
    simp

/-- **A scalar at the end of its line reads back.** -/
theorem readValue_valueText (fuel depth : ℕ) {scalar : Scalar} (h : scalar.Writable) :
    readValue (fuel + 1) depth (valueText scalar ++ '\n' :: rest) =
      some (.scalar scalar.asRead, '\n' :: rest) := by
  have hbare : scalar.IsBare → readValue (fuel + 1) depth (valueText scalar ++ '\n' :: rest) =
      some (.scalar scalar.asRead, '\n' :: rest) := by
    intro hbare
    obtain ⟨hne, hchars⟩ := isBareChar_valueText h hbare
    exact readValue_bare fuel depth hne hchars (readScalar?_valueText h hbare)
  cases scalar with
  | string text => exact readValue_string fuel depth text
  | datetime text => exact h.elim
  | illegible text => exact h.elim
  | _ => exact hbare trivial

/-! ### Keys -/

/-- A name that needs no quotes. -/
structure IsBareKey (key : String) : Prop where
  /-- It is not empty. -/
  ne_nil : key.toList ≠ []
  /-- Its characters may stand without quotes. -/
  isKeyChar : ∀ c ∈ key.toList, isKeyChar c = true

instance (key : String) : Decidable (IsBareKey key) :=
  decidable_of_iff (key.toList ≠ [] ∧ key.toList.all Toml.isKeyChar = true)
    ⟨fun h => ⟨h.1, List.all_eq_true.mp h.2⟩, fun h => ⟨h.1, List.all_eq_true.mpr h.2⟩⟩

/-- The characters that mean something outside of names, and do not stand in them. -/
def marks : List Char := [' ', '\t', '\r', '\n', '"', '\'', '[', ']', '.', '#', '=']

theorem not_mem_marks {c : Char} (h : isKeyChar c = true) : c ∉ marks :=
  not_mem_of_all (by decide) h

theorem isBlank_of_isKeyChar {c : Char} (h : isKeyChar c = true) : isBlank c = false := by
  have hmarks := not_mem_marks h
  simp only [marks, List.mem_cons, not_or] at hmarks
  simp [isBlank, hmarks]

theorem skipBlanks_of_not_blank {c : Char} (h : isBlank c = false) :
    skipBlanks (c :: rest) = c :: rest := by
  rw [skipBlanks, List.dropWhile_cons, h]
  rfl

/-- **A name is read up to what may not stand in it**, and the blanks behind it are dropped. -/
theorem readPath_key {key : String} {c : Char} (hkey : IsBareKey key) (hc : isKeyChar c = false)
    (hdot : (skipBlanks (c :: rest)).head? ≠ some '.') :
    readPath (key.toList ++ c :: rest) = some ([], key, skipBlanks (c :: rest)) := by
  have htake : (key.toList ++ c :: rest).takeWhile isKeyChar = key.toList := by
    rw [List.takeWhile_append_of_pos hkey.isKeyChar, List.takeWhile_cons, hc]
    exact List.append_nil _
  have hdrop : (key.toList ++ c :: rest).dropWhile isKeyChar = c :: rest := by
    rw [List.dropWhile_append_of_pos hkey.isKeyChar, List.dropWhile_cons, hc]
    rfl
  obtain ⟨first, more, htext⟩ := List.exists_cons_of_ne_nil hkey.ne_nil
  have hfirst : isKeyChar first = true := hkey.isKeyChar first (htext ▸ List.mem_cons_self)
  have hskip : skipBlanks (key.toList ++ c :: rest) = key.toList ++ c :: rest := by
    rw [htext, List.cons_append]
    exact skipBlanks_of_not_blank (isBlank_of_isKeyChar hfirst)
  have hread : readKey? (key.toList ++ c :: rest) = some (key, c :: rest) := by
    have hmarks := not_mem_marks hfirst
    simp only [marks, List.mem_cons, not_or] at hmarks
    rw [readKey?, if_neg (by simp [htext, hmarks]), htake, hdrop]
    split
    case h_1 heq => exact absurd heq hkey.ne_nil
    case h_2 => rw [String.ofList_toList]
  show readParts (79 + 1) _ = _
  rw [readParts, hskip, hread]
  dsimp only
  split
  case h_1 heq => rw [heq] at hdot; exact absurd rfl hdot
  case h_2 => rfl

/-! ### Lines -/

/-- A line that a document can give away. -/
structure IsWritableLine (line : String × Scalar) : Prop where
  /-- Its key needs no quotes. -/
  isBareKey : IsBareKey line.1
  /-- Its value can be given away. -/
  writable : line.2.Writable

instance (line : String × Scalar) : Decidable (IsWritableLine line) :=
  decidable_of_iff (IsBareKey line.1 ∧ line.2.Writable)
    ⟨fun h => ⟨h.1, h.2⟩, fun h => ⟨h.1, h.2⟩⟩

/-- What a line defines. -/
def asPair (line : String × Scalar) : String × Value := (line.1, .scalar line.2.asRead)

/-- No blank stands in front of a value. -/
theorem skipBlanks_valueText {scalar : Scalar} (h : scalar.Writable) :
    skipBlanks (valueText scalar ++ rest) = valueText scalar ++ rest := by
  have hfirst : ∃ c more, valueText scalar = c :: more ∧ isBlank c = false := by
    have hbare :
      scalar.IsBare → ∃ c more, valueText scalar = c :: more ∧ isBlank c = false := by
      intro hbare
      obtain ⟨hne, hchars⟩ := isBareChar_valueText h hbare
      obtain ⟨c, more, htext⟩ := List.exists_cons_of_ne_nil hne
      have hc : c ∉ [' ', '\t', '\r'] :=
        not_mem_of_all (by decide) (hchars c (htext ▸ List.mem_cons_self))
      exact ⟨c, more, htext, by simpa [isBlank, and_assoc] using hc⟩
    cases scalar with
    | string text =>
        obtain ⟨quote, more, htext, rfl | rfl⟩ := exists_stringText_eq_cons text
        · exact ⟨_, more, htext, by decide⟩
        · exact ⟨_, more, htext, by decide⟩
    | datetime text => exact h.elim
    | illegible text => exact h.elim
    | _ => exact hbare trivial
  obtain ⟨c, more, htext, hc⟩ := hfirst
  rw [htext, List.cons_append, skipBlanks_of_not_blank hc]

/-- **A line reads back.** -/
theorem readPair?_lineText {line : String × Scalar} (h : IsWritableLine line) :
    readPair? (lineText line ++ rest) = some (([], asPair line), rest) := by
  have htext : lineText line ++ rest =
      line.1.toList ++ ' ' :: '=' :: ' ' :: (valueText line.2 ++ '\n' :: rest) := by
    simp [lineText]
  have hpath : readPath (lineText line ++ rest) =
      some ([], line.1, '=' :: ' ' :: (valueText line.2 ++ '\n' :: rest)) := by
    rw [htext]
    exact readPath_key h.isBareKey (by decide) (by simp [skipBlanks, isBlank])
  have hblank : skipBlanks (' ' :: (valueText line.2 ++ '\n' :: rest)) =
      valueText line.2 ++ '\n' :: rest := skipBlanks_valueText h.writable
  unfold readPair?
  simp only [hpath, bind, Option.bind, hblank, readValue_valueText _ _ h.writable]
  rfl

/-- A name is neither an empty line nor a comment. -/
theorem skipVoid_of_isKeyChar {c : Char} (h : isKeyChar c = true) :
    skipVoid false (c :: rest) = some (c :: rest) := by
  have hmarks := not_mem_marks h
  simp only [marks, List.mem_cons, not_or] at hmarks
  simp [skipVoid, isBlank_of_isKeyChar h, hmarks]

/-- A line with what is read after it. -/
theorem readBody_cons {line : String × Scalar} (h : IsWritableLine line) (fuel : ℕ) :
    readBody (fuel + 1) (lineText line ++ rest) =
      (readBody fuel rest).map fun (pairs, last) => (([], asPair line) :: pairs, last) := by
  have hpair := @readPair?_lineText rest line h
  obtain ⟨c, more, hkey⟩ := List.exists_cons_of_ne_nil h.isBareKey.ne_nil
  have hc : isKeyChar c = true := h.isBareKey.isKeyChar c (hkey ▸ List.mem_cons_self)
  obtain ⟨text, htext⟩ : ∃ text, lineText line ++ rest = c :: text := by
    rw [lineText, hkey]
    exact ⟨_, rfl⟩
  have hopen : c ≠ '[' := by
    rintro rfl
    cases hc
  rw [htext] at hpair ⊢
  rw [readBody, skipVoid_of_isKeyChar hc]
  simp only [bind, Option.bind]
  split
  case h_1 heq => cases heq
  case h_2 heq => cases heq; exact absurd rfl hopen
  case h_3 =>
    rw [hpair]
    dsimp only
    cases readBody fuel rest <;> rfl

/-- **The lines of a section read back**, up to what follows the empty lines behind them. -/
theorem readBody_lines {lines : List (String × Scalar)} {next : List Char}
    (h : ∀ line ∈ lines, IsWritableLine line) (hrest : skipVoid false rest = some next)
    (hnext : next = [] ∨ ∃ more, next = '[' :: more) {fuel : ℕ}
    (hfuel : lines.length < fuel) :
    readBody fuel (lines.flatMap lineText ++ rest) =
      some (lines.map fun line => ([], asPair line), next) := by
  induction lines generalizing fuel with
  | nil =>
      obtain ⟨fuel, rfl⟩ := Nat.exists_eq_add_one.mpr hfuel
      rw [List.flatMap_nil, List.nil_append, readBody, hrest]
      rcases hnext with rfl | ⟨more, rfl⟩ <;> rfl
  | cons line lines ih =>
      obtain ⟨fuel, rfl⟩ := Nat.exists_eq_add_one.mpr (Nat.zero_lt_of_lt hfuel)
      rw [List.flatMap_cons, List.append_assoc, readBody_cons (h line List.mem_cons_self),
        ih (fun other hmem => h other (List.mem_cons_of_mem _ hmem)) (by simpa using hfuel)]
      rfl

/-! ### Tables -/

section Tables

variable {entries : Entries} {key : String}

theorem lookup_of_not_mem (h : key ∉ entries.map (·.1)) : entries.lookup key = none := by
  rw [List.lookup_eq_none_iff]
  intro entry hmem
  rw [bne_iff_ne]
  rintro rfl
  exact h (List.mem_map_of_mem hmem)

/-- A key that is not there is added at the end. -/
theorem set_of_not_mem (value : Value) (h : key ∉ entries.map (·.1)) :
    entries.set key value = entries ++ [(key, value)] := by
  induction entries with
  | nil => rfl
  | cons entry entries ih =>
      rw [List.map_cons, List.mem_cons, not_or] at h
      rw [Entries.set, if_neg (Ne.symm h.1), ih h.2, List.cons_append]

theorem define_of_not_mem (value : Value) (h : key ∉ entries.map (·.1)) :
    entries.define [] key value .header = some (entries ++ [(key, value)]) := by
  simp [Entries.define, Entries.alter, lookup_of_not_mem h, set_of_not_mem value h]

/-- A header whose name is new opens a table behind the others. -/
theorem openTable_of_not_mem {inner : Entries} {fill : Entries → Option Entries}
    (h : key ∉ entries.map (·.1)) (hfill : fill [] = some inner) :
    entries.openTable [] key fill = some (entries ++ [(key, .table .header inner)]) := by
  simp [Entries.openTable, Entries.alter, Entries.reopen, lookup_of_not_mem h, hfill,
    set_of_not_mem _ h]

/-- Keys that differ are defined one behind the other. -/
theorem defineAll_of_nodup {pairs : Entries} (h : ((entries ++ pairs).map (·.1)).Nodup) :
    defineAll (pairs.map fun pair => ([], pair)) entries = some (entries ++ pairs) := by
  induction pairs generalizing entries with
  | nil => simp [defineAll]
  | cons pair pairs ih =>
      have hnew : pair.1 ∉ entries.map (·.1) := by
        rw [List.map_append, List.nodup_append] at h
        exact fun hmem => h.2.2 _ hmem _ List.mem_cons_self rfl
      have happend : entries ++ pair :: pairs = entries ++ [pair] ++ pairs := by simp
      rw [happend] at h ⊢
      have hfirst := define_of_not_mem pair.2 hnew
      rw [← ih h, defineAll, List.map_cons, List.foldlM_cons]
      dsimp only
      rw [hfirst]
      rfl

end Tables

/-! ### Sections -/

/-- A section that a document can give away. -/
structure Section.WellFormed (part : Section) : Prop where
  /-- Its name needs no quotes. -/
  isBareKey : IsBareKey part.name
  /-- Its lines can be given away. -/
  writable : ∀ line ∈ part.lines, IsWritableLine line
  /-- No two of them have the same key. -/
  nodup : (part.lines.map (·.1)).Nodup

instance (part : Section) : Decidable part.WellFormed :=
  decidable_of_iff (IsBareKey part.name ∧ (∀ line ∈ part.lines, IsWritableLine line) ∧
      (part.lines.map (·.1)).Nodup)
    ⟨fun h => ⟨h.1, h.2.1, h.2.2⟩, fun h => ⟨h.1, h.2, h.3⟩⟩

/-- The entry of the root table that says the same as a section. -/
def Section.entry (part : Section) : String × Value :=
  (part.name, .table .header (part.lines.map asPair))

theorem defineAll_lines {part : Section} (h : part.WellFormed) :
    defineAll (part.lines.map fun line => ([], asPair line)) [] = some (part.lines.map asPair) := by
  have hkeys : (([] ++ part.lines.map asPair : Entries).map (·.1)).Nodup := by
    simpa [asPair, Function.comp_def] using h.nodup
  have hall := defineAll_of_nodup hkeys
  rwa [List.map_map] at hall

/-- **A header reads back.** -/
theorem readHeader?_name {name : String} (h : IsBareKey name) :
    readHeader? (name.toList ++ ']' :: '\n' :: rest) = some (⟨[], name, false⟩, rest) := by
  have hpath : readPath (name.toList ++ ']' :: '\n' :: rest) =
      some ([], name, ']' :: '\n' :: rest) :=
    readPath_key h (by decide) (by simp [skipBlanks, isBlank])
  obtain ⟨c, more, hname⟩ := List.exists_cons_of_ne_nil h.ne_nil
  have hc : c ≠ '[' := by
    rintro rfl
    exact absurd (h.isKeyChar '[' (hname ▸ List.mem_cons_self)) (by decide)
  rw [hname, List.cons_append] at hpath ⊢
  rw [readHeader?]
  · rw [hpath]
    rfl
  · intro text heq
    exact hc (List.cons.inj heq).1

/-- The text of sections with an empty line between two. -/
def sectionsText (parts : List Section) : List Char := ['\n'].intercalate (parts.map sectionText)

/-- Sections are the first one and, after an empty line if there are any, the others. -/
theorem exists_sectionsText_cons (part : Section) (parts : List Section) :
    ∃ after, sectionsText (part :: parts) = sectionText part ++ after ∧
      (after = sectionsText parts ∨ after = '\n' :: sectionsText parts) := by
  cases parts with
  | nil => exact ⟨[], by simp [sectionsText], Or.inl rfl⟩
  | cons next parts =>
      exact ⟨'\n' :: sectionsText (next :: parts), by simp [sectionsText], Or.inr rfl⟩

/-- Sections start with a bracket. -/
theorem sectionsText_eq_nil_or (parts : List Section) :
    sectionsText parts = [] ∨ ∃ more, sectionsText parts = '[' :: more := by
  cases parts with
  | nil => exact Or.inl rfl
  | cons part parts =>
      obtain ⟨after, htext, -⟩ := exists_sectionsText_cons part parts
      exact Or.inr ⟨_, by rw [htext]; rfl⟩

/-- Nothing in front of sections is dropped but the empty line. -/
theorem skipVoid_sectionsText (parts : List Section) :
    skipVoid false (sectionsText parts) = some (sectionsText parts) ∧
      skipVoid false ('\n' :: sectionsText parts) = some (sectionsText parts) := by
  obtain hnil | ⟨more, hmore⟩ := sectionsText_eq_nil_or parts
  · rw [hnil]
    exact ⟨rfl, rfl⟩
  · rw [hmore]
    exact ⟨rfl, rfl⟩

theorem length_le_length_flatMap (lines : List (String × Scalar)) :
    lines.length ≤ (lines.flatMap lineText).length := by
  induction lines with
  | nil => exact Nat.zero_le _
  | cons line lines ih =>
      have hline : 1 ≤ (lineText line).length := by
        rw [lineText, List.length_append]
        exact Nat.le_add_left _ _
      rw [List.flatMap_cons, List.length_append, List.length_cons]
      omega

theorem length_le_length_sectionsText (parts : List Section) :
    parts.length ≤ (sectionsText parts).length := by
  induction parts with
  | nil => exact Nat.zero_le _
  | cons part parts ih =>
      obtain ⟨after, htext, hafter⟩ := exists_sectionsText_cons part parts
      have hpart : 1 ≤ (sectionText part).length := by simp [sectionText]
      have hle : (sectionsText parts).length ≤ after.length := by
        rcases hafter with rfl | rfl
        · exact le_rfl
        · exact Nat.le_succ _
      rw [htext, List.length_append, List.length_cons]
      omega

/-- **Sections with different names are read one behind the other.** -/
theorem readSections_sectionsText {parts : List Section} {root : Entries}
    (h : ∀ part ∈ parts, part.WellFormed)
    (hnames : ((root ++ parts.map Section.entry).map (·.1)).Nodup) {fuel : ℕ}
    (hfuel : parts.length < fuel) :
    readSections fuel root (sectionsText parts) = some (root ++ parts.map Section.entry) := by
  induction parts generalizing root fuel with
  | nil =>
      obtain ⟨fuel, rfl⟩ := Nat.exists_eq_add_one.mpr hfuel
      simp [sectionsText, readSections]
  | cons part parts ih =>
      obtain ⟨fuel, rfl⟩ := Nat.exists_eq_add_one.mpr (Nat.zero_lt_of_lt hfuel)
      obtain ⟨after, htext, hafter⟩ := exists_sectionsText_cons part parts
      have hpart := h part List.mem_cons_self
      have hrest : skipVoid false after = some (sectionsText parts) := by
        rcases hafter with rfl | rfl
        · exact (skipVoid_sectionsText parts).1
        · exact (skipVoid_sectionsText parts).2
      have hopen : sectionsText (part :: parts) =
          '[' :: (part.name.toList ++ ']' :: '\n' :: (part.lines.flatMap lineText ++ after)) := by
        rw [htext]
        simp [sectionText]
      have hlength : part.lines.length < (part.lines.flatMap lineText ++ after).length + 1 := by
        have hle := length_le_length_flatMap part.lines
        rw [List.length_append]
        omega
      have hbody :=
        readBody_lines hpart.writable hrest (sectionsText_eq_nil_or parts) hlength
      have happend : root ++ (part :: parts).map Section.entry =
          root ++ [part.entry] ++ parts.map Section.entry := by simp
      have hnew : part.name ∉ root.map (·.1) := by
        rw [List.map_append, List.nodup_append] at hnames
        exact fun hmem => hnames.2.2 _ hmem _ List.mem_cons_self rfl
      rw [happend] at hnames ⊢
      rw [hopen, readSections, readHeader?_name hpart.isBareKey]
      simp only [bind, Option.bind, hbody]
      rw [if_neg (by decide), openTable_of_not_mem hnew (defineAll_lines hpart)]
      exact ih (fun other hmem => h other (List.mem_cons_of_mem _ hmem)) hnames
        (Nat.lt_of_succ_lt_succ hfuel)

/-! ### Documents -/

/-- Keys and values hold no carriage return. -/
theorem return_not_mem_lineText {line : String × Scalar} (h : IsWritableLine line) :
    '\r' ∉ lineText line := by
  have hkey : '\r' ∉ line.1.toList := fun hmem =>
    absurd (h.isBareKey.isKeyChar _ hmem) (by decide)
  have hvalue : '\r' ∉ valueText line.2 := by
    have hbare : line.2.IsBare → '\r' ∉ valueText line.2 := fun hbare hmem =>
      absurd ((isBareChar_valueText h.writable hbare).2 _ hmem) (by decide)
    have hwritable := h.writable
    revert hbare hwritable
    cases line.2 with
    | string text => exact fun _ _ => return_not_mem_stringText text
    | datetime text => exact fun _ hwritable => hwritable.elim
    | illegible text => exact fun _ hwritable => hwritable.elim
    | _ => exact fun hbare _ => hbare trivial
  simp [lineText, hkey, hvalue]

theorem return_not_mem_sectionsText {parts : List Section}
    (h : ∀ part ∈ parts, part.WellFormed) :
    '\r' ∉ sectionsText parts := by
  induction parts with
  | nil => exact List.not_mem_nil
  | cons part parts ih =>
      obtain ⟨after, htext, hafter⟩ := exists_sectionsText_cons part parts
      have hpart := h part List.mem_cons_self
      have hname : '\r' ∉ part.name.toList := fun hmem =>
        absurd (hpart.isBareKey.isKeyChar _ hmem) (by decide)
      have hlines : '\r' ∉ part.lines.flatMap lineText := by
        rw [List.mem_flatMap]
        rintro ⟨line, hline, hmem⟩
        exact return_not_mem_lineText (hpart.writable line hline) hmem
      have hrest := ih fun other hmem => h other (List.mem_cons_of_mem _ hmem)
      have hafter' : '\r' ∉ after := by
        rcases hafter with rfl | rfl
        · exact hrest
        · simpa using hrest
      rw [htext, List.mem_append, not_or]
      exact ⟨by simp [sectionText, hname] at hlines ⊢; exact hlines, hafter'⟩

theorem hasBareReturn_of_not_mem {text : List Char} (h : '\r' ∉ text) :
    hasBareReturn text = false := by
  induction text with
  | nil => rfl
  | cons c text ih =>
      rw [List.mem_cons, not_or] at h
      rw [hasBareReturn]
      · exact ih h.2
      · intro rest hc _
        exact h.1 hc.symm
      · intro hc
        exact h.1 hc.symm

/-- **A document reads back**: sections whose names, and whose keys under each name, differ and need
no quotes, come back as a table with a table for each. -/
theorem read_write {parts : List Section} (h : ∀ part ∈ parts, part.WellFormed)
    (hnames : (parts.map (·.name)).Nodup) :
    read (write parts) = some (parts.map Section.entry) := by
  have hmark : dropMark (sectionsText parts) = sectionsText parts := by
    obtain hnil | ⟨more, hmore⟩ := sectionsText_eq_nil_or parts
    · rw [hnil]
      rfl
    · rw [hmore]
      rfl
  have hreturn := hasBareReturn_of_not_mem (return_not_mem_sectionsText h)
  have hbody : readBody ((sectionsText parts).length + 1) (sectionsText parts) =
      some ([], sectionsText parts) := by
    -- no line stands in front of the first header
    have hnone : ∀ line ∈ ([] : List (String × Scalar)), IsWritableLine line :=
      fun _ hmem => absurd hmem List.not_mem_nil
    exact readBody_lines hnone (skipVoid_sectionsText parts).1 (sectionsText_eq_nil_or parts)
      (Nat.succ_pos _)
  have hroot : (([] ++ parts.map Section.entry : Entries).map (·.1)).Nodup := by
    simpa [Section.entry, Function.comp_def] using hnames
  have hsections := readSections_sectionsText h hroot
    (Nat.lt_succ_of_le (length_le_length_sectionsText parts))
  have htext : (write parts).toList = sectionsText parts := String.toList_ofList
  unfold read
  rw [htext, hmark]
  simp only [hreturn, Bool.false_eq_true, if_false, hbody, bind, Option.bind]
  exact hsections

end HeatingPlant.Toml
