import HeatingPlant.Toml.Quoted
import HeatingPlant.Toml.Writer
import Mathlib.Order.Lattice
import Mathlib.Tactic.Common

/-!
# Strings read back

A string, once written in any of its four forms, is read as what it was.

## Main statements

* `readBasic_escapeAll_line`, `readBasic_escapeAll_lines` — between double quotes
* `readLiteral_line`, `readLiteral_lines` — between single quotes
* `readString?_stringText` — in the form chosen for it

## Design notes

Three quotes end a string of several lines, and up to two more in front of them belong to it.  So
a reader that meets the last quotes of such a string has met its end.  Everything about quotes is
about runs of them: `exists_run` splits a text at the end of its first run.
-/

namespace HeatingPlant.Toml

/-! ### The end of a string -/

variable {quote : Char} {rest : List Char}

theorem closing?_of_ne {c : Char} (multiline : Bool) (h : c ≠ quote) :
    closing? multiline quote (c :: rest) = none := by
  cases multiline <;> simp [closing?, h]

/-- A run of quotes at the front, cut to the five that matter. -/
theorem takeWhile_run {count : ℕ} (hcount : count ≤ 5) (hrest : rest.head? ≠ some quote) :
    ((List.replicate count quote ++ rest).take 5).takeWhile (· = quote) =
      List.replicate count quote := by
  have hall : ∀ c ∈ List.replicate count quote, decide (c = quote) = true := fun c hmem =>
    decide_eq_true (List.mem_replicate.mp hmem).2
  rw [List.take_append, List.length_replicate, List.take_replicate, Nat.min_eq_right hcount,
    List.takeWhile_append_of_pos hall]
  cases rest with
  | nil => simp
  | cons c rest =>
      have hc : decide (c = quote) = false := decide_eq_false fun heq => hrest (congrArg some heq)
      cases h : 5 - count with
      | zero => simp
      | succ more => simp [hc]

/-- Up to two quotes do not end a string of several lines. -/
theorem closing?_of_short {count : ℕ} (hcount : count ≤ 2) (hrest : rest.head? ≠ some quote) :
    closing? true quote (List.replicate count quote ++ rest) = none := by
  rw [closing?, if_pos rfl]
  dsimp only
  rw [takeWhile_run (by omega) hrest, List.length_replicate, if_neg (by omega)]

/-- Three quotes end it, and up to two more in front of them belong to it. -/
theorem closing?_of_end {count : ℕ} (hcount : count ≤ 2) (hrest : rest.head? ≠ some quote) :
    closing? true quote (List.replicate count quote ++ ([quote, quote, quote] ++ rest)) =
      some (List.replicate count quote, rest) := by
  have hrun : List.replicate count quote ++ ([quote, quote, quote] ++ rest) =
      List.replicate (count + 3) quote ++ rest := by
    rw [← List.append_assoc, ← List.replicate_append_replicate]
    rfl
  rw [hrun, closing?, if_pos rfl]
  dsimp only
  rw [takeWhile_run (by omega) hrest, List.length_replicate, if_pos (by omega), List.drop_replicate,
    Nat.add_sub_cancel, List.drop_left' List.length_replicate]

/-! ### One character between double quotes -/

/-- What is read of a string, with one more character in front. -/
def inFront (c : Char) (result : Option (List Char × List Char)) :
    Option (List Char × List Char) :=
  result.map fun (text, last) => (c :: text, last)

@[simp] theorem inFront_some (c : Char) (text last : List Char) :
    inFront c (some (text, last)) = some (c :: text, last) := rfl

/-- A character is read on its own where the string does not end. -/
theorem readBasic_cons {multiline : Bool} {c : Char} {pending : Pending} {read : Option Char}
    (hclose : closing? multiline '"' (c :: rest) = none)
    (hread : readChar? multiline .nothing c = some (read, pending)) :
    readBasic multiline .nothing (c :: rest) =
      (readBasic multiline pending rest).map fun (text, last) => (read.toList ++ text, last) := by
  rw [readBasic, show Pending.nothing.mayEnd = true from rfl, if_pos rfl, hclose, hread]

/-- What is left open after a backslash cannot end the string, and takes one more character. -/
theorem readBasic_pending {multiline : Bool} {c : Char} {pending next : Pending}
    (hpending : pending.mayEnd = false)
    (hread : readChar? multiline pending c = some (none, next)) :
    readBasic multiline pending (c :: rest) = readBasic multiline next rest := by
  rw [readBasic, hpending, hread]
  exact Option.map_id'

/-- The last character after a backslash completes a character of the string. -/
theorem readBasic_complete {multiline : Bool} {c read : Char} {pending : Pending}
    (hpending : pending.mayEnd = false)
    (hread : readChar? multiline pending c = some (some read, .nothing)) :
    readBasic multiline pending (c :: rest) = inFront read (readBasic multiline .nothing rest) := by
  rw [readBasic, hpending, hread]
  rfl

theorem readBasic_backslash (multiline : Bool) :
    readBasic multiline .nothing ('\\' :: rest) = readBasic multiline .escape rest := by
  rw [readBasic_cons (closing?_of_ne multiline (by decide)) rfl]
  exact Option.map_id'

/-- A backslash and a letter are read as what the letter stands for. -/
theorem readBasic_letter (multiline : Bool) {letter c : Char} (h : escaped? letter = some c) :
    readBasic multiline .nothing ('\\' :: letter :: rest) =
      inFront c (readBasic multiline .nothing rest) := by
  have hletter : readChar? multiline .escape letter = some (some c, .nothing) := by
    simp [readChar?, afterBackslash?, h]
  rw [readBasic_backslash, readBasic_complete rfl hletter]

theorem value?_upperDigit {value : ℕ} (h : value < 16) :
    Hex.value? (upperDigit value) = some value := by
  have hall : ∀ value : Fin 16, Hex.value? (upperDigit value) = some value.val := by decide
  exact hall ⟨value, h⟩

theorem charOfCode?_toNat (c : Char) : charOfCode? c.toNat = some c := by
  have hvalid : c.toNat.isValidChar := c.valid
  rw [charOfCode?, dif_pos hvalid, Char.ofNat_toNat]

/-- A code point is read as its character. -/
theorem readBasic_codeEscape (multiline : Bool) {c : Char} (h : c.toNat < 256) :
    readBasic multiline .nothing (codeEscape c ++ rest) =
      inFront c (readBasic multiline .nothing rest) := by
  have hhigh : readChar? multiline (.code 2 0) (upperDigit (c.toNat / 16)) =
      some (none, .code 1 (c.toNat / 16)) := by
    simp [readChar?, value?_upperDigit (show c.toNat / 16 < 16 by omega)]
  have hlow : readChar? multiline (.code 1 (c.toNat / 16)) (upperDigit (c.toNat % 16)) =
      some (some c, .nothing) := by
    have hcode : c.toNat / 16 * 16 + c.toNat % 16 = c.toNat := by omega
    simp [readChar?, value?_upperDigit (show c.toNat % 16 < 16 by omega), hcode, charOfCode?_toNat]
  have hletter : readChar? multiline .escape 'u' = some (none, .code 4 0) := rfl
  have hfirst : readChar? multiline (.code 4 0) '0' = some (none, .code 3 0) := rfl
  have hsecond : readChar? multiline (.code 3 0) '0' = some (none, .code 2 0) := rfl
  rw [codeEscape]
  simp only [List.cons_append, List.nil_append]
  rw [readBasic_backslash, readBasic_pending rfl hletter, readBasic_pending rfl hfirst,
    readBasic_pending rfl hsecond, readBasic_pending rfl hhigh, readBasic_complete rfl hlow]

/-- A character that needs no escape may stand in a string as it is. -/
theorem mayStand_of_not_needsEscape {multiline : Bool} {c : Char} (h : needsEscape c = false)
    (hnewline : c = '\n' → multiline = true) : mayStand multiline c = true := by
  unfold needsEscape at h
  unfold mayStand isControl
  by_cases hc : c = '\n'
  · simp [hc, hnewline hc]
  · simp only [Bool.or_eq_false_iff, Bool.and_eq_false_iff] at h ⊢
    simp_all

/-- A character that stands as it is reads as itself, where the string does not end. -/
theorem readBasic_plain {multiline : Bool} {c : Char}
    (hclose : closing? multiline '"' (c :: rest) = none) (hslash : c ≠ '\\')
    (hstand : mayStand multiline c = true) :
    readBasic multiline .nothing (c :: rest) = inFront c (readBasic multiline .nothing rest) := by
  have hread : readChar? multiline .nothing c = some (some c, .nothing) := by
    simp [readChar?, hslash, hstand]
  rw [readBasic_cons hclose hread]
  rfl

/-- **A character other than a double quote is read back.** -/
theorem readBasic_escape (lines : Bool) {c : Char} (hc : c ≠ '"') :
    readBasic lines .nothing (escape lines c ++ rest) =
      inFront c (readBasic lines .nothing rest) := by
  have hclose : closing? lines '"' (c :: rest) = none := closing?_of_ne lines hc
  unfold escape
  split_ifs with hslash hnewline hlines htab hreturn hback hfeed hcode
  · rw [hslash]
    exact readBasic_letter lines rfl
  · rw [hnewline] at hclose ⊢
    exact readBasic_plain hclose (by decide) (by rw [hlines]; decide)
  · rw [hnewline]
    exact readBasic_letter lines rfl
  · rw [htab]
    exact readBasic_letter lines rfl
  · rw [hreturn]
    exact readBasic_letter lines rfl
  · rw [hback]
    exact readBasic_letter lines rfl
  · rw [hfeed]
    exact readBasic_letter lines rfl
  · refine readBasic_codeEscape lines ?_
    simp only [needsEscape, Bool.or_eq_true, Bool.and_eq_true, decide_eq_true_eq] at hcode
    omega
  · exact readBasic_plain hclose hslash
      (mayStand_of_not_needsEscape (eq_false_of_ne_true hcode) fun h => absurd h hnewline)

/-! ### Between double quotes -/

/-- **A string between double quotes on one line reads back.** -/
theorem readBasic_escapeAll_line (run : ℕ) (text : List Char) :
    readBasic false .nothing (escapeAll false run text ++ '"' :: rest) = some (text, rest) := by
  induction text generalizing run with
  | nil => rfl
  | cons c text ih =>
      rw [escapeAll]
      by_cases hc : c = '"'
      · rw [if_pos hc, if_neg (by simp), hc, List.cons_append, List.cons_append,
          readBasic_letter false rfl, ih]
        rfl
      · rw [if_neg hc, List.append_assoc, readBasic_escape false hc, ih]
        rfl

/-- What is written for a character other than a double quote does not start with one. -/
theorem exists_escape_eq_cons (lines : Bool) {c : Char} (hc : c ≠ '"') :
    ∃ d more, escape lines c = d :: more ∧ d ≠ '"' := by
  unfold escape codeEscape
  split_ifs <;> first | exact ⟨_, _, rfl, by decide⟩ | exact ⟨_, _, rfl, hc⟩

/-- A carriage return is written by an escape, and a line break only for one. -/
theorem not_mem_escape (lines : Bool) {c d : Char} (hd : d = '\r' ∨ d = '\n' ∧ c ≠ '\n') :
    d ∉ escape lines c := by
  have hplain : d ≠ '\\' ∧ d ≠ 't' ∧ d ≠ 'n' ∧ d ≠ 'r' ∧ d ≠ 'b' ∧ d ≠ 'f' ∧
    d ≠ 'u' ∧ d ≠ '0' ∧
      ∀ value : Fin 16, d ≠ upperDigit value := by
    rcases hd with rfl | ⟨rfl, -⟩ <;> decide
  obtain ⟨h1, h2, h3, h4, h5, h6, h7, h8, hdigit⟩ := hplain
  unfold escape
  split_ifs with hslash hnewline hlines htab hreturn hback hfeed hcode
  · simp [h1]
  · rcases hd with rfl | ⟨-, hc⟩
    · decide
    · exact absurd hnewline hc
  · simp [h1, h3]
  · simp [h1, h2]
  · simp [h1, h4]
  · simp [h1, h5]
  · simp [h1, h6]
  · simp only [needsEscape, Bool.or_eq_true, Bool.and_eq_true, decide_eq_true_eq] at hcode
    have hhigh := hdigit ⟨c.toNat / 16, by omega⟩
    have hlow := hdigit ⟨c.toNat % 16, by omega⟩
    simp [codeEscape, h1, h7, h8, hhigh, hlow]
  · rw [List.mem_singleton]
    rintro rfl
    rcases hd with hd | ⟨hd, hc⟩
    · exact hreturn hd
    · exact hc hd

/-- So a string between double quotes holds no carriage return, and line breaks only for those of
the text. -/
theorem not_mem_escapeAll (lines : Bool) (run : ℕ) {text : List Char} {d : Char}
    (hd : d = '\r' ∨ d = '\n' ∧ '\n' ∉ text) : d ∉ escapeAll lines run text := by
  have hplain : d ≠ '\\' ∧ d ≠ '"' := by
    rcases hd with rfl | ⟨rfl, -⟩ <;> decide
  induction text generalizing run with
  | nil => simp [escapeAll]
  | cons c text ih =>
      have htail : d = '\r' ∨ d = '\n' ∧ '\n' ∉ text :=
        hd.imp_right fun h => ⟨h.1, fun hmem => h.2 (List.mem_cons_of_mem _ hmem)⟩
      have hhead : d = '\r' ∨ d = '\n' ∧ c ≠ '\n' :=
        hd.imp_right fun h => ⟨h.1, fun heq => h.2 (heq ▸ List.mem_cons_self)⟩
      rw [escapeAll]
      split_ifs
      · simpa [hplain] using ih (run + 1) htail
      · simpa [hplain] using ih 0 htail
      · rw [List.mem_append, not_or]
        exact ⟨not_mem_escape lines hhead, ih 0 htail⟩

/-- A string of several lines starts with up to two double quotes: either that is all of it, or
something else follows. -/
theorem exists_run_escapeAll {run : ℕ} (hrun : run ≤ 2) (text : List Char) :
    ∃ count, count + run ≤ 2 ∧
      (text = List.replicate count '"' ∧ escapeAll true run text = List.replicate count '"' ∨
        ∃ d more, escapeAll true run text = List.replicate count '"' ++ d :: more ∧
          d ≠ '"') := by
  induction text generalizing run with
  | nil => exact ⟨0, by omega, Or.inl ⟨rfl, rfl⟩⟩
  | cons c text ih =>
      rw [escapeAll]
      by_cases hc : c = '"'
      · rw [if_pos hc]
        by_cases hlt : run < 2
        · obtain ⟨count, hcount, h⟩ := ih (show run + 1 ≤ 2 by omega)
          rw [if_pos ⟨rfl, hlt⟩]
          refine ⟨count + 1, by omega, h.imp ?_ ?_⟩
          · rintro ⟨htext, hwritten⟩
            rw [hwritten, hc, htext]
            exact ⟨rfl, rfl⟩
          · rintro ⟨d, more, hwritten, hd⟩
            exact ⟨d, more, by rw [hwritten]; rfl, hd⟩
        · rw [if_neg (by simpa using hlt)]
          exact ⟨0, by omega, Or.inr ⟨_, _, rfl, by decide⟩⟩
      · obtain ⟨d, more, hwritten, hd⟩ := exists_escape_eq_cons true hc
        rw [if_neg hc, hwritten]
        exact ⟨0, by omega, Or.inr ⟨d, more ++ escapeAll true 0 text, rfl, hd⟩⟩

/-- Where a string ends, its last quotes are all that is left of it. -/
theorem readBasic_end {count : ℕ} (hcount : count ≤ 2) (hrest : rest.head? ≠ some '"') :
    readBasic true .nothing (List.replicate count '"' ++ (['"', '"', '"'] ++ rest)) =
      some (List.replicate count '"', rest) := by
  have hclose := closing?_of_end hcount hrest
  cases htext : List.replicate count '"' ++ (['"', '"', '"'] ++ rest) with
  | nil => simp at htext
  | cons c more =>
      rw [htext] at hclose
      rw [readBasic, show Pending.nothing.mayEnd = true from rfl, if_pos rfl, hclose]

/-- **A string between double quotes on several lines reads back.** -/
theorem readBasic_escapeAll_lines {run : ℕ} (hrun : run ≤ 2) (text : List Char)
    (hrest : rest.head? ≠ some '"') :
    readBasic true .nothing (escapeAll true run text ++ (['"', '"', '"'] ++ rest)) =
      some (text, rest) := by
  induction text generalizing run with
  | nil => exact @readBasic_end rest 0 (by omega) hrest
  | cons c text ih =>
      obtain ⟨count, hcount, ⟨htext, hwritten⟩ | ⟨d, more, hwritten, hd⟩⟩ :=
        exists_run_escapeAll hrun (c :: text)
      · rw [hwritten, htext]
        exact readBasic_end (by omega) hrest
      · -- the run of quotes in front is too short to end the string
        have hclose : closing? true '"' (escapeAll true run (c :: text) ++
            (['"', '"', '"'] ++ rest)) = none := by
          rw [hwritten, List.append_assoc]
          exact closing?_of_short (by omega) (by simpa using hd)
        rw [escapeAll] at hclose ⊢
        by_cases hc : c = '"'
        · rw [if_pos hc] at hclose ⊢
          by_cases hlt : run < 2
          · rw [if_pos ⟨rfl, hlt⟩, List.cons_append] at hclose ⊢
            rw [readBasic_plain hclose (by decide) (by decide),
              ih (show run + 1 ≤ 2 by omega), hc]
            rfl
          · rw [if_neg (by simpa using hlt), List.cons_append, List.cons_append,
              readBasic_letter true rfl, ih (by omega), hc]
            rfl
        · rw [if_neg hc, List.append_assoc, readBasic_escape true hc, ih (by omega)]
          rfl

/-! ### Between single quotes -/

/-- A text splits at the end of the run of quotes at its front. -/
theorem exists_run (quote : Char) (text : List Char) :
    ∃ count more, text = List.replicate count quote ++ more ∧ more.head? ≠ some quote := by
  induction text with
  | nil => exact ⟨0, [], rfl, by simp⟩
  | cons c text ih =>
      by_cases hc : c = quote
      · obtain ⟨count, more, htext, hmore⟩ := ih
        exact ⟨count + 1, more, by rw [htext, hc]; rfl, hmore⟩
      · exact ⟨0, c :: text, rfl, by simpa using hc⟩

theorem le_longestRun (quote : Char) (before longest : ℕ) (text : List Char) :
    longest ≤ longestRun quote before longest text := by
  induction text generalizing before longest with
  | nil => exact le_rfl
  | cons c text ih =>
      rw [longestRun]
      split_ifs
      · exact le_trans (le_max_left _ _) (ih _ _)
      · exact ih _ _

theorem longestRun_mono (quote : Char) {before before' longest longest' : ℕ} (text : List Char)
    (hbefore : before ≤ before') (hlongest : longest ≤ longest') :
    longestRun quote before longest text ≤ longestRun quote before' longest' text := by
  induction text generalizing before before' longest longest' with
  | nil => exact hlongest
  | cons c text ih =>
      rw [longestRun, longestRun]
      split_ifs
      · exact ih (by omega) (by omega)
      · exact ih le_rfl hlongest

/-- The run of quotes at the front is no longer than the longest. -/
theorem count_le_longestRun (quote : Char) (before longest count : ℕ) (more : List Char) :
    count = 0 ∨ before + count ≤
      longestRun quote before longest (List.replicate count quote ++ more) := by
  induction count generalizing before longest with
  | zero => exact Or.inl rfl
  | succ count ih =>
      right
      rw [List.replicate_succ, List.cons_append, longestRun, if_pos rfl]
      rcases ih (before + 1) (max longest (before + 1)) with rfl | h
      · exact le_trans (le_max_right _ _) (le_longestRun _ _ _ _)
      · omega

/-- The runs behind the first character are runs of the whole text. -/
theorem longestRun_tail_le (quote c : Char) (text : List Char) :
    longestRun quote 0 0 text ≤ longestRun quote 0 0 (c :: text) := by
  rw [longestRun]
  split_ifs
  · exact longestRun_mono quote text (by omega) (by omega)
  · exact le_rfl

theorem readLiteral_cons {multiline : Bool} {c : Char}
    (hclose : closing? multiline '\'' (c :: rest) = none) (hstand : mayStand multiline c = true) :
    readLiteral multiline (c :: rest) = inFront c (readLiteral multiline rest) := by
  rw [readLiteral, hclose]
  dsimp only
  rw [if_pos hstand]
  rfl

/-- **A string between single quotes on one line reads back.** -/
theorem readLiteral_line {text : List Char} (hquote : '\'' ∉ text)
    (hstand : ∀ c ∈ text, mayStand false c = true) :
    readLiteral false (text ++ '\'' :: rest) = some (text, rest) := by
  induction text with
  | nil => rfl
  | cons c text ih =>
      rw [List.mem_cons, not_or] at hquote
      rw [List.cons_append, readLiteral_cons (closing?_of_ne false (Ne.symm hquote.1))
        (hstand c List.mem_cons_self), ih hquote.2 fun d h => hstand d (List.mem_cons_of_mem _ h)]
      rfl

theorem readLiteral_end {count : ℕ} (hcount : count ≤ 2) (hrest : rest.head? ≠ some '\'') :
    readLiteral true (List.replicate count '\'' ++ (['\'', '\'', '\''] ++ rest)) =
      some (List.replicate count '\'', rest) := by
  have hclose := closing?_of_end hcount hrest
  cases htext : List.replicate count '\'' ++ (['\'', '\'', '\''] ++ rest) with
  | nil => simp at htext
  | cons c more =>
      rw [htext] at hclose
      rw [readLiteral, hclose]

/-- **A string between single quotes on several lines reads back.** -/
theorem readLiteral_lines {text : List Char} (hruns : longestRun '\'' 0 0 text ≤ 2)
    (hstand : ∀ c ∈ text, mayStand true c = true) (hrest : rest.head? ≠ some '\'') :
    readLiteral true (text ++ (['\'', '\'', '\''] ++ rest)) = some (text, rest) := by
  induction text with
  | nil => exact @readLiteral_end rest 0 (by omega) hrest
  | cons c text ih =>
      obtain ⟨count, more, htext, hmore⟩ := exists_run '\'' (c :: text)
      have hcount : count ≤ 2 := by
        rcases count_le_longestRun '\'' 0 0 count more with h | h
        · omega
        · rw [← htext] at h
          omega
      cases more with
      | nil =>
          rw [htext, List.append_nil]
          exact readLiteral_end hcount hrest
      | cons d more =>
          -- the run of quotes in front is too short to end the string
          have hclose : closing? true '\'' (c :: text ++ (['\'', '\'', '\''] ++ rest)) = none := by
            rw [htext, List.append_assoc]
            exact closing?_of_short hcount (by simpa using hmore)
          rw [List.cons_append] at hclose ⊢
          rw [readLiteral_cons hclose (hstand c List.mem_cons_self),
            ih ((longestRun_tail_le _ _ _).trans hruns)
              fun d h => hstand d (List.mem_cons_of_mem _ h)]
          rfl

/-! ### In the form chosen for it -/

theorem longestRun_pos_of_mem {quote : Char} {text : List Char} (h : quote ∈ text)
    (before longest : ℕ) : 0 < longestRun quote before longest text := by
  induction text generalizing before longest with
  | nil => cases h
  | cons c text ih =>
      rw [longestRun]
      split_ifs with hc
      · have := le_longestRun quote (before + 1) (max longest (before + 1)) text
        omega
      · exact ih ((List.mem_cons.mp h).resolve_left (Ne.symm hc)) _ _

/-- Single quotes on one line suit a text without anything that would have to be escaped. -/
theorem of_quotingOf_literal {text : List Char} (h : quotingOf text = .literal) :
    text ≠ [] ∧ '\'' ∉ text ∧ ∀ c ∈ text, needsEscape c = false ∧ c ≠ '\n' := by
  unfold quotingOf at h
  dsimp only at h
  split_ifs at h with h1 h2 h3 h4 h5
  simp only [Bool.and_eq_true, Bool.not_eq_true', List.any_eq_false, decide_eq_true_eq] at h2
  obtain ⟨⟨hescapes, hsingles⟩, hnewline⟩ := h2
  refine ⟨?_, ?_, ?_⟩
  · rintro rfl
    exact h1 (by decide)
  · intro hmem
    have := longestRun_pos_of_mem hmem 0 0
    omega
  · intro c hmem
    refine ⟨eq_false_of_ne_true (hescapes c hmem), ?_⟩
    rintro rfl
    rw [List.contains_iff_mem.mpr hmem] at hnewline
    cases hnewline

/-- On several lines they suit a text without long runs of them. -/
theorem of_quotingOf_literalLines {text : List Char} (h : quotingOf text = .literalLines) :
    longestRun '\'' 0 0 text ≤ 2 ∧ ∀ c ∈ text, needsEscape c = false := by
  unfold quotingOf at h
  dsimp only at h
  split_ifs at h with h1 h2 h3 h4 h5
  simp only [Bool.and_eq_true, Bool.not_eq_true', List.any_eq_false, decide_eq_true_eq] at h4
  exact ⟨h4.2, fun c hmem => eq_false_of_ne_true (h4.1 c hmem)⟩

/-- A text without a line break is not changed by dropping one in front. -/
theorem dropFirstBreak_append {front : List Char} {c : Char} (hnewline : '\n' ∉ front)
    (hreturn : '\r' ∉ front) (hc : c ≠ '\n' ∧ c ≠ '\r') :
    dropFirstBreak (front ++ c :: rest) = front ++ c :: rest := by
  have hcons : ∀ {c : Char} {rest : List Char}, c ≠ '\n' → c ≠ '\r' →
      dropFirstBreak (c :: rest) = c :: rest := by
    intro c rest hnewline hreturn
    unfold dropFirstBreak
    split
    case h_1 heq => cases heq; exact absurd rfl hreturn
    case h_2 heq => cases heq; exact absurd rfl hnewline
    case h_3 => rfl
  cases front with
  | nil => exact hcons hc.1 hc.2
  | cons d front =>
      rw [List.mem_cons, not_or] at hnewline hreturn
      exact hcons (Ne.symm hnewline.1) (Ne.symm hreturn.1)

/-- The line break that is written in front of a text of several lines is dropped again. -/
theorem dropFirstBreak_lines {text body : List Char}
    (h : '\n' ∉ text → dropFirstBreak body = body) :
    dropFirstBreak ((if text.contains '\n' then ['\n'] else []) ++ body) = body := by
  split_ifs with hnewline
  · rfl
  · exact h fun hmem => hnewline (List.contains_iff_mem.mpr hmem)

/-- Only two more double quotes would begin another form of string. -/
theorem readString?_of_basic {body : List Char} (h : ∀ more, body ≠ '"' :: '"' :: more) :
    readString? ('"' :: body) = readBasic false .nothing body := by
  unfold readString?
  split
  case h_1 heq => cases heq; exact absurd rfl (h _)
  case h_2 heq => cases heq
  case h_3 => rfl

theorem readString?_of_literal {body : List Char} (h : ∀ more, body ≠ '\'' :: '\'' :: more) :
    readString? ('\'' :: body) = readLiteral false body := by
  unfold readString?
  split
  case h_1 heq => cases heq
  case h_2 heq => cases heq; exact absurd rfl (h _)
  case h_3 => rfl

theorem readString?_basic (text : List Char) :
    readString? ('"' :: (escapeAll false 0 text ++ '"' :: '\n' :: rest)) =
      some (text, '\n' :: rest) := by
  rw [readString?_of_basic, readBasic_escapeAll_line]
  intro more heq
  cases text with
  | nil => simp [escapeAll] at heq
  | cons c text =>
      rw [escapeAll] at heq
      by_cases hc : c = '"'
      · rw [if_pos hc, if_neg (by simp)] at heq
        cases heq
      · obtain ⟨d, written, hwritten, hd⟩ := exists_escape_eq_cons false hc
        rw [if_neg hc, hwritten, List.cons_append, List.cons_append, List.cons.injEq] at heq
        exact hd heq.1

theorem readString?_literal {text : List Char} (h : quotingOf text = .literal) :
    readString? ('\'' :: (text ++ '\'' :: '\n' :: rest)) = some (text, '\n' :: rest) := by
  obtain ⟨hne, hquote, hplain⟩ := of_quotingOf_literal h
  rw [readString?_of_literal, readLiteral_line hquote]
  · intro c hmem
    exact mayStand_of_not_needsEscape (hplain c hmem).1 fun heq => absurd heq (hplain c hmem).2
  · intro more heq
    cases text with
    | nil => exact hne rfl
    | cons c text =>
        rw [List.cons_append, List.cons.injEq] at heq
        exact hquote (heq.1 ▸ List.mem_cons_self)

theorem readString?_basicLines (text : List Char) (hrest : rest.head? ≠ some '"') :
    readString? ('"' :: '"' :: '"' :: ((if text.contains '\n' then ['\n'] else []) ++
      (escapeAll true 0 text ++ (['"', '"', '"'] ++ rest)))) = some (text, rest) := by
  rw [readString?, dropFirstBreak_lines, readBasic_escapeAll_lines (by omega) _ hrest]
  intro hnewline
  exact dropFirstBreak_append (not_mem_escapeAll true 0 (Or.inr ⟨rfl, hnewline⟩))
    (not_mem_escapeAll true 0 (Or.inl rfl)) (by decide)

theorem readString?_literalLines {text : List Char} (h : quotingOf text = .literalLines)
    (hrest : rest.head? ≠ some '\'') :
    readString? ('\'' :: '\'' :: '\'' :: ((if text.contains '\n' then ['\n'] else []) ++
      (text ++ (['\'', '\'', '\''] ++ rest)))) = some (text, rest) := by
  obtain ⟨hruns, hplain⟩ := of_quotingOf_literalLines h
  rw [readString?, dropFirstBreak_lines, readLiteral_lines hruns _ hrest]
  · intro c hmem
    exact mayStand_of_not_needsEscape (hplain c hmem) fun _ => rfl
  · intro hnewline
    refine dropFirstBreak_append hnewline (fun hmem => ?_) (by decide)
    cases hplain _ hmem

/-- **A string reads back**, in front of the end of its line. -/
theorem readString?_stringText (text : String) :
    readString? (stringText text ++ '\n' :: rest) = some (text.toList, '\n' :: rest) := by
  unfold stringText
  dsimp only
  generalize text.toList = text
  cases h : quotingOf text with
  | basic => simpa [Quoting.delimiter, Quoting.body] using readString?_basic text
  | literal => simpa [Quoting.delimiter, Quoting.body] using readString?_literal h
  | basicLines =>
      simpa [Quoting.delimiter, Quoting.body] using
        @readString?_basicLines ('\n' :: rest) text (by simp)
  | literalLines =>
      simpa [Quoting.delimiter, Quoting.body] using
        @readString?_literalLines ('\n' :: rest) text h (by simp)

/-- A written string starts with a quote. -/
theorem exists_stringText_eq_cons (text : String) :
    ∃ quote more, stringText text = quote :: more ∧ (quote = '"' ∨ quote = '\'') := by
  unfold stringText
  cases quotingOf text.toList with
  | basic => exact ⟨_, _, rfl, Or.inl rfl⟩
  | literal => exact ⟨_, _, rfl, Or.inr rfl⟩
  | basicLines => exact ⟨_, _, rfl, Or.inl rfl⟩
  | literalLines => exact ⟨_, _, rfl, Or.inr rfl⟩

/-- A written string holds no carriage return. -/
theorem return_not_mem_stringText (text : String) : '\r' ∉ stringText text := by
  unfold stringText
  dsimp only
  generalize text.toList = text
  have hescaped := fun lines => @not_mem_escapeAll lines 0 text '\r' (Or.inl rfl)
  cases h : quotingOf text with
  | basic => simpa [Quoting.delimiter, Quoting.body] using hescaped false
  | literal =>
      simpa [Quoting.delimiter, Quoting.body] using fun hmem => by
        cases ((of_quotingOf_literal h).2.2 _ hmem).1
  | basicLines =>
      have hbreak : '\r' ∉ if text.contains '\n' then ['\n'] else [] := by split_ifs <;> decide
      simp only [Quoting.delimiter, Quoting.body, List.mem_append, not_or]
      exact ⟨⟨by decide, hbreak, hescaped true⟩, by decide⟩
  | literalLines =>
      have hbreak : '\r' ∉ if text.contains '\n' then ['\n'] else [] := by split_ifs <;> decide
      simp only [Quoting.delimiter, Quoting.body, List.mem_append, not_or]
      have hplain : '\r' ∉ text := fun hmem => by cases (of_quotingOf_literalLines h).2 _ hmem
      exact ⟨⟨by decide, hbreak, hplain⟩, by decide⟩

end HeatingPlant.Toml
