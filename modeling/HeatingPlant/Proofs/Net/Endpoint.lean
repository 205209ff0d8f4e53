import HeatingPlant.Net.Endpoint
import HeatingPlant.Proofs.Decimal.Digits
import Mathlib.Data.List.TakeWhile

/-!
# Endpoints read back

The written form of an endpoint denotes that endpoint.

## Main definitions

* `EndsNumber`, `EndsGroups` — what may stand behind a number, and behind groups
* `colonGroup` — a group with its colon in front

## Main statements

* `readDecimal_naturalText`, `readByte_naturalText`, `readGroup_groupText` — the numbers
* `readV4_v4Text` — IPv4 addresses
* `readGroups_colonGroups`, `readGroups_groupsText` — groups in a row
* `eq_of_longestZeroRun` — a run that is left out consists of zeros
* `readV6_v6Text` — IPv6 addresses
* `ofText?_text` — endpoints

## Design notes

The readers take digits as long as there are any, so that each statement says what stands behind the
text in question.  Wherever a group stands the reader first tries an IPv4 address, which a group is
not the start of, as no point follows it.
-/

namespace HeatingPlant.Endpoint

variable {rest : List Char}

/-! ### Numbers -/

/-- No digit is the first character of a text. -/
def EndsNumber (digit? : Char → Option ℕ) (text : List Char) : Prop :=
  ∀ c ∈ text.head?, digit? c = none

theorem endsNumber_cons {digit? : Char → Option ℕ} {c : Char} (h : digit? c = none) :
    EndsNumber digit? (c :: rest) := by
  intro d hd
  rw [List.head?_cons, Option.mem_some] at hd
  rw [← hd, h]

theorem decimalDigit?_digitChar {digit : ℕ} (h : digit < 10) :
    decimalDigit? (Nat.digitChar digit) = some digit := by
  have hall : ∀ digit : Fin 10, decimalDigit? (Nat.digitChar digit) = some digit.val := by decide
  exact hall ⟨digit, h⟩

/-- **Digits are taken off the front of a text.** -/
theorem digitsAtFront_map {digit? : Char → Option ℕ} {digits : List ℕ}
    (hdigits : ∀ digit ∈ digits, digit? (Nat.digitChar digit) = some digit)
    (hrest : EndsNumber digit? rest) :
    digitsAtFront digit? (digits.map Nat.digitChar ++ rest) = (digits, rest) := by
  induction digits with
  | nil =>
      cases rest with
      | nil => rfl
      | cons c rest =>
          have hc : digit? c = none := hrest c rfl
          rw [List.map_nil, List.nil_append, digitsAtFront, hc]
  | cons digit digits ih =>
      rw [List.map_cons, List.cons_append, digitsAtFront, hdigits digit List.mem_cons_self,
        ih fun other hmem => hdigits other (List.mem_cons_of_mem _ hmem)]

/-- **A written number is taken off the front of a text**, digit by digit. -/
theorem exists_digitsAtFront {digit? : Char → Option ℕ} {base : ℕ} (hbase : 1 < base)
    (hdigit : ∀ digit < base, digit? (Nat.digitChar digit) = some digit) (n : ℕ)
    (hrest : EndsNumber digit? rest) :
    ∃ digits, digitsAtFront digit? ((String.ofList (Nat.toDigits base n)).toList ++ rest) =
        (digits, rest) ∧
      Nat.toDigits base n = digits.map Nat.digitChar ∧ Decimal.Spells base digits n := by
  obtain ⟨digits, htext, h⟩ := Decimal.exists_spells hbase n
  refine ⟨digits, ?_, htext, h⟩
  rw [String.toList_ofList, htext]
  exact digitsAtFront_map (fun digit hmem => hdigit digit (h.lt_base digit hmem)) hrest

/-- **A decimal number below the limit is read.** -/
theorem readDecimal_naturalText {limit n : ℕ} (hn : n < limit)
    (hrest : EndsNumber decimalDigit? rest) :
    readDecimal limit ((Decimal.naturalText n).toList ++ rest) = some (n, rest) := by
  obtain ⟨digits, hfront, -, h⟩ :=
    exists_digitsAtFront (by norm_num) (fun _ => decimalDigit?_digitChar) n hrest
  have hvalue : numberOf 10 digits = n := h.value_eq
  rw [readDecimal, Decimal.naturalText, hfront]
  simp only [hvalue, h.ne_nil, false_or, not_le.mpr hn, if_false]

/-- **A byte is read.** -/
theorem readByte_naturalText (byte : UInt8) (hrest : EndsNumber decimalDigit? rest) :
    readByte ((Decimal.naturalText byte.toNat).toList ++ rest) = some (byte, rest) := by
  obtain ⟨digits, hfront, htext, h⟩ :=
    exists_digitsAtFront (by norm_num) (fun _ => decimalDigit?_digitChar) byte.toNat hrest
  have hbyte := byte.toNat_lt
  have hvalue : numberOf 10 digits = byte.toNat := h.value_eq
  have hlength : digits.length ≤ 3 :=
    Decimal.length_le_of_lt (by norm_num) (by norm_num) htext (by omega)
  have hleading : ¬(digits.head? = some 0 ∧ 1 < digits.length) := by
    rintro ⟨hhead, hlong⟩
    rw [h.leading hhead] at hlong
    exact absurd hlong (by decide)
  rw [readByte, Decimal.naturalText, hfront]
  dsimp only
  rw [hvalue, if_neg (by simp only [not_or]; exact ⟨h.ne_nil, by omega, by omega, hleading⟩),
    UInt8.ofNat_toNat]

/-- **A group is read.** -/
theorem readGroup_groupText (group : UInt16) (hrest : EndsNumber Hex.value? rest) :
    readGroup ((groupText group).toList ++ rest) = some (group, rest) := by
  obtain ⟨digits, hfront, htext, h⟩ :=
    exists_digitsAtFront (by norm_num) (fun _ => Hex.value?_digitChar) group.toNat hrest
  have hgroup := group.toNat_lt
  have hvalue : numberOf 16 digits = group.toNat := h.value_eq
  have hlength : digits.length ≤ 4 :=
    Decimal.length_le_of_lt (by norm_num) (by norm_num) htext (by omega)
  rw [readGroup, groupText, hfront]
  dsimp only
  rw [hvalue, if_neg (by simp only [not_or]; exact ⟨h.ne_nil, by omega⟩), UInt16.ofNat_toNat]

/-! ### IPv4 addresses -/

theorem readChar_cons (c : Char) : readChar c (c :: rest) = some rest := if_pos rfl

/-- **An IPv4 address is read.** -/
theorem readV4_v4Text (a b c d : UInt8) (hrest : EndsNumber decimalDigit? rest) :
    readV4 ((v4Text a b c d).toList ++ rest) = some ((a, b, c, d), rest) := by
  have htext : (v4Text a b c d).toList ++ rest =
      (Decimal.naturalText a.toNat).toList ++ '.' :: ((Decimal.naturalText b.toNat).toList ++
        '.' :: ((Decimal.naturalText c.toNat).toList ++
          '.' :: ((Decimal.naturalText d.toNat).toList ++ rest))) := by
    simp [v4Text]
  have hpoint : ∀ text, EndsNumber decimalDigit? ('.' :: text) :=
    fun text => endsNumber_cons (by decide)
  unfold readV4
  simp only [htext, readByte_naturalText _ (hpoint _), readByte_naturalText d hrest, readChar_cons,
    bind, Option.bind]
  rfl

/-- Where digits end there is no point, if there is none among what may be digits nor behind it. -/
theorem head?_digitsAtFront {digit? : Char → Option ℕ} {front : List Char}
    (hfront : '.' ∉ front) (hends : EndsNumber digit? rest) (hrest : rest.head? ≠ some '.') :
    (digitsAtFront digit? (front ++ rest)).2.head? ≠ some '.' := by
  induction front with
  | nil =>
      rwa [← List.map_nil, digitsAtFront_map (fun _ hmem => absurd hmem List.not_mem_nil) hends]
  | cons c front ih =>
      rw [List.mem_cons, not_or] at hfront
      rw [List.cons_append, digitsAtFront]
      cases digit? c with
      | some value => exact ih hfront.2
      | none => simpa using Ne.symm hfront.1

/-- An address needs a point behind its first digits. -/
theorem readV4_eq_none {text : List Char}
    (h : (digitsAtFront decimalDigit? text).2.head? ≠ some '.') : readV4 text = none := by
  have hpoint : readChar '.' (digitsAtFront decimalDigit? text).2 = none := by
    cases hlast : (digitsAtFront decimalDigit? text).2 with
    | nil => rfl
    | cons c last =>
        rw [hlast, List.head?_cons, ne_eq, Option.some.injEq] at h
        exact if_neg (Ne.symm h)
  unfold readV4
  cases hbyte : readByte text with
  | none => rfl
  | some read =>
      obtain ⟨byte, last⟩ := read
      obtain ⟨-, hread⟩ := Option.ite_none_left_eq_some.mp hbyte
      have hlast : (digitsAtFront decimalDigit? text).2 = last :=
        congrArg Prod.snd (Option.some.inj hread)
      rw [hlast] at hpoint
      simp only [bind, Option.bind, hpoint]

/-! ### Groups -/

/-- What may stand behind groups: the end of the address, a scope, or the place of zeros that are
left out. -/
inductive EndsGroups : List Char → Prop where
  | bracket (rest : List Char) : EndsGroups (']' :: rest)
  | scope (rest : List Char) : EndsGroups ('%' :: rest)
  | gap (rest : List Char) : EndsGroups (':' :: ':' :: rest)

/-- A group with its colon in front. -/
def colonGroup (group : UInt16) : List Char := ':' :: (groupText group).toList

theorem EndsGroups.endsNumber (h : EndsGroups rest) :
    EndsNumber Hex.value? rest ∧ EndsNumber decimalDigit? rest := by
  cases h <;> exact ⟨endsNumber_cons (by decide), endsNumber_cons (by decide)⟩

theorem EndsGroups.head?_ne (h : EndsGroups rest) : rest.head? ≠ some '.' := by
  cases h <;> simp

/-- A group, and the groups behind it. -/
theorem readGroups_of_group {first : Bool} {text inner last : List Char} {group : UInt16}
    (hinner : afterColon first text = some inner) (hv4 : readV4 inner = none)
    (hgroup : readGroup inner = some (group, last)) (limit : ℕ) :
    readGroups first (limit + 1) text =
      (group :: (readGroups false limit last).1, (readGroups false limit last).2) := by
  rw [readGroups, hinner, Option.bind_some, Option.bind_some, hv4, hgroup, ite_self]

/-- An IPv4 address in place of two groups. -/
theorem readGroups_of_v4 {first : Bool} {text inner last : List Char} {a b c d : UInt8}
    (hinner : afterColon first text = some inner) (hv4 : readV4 inner = some ((a, b, c, d), last))
    (limit : ℕ) :
    readGroups first (limit + 2) text = ([Word.ofBytes a b, Word.ofBytes c d], true, last) := by
  rw [readGroups, hinner, Option.bind_some, hv4, if_neg (Nat.succ_ne_zero limit)]

/-- No group. -/
theorem readGroups_of_not_group {first : Bool} {text : List Char}
    (h : ∀ inner, afterColon first text = some inner →
      readV4 inner = none ∧ readGroup inner = none)
    (limit : ℕ) : readGroups first limit text = ([], false, text) := by
  cases limit with
  | zero => rfl
  | succ limit =>
      rw [readGroups]
      cases hinner : afterColon first text with
      | none => rw [Option.bind_none, Option.bind_none, ite_self]
      | some inner =>
          rw [Option.bind_some, Option.bind_some, (h inner hinner).1, (h inner hinner).2, ite_self]

/-- What ends groups is no group, and none follows a colon there. -/
theorem EndsGroups.readGroups_eq (h : EndsGroups rest) (first : Bool) (limit : ℕ) :
    readGroups first limit rest = ([], false, rest) := by
  have hmark : ∀ text, ∀ c ∈ [']', '%', ':'],
      readV4 (c :: text) = none ∧ readGroup (c :: text) = none := by
    simp only [List.forall_mem_cons]
    exact fun text => ⟨⟨rfl, rfl⟩, ⟨rfl, rfl⟩, ⟨rfl, rfl⟩,
      fun _ hmem => absurd hmem List.not_mem_nil⟩
  refine readGroups_of_not_group (fun inner hinner => ?_) limit
  cases first with
  | true =>
      cases hinner
      cases h <;> exact hmark _ _ (by decide)
  | false =>
      cases h with
      | bracket rest => cases hinner
      | scope rest => cases hinner
      | gap rest =>
          cases hinner
          exact hmark _ _ (by decide)

/-- A group is not the start of an IPv4 address unless a point follows. -/
theorem readV4_groupText (group : UInt16) (hends : EndsNumber decimalDigit? rest)
    (hrest : rest.head? ≠ some '.') : readV4 ((groupText group).toList ++ rest) = none := by
  obtain ⟨digits, htext, h⟩ := Decimal.exists_spells (by norm_num : 1 < 16) group.toNat
  have hpoint : ∀ digit : Fin 16, Nat.digitChar digit ≠ '.' := by decide
  refine readV4_eq_none (head?_digitsAtFront ?_ hends hrest)
  rw [groupText, String.toList_ofList, htext, List.mem_map]
  rintro ⟨digit, hmem, hchar⟩
  exact hpoint ⟨digit, h.lt_base digit hmem⟩ hchar

/-- What stands behind a group when others follow. -/
theorem ends_colonGroups (groups : List UInt16) (h : EndsGroups rest) :
    EndsNumber Hex.value? (groups.flatMap colonGroup ++ rest) ∧
      EndsNumber decimalDigit? (groups.flatMap colonGroup ++ rest) ∧
        (groups.flatMap colonGroup ++ rest).head? ≠ some '.' := by
  cases groups with
  | nil => exact ⟨h.endsNumber.1, h.endsNumber.2, h.head?_ne⟩
  | cons group groups =>
      rw [List.flatMap_cons, colonGroup, List.cons_append, List.cons_append]
      exact ⟨endsNumber_cons (by decide), endsNumber_cons (by decide), by simp⟩

/-- **Groups with their colons are read.** -/
theorem readGroups_colonGroups {groups : List UInt16} {limit : ℕ}
    (hlimit : groups.length ≤ limit) (h : EndsGroups rest) :
    readGroups false limit (groups.flatMap colonGroup ++ rest) = (groups, false, rest) := by
  induction groups generalizing limit with
  | nil => exact h.readGroups_eq false limit
  | cons group groups ih =>
      obtain ⟨limit, rfl⟩ := Nat.exists_eq_add_one.mpr (Nat.zero_lt_of_lt hlimit)
      obtain ⟨hhex, hdecimal, hhead⟩ := ends_colonGroups groups h
      have hcolon : afterColon false (colonGroup group ++ (groups.flatMap colonGroup ++ rest)) =
          some ((groupText group).toList ++ (groups.flatMap colonGroup ++ rest)) :=
        readChar_cons ':'
      rw [List.flatMap_cons, List.append_assoc,
        readGroups_of_group hcolon (readV4_groupText group hdecimal hhead)
          (readGroup_groupText group hhex),
        ih (Nat.le_of_succ_le_succ hlimit)]

theorem toList_groupsText (group : UInt16) (groups : List UInt16) :
    (groupsText (group :: groups)).toList =
      (groupText group).toList ++ groups.flatMap colonGroup := by
  induction groups generalizing group with
  | nil => simp [groupsText]
  | cons next groups ih =>
      rw [List.flatMap_cons, colonGroup, List.cons_append, ← ih next]
      simp [groupsText]

/-- **Groups with colons between them are read.** -/
theorem readGroups_groupsText {groups : List UInt16} {limit : ℕ}
    (hlimit : groups.length ≤ limit) (h : EndsGroups rest) :
    readGroups true limit ((groupsText groups).toList ++ rest) = (groups, false, rest) := by
  cases groups with
  | nil => exact h.readGroups_eq true limit
  | cons group groups =>
      obtain ⟨limit, rfl⟩ := Nat.exists_eq_add_one.mpr (Nat.zero_lt_of_lt hlimit)
      obtain ⟨hhex, hdecimal, hhead⟩ := ends_colonGroups groups h
      rw [toList_groupsText, List.append_assoc,
        readGroups_of_group rfl (readV4_groupText group hdecimal hhead)
          (readGroup_groupText group hhex),
        readGroups_colonGroups (Nat.le_of_succ_le_succ hlimit) h]

/-! ### IPv6 addresses -/

/-- **The run that is left out consists of zeros**: of groups counted from `start` on, those in
front of it, the zeros and those behind it are all. -/
theorem eq_of_longestZeroRun {start : ℕ} {groups : List UInt16}
    (h : 0 < (longestZeroRun start groups).2) :
    ∃ front back, groups = front ++ List.replicate (longestZeroRun start groups).2 0 ++ back ∧
      (longestZeroRun start groups).1 = start + front.length := by
  induction groups generalizing start with
  | nil => exact absurd h (lt_irrefl 0)
  | cons group groups ih =>
      unfold longestZeroRun at h ⊢
      dsimp only at h ⊢
      split_ifs at h ⊢ with hlater
      · obtain ⟨front, back, heq, hstart⟩ := ih h
        refine ⟨group :: front, back, ?_, ?_⟩
        · rw [List.cons_append, List.cons_append, ← heq]
        · rw [hstart, List.length_cons]
          omega
      · refine ⟨[], (group :: groups).dropWhile (· = 0), ?_, rfl⟩
        have hzeros : (group :: groups).takeWhile (· = 0) =
            List.replicate (zeroRun (group :: groups)) 0 :=
          List.eq_replicate_of_mem fun other hmem => by simpa using List.mem_takeWhile_imp hmem
        rw [List.nil_append, ← hzeros, List.takeWhile_append_dropWhile]

/-- Groups with a gap, which stands for all that are missing. -/
theorem readV6_of_gap {text inner : List Char} {head tail : List UInt16} {endedInV4 : Bool}
    (hhead : readGroups true 8 text = (head, false, ':' :: ':' :: inner))
    (hlength : head.length < 8)
    (htail : readGroups true (7 - head.length) inner = (tail, endedInV4, rest)) :
    readV6 text =
      some (head ++ List.replicate (8 - head.length - tail.length) 0 ++ tail, rest) := by
  unfold readV6
  simp only [hhead, hlength.ne, if_false, Bool.false_eq_true, readChar_cons, bind, Option.bind,
    htail]
  rfl

/-- **Groups of which a run of zeros is left out are read.** -/
theorem readV6_gap {front back : List UInt16} {count : ℕ} (hcount : 0 < count)
    (hall : front.length + count + back.length = 8) (h : EndsGroups rest) :
    readV6 ((groupsText front).toList ++ ':' :: ':' :: ((groupsText back).toList ++ rest)) =
      some (front ++ List.replicate count 0 ++ back, rest) := by
  have hhead := @readGroups_groupsText (':' :: ':' :: ((groupsText back).toList ++ rest)) front 8
    (by omega) (.gap _)
  have htail := @readGroups_groupsText rest back (7 - front.length) (by omega) h
  rw [readV6_of_gap hhead (by omega) htail,
    show 8 - front.length - back.length = count from by omega]

/-- **An IPv4-mapped address is read.** -/
theorem readV6_mapped (g k : UInt16) (h : EndsGroups rest) :
    readV6 (':' :: ':' :: ((groupText 0xffff).toList ++ ':' :: ((v4Text
      (UInt8.ofNat (g.toNat / 256)) (UInt8.ofNat g.toNat) (UInt8.ofNat (k.toNat / 256))
      (UInt8.ofNat k.toNat)).toList ++ rest))) = some ([0, 0, 0, 0, 0, 0xffff, g, k], rest) := by
  have hv4 := readV4_v4Text (UInt8.ofNat (g.toNat / 256)) (UInt8.ofNat g.toNat)
    (UInt8.ofNat (k.toNat / 256)) (UInt8.ofNat k.toNat) h.endsNumber.2
  generalize (v4Text (UInt8.ofNat (g.toNat / 256)) (UInt8.ofNat g.toNat)
    (UInt8.ofNat (k.toNat / 256)) (UInt8.ofNat k.toNat)).toList ++ rest = address at hv4 ⊢
  have hcolon : afterColon false (':' :: address) = some address := readChar_cons ':'
  have haddress : readGroups false 6 (':' :: address) = ([g, k], true, rest) := by
    rw [readGroups_of_v4 hcolon hv4, Word.ofBytes_toBytes, Word.ofBytes_toBytes]
  have htail : readGroups true 7 ((groupText 0xffff).toList ++ ':' :: address) =
      ([0xffff, g, k], true, rest) := by
    rw [readGroups_of_group rfl (readV4_groupText _ (endsNumber_cons (by decide)) (by simp))
      (readGroup_groupText _ (endsNumber_cons (by decide))), haddress]
  exact readV6_of_gap ((EndsGroups.gap _).readGroups_eq true 8) (by decide) htail

/-- **An IPv6 address is read.** -/
theorem readV6_v6Text (groups : Vector UInt16 8) (h : EndsGroups rest) :
    readV6 ((v6Text groups).toList ++ rest) = some (groups.toList, rest) := by
  have hall : groups.toList.length = 8 := groups.length_toList
  unfold v6Text
  split
  case h_1 g k hlist =>
    have hread := readV6_mapped g k h
    have hgroup : groupText 0xffff = "ffff" := by decide
    rw [hlist, ← hread]
    simp [Word.toBytes, hgroup]
  case h_2 =>
    dsimp only
    split_ifs with hrun
    · obtain ⟨front, back, heq, hstart⟩ := eq_of_longestZeroRun (Nat.zero_lt_of_lt hrun)
      generalize hcount : (longestZeroRun 0 groups.toList).2 = count at heq hrun ⊢
      rw [Nat.zero_add] at hstart
      have hlength : front.length + count + back.length = 8 := by
        rw [← hall, heq, List.length_append, List.length_append, List.length_replicate]
      have hfront : groups.toList.take front.length = front := by
        rw [heq, List.append_assoc, List.take_left]
      have hback : groups.toList.drop (front.length + count) = back := by
        rw [heq]
        exact List.drop_left' (by simp)
      have htext : (groupsText front ++ "::" ++ groupsText back).toList ++ rest =
          (groupsText front).toList ++ ':' :: ':' :: ((groupsText back).toList ++ rest) := by
        simp
      rw [hstart, hfront, hback, htext, readV6_gap (Nat.zero_lt_of_lt hrun) hlength h, ← heq]
    · have hread := readGroups_groupsText hall.le h
      unfold readV6
      simp only [hread, hall, if_true]

/-! ### Endpoints -/

theorem readPort_naturalText (port : UInt16) (hrest : EndsNumber decimalDigit? rest) :
    readPort (':' :: ((Decimal.naturalText port.toNat).toList ++ rest)) = some (port, rest) := by
  unfold readPort
  simp only [readChar_cons, bind, Option.bind, readDecimal_naturalText port.toNat_lt hrest,
    UInt16.ofNat_toNat]
  rfl

/-- **An IPv6 endpoint is read**, with its scope if it has one. -/
theorem readV6Endpoint_text (groups : Vector UInt16 8) (scope : UInt32) (port : UInt16) :
    readV6Endpoint (text ⟨.v6 groups scope, port⟩).toList =
      some (⟨.v6 groups scope, port⟩, []) := by
  have hport := @readPort_naturalText [] port (by simp [EndsNumber])
  rw [List.append_nil] at hport
  have hlength : groups.toList.length = 8 := groups.length_toList
  have hgroups : (⟨groups.toList.toArray, by simp⟩ : Vector UInt16 8) = groups :=
    Vector.toArray_inj.mp groups.toArray.toArray_toList
  by_cases hscope : scope = 0
  · have htext : (text ⟨.v6 groups scope, port⟩).toList = '[' :: ((v6Text groups).toList ++
        ']' :: ':' :: (Decimal.naturalText port.toNat).toList) := by
      simp [text, hscope]
    have hv6 := readV6_v6Text groups (.bracket (':' :: (Decimal.naturalText port.toNat).toList))
    rw [htext, readV6Endpoint]
    have hnone : readChar '%' (']' :: ':' :: (Decimal.naturalText port.toNat).toList) = none := rfl
    simp only [readChar_cons, bind, Option.bind, hv6, hnone, hport, hlength, dite_true, hgroups,
      hscope]
    rfl
  · have htext : (text ⟨.v6 groups scope, port⟩).toList = '[' :: ((v6Text groups).toList ++
        '%' :: ((Decimal.naturalText scope.toNat).toList ++
          ']' :: ':' :: (Decimal.naturalText port.toNat).toList)) := by
      simp [text, hscope]
    have hv6 := readV6_v6Text groups (.scope ((Decimal.naturalText scope.toNat).toList ++
      ']' :: ':' :: (Decimal.naturalText port.toNat).toList))
    have hnumber := @readDecimal_naturalText (']' :: ':' :: (Decimal.naturalText port.toNat).toList)
      4294967296 scope.toNat scope.toNat_lt (endsNumber_cons (by decide))
    rw [htext, readV6Endpoint]
    simp only [readChar_cons, bind, Option.bind, hv6, hnumber, hport, hlength, dite_true, hgroups,
      UInt32.ofNat_toNat]
    rfl

/-- **An endpoint is what its written form denotes.** -/
theorem ofText?_text (endpoint : Endpoint) : ofText? endpoint.text = some endpoint := by
  obtain ⟨host, port⟩ := endpoint
  have hport := @readPort_naturalText [] port (by simp [EndsNumber])
  rw [List.append_nil] at hport
  cases host with
  | v4 a b c d =>
      have hread : readV4Endpoint (text ⟨.v4 a b c d, port⟩).toList =
          some (⟨.v4 a b c d, port⟩, []) := by
        have htext : (text ⟨.v4 a b c d, port⟩).toList = (v4Text a b c d).toList ++
            ':' :: (Decimal.naturalText port.toNat).toList := by
          simp [text]
        have hcolon : EndsNumber decimalDigit? (':' :: (Decimal.naturalText port.toNat).toList) :=
          endsNumber_cons (by decide)
        rw [readV4Endpoint, htext, readV4_v4Text a b c d hcolon]
        simp only [bind, Option.bind, hport]
        rfl
      rw [ofText?, hread]
      rfl
  | v6 groups scope =>
      have hbracket : ∃ more, (text ⟨.v6 groups scope, port⟩).toList = '[' :: more :=
        ⟨_, by simp [text]; rfl⟩
      have hnot : readV4Endpoint (text ⟨.v6 groups scope, port⟩).toList = none := by
        obtain ⟨more, hmore⟩ := hbracket
        rw [hmore]
        rfl
      rw [ofText?, hnot, Option.none_or, readV6Endpoint_text]

end HeatingPlant.Endpoint
