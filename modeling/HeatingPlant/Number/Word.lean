/-!
# Big-endian words

Sixteen-bit words as two bytes, high byte first, and lists of them.

## Main definitions

* `Word.ofBytes`, `Word.toBytes` — one word
* `Word.listOfBytes`, `Word.listToBytes` — a run of words
-/

namespace HeatingPlant.Word

/-- The word with the given high and low byte. -/
def ofBytes (high low : UInt8) : UInt16 :=
  UInt16.ofNat (high.toNat * 256 + low.toNat)

/-- The high byte of a word, then its low byte. -/
def toBytes (word : UInt16) : List UInt8 :=
  [UInt8.ofNat (word.toNat / 256), UInt8.ofNat word.toNat]

/-- The words of a byte string; a byte left over at the end is dropped. -/
def listOfBytes : List UInt8 → List UInt16
  | high :: low :: rest => ofBytes high low :: listOfBytes rest
  | _ => []

/-- The bytes of a run of words. -/
def listToBytes (words : List UInt16) : List UInt8 := words.flatMap toBytes

@[simp] theorem length_toBytes (word : UInt16) : (toBytes word).length = 2 := rfl

theorem ofBytes_toBytes (word : UInt16) :
    ofBytes (UInt8.ofNat (word.toNat / 256)) (UInt8.ofNat word.toNat) = word := by
  have := word.toNat_lt
  apply UInt16.toNat_inj.mp
  simp only [ofBytes, UInt16.toNat_ofNat', UInt8.toNat_ofNat']
  omega

theorem toBytes_ofBytes (high low : UInt8) : toBytes (ofBytes high low) = [high, low] := by
  have hh := high.toNat_lt
  have hl := low.toNat_lt
  have hw : (ofBytes high low).toNat = high.toNat * 256 + low.toNat := by
    simp only [ofBytes, UInt16.toNat_ofNat']
    omega
  simp only [toBytes, hw, List.cons.injEq, and_true]
  constructor <;> apply UInt8.toNat_inj.mp <;> simp only [UInt8.toNat_ofNat'] <;> omega

@[simp] theorem listOfBytes_listToBytes (words : List UInt16) :
    listOfBytes (listToBytes words) = words := by
  induction words with
  | nil => rfl
  | cons word rest ih =>
    simp only [listToBytes, List.flatMap_cons, toBytes, List.cons_append, List.nil_append,
      listOfBytes, ofBytes_toBytes, List.cons.injEq, true_and]
    exact ih

@[simp] theorem length_listToBytes (words : List UInt16) :
    (listToBytes words).length = 2 * words.length := by
  induction words with
  | nil => rfl
  | cons word rest ih =>
    simp only [listToBytes, List.flatMap_cons, List.length_append, length_toBytes,
      List.length_cons] at *
    omega

theorem length_listOfBytes : ∀ bytes : List UInt8, (listOfBytes bytes).length = bytes.length / 2
  | [] => rfl
  | [_] => by simp [listOfBytes]
  | high :: low :: rest => by
    have ih := length_listOfBytes rest
    simp only [listOfBytes, List.length_cons, ih]
    omega

/-- Bytes that come in pairs are those of their words. -/
theorem listToBytes_listOfBytes :
    ∀ {bytes : List UInt8}, bytes.length % 2 = 0 → listToBytes (listOfBytes bytes) = bytes
  | [], _ => rfl
  | [_], h => by simp at h
  | high :: low :: rest, h => by
    have hrest : rest.length % 2 = 0 := by
      simp only [List.length_cons] at h
      omega
    have ih := listToBytes_listOfBytes hrest
    rw [listToBytes] at ih
    rw [listOfBytes, listToBytes, List.flatMap_cons, toBytes_ofBytes, ih]
    rfl

end HeatingPlant.Word
