import HeatingPlant.Proofs.Modbus.BackendFailure
import HeatingPlant.Proofs.Modbus.Channel
import HeatingPlant.Proofs.Modbus.Grammar

/-!
# Decoding a stream

A connection is decoded request by request, also past a header that is refused, until its stream
ends. This file says what each decode takes off the bytes, and concludes that there are finitely
many; and that the results are those of the bytes and of what comes after them, whatever the pieces
in which they arrive and the interruptions between them.

## Main definitions

* `Takes` — what a result of decoding takes off the bytes
* `Finds` — what decoding finds in them
* `Source.afterDecodes` — a source after so many decodes
* `Source.Delivers` — the source hands over all that it has
* `leftOver` — what so many results leave of some bytes

## Main statements

* `Source.exists_frame_of_decode`, `Source.takes_decode` — what a decode takes, from any source
* `Source.exists_decodeAll_eq` — decoding comes to an end, after a seventh of the bytes at the
  latest
* `Source.Delivers.afterDecodes`, `Source.Delivers.decode_afterDecodes` — what a source that
  delivers comes to, from its bytes alone
* `finds_answer` — and that is what they start with
* `Source.decodes_as_one_piece` — both together, against the same bytes in one piece

## Design notes

A source need not deliver for the laws on what is taken: one that stops early takes less, and its
stream ends there.  That is why they are not read off the bytes that a source holds.
-/

namespace HeatingPlant.Modbus

/-- Whether a result of decoding is the last one of its stream. -/
def isLast : Except Fault Request → Bool
  | .ok _ => false
  | .error fault => fault.endsStream

/-- What a result of decoding takes off the bytes: a request its frame, which is as long as the
length field says, and a header that is refused itself alone.  The end of the stream may take
anything. -/
inductive Takes (bytes : List UInt8) : Except Fault Request → List UInt8 → Prop
  | frame {request : Request} (length : request.wireLength = 6 + (wordAt bytes 4).toNat)
      (least : 8 ≤ request.wireLength) (most : request.wireLength ≤ 260)
      (enough : request.wireLength ≤ bytes.length) :
      Takes bytes (.ok request) (bytes.drop request.wireLength)
  | header {fault : Fault} (more : fault.endsStream = false)
      (enough : headerLength ≤ bytes.length) :
      Takes bytes (.error fault) (bytes.drop headerLength)
  | finish {fault : Fault} (ends : fault.endsStream = true) (rest : List UInt8) :
      Takes bytes (.error fault) rest

/-- What decoding finds in some bytes: the frame that they start with, the fault of a header that is
refused, or what comes after them if they are too few. -/
inductive Finds (last : Fault) : List UInt8 → Except Fault Request → Prop
  | frame (f : Frame) (rest : List UInt8) : Finds last (f.toBytes ++ rest) (.ok f.request)
  | refused {bytes : List UInt8} {fault : Fault} (h : Stops bytes (.fault fault)) :
      Finds last bytes (.error fault)
  | short {bytes : List UInt8} (h : Stops bytes .incomplete) : Finds last bytes (.error last)

/-- **Every result but the last takes a header at least.** -/
theorem Takes.length_le {bytes rest : List UInt8} {result : Except Fault Request}
    (h : Takes bytes result rest) (hmore : isLast result = false) :
    rest.length + 7 ≤ bytes.length := by
  cases h with
  | frame length least most enough =>
      rw [List.length_drop]
      omega
  | header more enough =>
      rw [List.length_drop]
      exact Nat.le_of_eq (Nat.sub_add_cancel enough)
  | finish ends =>
      rw [isLast, ends] at hmore
      cases hmore

/-- A request takes as many bytes as it says. -/
theorem Takes.wireLength {bytes rest : List UInt8} {request : Request}
    (h : Takes bytes (.ok request) rest) : request.wireLength + rest.length = bytes.length := by
  cases h with
  | frame length least most enough =>
      rw [List.length_drop]
      omega

/-! ### Frames as they are taken -/

namespace Frame

theorem length_toBytes (f : Frame) : f.toBytes.length = f.body.length + 8 := by
  rw [toBytes_eq, List.length_append, Header.length_toBytes, List.length_cons, headerLength]
  omega

/-- The length field of a frame covers all of it but the first six bytes. -/
theorem wordAt_toBytes_append (f : Frame) (rest : List UInt8) :
    6 + (wordAt (f.toBytes ++ rest) 4).toNat = f.toBytes.length := by
  have hbody := f.length_body
  have hlargest : largestPdu = 253 := rfl
  have hword : wordAt (f.toBytes ++ rest) 4 = UInt16.ofNat (f.body.length + 2) :=
    Word.ofBytes_toBytes _
  rw [hword, length_toBytes, UInt16.toNat_ofNat']
  omega

/-- A frame at the start of some bytes is what its request takes. -/
theorem takes_append (f : Frame) (rest : List UInt8) :
    Takes (f.toBytes ++ rest) (.ok f.request) rest := by
  have hbody := f.length_body
  have hlargest : largestPdu = 253 := rfl
  have hlength := f.length_toBytes
  have hwire : f.request.wireLength = f.toBytes.length := rfl
  have htakes : Takes (f.toBytes ++ rest) (.ok f.request)
      ((f.toBytes ++ rest).drop f.request.wireLength) := by
    refine .frame (f.wordAt_toBytes_append rest).symm ?_ ?_ ?_
    · omega
    · omega
    · rw [List.length_append]
      omega
  rwa [hwire, List.drop_left' rfl] at htakes

end Frame

namespace Source

variable {source other next : Source}

/-! ### What a decode takes -/

/-- **A request that is decoded is that of a legal frame, which comes off the front.** -/
theorem exists_frame_of_decode {request : Request} (h : source.decode.1 = .ok request) :
    ∃ f : Frame, request = f.request ∧ source.bytes = f.toBytes ++ source.decode.2.bytes := by
  have hheaderBytes := bytes_eq_of_readExact headerLength source
  unfold decode at h ⊢
  split at h
  · cases h
  rename_i headerBytes later hread
  rw [hread] at hheaderBytes
  split at h
  · cases h
  rename_i header hheader
  split at h
  · cases h
  rename_i n hbody
  have hpduBytes := bytes_eq_of_readExact n later
  have hpduLength := (readExact_length n later).2
  split at h
  · cases h
  rename_i pdu last hpdu
  rw [hpdu] at hpduBytes hpduLength
  split at h
  · rename_i found hfound
    cases h
    cases pdu with
    | nil => cases hfound
    | cons function body =>
        -- the header declares just these bytes, so that it is the header of a frame
        obtain ⟨hlength, hpos, hmost, hprotocol⟩ := Header.bodyLength_eq_ok_iff.mp hbody
        have hn : body.length + 1 = n := (hpduLength _ rfl).1
        let f : Frame := ⟨header.transaction, header.unit, function, body, by omega⟩
        have hf : f.header = header := by
          show Header.mk header.transaction 0 (UInt16.ofNat (body.length + 1 + 1)) header.unit =
            header
          rw [hn, ← hlength, UInt16.ofNat_toNat, ← hprotocol]
        refine ⟨f, ?_, ?_⟩
        · rw [← hf, f.ofFrame_header] at hfound
          exact (Option.some.inj hfound).symm
        · rw [f.toBytes_eq, hf, Header.toBytes_of_ofBytes? hheader, List.append_assoc,
            hheaderBytes headerBytes rfl, hpduBytes _ rfl]
  · cases h

/-- A header that is refused comes off the front. -/
theorem exists_header_of_decode {fault : Fault} (h : source.decode.1 = .error fault)
    (hmore : fault.endsStream = false) :
    ∃ header : Header, source.bytes = header.toBytes ++ source.decode.2.bytes := by
  have hheaderBytes := bytes_eq_of_readExact headerLength source
  have hheaderEnds := @endsStream_of_readExact headerLength source
  unfold decode at h ⊢
  split at h
  · rename_i found later hread
    cases h
    rw [hheaderEnds (by rw [hread])] at hmore
    cases hmore
  rename_i headerBytes later hread
  rw [hread] at hheaderBytes
  split at h
  · cases h
    cases hmore
  rename_i header hheader
  split at h
  · exact ⟨header, by rw [Header.toBytes_of_ofBytes? hheader, hheaderBytes headerBytes rfl]⟩
  rename_i n hbody
  have hpduEnds := @endsStream_of_readExact n later
  split at h
  · rename_i found last hpdu
    cases h
    rw [hpduEnds (by rw [hpdu])] at hmore
    cases hmore
  split at h
  · cases h
  · cases h
    cases hmore

/-- **What a decode takes**, from any source. -/
theorem takes_decode (source : Source) :
    Takes source.bytes source.decode.1 source.decode.2.bytes := by
  cases h : source.decode.1 with
  | ok request =>
      obtain ⟨f, rfl, hbytes⟩ := exists_frame_of_decode h
      rw [hbytes]
      exact f.takes_append _
  | error fault =>
      cases hends : fault.endsStream with
      | true => exact .finish hends _
      | false =>
          obtain ⟨header, hbytes⟩ := exists_header_of_decode h hends
          have henough : headerLength ≤ source.bytes.length := by
            rw [hbytes, List.length_append, Header.length_toBytes]
            exact Nat.le_add_right _ _
          have hrest : source.bytes.drop headerLength = source.decode.2.bytes := by
            rw [hbytes, Header.drop_toBytes_append]
          rw [← hrest]
          exact .header hends henough

/-! ### Decode after decode -/

/-- The source after so many decodes. -/
def afterDecodes (source : Source) : Nat → Source
  | 0 => source
  | n + 1 => source.decode.2.afterDecodes n

theorem afterDecodes_succ (source : Source) (n : Nat) :
    source.afterDecodes (n + 1) = source.decode.2.afterDecodes n := rfl

theorem afterDecodes_succ' (source : Source) (n : Nat) :
    source.afterDecodes (n + 1) = (source.afterDecodes n).decode.2 := by
  induction n generalizing source with
  | zero => rfl
  | succ n ih => rw [afterDecodes_succ, ih, afterDecodes_succ]

theorem decodeAll_of_isLast (h : isLast source.decode.1 = true) :
    source.decodeAll = ([source.decode.1], source.decode.2) := by
  rw [decodeAll]
  split
  · rename_i fault rest heq
    rw [heq] at h ⊢
    exact dif_pos h
  · rename_i request rest heq
    rw [heq] at h
    cases h

theorem decodeAll_of_not_isLast (h : isLast source.decode.1 = false) :
    source.decodeAll =
      (source.decode.1 :: source.decode.2.decodeAll.1, source.decode.2.decodeAll.2) := by
  rw [decodeAll]
  split
  · rename_i fault rest heq
    rw [heq] at h ⊢
    exact dif_neg (Bool.eq_false_iff.mp h)
  · rename_i request rest heq
    rw [heq]

/-- **Decoding comes to an end**: one result after the other up to the first that is the last, each
of them after seven bytes at least. -/
theorem exists_decodeAll_eq (source : Source) :
    ∃ n, 7 * n ≤ source.bytes.length ∧
      (∀ i < n, isLast (source.afterDecodes i).decode.1 = false) ∧
      isLast (source.afterDecodes n).decode.1 = true ∧
      source.decodeAll =
        ((List.range (n + 1)).map fun i => (source.afterDecodes i).decode.1,
          source.afterDecodes (n + 1)) := by
  induction hlength : source.bytes.length using Nat.strongRecOn generalizing source with
  | _ length ih =>
      cases hlast : isLast source.decode.1 with
      | true => exact ⟨0, Nat.zero_le _, fun _ hi => absurd hi (Nat.not_lt_zero _), hlast,
          decodeAll_of_isLast hlast⟩
      | false =>
          have htaken := (takes_decode source).length_le hlast
          obtain ⟨n, hle, hmore, hend, hall⟩ :=
            ih source.decode.2.bytes.length (by omega) source.decode.2 rfl
          refine ⟨n + 1, by omega, ?_, hend, ?_⟩
          · rintro (_ | i) hi
            · exact hlast
            · exact hmore i (Nat.lt_of_succ_lt_succ hi)
          · rw [decodeAll_of_not_isLast hlast, hall, List.range_succ_eq_map (n := n + 1),
              List.map_cons, List.map_map]
            rfl

/-- Sources with the same results decode to the same ones. -/
theorem decodeAll_congr
    (h : ∀ n, (source.afterDecodes n).decode.1 = (other.afterDecodes n).decode.1) :
    ∃ n, source.decodeAll.2 = source.afterDecodes n ∧
      other.decodeAll.2 = other.afterDecodes n ∧ source.decodeAll.1 = other.decodeAll.1 := by
  obtain ⟨n, -, hmore, hend, hall⟩ := exists_decodeAll_eq source
  obtain ⟨m, -, hmore', hend', hall'⟩ := exists_decodeAll_eq other
  -- both stop at the first result that is the last
  have hnm : n = m := by
    rcases Nat.lt_trichotomy n m with hlt | heq | hlt
    · rw [h, hmore' n hlt] at hend
      cases hend
    · exact heq
    · rw [← h, hmore m hlt] at hend'
      cases hend'
  subst hnm
  refine ⟨n + 1, by rw [hall], by rw [hall'], ?_⟩
  rw [hall, hall']
  exact List.map_congr_left fun i _ => h i

/-! ### Sources that deliver -/

/-- The source hands over all that it has: every attempt brings something while anything is left. -/
def Delivers (source : Source) : Prop := source.bytes ≠ [] → source.Flows

theorem Past.delivers {n : Nat} (h : source.Past n next) (hdelivers : source.Delivers) :
    next.Delivers := by
  intro hnext
  refine h.flows (hdelivers fun hempty => hnext ?_)
  rw [h.bytes, hempty, List.drop_nil]

/-- There is nothing to read where there are no bytes. -/
theorem readExact_of_empty (wanted : Nat) (hwanted : wanted ≠ 0) (hempty : source.bytes = []) :
    ∃ last, source.readExact wanted = (.error source.finishFault, last) ∧
      source.Past 0 last := by
  fun_induction readExact wanted source with
  | case1 source => exact absurd rfl hwanted
  | case2 wanted source hw hi ih =>
      obtain ⟨last, hread, hpast⟩ := ih hwanted hempty
      exact ⟨last, hread, hpast.bytes, hpast.pace, hpast.finish⟩
  | case3 wanted source hw hi he => exact ⟨_, rfl, past_afterAttempt source 0⟩
  | case4 wanted source hw hi he n hn => exact absurd (List.isEmpty_iff.mpr hempty) he
  | case5 wanted source hw hi he n hn rest last heq ih =>
      exact absurd (List.isEmpty_iff.mpr hempty) he

theorem decode_of_delivers (h : source.Delivers) :
    source.decode.1 = (scan source.bytes).answer source.finishFault ∧
      (∃ n, source.Past n source.decode.2) ∧
      source.decode.2.bytes = (scan source.bytes).rest := by
  by_cases hempty : source.bytes = []
  · obtain ⟨last, hread, hpast⟩ := readExact_of_empty headerLength (by decide) hempty
    have hscan : scan source.bytes = .incomplete := by
      rw [hempty]
      rfl
    have hdecode : source.decode = (.error source.finishFault, last) := by
      rw [decode, hread]
    rw [hdecode, hscan]
    exact ⟨rfl, ⟨0, hpast⟩, hpast.bytes.trans hempty⟩
  · exact decode_of_flows (h hempty)

theorem delivers_ofBytes (bytes : List UInt8) {pace : Pace}
    (hpace : ∀ attempt, 0 < pace.most attempt) (finish : Option TransportError) :
    (ofBytes bytes pace finish).Delivers := fun _ => hpace

theorem delivers_steady (bytes : List UInt8) (finish : Option TransportError) :
    (ofBytes bytes (.steady bytes.length) finish).Delivers := fun hbytes _ =>
  List.length_pos_iff.mpr hbytes

end Source

/-- What so many results leave of some bytes. -/
def leftOver : Nat → List UInt8 → List UInt8
  | 0, bytes => bytes
  | n + 1, bytes => leftOver n (scan bytes).rest

/-- **What is found in some bytes is what they start with.** -/
theorem finds_answer (last : Fault) (bytes : List UInt8) :
    Finds last bytes ((scan bytes).answer last) := by
  obtain ⟨f, rest, rfl⟩ | ⟨ending, hstops⟩ := exists_frame_or_stops bytes
  · rw [f.scan_append]
    exact .frame f rest
  have hfound := hstops.ending?_scan
  cases hscan : scan bytes with
  | incomplete =>
      rw [hscan] at hfound
      cases hfound
      exact .short hstops
  | request request rest =>
      rw [hscan] at hfound
      cases hfound
  | fault fault rest =>
      rw [hscan] at hfound
      cases hfound
      exact .refused hstops

/-- Only bytes that are too few end the stream, and then what comes after them is the result. -/
theorem Finds.eq_of_isLast {last : Fault} {bytes : List UInt8} {result : Except Fault Request}
    (h : Finds last bytes result) (hlast : isLast result = true) : result = .error last := by
  cases h with
  | frame => cases hlast
  | refused hstops =>
      obtain ⟨length, rfl⟩ | ⟨defect, rfl⟩ := hstops.backend_or_malformed
      · cases hlast
      · cases hlast
  | short => rfl

namespace Source

variable {source : Source}

/-- **What a source that delivers has left is what its bytes have left**, and it still delivers. -/
theorem Delivers.afterDecodes (h : source.Delivers) (n : Nat) :
    (source.afterDecodes n).bytes = leftOver n source.bytes ∧
      (source.afterDecodes n).Delivers ∧
      (source.afterDecodes n).finishFault = source.finishFault := by
  induction n generalizing source with
  | zero => exact ⟨rfl, h, rfl⟩
  | succ n ih =>
      obtain ⟨-, ⟨taken, hpast⟩, hrest⟩ := decode_of_delivers h
      obtain ⟨hbytes, hdelivers, hfinish⟩ := ih (hpast.delivers h)
      refine ⟨?_, hdelivers, hfinish.trans hpast.finishFault⟩
      rw [afterDecodes_succ, hbytes, hrest, leftOver]

/-- **Its results are those of its bytes and of what comes after them.** -/
theorem Delivers.decode_afterDecodes (h : source.Delivers) (n : Nat) :
    (source.afterDecodes n).decode.1 =
      (scan (leftOver n source.bytes)).answer source.finishFault := by
  obtain ⟨hbytes, hdelivers, hfinish⟩ := h.afterDecodes n
  rw [(decode_of_delivers hdelivers).1, hbytes, hfinish]

theorem Delivers.finds (h : source.Delivers) (n : Nat) :
    Finds source.finishFault (source.afterDecodes n).bytes (source.afterDecodes n).decode.1 := by
  rw [h.decode_afterDecodes, (h.afterDecodes n).1]
  exact finds_answer _ _

/-- **However bytes arrive, they decode as in one piece, and decoding comes to an end.**  Decode
after decode, the results and the bytes left are the same; each result is what the bytes start with
and takes its own bytes off them; and the first that ends the stream is what comes after the bytes,
with at most a seventh as many before it as there are bytes. -/
theorem decodes_as_one_piece (bytes : List UInt8) (pace : Pace)
    (hpace : ∀ attempt, 0 < pace.most attempt) (finish : Option TransportError) :
    let source := ofBytes bytes pace finish
    let whole := ofBytes bytes (.steady bytes.length) finish
    (∀ n, (source.afterDecodes n).decode.1 = (whole.afterDecodes n).decode.1 ∧
      (source.afterDecodes n).bytes = (whole.afterDecodes n).bytes ∧
      Finds source.finishFault (source.afterDecodes n).bytes (source.afterDecodes n).decode.1 ∧
      Takes (source.afterDecodes n).bytes (source.afterDecodes n).decode.1
        (source.afterDecodes (n + 1)).bytes) ∧
    source.decodeAll.1 = whole.decodeAll.1 ∧
    source.decodeAll.2.bytes = whole.decodeAll.2.bytes ∧
    ∃ n ≤ bytes.length / 7,
      (∀ i < n, isLast (source.afterDecodes i).decode.1 = false) ∧
      (source.afterDecodes n).decode.1 = .error source.finishFault ∧
      source.decodeAll.1 =
        (List.range (n + 1)).map fun i => (source.afterDecodes i).decode.1 := by
  intro source whole
  have hsource : source.Delivers := delivers_ofBytes bytes hpace finish
  have hwhole : whole.Delivers := delivers_steady bytes finish
  have hresults : ∀ n, (source.afterDecodes n).decode.1 = (whole.afterDecodes n).decode.1 := by
    intro n
    rw [hsource.decode_afterDecodes, hwhole.decode_afterDecodes]
    rfl
  have hbytes : ∀ n, (source.afterDecodes n).bytes = (whole.afterDecodes n).bytes := by
    intro n
    rw [(hsource.afterDecodes n).1, (hwhole.afterDecodes n).1]
    rfl
  obtain ⟨last, hleft, hleft', hall⟩ := decodeAll_congr hresults
  obtain ⟨n, hle, hmore, hend, hresult⟩ := exists_decodeAll_eq source
  refine ⟨fun n => ⟨hresults n, hbytes n, hsource.finds n, ?_⟩, hall, ?_, n, ?_,
    hmore, ?_, ?_⟩
  · rw [afterDecodes_succ']
    exact takes_decode _
  · rw [hleft, hleft', hbytes]
  · rw [Nat.le_div_iff_mul_le (by decide), Nat.mul_comm]
    exact hle
  · exact (hsource.finds n).eq_of_isLast hend
  · rw [hresult]

/-- A read, a header with no room for a function code, a header beyond the largest frame and the
beginning of another, byte by byte and each byte only at the third attempt, until the line times
out: four results, as from one piece. -/
theorem decodes_as_one_piece_trickling :
    let bytes : List UInt8 := [0, 1, 0, 0, 0, 6, 1, 3, 0, 0, 0, 1] ++ [0, 2, 0, 0, 0, 1, 1] ++
      [0, 3, 0, 0, 1, 44, 1] ++ [0, 4, 0]
    let trickle : Pace := ⟨fun _ => 2, fun _ => 1⟩
    let source := ofBytes bytes trickle (some ⟨.timedOut, none⟩)
    let whole := ofBytes bytes (.steady bytes.length) (some ⟨.timedOut, none⟩)
    (∀ attempt, 0 < trickle.most attempt) ∧
      source.decodeAll.1 = whole.decodeAll.1 ∧
      source.decodeAll.1 =
        [.ok ⟨1, 1, .read 3 0 1, 12⟩, .error (.malformed (.tooShort 1)), .error (.backend 300),
          .error (.transport ⟨.timedOut, none⟩)] := by
  intro bytes trickle source whole
  have hpace : ∀ attempt, 0 < trickle.most attempt := fun _ => Nat.one_pos
  obtain ⟨-, hall, -, n, -, hmore, hend, hresults⟩ :=
    decodes_as_one_piece bytes trickle hpace (some ⟨.timedOut, none⟩)
  have hsource : source.Delivers := delivers_ofBytes bytes hpace _
  have hdecode := hsource.decode_afterDecodes
  have hread : (source.afterDecodes 0).decode.1 = .ok ⟨1, 1, .read 3 0 1, 12⟩ := hdecode 0
  have hshort : (source.afterDecodes 1).decode.1 = .error (.malformed (.tooShort 1)) :=
    hdecode 1
  have hlong : (source.afterDecodes 2).decode.1 = .error (.backend 300) := hdecode 2
  have hlast : (source.afterDecodes 3).decode.1 = .error (.transport ⟨.timedOut, none⟩) :=
    hdecode 3
  refine ⟨hpace, hall, ?_⟩
  -- the fourth result is the first that ends the stream
  have hle : n ≤ 3 := by
    refine Nat.le_of_not_lt fun hlt => ?_
    have hthird := hmore 3 hlt
    rw [hlast] at hthird
    cases hthird
  match n, hle with
  | 0, _ => cases hread.symm.trans hend
  | 1, _ => cases hshort.symm.trans hend
  | 2, _ => cases hlong.symm.trans hend
  | 3, _ =>
      rw [hresults]
      show [(source.afterDecodes 0).decode.1, (source.afterDecodes 1).decode.1,
        (source.afterDecodes 2).decode.1, (source.afterDecodes 3).decode.1] = _
      rw [hread, hshort, hlong, hlast]

end Source

end HeatingPlant.Modbus
