import EvmZig.Rlp.Raw

/-!
# Canonicality of the RLP cursor

The cursor accepts exactly the canonical items: what it consumes is what the
writer would produce for the accepted payload, and every produced item parses
back.  On every input it stays inside the input.
-/

set_option autoImplicit false

namespace EvmZig.Rlp

open Zig

variable {offset len limit stop lenOfLen value start : Nat} {input : Slice} {kind : Kind}
  {cursor : Cursor} {item : Item} {first : UInt8}

/-! ## Lengths -/

theorem checkedEnd_eq (inside : offset ≤ limit) (fits : limit ≤ usizeMax) :
    checkedEnd offset len limit =
      if len ≤ limit - offset then .ok (offset + len)
      else if usizeMax - offset < len then .fail .lengthOverflow
      else .fail .inputTooShort := by
  have limitRun : subUsize limit offset = some (limit - offset) := subUsize_eq inside
  have maxRun : subUsize usizeMax offset = some (usizeMax - offset) := subUsize_eq (by omega)
  simp only [checkedEnd, assert_true inside, limitRun, maxRun, Checked.liftM_some,
    Checked.ok_bind]
  by_cases room : len ≤ limit - offset
  · have addRun : addUsize offset len = some (offset + len) := addUsize_eq (by omega)
    simp [room, Nat.not_lt.mpr room, addRun]
  · by_cases wide : usizeMax - offset < len
    · simp [room, Nat.lt_of_not_le room, wide]
    · simp [room, Nat.lt_of_not_le room, wide]

theorem checkedEnd_ok (inside : offset ≤ limit) (fits : limit ≤ usizeMax)
    (run : checkedEnd offset len limit = .ok stop) :
    stop = offset + len ∧ offset + len ≤ limit := by
  rw [checkedEnd_eq inside fits] at run
  split at run
  · cases run
    exact ⟨rfl, by omega⟩
  · split at run <;> cases run

theorem checkedEnd_fits (inside : offset + len ≤ limit) (fits : limit ≤ usizeMax) :
    checkedEnd offset len limit = .ok (offset + len) := by
  rw [checkedEnd_eq (by omega) fits, if_pos (by omega)]

theorem checkedEnd_ne_illegal (len : Nat) (inside : offset ≤ limit) (fits : limit ≤ usizeMax) :
    checkedEnd offset len limit ≠ .illegal := by
  rw [checkedEnd_eq inside fits]
  split
  · simp
  · split <;> simp

/-- Shifting in at most `bits / 8` bytes loses nothing. -/
theorem foldl_shiftIn {bits : Nat} {bytes : List UInt8} (narrow : 8 * bytes.length ≤ bits) :
    bytes.foldl (Item.shiftIn bits) 0 = beValue bytes := by
  induction bytes using List.reverseRecOn with
  | nil => rfl
  | append_singleton bytes byte ih =>
      rw [List.length_append, List.length_singleton] at narrow
      have bound := beValue_lt bytes
      have shifted : beValue bytes * 256 < 2 ^ bits := by
        calc beValue bytes * 256 < 256 ^ bytes.length * 256 := by omega
          _ = 2 ^ (8 * (bytes.length + 1)) := by
            rw [← pow_succ, show (256 : Nat) = 2 ^ 8 by norm_num, ← pow_mul]
          _ ≤ 2 ^ bits := Nat.pow_le_pow_right (by norm_num) (by omega)
      rw [List.foldl_append, ih (by omega), beValue_append_singleton]
      simp only [List.foldl_cons, List.foldl_nil, Item.shiftIn]
      have shiftEq : beValue bytes <<< 8 = beValue bytes * 256 := by
        rw [Nat.shiftLeft_eq]
      rw [shiftEq, Nat.mod_eq_of_lt shifted, ← shiftEq,
        ← Nat.shiftLeft_add_eq_or_of_lt byte.toNat_lt]

theorem readLongLength_ok (inside : offset ≤ input.len)
    (run : readLongLength input offset lenOfLen = .ok value) :
    offset + lenOfLen ≤ input.len ∧ lenOfLen ≤ 8 ∧
      (input.window offset (offset + lenOfLen)).bytes = minimalBytes value := by
  obtain ⟨stop, stopRun, run⟩ := Checked.bind_eq_ok.mp run
  obtain ⟨rfl, stopInside⟩ := checkedEnd_ok inside input.len_le stopRun
  have subRun : input.sub offset (offset + lenOfLen) =
      some (input.window offset (offset + lenOfLen)) :=
    input.sub_eq (by omega) stopInside
  have windowLen := input.window_len offset stopInside
  simp only [subRun, Checked.liftM_some, Checked.ok_bind] at run
  split at run
  · cases run
  · next leading =>
    split at run
    · cases run
    · next short =>
      push Not at leading
      have lengthLe : lenOfLen ≤ 8 := by
        rw [windowLen, usizeBytes] at short
        omega
      have narrow : 8 * (input.window offset (offset + lenOfLen)).bytes.length ≤
          8 * usizeBytes := by
        have windowLength : (input.window offset (offset + lenOfLen)).bytes.length = _ := windowLen
        rw [usizeBytes]
        omega
      simp only [Checked.pure_eq, foldl_shiftIn narrow] at run
      cases run
      exact ⟨stopInside, lengthLe, (minimalBytes_beValue leading.2).symm⟩

theorem readLongLength_run (fits : value ≤ usizeMax) (positive : value ≠ 0)
    (inside : offset + byteWidth value ≤ input.len)
    (content : (input.window offset (offset + byteWidth value)).bytes = minimalBytes value) :
    readLongLength input offset (byteWidth value) = .ok value := by
  have stopRun := checkedEnd_fits inside input.len_le
  have subRun : input.sub offset (offset + byteWidth value) =
      some (input.window offset (offset + byteWidth value)) :=
    input.sub_eq (by omega) inside
  have headNonzero := minimalBytes_head value
  have headSome : (minimalBytes value).head? ≠ none := by
    rw [ne_eq, List.head?_eq_none_iff, minimalBytes_eq_nil]
    exact positive
  have narrow := byteWidth_le_eight fits
  have windowLen : (input.window offset (offset + byteWidth value)).len = byteWidth value := by
    rw [input.window_len offset inside]
    omega
  have fold : (minimalBytes value).foldl (Item.shiftIn (8 * usizeBytes)) 0 = value := by
    rw [foldl_shiftIn (by rw [minimalBytes_length, usizeBytes]; omega), beValue_minimalBytes]
  have short : ¬ usizeBytes < byteWidth value := by
    rw [usizeBytes]
    omega
  have notLeading : ¬ ((minimalBytes value).head? = none ∨ (minimalBytes value).head? = some 0) :=
    not_or.mpr ⟨headSome, headNonzero⟩
  simp only [readLongLength, stopRun, Checked.ok_bind, subRun, Checked.liftM_some, content,
    windowLen, if_neg notLeading, if_neg short, Checked.pure_eq, fold]

/-! ## Items as the writer would produce them -/

/-- The canonical encoding of an item of the given kind and payload. -/
def itemBytes (kind : Kind) (payload : List UInt8) : List UInt8 :=
  match kind with
  | .bytes => bytesItem payload
  | .list => listItem payload

@[simp] theorem makeItem_kind (kind : Kind) (encoded payload : Slice) :
    (makeItem kind encoded payload).kind = kind := by cases kind <;> rfl

@[simp] theorem makeItem_encoded (kind : Kind) (encoded payload : Slice) :
    (makeItem kind encoded payload).encoded = encoded := by cases kind <;> rfl

@[simp] theorem makeItem_payload (kind : Kind) (encoded payload : Slice) :
    (makeItem kind encoded payload).payload = payload := by cases kind <;> rfl

/-- What an accepting call of `next` establishes. -/
structure Accepts (cursor : Cursor) (item : Item) (after : Cursor) : Prop where
  sameInput : after.input = cursor.input
  advances : cursor.offset < after.offset
  inside : after.offset ≤ cursor.input.len
  encoded : item.encoded = cursor.input.window cursor.offset after.offset
  canonical : item.encoded.bytes = itemBytes item.kind item.payload.bytes

theorem itemBytes_long {payload : List UInt8} (long : 56 ≤ payload.length) :
    itemBytes kind payload =
      lengthPrefix (match kind with | .bytes => 0x80 | .list => 0xc0)
        (match kind with | .bytes => 0xb7 | .list => 0xf7) payload.length ++ payload := by
  cases kind with
  | bytes =>
      refine bytesItem_eq ?_
      rintro byte rfl
      simp at long
  | list => rfl

/-- The first byte of a long header names the width of the length. -/
def longFirst (kind : Kind) (lenOfLen : Nat) : Nat :=
  match kind with
  | .bytes => 0xb7 + lenOfLen
  | .list => 0xf7 + lenOfLen

theorem itemBytes_longFirst (kind : Kind) {payload : List UInt8} (long : 56 ≤ payload.length) :
    itemBytes kind payload =
      UInt8.ofNat (longFirst kind (byteWidth payload.length)) ::
        (minimalBytes payload.length ++ payload) := by
  rw [itemBytes_long long]
  cases kind <;> simp [lengthPrefix, longFirst, Nat.not_lt.mpr long]

theorem UInt8.ofNat_toNat_eq {byte : UInt8} (equation : byte.toNat = value) :
    byte = UInt8.ofNat value := by
  rw [← equation]
  simp

theorem nextLong_accepts {after : Cursor} (inside : cursor.offset < cursor.input.len)
    (firstByte : (cursor.input.window cursor.offset (cursor.offset + 1)).bytes = [first])
    (firstEq : first.toNat = longFirst kind lenOfLen)
    (run : Cursor.nextLong kind cursor.offset lenOfLen { cursor with offset := cursor.offset + 1 } =
      .ok item after) :
    Accepts cursor item after := by
  have started : cursor.offset + 1 ≤ cursor.input.len := inside
  simp only [Cursor.nextLong, Cursor.setOffset, Action.bind_run, Action.read_run, id_eq] at run
  cases lengthRun : readLongLength cursor.input (cursor.offset + 1) lenOfLen with
  | illegal => simp [lengthRun] at run
  | fail error => simp [lengthRun] at run
  | ok payloadLen =>
    obtain ⟨lengthInside, lengthLe, lengthBytes⟩ := readLongLength_ok started lengthRun
    have endRun := checkedEnd_fits lengthInside cursor.input.len_le
    simp only [lengthRun, Action.liftM_ok] at run
    by_cases short : payloadLen < 56
    · simp [short, Action.bind_run] at run
    · simp only [if_neg short, Action.bind_run, endRun, Action.liftM_ok,
        Action.modify_run] at run
      cases stopRun : checkedEnd (cursor.offset + 1 + lenOfLen) payloadLen cursor.input.len with
      | illegal => simp [stopRun] at run
      | fail error => simp [stopRun] at run
      | ok stop =>
        obtain ⟨rfl, stopInside⟩ := checkedEnd_ok lengthInside cursor.input.len_le stopRun
        have payloadRun : cursor.input.sub (cursor.offset + 1 + lenOfLen)
            (cursor.offset + 1 + lenOfLen + payloadLen) = some _ :=
          cursor.input.sub_eq (by omega) stopInside
        have encodedRun : cursor.input.sub cursor.offset (cursor.offset + 1 + lenOfLen + payloadLen) =
            some _ := cursor.input.sub_eq (by omega) stopInside
        simp only [stopRun, Action.liftM_ok, payloadRun, Action.liftM_some, encodedRun]
          at run
        obtain ⟨rfl, rfl⟩ := run
        refine ⟨rfl, by simp only; omega, stopInside, by simp, ?_⟩
        have payloadLength : (cursor.input.window (cursor.offset + 1 + lenOfLen)
            (cursor.offset + 1 + lenOfLen + payloadLen)).bytes.length = payloadLen := by
          have windowLength := cursor.input.window_len (cursor.offset + 1 + lenOfLen) stopInside
          simp only [Slice.len] at windowLength
          omega
        have widthEq : byteWidth payloadLen = lenOfLen := by
          have width := congrArg List.length lengthBytes
          have windowLength := cursor.input.window_len (cursor.offset + 1) lengthInside
          rw [minimalBytes_length] at width
          simp only [Slice.len] at windowLength
          omega
        have headerSplit := cursor.input.window_append
          (show cursor.offset ≤ cursor.offset + 1 by omega)
          (show cursor.offset + 1 ≤ cursor.offset + 1 + lenOfLen by omega)
        have payloadSplit := cursor.input.window_append
          (show cursor.offset ≤ cursor.offset + 1 + lenOfLen by omega)
          (show cursor.offset + 1 + lenOfLen ≤ cursor.offset + 1 + lenOfLen + payloadLen by omega)
        have headBytes : (cursor.input.window cursor.offset (cursor.offset + 1)).bytes =
            [UInt8.ofNat (longFirst kind lenOfLen)] := by
          rw [firstByte, UInt8.ofNat_toNat_eq firstEq]
        simp only [makeItem_encoded, makeItem_kind, makeItem_payload]
        rw [itemBytes_longFirst kind (by omega), payloadLength, widthEq, ← lengthBytes, ← payloadSplit,
          ← headerSplit, headBytes]
        simp


/-- The first byte of a short header carries the payload length itself. -/
def shortFirst (kind : Kind) (payloadLen : Nat) : Nat :=
  match kind with
  | .bytes => 0x80 + payloadLen
  | .list => 0xc0 + payloadLen

theorem itemBytes_shortFirst {payload : List UInt8} (short : payload.length < 56)
    (notSingle : kind = .bytes → ∀ byte, payload = [byte] → ¬ byte < 0x80) :
    itemBytes kind payload = UInt8.ofNat (shortFirst kind payload.length) :: payload := by
  cases kind with
  | bytes =>
      rw [itemBytes, bytesItem_eq (notSingle rfl), lengthPrefix, if_pos short]
      rfl
  | list => simp [itemBytes, listItem, lengthPrefix, short, shortFirst]

/-- The window of an item with a short header is its canonical encoding. -/
theorem shortAccepts {payloadLen : Nat}
    (firstByte : (cursor.input.window cursor.offset (cursor.offset + 1)).bytes = [first])
    (firstEq : first.toNat = shortFirst kind payloadLen) (short : payloadLen < 56)
    (stopInside : cursor.offset + 1 + payloadLen ≤ cursor.input.len)
    (notSingle : kind = .bytes → ∀ byte, (cursor.input.window (cursor.offset + 1) (cursor.offset +
      1 + payloadLen)).bytes = [byte] → ¬ byte < 0x80) :
    Accepts cursor
      (makeItem kind (cursor.input.window cursor.offset (cursor.offset + 1 + payloadLen))
        (cursor.input.window (cursor.offset + 1) (cursor.offset + 1 + payloadLen)))
      { cursor with offset := cursor.offset + 1 + payloadLen } := by
  have payloadLength : (cursor.input.window (cursor.offset + 1)
      (cursor.offset + 1 + payloadLen)).bytes.length = payloadLen := by
    have windowLength := cursor.input.window_len (cursor.offset + 1) stopInside
    simp only [Slice.len] at windowLength
    omega
  have split := cursor.input.window_append (show cursor.offset ≤ cursor.offset + 1 by omega)
    (show cursor.offset + 1 ≤ cursor.offset + 1 + payloadLen by omega)
  refine ⟨rfl, by simp only; omega, stopInside, by simp, ?_⟩
  simp only [makeItem_encoded, makeItem_kind, makeItem_payload]
  rw [itemBytes_shortFirst (by omega) notSingle, payloadLength, ← split, firstByte,
    UInt8.ofNat_toNat_eq firstEq]
  rfl

theorem next_accepts {after : Cursor} (run : Cursor.next cursor = .ok item after) :
    Accepts cursor item after := by
  simp only [Cursor.next, Cursor.setOffset, Action.bind_run, Action.read_run, id_eq] at run
  by_cases inside : cursor.offset < cursor.input.len
  swap
  · simp [Nat.le_of_not_lt inside, Action.bind_run] at run
  have started : cursor.offset + 1 ≤ cursor.input.len := inside
  have firstRun := cursor.input.byteAt_eq inside
  set first := cursor.input.bytes.get ⟨cursor.offset, inside⟩ with firstDef
  have firstByte : (cursor.input.window cursor.offset (cursor.offset + 1)).bytes = [first] :=
    cursor.input.window_singleton inside
  have firstSmall : first.toNat < 256 := first.toNat_lt
  have addRun : addUsize cursor.offset 1 = some (cursor.offset + 1) :=
    addUsize_eq (by have := cursor.input.len_le; omega)
  have firstSub : cursor.input.sub cursor.offset (cursor.offset + 1) = some _ :=
    cursor.input.sub_eq (by omega) inside
  simp only [if_neg (Nat.not_le.mpr inside), Action.bind_run, firstRun, Action.liftM_some, addRun,
    Action.modify_run] at run
  by_cases single : first.toNat < 0x80
  · simp only [if_pos single, Action.bind_run, firstSub, Action.liftM_some, Action.pure_run,
      Outcome.ok.injEq] at run
    obtain ⟨rfl, rfl⟩ := run
    refine ⟨rfl, by simp, inside, by simp, ?_⟩
    simp only [makeItem_encoded, makeItem_kind, makeItem_payload, firstByte, itemBytes]
    exact (bytesItem_single (UInt8.lt_iff_toNat_lt.mpr single)).symm
  simp only [if_neg single] at run
  by_cases shortBytes : first.toNat ≤ 0xb7
  · obtain ⟨payloadLen, lenEq⟩ : ∃ payloadLen, first.toNat - 0x80 = payloadLen := ⟨_, rfl⟩
    have firstEq : first.toNat = shortFirst .bytes payloadLen := by
      simp only [shortFirst]
      omega
    simp only [if_pos shortBytes, Action.bind_run, lenEq] at run
    cases stopRun : checkedEnd (cursor.offset + 1) payloadLen cursor.input.len with
    | illegal => simp [stopRun] at run
    | fail error => simp [stopRun] at run
    | ok stop =>
      obtain ⟨rfl, stopInside⟩ := checkedEnd_ok started cursor.input.len_le stopRun
      have payloadRun : cursor.input.sub (cursor.offset + 1)
          (cursor.offset + 1 + payloadLen) = some _ :=
        cursor.input.sub_eq (by omega) stopInside
      have encodedRun : cursor.input.sub cursor.offset
          (cursor.offset + 1 + payloadLen) = some _ :=
        cursor.input.sub_eq (by omega) stopInside
      have windowLength := cursor.input.window_len (cursor.offset + 1) stopInside
      simp only [stopRun, Action.liftM_ok, payloadRun, Action.liftM_some] at run
      by_cases one : payloadLen = 1
      · obtain ⟨byte, only⟩ := List.length_eq_one_iff.mp
          (show (cursor.input.window (cursor.offset + 1)
            (cursor.offset + 1 + payloadLen)).bytes.length = 1 by
              simp only [Slice.len] at windowLength; omega)
        have byteRun : (cursor.input.window (cursor.offset + 1)
            (cursor.offset + 1 + payloadLen)).byteAt 0 = some byte := by
          simp [Slice.byteAt, only]
        simp only [if_pos one, Action.bind_run, byteRun, Action.liftM_some] at run
        by_cases small : byte.toNat < 0x80
        · simp [small, Action.bind_run] at run
        · simp only [if_neg small, Action.bind_run, Action.modify_run, encodedRun,
            Action.liftM_some, Action.pure_run, Outcome.ok.injEq] at run
          obtain ⟨rfl, rfl⟩ := run
          refine shortAccepts firstByte firstEq (by omega) stopInside ?_
          intro _ other otherEq
          rw [only] at otherEq
          cases otherEq
          exact fun less => small (UInt8.lt_iff_toNat_lt.mp less)
      · simp only [if_neg one, Action.bind_run, Action.modify_run, encodedRun,
          Action.liftM_some, Action.pure_run, Outcome.ok.injEq] at run
        obtain ⟨rfl, rfl⟩ := run
        refine shortAccepts firstByte firstEq (by omega) stopInside ?_
        intro _ other otherEq
        simp only [Slice.len, otherEq, List.length_singleton] at windowLength
        omega
  simp only [if_neg shortBytes] at run
  by_cases longBytes : first.toNat ≤ 0xbf
  · have firstEq : first.toNat = longFirst .bytes (first.toNat - 0xb7) := by
      simp only [longFirst]
      omega
    simp only [if_pos longBytes] at run
    exact nextLong_accepts inside firstByte firstEq run
  simp only [if_neg longBytes] at run
  by_cases shortList : first.toNat ≤ 0xf7
  · obtain ⟨payloadLen, lenEq⟩ : ∃ payloadLen, first.toNat - 0xc0 = payloadLen := ⟨_, rfl⟩
    have firstEq : first.toNat = shortFirst .list payloadLen := by
      simp only [shortFirst]
      omega
    simp only [if_pos shortList, Action.bind_run, lenEq] at run
    cases stopRun : checkedEnd (cursor.offset + 1) payloadLen cursor.input.len with
    | illegal => simp [stopRun] at run
    | fail error => simp [stopRun] at run
    | ok stop =>
      obtain ⟨rfl, stopInside⟩ := checkedEnd_ok started cursor.input.len_le stopRun
      have payloadRun : cursor.input.sub (cursor.offset + 1)
          (cursor.offset + 1 + payloadLen) = some _ :=
        cursor.input.sub_eq (by omega) stopInside
      have encodedRun : cursor.input.sub cursor.offset
          (cursor.offset + 1 + payloadLen) = some _ :=
        cursor.input.sub_eq (by omega) stopInside
      simp only [stopRun, Action.liftM_ok, payloadRun, Action.liftM_some,
        Action.modify_run, encodedRun, Action.pure_run, Outcome.ok.injEq] at run
      obtain ⟨rfl, rfl⟩ := run
      exact shortAccepts firstByte firstEq (by omega) stopInside (by simp)
  · have firstEq : first.toNat = longFirst .list (first.toNat - 0xf7) := by
      simp only [longFirst]
      omega
    simp only [if_neg shortList] at run
    exact nextLong_accepts inside firstByte firstEq run


/-! ## Every canonical item is accepted -/

theorem Slice.window_split {slice : Slice} {left right : List UInt8} (ordered : start ≤ stop)
    (inside : stop ≤ slice.len) (content : (slice.window start stop).bytes = left ++ right) :
    start + left.length + right.length = stop ∧
      (slice.window start (start + left.length)).bytes = left ∧
      (slice.window (start + left.length) stop).bytes = right := by
  have total := slice.window_len start inside
  simp only [Slice.len] at total
  rw [content, List.length_append] at total
  have join := slice.window_append (show start ≤ start + left.length by omega)
    (show start + left.length ≤ stop by omega)
  have leftLen := slice.window_len start (show start + left.length ≤ slice.len by omega)
  simp only [Slice.len] at leftLen
  rw [content] at join
  obtain ⟨leftEq, rightEq⟩ := List.append_inj join (by omega)
  exact ⟨by omega, leftEq, rightEq⟩

/-- The first byte, as `next` reads it. -/
theorem byteAt_of_window {slice : Slice} {rest : List UInt8} (ordered : start ≤ stop)
    (inside : stop ≤ slice.len) (content : (slice.window start stop).bytes = first :: rest) :
    slice.byteAt start = some first ∧ start < slice.len := by
  obtain ⟨lengths, firstByte, -⟩ := Slice.window_split ordered inside
    (show (slice.window start stop).bytes = [first] ++ rest from content)
  have startInside : start < slice.len := by
    simp only [List.length_singleton] at lengths
    omega
  refine ⟨?_, startInside⟩
  rw [List.length_singleton, slice.window_singleton startInside] at firstByte
  rw [slice.byteAt_eq startInside]
  simpa using firstByte

/-- The item that `next` returns on a canonical encoding of `length` bytes. -/
def borrowedItem (kind : Kind) (input : Slice) (offset length payloadLen : Nat) : Item :=
  makeItem kind (input.window offset (offset + length))
    (input.window (offset + (length - payloadLen)) (offset + length))

theorem nextLong_run {payload : List UInt8} (long : 56 ≤ payload.length)
    (inside : cursor.offset + (itemBytes kind payload).length ≤ cursor.input.len)
    (content : (cursor.input.window cursor.offset (cursor.offset +
      (itemBytes kind payload).length)).bytes = itemBytes kind payload) :
    Cursor.nextLong kind cursor.offset (byteWidth payload.length)
        { cursor with offset := cursor.offset + 1 } =
      .ok (borrowedItem kind cursor.input cursor.offset (itemBytes kind payload).length
          payload.length)
        { cursor with offset := cursor.offset + (itemBytes kind payload).length } := by
  have shape := itemBytes_longFirst kind long
  have total : (itemBytes kind payload).length = 1 + byteWidth payload.length + payload.length := by
    rw [shape]
    simp
    omega
  have inputLen := cursor.input.len_le
  obtain ⟨-, -, tailBytes⟩ := Slice.window_split (Nat.le_add_right _ _) inside
    (show _ = [_] ++ (minimalBytes payload.length ++ payload) by rw [content, shape]; rfl)
  rw [List.length_singleton] at tailBytes
  obtain ⟨-, lengthBytes, payloadBytes⟩ := Slice.window_split (by omega) inside tailBytes
  rw [minimalBytes_length] at lengthBytes payloadBytes
  have payloadFits : payload.length ≤ usizeMax := by omega
  have lengthRun : readLongLength cursor.input (cursor.offset + 1) (byteWidth payload.length) =
      .ok payload.length :=
    readLongLength_run payloadFits (by omega) (by omega) lengthBytes
  have headerRun : checkedEnd (cursor.offset + 1) (byteWidth payload.length) cursor.input.len =
      .ok (cursor.offset + 1 + byteWidth payload.length) :=
    checkedEnd_fits (by omega) inputLen
  have stopRun : checkedEnd (cursor.offset + 1 + byteWidth payload.length) payload.length
      cursor.input.len = .ok (cursor.offset + 1 + byteWidth payload.length + payload.length) :=
    checkedEnd_fits (by omega) inputLen
  have stopEq : cursor.offset + 1 + byteWidth payload.length + payload.length =
      cursor.offset + (itemBytes kind payload).length := by omega
  have payloadRun := cursor.input.sub_eq
    (show cursor.offset + 1 + byteWidth payload.length ≤
      cursor.offset + (itemBytes kind payload).length by omega) inside
  have encodedRun := cursor.input.sub_eq
    (show cursor.offset ≤ cursor.offset + (itemBytes kind payload).length by omega) inside
  rw [stopEq] at stopRun
  simp only [Cursor.nextLong, Cursor.setOffset, Action.bind_run, Action.read_run, id_eq, lengthRun,
    Action.liftM_ok, if_neg (Nat.not_lt.mpr long), headerRun, Action.modify_run, stopRun,
    payloadRun, Action.liftM_some, encodedRun, Action.pure_run, borrowedItem]
  rw [show cursor.offset + ((itemBytes kind payload).length - payload.length) =
    cursor.offset + 1 + byteWidth payload.length by omega]

theorem ofNat_toNat (small : value < 256) : (UInt8.ofNat value).toNat = value := by
  rw [UInt8.toNat_ofNat']
  omega

theorem itemBytes_shape (kind : Kind) (payload : List UInt8) :
    (∃ byte, kind = .bytes ∧ payload = [byte] ∧ byte < 0x80) ∨
    (payload.length < 56 ∧ ∀ byte, kind = .bytes → payload = [byte] → ¬ byte < 0x80) ∨
    56 ≤ payload.length := by
  by_cases long : 56 ≤ payload.length
  · exact .inr (.inr long)
  by_cases single : ∃ byte, kind = .bytes ∧ payload = [byte] ∧ byte < 0x80
  · exact .inl single
  · refine .inr (.inl ⟨by omega, fun byte kindEq payloadEq small => ?_⟩)
    exact single ⟨byte, kindEq, payloadEq, small⟩

/-- The cursor accepts a canonical item wherever it stands. -/
theorem next_run (cursor : Cursor) {payload : List UInt8}
    (inside : cursor.offset + (itemBytes kind payload).length ≤ cursor.input.len)
    (content : (cursor.input.window cursor.offset (cursor.offset +
      (itemBytes kind payload).length)).bytes = itemBytes kind payload) :
    Cursor.next cursor =
      .ok (borrowedItem kind cursor.input cursor.offset (itemBytes kind payload).length
          payload.length)
        { cursor with offset := cursor.offset + (itemBytes kind payload).length } := by
  have inputLen := cursor.input.len_le
  rcases itemBytes_shape kind payload with ⟨byte, rfl, rfl, small⟩ | ⟨short, notSingle⟩ | long
  · have shape : itemBytes .bytes [byte] = [byte] := bytesItem_single small
    rw [shape, List.length_singleton] at inside
    rw [shape, List.length_singleton] at content ⊢
    obtain ⟨firstRun, started⟩ := byteAt_of_window (by omega) inside content
    have addRun : addUsize cursor.offset 1 = some (cursor.offset + 1) := addUsize_eq (by omega)
    have firstSub := cursor.input.sub_eq (show cursor.offset ≤ cursor.offset + 1 by omega) started
    have single : byte.toNat < 0x80 := UInt8.lt_iff_toNat_lt.mp small
    simp only [Cursor.next, Cursor.setOffset, Action.bind_run, Action.read_run, id_eq,
      if_neg (Nat.not_le.mpr started), firstRun, Action.liftM_some, addRun, Action.modify_run,
      if_pos single, firstSub, Action.pure_run, borrowedItem, Nat.sub_self,
      Nat.add_zero]
  · have shape := itemBytes_shortFirst short (fun kindEq byte => notSingle byte kindEq)
    have total : (itemBytes kind payload).length = 1 + payload.length := by
      rw [shape, List.length_cons]
      omega
    obtain ⟨-, -, payloadBytes⟩ := Slice.window_split (Nat.le_add_right _ _) inside
      (show _ = [_] ++ payload by rw [content, shape]; rfl)
    rw [List.length_singleton] at payloadBytes
    obtain ⟨firstRun, started⟩ := byteAt_of_window (Nat.le_add_right _ _) inside
      (show _ = _ :: payload by rw [content, shape])
    have addRun : addUsize cursor.offset 1 = some (cursor.offset + 1) := addUsize_eq (by omega)
    have stopRun : checkedEnd (cursor.offset + 1) payload.length cursor.input.len =
        .ok (cursor.offset + 1 + payload.length) := checkedEnd_fits (by omega) inputLen
    have stopEq : cursor.offset + 1 + payload.length =
        cursor.offset + (itemBytes kind payload).length := by omega
    have payloadRun := cursor.input.sub_eq
      (show cursor.offset + 1 ≤ cursor.offset + (itemBytes kind payload).length by omega) inside
    have encodedRun := cursor.input.sub_eq
      (show cursor.offset ≤ cursor.offset + (itemBytes kind payload).length by omega) inside
    have payloadStart : cursor.offset + ((itemBytes kind payload).length - payload.length) =
        cursor.offset + 1 := by omega
    rw [stopEq] at stopRun
    cases kind with
    | bytes =>
        have firstValue : (UInt8.ofNat (shortFirst .bytes payload.length)).toNat =
            0x80 + payload.length := ofNat_toNat (by simp only [shortFirst]; omega)
        simp only [Cursor.next, Cursor.setOffset, Action.bind_run, Action.read_run, id_eq,
          if_neg (Nat.not_le.mpr started), firstRun, Action.liftM_some, addRun, Action.modify_run,
          firstValue, if_neg (show ¬ 0x80 + payload.length < 0x80 by omega),
          if_pos (show 0x80 + payload.length ≤ 0xb7 by omega), Nat.add_sub_cancel_left,
          stopRun, Action.liftM_ok, payloadRun]
        by_cases one : payload.length = 1
        · obtain ⟨byte, rfl⟩ := List.length_eq_one_iff.mp one
          have byteRun : (cursor.input.window (cursor.offset + 1)
              (cursor.offset + (itemBytes .bytes [byte]).length)).byteAt 0 = some byte := by
            simp [Slice.byteAt, payloadBytes]
          have large : ¬ byte.toNat < 0x80 := fun less =>
            notSingle byte rfl rfl (UInt8.lt_iff_toNat_lt.mpr less)
          simp only [if_pos one, Action.bind_run, byteRun, Action.liftM_some, if_neg large,
            Action.modify_run, encodedRun, Action.pure_run, borrowedItem, payloadStart]
        · simp only [if_neg one, Action.bind_run, Action.modify_run, encodedRun, Action.liftM_some,
            Action.pure_run, borrowedItem, payloadStart]
    | list =>
        have firstValue : (UInt8.ofNat (shortFirst .list payload.length)).toNat =
            0xc0 + payload.length := ofNat_toNat (by simp only [shortFirst]; omega)
        simp only [Cursor.next, Cursor.setOffset, Action.bind_run, Action.read_run, id_eq,
          if_neg (Nat.not_le.mpr started), firstRun, Action.liftM_some, addRun, Action.modify_run,
          firstValue, if_neg (show ¬ 0xc0 + payload.length < 0x80 by omega),
          if_neg (show ¬ 0xc0 + payload.length ≤ 0xb7 by omega),
          if_neg (show ¬ 0xc0 + payload.length ≤ 0xbf by omega),
          if_pos (show 0xc0 + payload.length ≤ 0xf7 by omega), Nat.add_sub_cancel_left,
          stopRun, Action.liftM_ok, payloadRun, encodedRun, Action.pure_run, borrowedItem,
          payloadStart]
  · have shape := itemBytes_longFirst kind long
    have longRun := nextLong_run long inside content
    obtain ⟨firstRun, started⟩ := byteAt_of_window (Nat.le_add_right _ _) inside
      (show _ = _ :: _ by rw [content, shape])
    have addRun : addUsize cursor.offset 1 = some (cursor.offset + 1) := addUsize_eq (by omega)
    have payloadFits : payload.length ≤ usizeMax := by
      have := congrArg List.length shape
      simp only [List.length_cons, List.length_append] at this
      omega
    have narrow := byteWidth_le_eight payloadFits
    have positive := byteWidth_pos (show payload.length ≠ 0 by omega)
    obtain ⟨width, widthEq⟩ : ∃ width, byteWidth payload.length = width := ⟨_, rfl⟩
    rw [widthEq] at firstRun longRun narrow positive
    cases kind with
    | bytes =>
        have firstValue : (UInt8.ofNat (longFirst .bytes width)).toNat = 0xb7 + width :=
          ofNat_toNat (by simp only [longFirst]; omega)
        simp only [Cursor.next, Cursor.setOffset, Action.bind_run, Action.read_run, id_eq,
          if_neg (Nat.not_le.mpr started), firstRun, Action.liftM_some, addRun, Action.modify_run,
          firstValue, if_neg (show ¬ 0xb7 + width < 0x80 by omega),
          if_neg (show ¬ 0xb7 + width ≤ 0xb7 by omega),
          if_pos (show 0xb7 + width ≤ 0xbf by omega), Nat.add_sub_cancel_left, longRun]
    | list =>
        have firstValue : (UInt8.ofNat (longFirst .list width)).toNat = 0xf7 + width :=
          ofNat_toNat (by simp only [longFirst]; omega)
        simp only [Cursor.next, Cursor.setOffset, Action.bind_run, Action.read_run, id_eq,
          if_neg (Nat.not_le.mpr started), firstRun, Action.liftM_some, addRun, Action.modify_run,
          firstValue, if_neg (show ¬ 0xf7 + width < 0x80 by omega),
          if_neg (show ¬ 0xf7 + width ≤ 0xb7 by omega),
          if_neg (show ¬ 0xf7 + width ≤ 0xbf by omega),
          if_neg (show ¬ 0xf7 + width ≤ 0xf7 by omega), Nat.add_sub_cancel_left, longRun]

/-! ## The cursor never leaves its input -/

/-- The call returned, and left the cursor inside the input it started on. -/
def StaysInside (input : Slice) : Outcome Cursor ParseError Item → Prop
  | .ok _ after => after.input = input ∧ after.offset ≤ input.len
  | .fail _ after => after.input = input ∧ after.offset ≤ input.len
  | .illegal => False

theorem readLongLength_ne_illegal (inside : offset ≤ input.len) :
    readLongLength input offset lenOfLen ≠ .illegal := by
  have legal := checkedEnd_ne_illegal lenOfLen inside input.len_le
  unfold readLongLength
  cases stopRun : checkedEnd offset lenOfLen input.len with
  | illegal => exact absurd stopRun legal
  | fail error => simp
  | ok stop =>
    obtain ⟨rfl, stopInside⟩ := checkedEnd_ok inside input.len_le stopRun
    have subRun := input.sub_eq (show offset ≤ offset + lenOfLen by omega) stopInside
    simp only [Checked.ok_bind, subRun, Checked.liftM_some]
    split
    · simp
    · split <;> simp

theorem nextLong_staysInside (ordered : start ≤ cursor.offset)
    (inside : cursor.offset ≤ cursor.input.len) :
    StaysInside cursor.input (Cursor.nextLong kind start lenOfLen cursor) := by
  simp only [Cursor.nextLong, Cursor.setOffset, Action.bind_run, Action.read_run, id_eq]
  cases lengthRun : readLongLength cursor.input cursor.offset lenOfLen with
  | illegal => exact absurd lengthRun (readLongLength_ne_illegal inside)
  | fail error => exact ⟨rfl, inside⟩
  | ok payloadLen =>
    obtain ⟨lengthInside, -, -⟩ := readLongLength_ok inside lengthRun
    simp only [Action.liftM_ok]
    by_cases short : payloadLen < 56
    · simp only [if_pos short, Action.bind_run, Action.fail_run]
      exact ⟨rfl, inside⟩
    · simp only [if_neg short, Action.bind_run, checkedEnd_fits lengthInside cursor.input.len_le,
        Action.liftM_ok, Action.modify_run]
      cases stopRun : checkedEnd (cursor.offset + lenOfLen) payloadLen cursor.input.len with
      | illegal =>
          exact absurd stopRun (checkedEnd_ne_illegal payloadLen lengthInside cursor.input.len_le)
      | fail error => exact ⟨rfl, lengthInside⟩
      | ok stop =>
        obtain ⟨rfl, stopInside⟩ := checkedEnd_ok lengthInside cursor.input.len_le stopRun
        have payloadRun := cursor.input.sub_eq (show cursor.offset + lenOfLen ≤
          cursor.offset + lenOfLen + payloadLen by omega) stopInside
        have encodedRun := cursor.input.sub_eq (show start ≤
          cursor.offset + lenOfLen + payloadLen by omega) stopInside
        simp only [Action.liftM_ok, payloadRun, Action.liftM_some, encodedRun]
        exact ⟨rfl, stopInside⟩

theorem next_staysInside (started : cursor.offset < cursor.input.len) :
    StaysInside cursor.input (Cursor.next cursor) := by
  have inputLen := cursor.input.len_le
  have inside : cursor.offset + 1 ≤ cursor.input.len := started
  have addRun : addUsize cursor.offset 1 = some (cursor.offset + 1) := addUsize_eq (by omega)
  simp only [Cursor.next, Cursor.setOffset, Action.bind_run, Action.read_run, id_eq,
    if_neg (Nat.not_le.mpr started), cursor.input.byteAt_eq started, Action.liftM_some, addRun,
    Action.modify_run]
  generalize cursor.input.bytes.get ⟨cursor.offset, started⟩ = first
  by_cases single : first.toNat < 0x80
  · have encodedRun := cursor.input.sub_eq (show cursor.offset ≤ cursor.offset + 1 by omega) inside
    simp only [if_pos single, Action.bind_run, encodedRun, Action.liftM_some]
    exact ⟨rfl, inside⟩
  simp only [if_neg single]
  by_cases shortBytes : first.toNat ≤ 0xb7
  · generalize first.toNat - 0x80 = payloadLen
    simp only [if_pos shortBytes, Action.bind_run]
    cases stopRun : checkedEnd (cursor.offset + 1) payloadLen cursor.input.len with
    | illegal => exact absurd stopRun (checkedEnd_ne_illegal payloadLen inside inputLen)
    | fail error => exact ⟨rfl, inside⟩
    | ok stop =>
      obtain ⟨rfl, stopInside⟩ := checkedEnd_ok inside inputLen stopRun
      have payloadRun := cursor.input.sub_eq (show cursor.offset + 1 ≤
        cursor.offset + 1 + payloadLen by omega) stopInside
      have encodedRun := cursor.input.sub_eq (show cursor.offset ≤
        cursor.offset + 1 + payloadLen by omega) stopInside
      simp only [Action.liftM_ok, payloadRun, Action.liftM_some]
      by_cases one : payloadLen = 1
      · subst one
        have windowLength := cursor.input.window_len (cursor.offset + 1) stopInside
        have byteRun := Slice.byteAt_eq (cursor.input.window (cursor.offset + 1)
          (cursor.offset + 1 + 1)) (show 0 < _ by rw [windowLength]; omega)
        simp only [if_true, Action.bind_run, byteRun, Action.liftM_some]
        split
        · simp only [Action.bind_run, Action.fail_run]
          exact ⟨rfl, inside⟩
        · simp only [Action.bind_run, Action.modify_run, encodedRun, Action.liftM_some]
          exact ⟨rfl, stopInside⟩
      · simp only [if_neg one, Action.bind_run, Action.modify_run, encodedRun, Action.liftM_some]
        exact ⟨rfl, stopInside⟩
  simp only [if_neg shortBytes]
  by_cases longBytes : first.toNat ≤ 0xbf
  · simp only [if_pos longBytes]
    exact nextLong_staysInside (Nat.le_succ _) inside
  simp only [if_neg longBytes]
  by_cases shortList : first.toNat ≤ 0xf7
  · generalize first.toNat - 0xc0 = payloadLen
    simp only [if_pos shortList, Action.bind_run]
    cases stopRun : checkedEnd (cursor.offset + 1) payloadLen cursor.input.len with
    | illegal => exact absurd stopRun (checkedEnd_ne_illegal payloadLen inside inputLen)
    | fail error => exact ⟨rfl, inside⟩
    | ok stop =>
      obtain ⟨rfl, stopInside⟩ := checkedEnd_ok inside inputLen stopRun
      have payloadRun := cursor.input.sub_eq (show cursor.offset + 1 ≤
        cursor.offset + 1 + payloadLen by omega) stopInside
      have encodedRun := cursor.input.sub_eq (show cursor.offset ≤
        cursor.offset + 1 + payloadLen by omega) stopInside
      simp only [Action.liftM_ok, payloadRun, Action.liftM_some, Action.modify_run, encodedRun]
      exact ⟨rfl, stopInside⟩
  · simp only [if_neg shortList]
    exact nextLong_staysInside (Nat.le_succ _) inside

/-! ## The writer -/

instance : LawfulSink Writer WriterError where
  written := Writer.written
  room writer count := writer.len + count ≤ writer.limit
  room_mono := by
    intro writer small large ordered fits
    omega
  appendByte_run := by
    intro byte writer
    by_cases fits : writer.len + 1 ≤ writer.limit
    · refine .inl ⟨fits, _, if_pos fits, rfl, ?_⟩
      intro count
      simp [Writer.len, Nat.add_assoc]
    · exact .inr ⟨fits, _, _, if_neg fits, rfl⟩
  appendSlice_run := by
    intro bytes writer
    by_cases fits : writer.len + bytes.len ≤ writer.limit
    · refine .inl ⟨fits, _, if_pos fits, rfl, ?_⟩
      intro count
      simp [Writer.len, Slice.len, Nat.add_assoc]
    · exact .inr ⟨fits, _, _, if_neg fits, rfl⟩

/-- A writer method appends its item whole, or fails and leaves the output. -/
theorem Writer.allOrNothing_run {write : Action Writer (EncodingError WriterError) Unit}
    {encoded : List UInt8} (appends : Appends write encoded) (writer : Writer) :
    (writer.len + encoded.length ≤ writer.limit ∧ ∃ after,
      Writer.allOrNothing (Writer.appendCanonical write) writer = .ok () after ∧
        after.written = writer.written ++ encoded) ∨
    (writer.limit < writer.len + encoded.length ∧ ∃ error after,
      Writer.allOrNothing (Writer.appendCanonical write) writer = .fail error after ∧
        after.written = writer.written) := by
  rcases appends writer with
    ⟨fits, after, run, content, -⟩ | ⟨full, error, after, run, kept, content⟩
  · exact .inl ⟨fits, after,
      by simp [Writer.allOrNothing, Action.errdefer, Writer.appendCanonical, run], content⟩
  · refine .inr ⟨Nat.lt_of_not_le full, error, Writer.truncate writer.len after, ?_, ?_⟩
    · simp [Writer.allOrNothing, Action.errdefer, Writer.appendCanonical, run]
    · have partialWrite : after.written = writer.written ++ kept := content
      simp [Writer.truncate, Writer.len, partialWrite]

/-- Append a payload of the given kind. -/
def Writer.payload (kind : Kind) (payload : Slice) : Action Writer WriterError Unit :=
  match kind with
  | .bytes => Writer.bytes payload
  | .list => Writer.listPayload payload

theorem Writer.payload_run (kind : Kind) (payload : Slice) (writer : Writer) :
    (writer.len + (itemBytes kind payload.bytes).length ≤ writer.limit ∧ ∃ after,
      Writer.payload kind payload writer = .ok () after ∧
        after.written = writer.written ++ itemBytes kind payload.bytes) ∨
    (writer.limit < writer.len + (itemBytes kind payload.bytes).length ∧ ∃ error after,
      Writer.payload kind payload writer = .fail error after ∧
        after.written = writer.written) := by
  cases kind with
  | bytes => exact Writer.allOrNothing_run (writeBytes_appends payload) writer
  | list => exact Writer.allOrNothing_run (writeListPayload_appends payload) writer

/-! ## Round trips -/

/-- A canonical item between two other byte strings is read back. -/
theorem next_embedded (kind : Kind) {payload before rest : List UInt8}
    (content : input.bytes = before ++ itemBytes kind payload ++ rest) :
    ∃ item, Cursor.next ⟨input, before.length⟩ =
        .ok item ⟨input, before.length + (itemBytes kind payload).length⟩ ∧
      item.kind = kind ∧ item.payload.bytes = payload ∧
      item.encoded.bytes = itemBytes kind payload := by
  have inside : before.length + (itemBytes kind payload).length ≤ input.len := by
    simp only [Slice.len, content, List.length_append]
    omega
  have window : (input.window before.length
      (before.length + (itemBytes kind payload).length)).bytes = itemBytes kind payload := by
    simp only [Slice.window, content]
    rw [List.take_left' (by simp), List.drop_left' rfl]
  have run := next_run ⟨input, before.length⟩ inside window
  refine ⟨_, run, by simp [borrowedItem], ?_, by simpa [borrowedItem] using window⟩
  have suffix : ∃ header, itemBytes kind payload = header ++ payload := by
    rcases itemBytes_shape kind payload with ⟨byte, rfl, rfl, small⟩ | ⟨short, notSingle⟩ | long
    · exact ⟨[], bytesItem_single small⟩
    · exact ⟨[_], itemBytes_shortFirst short fun kindEq byte => notSingle byte kindEq⟩
    · exact ⟨_, itemBytes_long long⟩
  obtain ⟨header, shape⟩ := suffix
  have lengths : (itemBytes kind payload).length = header.length + payload.length := by
    rw [shape, List.length_append]
  obtain ⟨-, -, payloadBytes⟩ := Slice.window_split (Nat.le_add_right _ _) inside
    (show _ = header ++ payload by rw [window, shape])
  simp only [borrowedItem, makeItem_payload]
  rw [show before.length + ((itemBytes kind payload).length - payload.length) =
    before.length + header.length by omega]
  exact payloadBytes

theorem asInt_minimalBytes {bits : Nat} (bound : value < 2 ^ bits) (narrow : bits ≤ 256)
    (isBytes : item.kind = .bytes) (payload : item.payload.bytes = minimalBytes value) :
    item.asInt bits = .ok value := by
  cases item with
  | list span => simp [Item.kind] at isBytes
  | bytes span =>
    simp only [Item.payload] at payload
    simp only [Item.asInt, Item.asBytes, Checked.ok_bind, Slice.len, payload]
    cases bytesEq : minimalBytes value with
    | nil =>
        rw [minimalBytes_eq_nil.mp bytesEq]
        rfl
    | cons first rest =>
        have headNonzero := minimalBytes_head value
        have length := minimalBytes_length value
        have wide : byteWidth value ≤ byteLen bits := by
          rw [byteWidth_le_iff]
          refine lt_of_lt_of_le bound ?_
          rw [show (256 : Nat) = 2 ^ 8 by norm_num, ← pow_mul]
          refine Nat.pow_le_pow_right (by norm_num) ?_
          simp only [byteLen]
          omega
        have fold : (minimalBytes value).foldl (Item.shiftIn 256) 0 = value := by
          rw [foldl_shiftIn, beValue_minimalBytes]
          rw [length]
          simp only [byteLen] at wide
          omega
        rw [bytesEq] at headNonzero length fold
        have firstNonzero : first ≠ 0 := fun zero => headNonzero (by simp [zero])
        simp only [if_neg firstNonzero, length, if_neg (Nat.not_lt.mpr wide), fold, if_pos bound,
          Checked.pure_eq]

/-- The cursor and the writer agree on one canonical encoding per item: an
accepted item is re-encoded to the bytes consumed, a written item is accepted
where it stands, and no input makes the cursor leave it or overflow. -/
theorem cursor_writer_canonical :
    (∀ (cursor after : Cursor) (item : Item), Cursor.next cursor = .ok item after →
      after.input = cursor.input ∧ cursor.offset < after.offset ∧
      after.offset ≤ cursor.input.len ∧
      item.encoded = cursor.input.window cursor.offset after.offset ∧
      ∀ writer : Writer, writer.len + item.encoded.len ≤ writer.limit → ∃ writerAfter,
        Writer.payload item.kind item.payload writer = .ok () writerAfter ∧
        writerAfter.written = writer.written ++ item.encoded.bytes) ∧
    (∀ (kind : Kind) (payload : Slice) (writer writerAfter : Writer),
      Writer.payload kind payload writer = .ok () writerAfter →
      ∃ encoded, writerAfter.written = writer.written ++ encoded ∧
        ∀ (input : Slice) (before rest : List UInt8), input.bytes = before ++ encoded ++ rest →
          ∃ item, Cursor.next ⟨input, before.length⟩ =
              .ok item ⟨input, before.length + encoded.length⟩ ∧
            item.kind = kind ∧ item.payload = payload ∧ item.encoded.bytes = encoded) ∧
    (∀ (bits value : Nat) (writer writerAfter : Writer), value < 2 ^ bits → bits ≤ 256 →
      Writer.int bits value writer = .ok () writerAfter →
      ∃ encoded, writerAfter.written = writer.written ++ encoded ∧
        ∀ (input : Slice) (before rest : List UInt8), input.bytes = before ++ encoded ++ rest →
          ∃ item, Cursor.next ⟨input, before.length⟩ =
              .ok item ⟨input, before.length + encoded.length⟩ ∧
            item.asInt bits = .ok value) ∧
    (∀ cursor : Cursor,
      (∃ item after, Cursor.next cursor = .ok item after) ∨
      (∃ error after, Cursor.next cursor = .fail error after ∧
        after.offset ≤ max cursor.offset cursor.input.len)) := by
  refine ⟨?_, ?_, ?_, ?_⟩
  · intro cursor after item run
    have accepts := next_accepts run
    refine ⟨accepts.sameInput, accepts.advances, accepts.inside, accepts.encoded, ?_⟩
    intro writer room
    simp only [Slice.len] at room
    rw [accepts.canonical] at room
    rcases Writer.payload_run item.kind item.payload writer with
      ⟨-, writerAfter, writeRun, content⟩ | ⟨full, -⟩
    · exact ⟨writerAfter, writeRun, by rw [content, accepts.canonical]⟩
    · omega
  · intro kind payload writer writerAfter run
    rcases Writer.payload_run kind payload writer with
      ⟨-, after, writeRun, content⟩ | ⟨-, error, after, writeRun, -⟩
    · rw [run] at writeRun
      cases writeRun
      refine ⟨_, content, ?_⟩
      intro input before rest inputEq
      obtain ⟨item, nextRun, kindEq, payloadEq, encodedEq⟩ := next_embedded kind inputEq
      exact ⟨item, nextRun, kindEq, Slice.ext payloadEq, encodedEq⟩
    · rw [run] at writeRun
      cases writeRun
  · intro bits value writer writerAfter bound narrow run
    rcases Writer.allOrNothing_run (writeInt_appends bound narrow) writer with
      ⟨-, after, writeRun, content⟩ | ⟨-, error, after, writeRun, -⟩
    · rw [← Writer.int, run] at writeRun
      cases writeRun
      refine ⟨_, content, ?_⟩
      intro input before rest inputEq
      obtain ⟨item, nextRun, kindEq, payloadEq, -⟩ :=
        next_embedded .bytes inputEq
      exact ⟨item, nextRun, asInt_minimalBytes bound narrow kindEq payloadEq⟩
    · rw [← Writer.int, run] at writeRun
      cases writeRun
  · intro cursor
    by_cases started : cursor.offset < cursor.input.len
    · have inside := next_staysInside started
      cases run : Cursor.next cursor with
      | ok item after => exact .inl ⟨item, after, rfl⟩
      | fail error after =>
          rw [run] at inside
          exact .inr ⟨error, after, rfl, le_max_of_le_right inside.2⟩
      | illegal =>
          rw [run] at inside
          exact inside.elim
    · refine .inr ⟨.inputTooShort, cursor, ?_, le_max_left _ _⟩
      simp [Cursor.next, Action.bind_run, Nat.le_of_not_lt started]

end EvmZig.Rlp
