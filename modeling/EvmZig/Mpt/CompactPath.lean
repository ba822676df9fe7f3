import EvmZig.Mpt.Nibble

/-!
# Encoding and matching of compact paths (`pkg/mpt/src/nibble.zig`)

The nibbles of a byte string are read two to a byte.  A path of even length is
packed behind a flag byte; one of odd length puts its first nibble into the
flag byte.  A decoded path ends on a byte boundary, so its tail can be compared
bytewise where the key is aligned with it.
-/

set_option autoImplicit false

namespace EvmZig.Mpt

open Zig

variable {high low nibble : UInt8} {out encoded : Slice} {rest : List UInt8} {self : CompactPath}
  {depth : Nat}

/-! ## Nibbles of a byte string -/

/-- The nibbles of a byte string, the high one of each byte first. -/
def nibbles : List UInt8 → List UInt8
  | [] => []
  | byte :: bytes => highNibble byte :: lowNibble byte :: nibbles bytes

/-- Two nibbles to a byte; a last single nibble is dropped. -/
def pack : List UInt8 → List UInt8
  | high :: low :: rest => ((high <<< 4) ||| low) :: pack rest
  | _ => []

@[simp] theorem nibbles_length (bytes : List UInt8) :
    (nibbles bytes).length = bytes.length * 2 := by
  induction bytes with
  | nil => rfl
  | cons byte bytes ih =>
      rw [nibbles, List.length_cons, List.length_cons, ih, List.length_cons]
      omega

theorem highNibble_toNat (byte : UInt8) : (highNibble byte).toNat = byte.toNat / 16 := by
  rw [highNibble, UInt8.toNat_shiftRight]
  exact Nat.shiftRight_eq_div_pow byte.toNat 4

theorem lowNibble_toNat (byte : UInt8) : (lowNibble byte).toNat = byte.toNat % 16 := by
  rw [lowNibble, UInt8.toNat_and]
  exact Nat.and_two_pow_sub_one_eq_mod byte.toNat 4

theorem joined_toNat (highSmall : high.toNat < 16) (lowSmall : low.toNat < 16) :
    ((high <<< 4) ||| low).toNat = high.toNat * 16 + low.toNat := by
  have shifted : (high <<< 4).toNat = high.toNat <<< 4 := by
    rw [UInt8.toNat_shiftLeft]
    apply Nat.mod_eq_of_lt
    rw [Nat.shiftLeft_eq]
    exact Nat.mul_lt_mul_of_pos_right highSmall (by decide)
  rw [UInt8.toNat_or, shifted, ← Nat.shiftLeft_add_eq_or_of_lt (by simpa using lowSmall),
    Nat.shiftLeft_eq]

theorem highNibble_joined (highSmall : high.toNat < 16) (lowSmall : low.toNat < 16) :
    highNibble ((high <<< 4) ||| low) = high := by
  apply UInt8.toNat_inj.mp
  rw [highNibble_toNat, joined_toNat highSmall lowSmall]
  omega

theorem lowNibble_joined (highSmall : high.toNat < 16) (lowSmall : low.toNat < 16) :
    lowNibble ((high <<< 4) ||| low) = low := by
  apply UInt8.toNat_inj.mp
  rw [lowNibble_toNat, joined_toNat highSmall lowSmall]
  omega

theorem highNibble_lt (byte : UInt8) : (highNibble byte).toNat < 16 := by
  have bound := byte.toNat_lt
  rw [highNibble_toNat]
  omega

theorem lowNibble_lt (byte : UInt8) : (lowNibble byte).toNat < 16 := by
  rw [lowNibble_toNat]
  omega

theorem joined_nibbles (byte : UInt8) : (highNibble byte <<< 4) ||| lowNibble byte = byte := by
  apply UInt8.toNat_inj.mp
  rw [joined_toNat (highNibble_lt byte) (lowNibble_lt byte), highNibble_toNat, lowNibble_toNat]
  omega

theorem nibbles_lt {bytes : List UInt8} (member : nibble ∈ nibbles bytes) : nibble.toNat < 16 := by
  induction bytes with
  | nil => cases member
  | cons byte bytes ih =>
      rcases List.mem_cons.mp member with rfl | rest
      · exact highNibble_lt byte
      · rcases List.mem_cons.mp rest with rfl | rest
        · exact lowNibble_lt byte
        · exact ih rest

theorem pack_nibbles (bytes : List UInt8) : pack (nibbles bytes) = bytes := by
  induction bytes with
  | nil => rfl
  | cons byte bytes ih => rw [nibbles, pack, joined_nibbles, ih]

theorem nibbles_pack (path : List UInt8) (small : ∀ nibble ∈ path, nibble.toNat < 16)
    (even : path.length % 2 = 0) : nibbles (pack path) = path := by
  fun_induction pack path with
  | case1 high low rest ih =>
      have highSmall := small high List.mem_cons_self
      have lowSmall := small low (List.mem_cons_of_mem _ List.mem_cons_self)
      have smallRest : ∀ nibble ∈ rest, nibble.toNat < 16 := fun nibble member =>
        small nibble (List.mem_cons_of_mem _ (List.mem_cons_of_mem _ member))
      have evenRest : rest.length % 2 = 0 := by
        simp only [List.length_cons] at even
        omega
      rw [nibbles, highNibble_joined highSmall lowSmall, lowNibble_joined highSmall lowSmall,
        ih smallRest evenRest]
  | case2 path short =>
      match path, short with
      | [], _ => rfl
      | [_], _ => simp at even
      | high :: low :: rest, short => exact absurd rfl (short high low rest)

@[simp] theorem pack_length (path : List UInt8) : (pack path).length = path.length / 2 := by
  fun_induction pack path with
  | case1 high low rest ih =>
      rw [List.length_cons, ih, List.length_cons, List.length_cons]
      omega
  | case2 path short =>
      match path, short with
      | [], _ => rfl
      | [_], _ => simp
      | high :: low :: rest, short => exact absurd rfl (short high low rest)

theorem nibbles_drop (bytes : List UInt8) (count : Nat) :
    (nibbles bytes).drop (count * 2) = nibbles (bytes.drop count) := by
  induction count generalizing bytes with
  | zero => simp
  | succ count ih =>
      cases bytes with
      | nil => simp [nibbles]
      | cons byte bytes =>
          rw [Nat.succ_mul, nibbles, List.drop_succ_cons, List.drop_succ_cons, List.drop_succ_cons]
          exact ih bytes

theorem nibbles_take (bytes : List UInt8) (count : Nat) :
    (nibbles bytes).take (count * 2) = nibbles (bytes.take count) := by
  induction count generalizing bytes with
  | zero => simp [nibbles]
  | succ count ih =>
      cases bytes with
      | nil => simp [nibbles]
      | cons byte bytes =>
          rw [Nat.succ_mul, nibbles, List.take_succ_cons, List.take_succ_cons,
            List.take_succ_cons, nibbles, ih]

theorem nibbles_inj {left right : List UInt8} (same : nibbles left = nibbles right) :
    left = right := by
  rw [← pack_nibbles left, same, pack_nibbles]

/-- `keyNibbleAt` reads the nibble sequence of the key. -/
theorem keyNibbleAt_eq (key : Slice) (index : Nat) :
    keyNibbleAt key index = (nibbles key.bytes)[index]? := by
  rw [keyNibbleAt, Slice.byteAt]
  generalize key.bytes = bytes
  induction bytes generalizing index with
  | nil => rfl
  | cons byte bytes ih =>
      rcases index with _ | _ | index
      · rfl
      · rfl
      · have half : (index + 2) / 2 = index / 2 + 1 := by omega
        have parity : (index + 2) % 2 = index % 2 := by omega
        rw [half, parity, List.getElem?_cons_succ, nibbles, List.getElem?_cons_succ,
          List.getElem?_cons_succ]
        exact ih index

/-! ## Paths and their encoding -/

/-- A window of `len` nibbles into `key`, beginning at nibble `start`. -/
structure Path where
  key : Slice
  start : Nat
  len : Nat
  inside : start + len ≤ keyNibbleLen key
  deriving DecidableEq, Repr

namespace Path

def nibbleAt (self : Path) (index : Nat) : Option UInt8 := do
  assert (index < self.len)
  keyNibbleAt self.key (self.start + index)

def nibbles (self : Path) : List UInt8 :=
  ((Mpt.nibbles self.key.bytes).drop self.start).take self.len

@[simp] theorem nibbles_length (self : Path) : self.nibbles.length = self.len := by
  have inside := self.inside
  rw [keyNibbleLen, Slice.len] at inside
  rw [nibbles, List.length_take, List.length_drop, Mpt.nibbles_length]
  omega

theorem nibbleAt_eq (self : Path) (index : Nat) : self.nibbleAt index = self.nibbles[index]? := by
  rw [nibbleAt, nibbles]
  by_cases inside : index < self.len
  · rw [assert_true inside, List.getElem?_take_of_lt inside, List.getElem?_drop,
      ← keyNibbleAt_eq]
    rfl
  · rw [List.getElem?_take_eq_none (Nat.le_of_not_lt inside), assert, if_neg inside]
    rfl

theorem nibbles_lt (self : Path) (member : nibble ∈ self.nibbles) : nibble.toNat < 16 :=
  Mpt.nibbles_lt (List.mem_of_mem_drop (List.mem_of_mem_take member))

end Path

inductive EncodeCompactError
  | bufferTooSmall
  deriving DecidableEq, Repr

def compactLen (pathLen : Nat) : Nat := 1 + pathLen / 2

/-- `out[index] = byte`. -/
def setByte (out : Slice) (index : Nat) (byte : UInt8) : Option Slice :=
  if index < out.len then
    some ⟨out.bytes.set index byte, by rw [List.length_set]; exact out.fits⟩
  else none

theorem setByte_eq {index : Nat} (inside : index < out.len) (byte : UInt8) :
    ∃ result, setByte out index byte = some result ∧ result.bytes = out.bytes.set index byte :=
  ⟨_, if_pos inside, rfl⟩

/-- The loop that packs the nibbles from `pathIndex` on. -/
def packFrom (path : Path) (out : Slice) (pathIndex outIndex : Nat) : Option Slice :=
  if pathIndex < path.len then do
    let high ← path.nibbleAt pathIndex
    let low ← path.nibbleAt (pathIndex + 1)
    let out ← setByte out outIndex ((high <<< 4) ||| low)
    packFrom path out (pathIndex + 2) (outIndex + 1)
  else some out
  termination_by path.len - pathIndex

/-- The flag nibble of a path. -/
def compactFlags (terminal odd : Bool) : UInt8 :=
  (UInt8.ofNat terminal.toNat <<< 1) ||| UInt8.ofNat odd.toNat

def encodeCompact (out : Slice) (path : Path) (terminal : Bool) :
    Checked EncodeCompactError Slice :=
  let encodedLen := compactLen path.len
  if out.len < encodedLen then .fail .bufferTooSmall
  else .ofOption (do
    let odd := decide (path.len % 2 = 1)
    let first := compactFlags terminal odd <<< 4
    let out ← setByte out 0 first
    if odd then
      let out ← setByte out 0 (first ||| (← path.nibbleAt 0))
      let out ← packFrom path out 1 1
      out.sub 0 encodedLen
    else
      let out ← packFrom path out 0 1
      out.sub 0 encodedLen)

/-- The bytes of an encoded path. -/
def compactBytes (terminal : Bool) (path : List UInt8) : List UInt8 :=
  match path with
  | nibble :: rest =>
      if path.length % 2 = 1 then ((compactFlags terminal true <<< 4) ||| nibble) :: pack rest
      else (compactFlags terminal false <<< 4) :: pack path
  | [] => [compactFlags terminal false <<< 4]

theorem compactBytes_length (terminal : Bool) (path : List UInt8) :
    (compactBytes terminal path).length = compactLen path.length := by
  unfold compactBytes compactLen
  split
  · next nibble rest =>
      split
      · next odd =>
          rw [List.length_cons, pack_length, List.length_cons]
          rw [List.length_cons] at odd
          omega
      · rw [List.length_cons, pack_length]
        omega
  · rfl

/-- Packing writes the packed nibbles in place, right after what is there. -/
theorem packFrom_eq {path : Path} {out : Slice} {pathIndex outIndex : Nat} {written : List UInt8}
    {rest : List UInt8} (bytes : out.bytes = written ++ rest)
    (place : written.length = outIndex) (even : (path.len - pathIndex) % 2 = 0)
    (room : (path.len - pathIndex) / 2 ≤ rest.length) :
    ∃ result, packFrom path out pathIndex outIndex = some result ∧
      result.bytes = written ++ pack (path.nibbles.drop pathIndex) ++
        rest.drop ((path.len - pathIndex) / 2) := by
  fun_induction packFrom path out pathIndex outIndex generalizing written rest with
  | case1 out pathIndex outIndex more ih =>
      have second : pathIndex + 1 < path.len := by omega
      have firstIn : pathIndex < path.nibbles.length := by rwa [Path.nibbles_length]
      have secondIn : pathIndex + 1 < path.nibbles.length := by rwa [Path.nibbles_length]
      have front : path.nibbles.drop pathIndex = path.nibbles[pathIndex] ::
          path.nibbles[pathIndex + 1] :: path.nibbles.drop (pathIndex + 2) := by
        rw [List.drop_eq_getElem_cons firstIn, List.drop_eq_getElem_cons secondIn]
      have halves : (path.len - pathIndex) / 2 = (path.len - (pathIndex + 2)) / 2 + 1 := by omega
      cases rest with
      | nil => simp at room; omega
      | cons old rest =>
          have here : outIndex < out.len := by
            rw [Slice.len, bytes, List.length_append, List.length_cons]
            omega
          have set := setByte_eq here
            ((path.nibbles[pathIndex] <<< 4) ||| path.nibbles[pathIndex + 1])
          obtain ⟨next, setEq, nextBytes⟩ := set
          rw [List.length_cons, halves] at room
          obtain ⟨result, ran, resultEq⟩ := @ih next
            (written ++ [(path.nibbles[pathIndex] <<< 4) ||| path.nibbles[pathIndex + 1]]) rest
            (by
              rw [nextBytes, bytes, ← place, List.set_append_right _ _ (Nat.le_refl _),
                Nat.sub_self, List.set_cons_zero, List.append_assoc]
              rfl)
            (by rw [List.length_append, place]; rfl) (by omega) (by omega)
          refine ⟨result, ?_, ?_⟩
          · rw [Path.nibbleAt_eq, Path.nibbleAt_eq,
              List.getElem?_eq_getElem firstIn, List.getElem?_eq_getElem secondIn]
            simp only [Option.bind_eq_bind, Option.bind_some, setEq]
            exact ran
          · rw [resultEq, front, pack, halves, List.drop_succ_cons]
            simp only [List.append_assoc, List.cons_append, List.nil_append]
  | case2 out pathIndex outIndex done =>
      have none : path.len - pathIndex = 0 := by omega
      have emptied : path.nibbles.drop pathIndex = [] := by
        apply List.drop_eq_nil_of_le
        rw [Path.nibbles_length]
        omega
      refine ⟨out, rfl, ?_⟩
      rw [none, emptied, bytes]
      simp [pack]

theorem sub_front {front : List UInt8} (bytes : out.bytes = front ++ rest) :
    ∃ result, out.sub 0 front.length = some result ∧ result.bytes = front := by
  have inside : front.length ≤ out.len := by
    rw [Slice.len, bytes, List.length_append]
    omega
  refine ⟨_, Slice.sub_eq out (Nat.zero_le _) inside, ?_⟩
  simp [Slice.window, bytes]

/-- A buffer with room receives the encoded bytes. -/
theorem encodeCompact_eq {path : Path} (terminal : Bool) (room : compactLen path.len ≤ out.len) :
    ∃ encoded, encodeCompact out path terminal = .ok encoded ∧
      encoded.bytes = compactBytes terminal path.nibbles := by
  have width := compactBytes_length terminal path.nibbles
  rw [Path.nibbles_length] at width
  have enough := room
  rw [compactLen] at room
  obtain ⟨old, rest, outEq⟩ : ∃ old rest, out.bytes = old :: rest := by
    cases held : out.bytes with
    | nil => rw [Slice.len, held] at room; simp at room
    | cons old rest => exact ⟨old, rest, rfl⟩
  have restLen : path.len / 2 ≤ rest.length := by
    rw [Slice.len, outEq, List.length_cons] at room
    omega
  have nonempty : 0 < out.len := by omega
  rw [encodeCompact]
  dsimp only
  rw [if_neg (Nat.not_lt.mpr enough), ← width]
  obtain ⟨first, firstEq, firstBytes⟩ :=
    setByte_eq nonempty (compactFlags terminal (decide (path.len % 2 = 1)) <<< 4)
  simp only [Option.bind_eq_bind, firstEq, Option.bind_some, decide_eq_true_eq]
  by_cases odd : path.len % 2 = 1
  · obtain ⟨nibble, tail, pathEq⟩ : ∃ nibble tail, path.nibbles = nibble :: tail := by
      cases held : path.nibbles with
      | nil =>
          have zero := path.nibbles_length
          rw [held] at zero
          rw [← zero] at odd
          simp at odd
      | cons nibble tail => exact ⟨nibble, tail, rfl⟩
    have nibbleEq : path.nibbleAt 0 = some nibble := by
      rw [Path.nibbleAt_eq, pathEq]
      rfl
    have firstLen : 0 < first.len := by
      rw [Slice.len, firstBytes, List.length_set]
      exact nonempty
    obtain ⟨second, secondEq, secondBytes⟩ :=
      setByte_eq firstLen (compactFlags terminal true <<< 4 ||| nibble)
    obtain ⟨packed, packedEq, packedBytes⟩ := @packFrom_eq path second 1 1
      [compactFlags terminal true <<< 4 ||| nibble] rest
      (by rw [secondBytes, firstBytes, outEq]; rfl) rfl (by omega) (by omega)
    have front : packed.bytes = compactBytes terminal path.nibbles ++
        rest.drop ((path.len - 1) / 2) := by
      have oddNibbles : (nibble :: tail).length % 2 = 1 := by
        rw [← pathEq, Path.nibbles_length]
        exact odd
      rw [packedBytes, pathEq, compactBytes, if_pos oddNibbles]
      rfl
    obtain ⟨encoded, encodedEq, encodedBytes⟩ := sub_front front
    refine ⟨encoded, ?_, encodedBytes⟩
    rw [if_pos odd, nibbleEq]
    simp only [decide_true, odd, Option.bind_some, secondEq, packedEq, encodedEq]
    rfl
  · obtain ⟨packed, packedEq, packedBytes⟩ := @packFrom_eq path first 0 1
      [compactFlags terminal (decide (path.len % 2 = 1)) <<< 4] rest
      (by rw [firstBytes, outEq]; rfl) rfl (by omega) (by omega)
    have front : packed.bytes = compactBytes terminal path.nibbles ++
        rest.drop ((path.len - 0) / 2) := by
      have evenNibbles : ¬ path.nibbles.length % 2 = 1 := by rwa [Path.nibbles_length]
      rw [packedBytes, decide_eq_false odd, List.drop_zero]
      generalize path.nibbles = held at evenNibbles
      cases held with
      | nil => rfl
      | cons nibble tail => rw [compactBytes, if_neg evenNibbles]; rfl
    obtain ⟨encoded, encodedEq, encodedBytes⟩ := sub_front front
    refine ⟨encoded, ?_, encodedBytes⟩
    rw [if_neg odd, packedEq]
    simp only [Option.bind_some, encodedEq]
    rfl

/-! ## Decoding -/

/-- The nibbles of a decoded path. -/
def CompactPath.nibbles (self : CompactPath) : List UInt8 :=
  (Mpt.nibbles self.encoded.bytes).drop self.nibbleOffset

theorem compactFlags_toNat (terminal odd : Bool) :
    (compactFlags terminal odd).toNat = terminal.toNat * 2 + odd.toNat := by
  cases terminal <;> cases odd <;> rfl

theorem nibbleLen_le {first : UInt8} (bytes : encoded.bytes = first :: rest) :
    2 ≤ encoded.len * 2 := by
  rw [Slice.len, bytes, List.length_cons]
  omega

/-- What the decoder makes of a flag byte. -/
theorem decode_cons {terminal odd : Bool}
    (bytes : encoded.bytes = ((compactFlags terminal odd <<< 4) ||| nibble) :: rest)
    (small : nibble.toNat < 16) (padded : odd = false → nibble = 0)
    (fits : encoded.len * 2 ≤ usizeMax) :
    CompactPath.decode encoded = .ok ⟨encoded, if odd then 1 else 2,
      encoded.len * 2 - (if odd then 1 else 2), terminal⟩ := by
  have flagsSmall : (compactFlags terminal odd).toNat < 16 := by
    rw [compactFlags_toNat]
    cases terminal <;> cases odd <;> decide
  have doubled : mulChecked 64 encoded.len 2 = some (encoded.len * 2) :=
    mulChecked_eq (Nat.lt_of_le_of_lt fits (by decide))
  have atLeast := nibbleLen_le bytes
  rw [CompactPath.decode]
  split
  · next empty => rw [bytes] at empty; cases empty
  · next first tail firstEq =>
      rw [bytes, List.cons.injEq] at firstEq
      obtain ⟨rfl, -⟩ := firstEq
      rw [highNibble_joined flagsSmall small, lowNibble_joined flagsSmall small]
      have inRange : ¬ 3 < compactFlags terminal odd := by
        cases terminal <;> cases odd <;> decide
      have oddBit : (compactFlags terminal odd &&& 1 ≠ 0) = (odd = true) := by
        cases terminal <;> cases odd <;> decide
      have terminalBit : decide (compactFlags terminal odd &&& 2 ≠ 0) = terminal := by
        cases terminal <;> cases odd <;> decide
      have padding : ¬ (¬ odd = true ∧ nibble ≠ 0) := by
        intro bad
        exact bad.2 (padded (Bool.eq_false_iff.mpr bad.1))
      have less : subUsize (encoded.len * 2) (if odd = true then 1 else 2) =
          some (encoded.len * 2 - if odd = true then 1 else 2) :=
        subUsize_eq (by split <;> omega)
      dsimp only
      simp only [if_neg inRange, oddBit, terminalBit, if_neg padding, doubled,
        Option.bind_eq_bind, Option.bind_some, less]
      rfl

/-- Decoding gives back path and flag of every encoded path, unless the doubled
length of the encoding overflows. -/
theorem decode_compactBytes {terminal : Bool} {path : List UInt8}
    (bytes : encoded.bytes = compactBytes terminal path)
    (small : ∀ nibble ∈ path, nibble.toNat < 16) (fits : encoded.len * 2 ≤ usizeMax) :
    ∃ decoded, CompactPath.decode encoded = .ok decoded ∧ decoded.nibbles = path ∧
      decoded.len = path.length ∧ decoded.terminal = terminal := by
  have width : encoded.len = compactLen path.length := by
    rw [Slice.len, bytes, compactBytes_length]
  rw [compactLen] at width
  have zero : ∀ flags : UInt8, flags <<< 4 = (flags <<< 4) ||| 0 := fun flags => by simp
  have flagsSmall : ∀ odd, (compactFlags terminal odd).toNat < 16 := fun odd => by
    rw [compactFlags_toNat]
    cases terminal <;> cases odd <;> decide
  cases path with
  | nil =>
      rw [compactBytes, zero] at bytes
      refine ⟨_, decode_cons bytes (by decide) (fun _ => rfl) fits, ?_, ?_, rfl⟩
      · rw [CompactPath.nibbles]
        dsimp only
        rw [bytes]
        rfl
      · rw [width]
        rfl
  | cons nibble tail =>
      rw [compactBytes] at bytes
      split at bytes
      · next odd =>
          have nibbleSmall := small nibble List.mem_cons_self
          refine ⟨_, decode_cons bytes nibbleSmall (fun contradiction => by cases contradiction) fits,
            ?_, ?_, rfl⟩
          · rw [List.length_cons] at odd
            rw [CompactPath.nibbles]
            dsimp only
            rw [bytes, nibbles, highNibble_joined (flagsSmall true) nibbleSmall,
              lowNibble_joined (flagsSmall true) nibbleSmall,
              nibbles_pack tail (fun other member => small other (List.mem_cons_of_mem _ member))
                (by omega)]
            rfl
          · dsimp only
            rw [List.length_cons] at odd width ⊢
            rw [width, if_pos rfl]
            omega
      · next even =>
          rw [zero] at bytes
          refine ⟨_, decode_cons bytes (by decide) (fun _ => rfl) fits, ?_, ?_, rfl⟩
          · rw [CompactPath.nibbles]
            dsimp only
            rw [bytes, nibbles, nibbles_pack (nibble :: tail) small (by omega)]
            rfl
          · dsimp only
            rw [List.length_cons] at even width ⊢
            rw [width, if_neg Bool.false_ne_true]
            omega

theorem compactFlags_of_bits {flags : UInt8} (inRange : ¬ 3 < flags) :
    compactFlags (decide (flags &&& 2 ≠ 0)) (decide (flags &&& 1 ≠ 0)) = flags := by
  have small : flags.toNat ≤ 3 := UInt8.le_iff_toNat_le.mp (UInt8.not_lt.mp inRange)
  have cases4 : flags = 0 ∨ flags = 1 ∨ flags = 2 ∨ flags = 3 := by
    simp only [← UInt8.toNat_inj]
    have zero : (0 : UInt8).toNat = 0 := rfl
    have one : (1 : UInt8).toNat = 1 := rfl
    have two : (2 : UInt8).toNat = 2 := rfl
    have three : (3 : UInt8).toNat = 3 := rfl
    omega
  rcases cases4 with rfl | rfl | rfl | rfl <;> rfl

/-- Everything about a path that the decoder accepts. -/
structure CompactPath.Decoded (encoded : Slice) (path : CompactPath) : Prop where
  encodedEq : path.encoded = encoded
  offset : path.nibbleOffset = if path.len % 2 = 1 then 1 else 2
  len : path.len + path.nibbleOffset = encoded.len * 2
  canonical : compactBytes path.terminal path.nibbles = encoded.bytes

theorem CompactPath.decoded (accepted : CompactPath.decode encoded = .ok self) :
    self.Decoded encoded := by
  rw [CompactPath.decode] at accepted
  split at accepted
  · cases accepted
  · next first rest bytes =>
      have atLeast := nibbleLen_le bytes
      dsimp only at accepted
      split at accepted
      · cases accepted
      · next inRange =>
          have flags := compactFlags_of_bits inRange
          split at accepted
          · cases accepted
          · next padding =>
              rw [mulChecked] at accepted
              split at accepted
              · simp only [Option.bind_eq_bind, Option.bind_some] at accepted
                by_cases odd : highNibble first &&& 1 ≠ 0
                · have less : subUsize (encoded.len * 2) 1 = some (encoded.len * 2 - 1) :=
                    subUsize_eq (by omega)
                  simp only [if_pos odd, less, Option.bind_some] at accepted
                  obtain rfl := Checked.ok.inj accepted
                  rw [decide_eq_true odd] at flags
                  refine ⟨rfl, ?_, ?_, ?_⟩
                  · dsimp only
                    rw [if_pos (by omega)]
                  · dsimp only
                    omega
                  · rw [CompactPath.nibbles]
                    dsimp only
                    rw [bytes, Mpt.nibbles, List.drop_succ_cons, List.drop_zero, compactBytes, if_pos
                      (by rw [List.length_cons, nibbles_length]; omega), flags, pack_nibbles,
                      joined_nibbles]
                · have lowZero : lowNibble first = 0 := by
                    by_contra nonzero
                    exact padding ⟨odd, nonzero⟩
                  simp only [if_neg odd, subUsize_eq atLeast, Option.bind_some] at accepted
                  obtain rfl := Checked.ok.inj accepted
                  rw [decide_eq_false odd] at flags
                  have firstEq : compactFlags (decide (highNibble first &&& 2 ≠ 0)) false <<< 4 =
                      first := by
                    have joined := joined_nibbles first
                    rw [lowZero, UInt8.or_zero] at joined
                    rw [flags, joined]
                  refine ⟨rfl, ?_, ?_, ?_⟩
                  · dsimp only
                    rw [if_neg (by omega)]
                  · dsimp only
                    omega
                  · rw [CompactPath.nibbles]
                    dsimp only
                    rw [bytes, Mpt.nibbles, List.drop_succ_cons, List.drop_succ_cons, List.drop_zero]
                    cases rest with
                    | nil => rw [Mpt.nibbles, compactBytes, firstEq]
                    | cons second rest =>
                        have even : ¬ (Mpt.nibbles (second :: rest)).length % 2 = 1 := by
                          rw [nibbles_length]
                          omega
                        have packed := pack_nibbles (second :: rest)
                        rw [Mpt.nibbles] at even packed ⊢
                        rw [compactBytes, if_neg even, firstEq, packed]
              · cases accepted

/-! ## Matching a key -/

namespace CompactPath

/-- `matchesKey` without its comparison of whole bytes. -/
def matchesKeyByNibbles (self : CompactPath) (key : Slice) (depth : Nat) : Option Bool :=
  if depth > keyNibbleLen key ∨ self.len > keyNibbleLen key - depth then some false
  else self.matchesNibbles key depth (List.range self.len)

theorem nibbleAt_eq (self : CompactPath) (index : Nat) :
    self.nibbleAt index = self.nibbles[index]? := by
  rw [nibbleAt, keyNibbleAt_eq, nibbles, List.getElem?_drop]

theorem matchesNibbles_eq {key : Slice} {start count : Nat}
    (width : start + count = self.nibbles.length)
    (inside : depth + self.nibbles.length ≤ (Mpt.nibbles key.bytes).length) :
    self.matchesNibbles key depth (List.range' start count) =
      some (decide (self.nibbles.drop start =
        ((Mpt.nibbles key.bytes).drop (depth + start)).take count)) := by
  induction count generalizing start with
  | zero =>
      have empty : self.nibbles.drop start = [] := List.drop_eq_nil_of_le (by omega)
      simp [matchesNibbles, empty]
  | succ count ih =>
      have mineIn : start < self.nibbles.length := by omega
      have theirsIn : depth + start < (Mpt.nibbles key.bytes).length := by omega
      rw [List.range'_succ, matchesNibbles, nibbleAt_eq, keyNibbleAt_eq,
        List.getElem?_eq_getElem mineIn, List.getElem?_eq_getElem theirsIn,
        List.drop_eq_getElem_cons mineIn, List.drop_eq_getElem_cons theirsIn, List.take_succ_cons]
      simp only [Option.bind_eq_bind, Option.bind_some]
      split
      · next differs =>
          rw [decide_eq_false fun same => differs (List.cons.inj same).1]
          rfl
      · next same =>
          rw [ih (by omega), not_not.mp same, Nat.add_assoc]
          simp

/-- The bytes behind the flag byte against the bytes of the key. -/
theorem matchesTail_eq {key : Slice} {first : UInt8} (bytes : self.encoded.bytes = first :: rest)
    (inside : depth / 2 + depth % 2 + rest.length ≤ key.bytes.length) : self.matchesTail key depth =
      some (decide (rest = (key.bytes.drop (depth / 2 + depth % 2)).take rest.length)) := by
  have width : self.encoded.len = rest.length + 1 := by
    rw [Slice.len, bytes, List.length_cons]
  have tail : self.encoded.sub 1 self.encoded.len = some (self.encoded.window 1 self.encoded.len) :=
    Slice.sub_eq _ (by omega) (Nat.le_refl _)
  have tailBytes : (self.encoded.window 1 self.encoded.len).bytes = rest := by
    simp [Slice.window, Slice.len, bytes]
  have behind : key.sub (depth / 2 + depth % 2) key.len =
      some (key.window (depth / 2 + depth % 2) key.len) :=
    Slice.sub_eq _ (by rw [Slice.len]; omega) (Nat.le_refl _)
  have behindBytes : (key.window (depth / 2 + depth % 2) key.len).bytes =
      key.bytes.drop (depth / 2 + depth % 2) := by
    simp [Slice.window, Slice.len]
  have tailLen : (self.encoded.window 1 self.encoded.len).len = rest.length := by
    rw [Slice.len, tailBytes]
  have front : (key.window (depth / 2 + depth % 2) key.len).sub 0 rest.length =
      some ((key.window (depth / 2 + depth % 2) key.len).window 0 rest.length) := by
    apply Slice.sub_eq _ (Nat.zero_le _)
    rw [Slice.len, behindBytes, List.length_drop]
    omega
  rw [matchesTail, tail]
  simp only [Option.bind_eq_bind, Option.bind_some, behind, tailLen, front, tailBytes]
  have frontBytes : ((key.window (depth / 2 + depth % 2) key.len).window 0 rest.length).bytes =
      (key.bytes.drop (depth / 2 + depth % 2)).take rest.length := by
    rw [← behindBytes]
    rfl
  rw [frontBytes]
  rfl

/-- With an even depth a path of even length starts on a byte of the key. -/
theorem aligned_even {keyBytes : List UInt8} (even : depth % 2 = 0) :
    rest = (keyBytes.drop (depth / 2 + depth % 2)).take rest.length ↔
      Mpt.nibbles rest =
        ((Mpt.nibbles keyBytes).drop depth).take (Mpt.nibbles rest).length := by
  have split : depth = depth / 2 * 2 := by omega
  conv_rhs => rw [split, nibbles_drop, nibbles_length, nibbles_take]
  rw [even, Nat.add_zero]
  exact ⟨congrArg Mpt.nibbles, nibbles_inj⟩

/-- With an odd depth the first nibble is compared on its own. -/
theorem aligned_odd {rest keyBytes : List UInt8} {depth : Nat} {mine theirs : UInt8}
    (odd : depth % 2 = 1) (held : keyBytes[depth / 2]? = some theirs) :
    (lowNibble mine = lowNibble theirs ∧
        rest = (keyBytes.drop (depth / 2 + depth % 2)).take rest.length) ↔
      lowNibble mine :: Mpt.nibbles rest =
        ((Mpt.nibbles keyBytes).drop depth).take (lowNibble mine :: Mpt.nibbles rest).length := by
  obtain ⟨inside, rfl⟩ := List.getElem?_eq_some_iff.mp held
  have split : depth = depth / 2 * 2 + 1 := by omega
  have next : depth / 2 + depth % 2 = depth / 2 + 1 := by omega
  conv_rhs =>
    rw [split, ← List.drop_drop, nibbles_drop, List.drop_eq_getElem_cons inside, Mpt.nibbles,
      List.drop_succ_cons, List.drop_zero, List.length_cons, List.take_succ_cons, nibbles_length,
      nibbles_take, List.cons.injEq]
  rw [next]
  exact and_congr_right fun _ => ⟨congrArg Mpt.nibbles, nibbles_inj⟩

/-- A decoded path matches just the keys that continue with its nibbles. -/
theorem matchesKey_eq (shape : self.Decoded encoded) (key : Slice) (depth : Nat) :
    self.matchesKey key depth =
      some (decide (depth + self.len ≤ keyNibbleLen key ∧
        self.nibbles = ((Mpt.nibbles key.bytes).drop depth).take self.len)) := by
  have offsetEq := shape.offset
  have lenEq := shape.len
  have nonempty : ∃ first rest, self.encoded.bytes = first :: rest := by
    cases bytes : self.encoded.bytes with
    | nil =>
        rw [shape.encodedEq] at bytes
        rw [Slice.len, bytes] at lenEq
        simp only [List.length_nil] at lenEq
        rw [offsetEq] at lenEq
        split at lenEq <;> omega
    | cons first rest => exact ⟨first, rest, rfl⟩
  obtain ⟨first, rest, bytes⟩ := nonempty
  have nibblesLen : self.nibbles.length = self.len := by
    rw [nibbles, List.length_drop, Mpt.nibbles_length, shape.encodedEq, ← Slice.len]
    omega
  have encodedLen : encoded.len = rest.length + 1 := by
    rw [← shape.encodedEq, Slice.len, bytes, List.length_cons]
  rw [matchesKey]
  by_cases fits : depth + self.len ≤ keyNibbleLen key
  · rw [if_neg (by omega)]
    simp only [fits, true_and]
    rw [keyNibbleLen, Slice.len] at fits
    by_cases aligned : self.nibbleOffset % 2 = depth % 2
    · rw [if_pos aligned]
      by_cases odd : depth % 2 = 0
      · have offset : self.nibbleOffset = 2 := by
          rw [offsetEq] at aligned ⊢
          split <;> split at aligned <;> omega
        have nibblesEq : self.nibbles = Mpt.nibbles rest := by
          rw [nibbles, bytes, offset]
          rfl
        rw [if_neg (not_not.mpr odd), matchesTail_eq bytes (by omega), ← nibblesLen, nibblesEq]
        exact congrArg some (decide_eq_decide.mpr (aligned_even odd))
      · have offset : self.nibbleOffset = 1 := by
          rw [offsetEq] at aligned ⊢
          split <;> split at aligned <;> omega
        have nibblesEq : self.nibbles = lowNibble first :: Mpt.nibbles rest := by
          rw [nibbles, bytes, offset]
          rfl
        have mineEq : self.encoded.byteAt 0 = some first := by
          rw [Slice.byteAt, bytes]
          rfl
        have theirsIn : depth / 2 < key.bytes.length := by omega
        have theirsEq : key.byteAt (depth / 2) = some key.bytes[depth / 2] :=
          List.getElem?_eq_getElem theirsIn
        have exact := @aligned_odd rest key.bytes depth first key.bytes[depth / 2] (by omega)
          (List.getElem?_eq_getElem theirsIn)
        rw [if_pos odd, mineEq, theirsEq, ← nibblesLen, nibblesEq]
        simp only [Option.bind_eq_bind, Option.bind_some]
        split
        · next differs =>
            rw [decide_eq_false fun same => differs (exact.mpr same).1]
            rfl
        · next same =>
            rw [matchesTail_eq bytes (by omega)]
            refine congrArg some (decide_eq_decide.mpr ?_)
            rw [← exact]
            exact (and_iff_right (not_not.mp same)).symm
    · rw [if_neg aligned, List.range_eq_range',
        matchesNibbles_eq (by omega) (by rw [Mpt.nibbles_length]; omega), List.drop_zero,
        Nat.add_zero]
  · rw [if_pos (by omega), decide_eq_false fun both => fits both.1]

theorem matchesKeyByNibbles_eq (shape : self.Decoded encoded) (key : Slice) (depth : Nat) :
    self.matchesKeyByNibbles key depth =
      some (decide (depth + self.len ≤ keyNibbleLen key ∧
        self.nibbles = ((Mpt.nibbles key.bytes).drop depth).take self.len)) := by
  have lenEq := shape.len
  have nibblesLen : self.nibbles.length = self.len := by
    rw [nibbles, List.length_drop, Mpt.nibbles_length, shape.encodedEq, ← Slice.len]
    omega
  rw [matchesKeyByNibbles]
  by_cases fits : depth + self.len ≤ keyNibbleLen key
  · rw [if_neg (by omega)]
    simp only [fits, true_and]
    rw [keyNibbleLen, Slice.len] at fits
    rw [List.range_eq_range', matchesNibbles_eq (by omega) (by rw [Mpt.nibbles_length]; omega),
      List.drop_zero, Nat.add_zero]
  · rw [if_pos (by omega), decide_eq_false fun both => fits both.1]

end CompactPath

/-- Compact paths round trip in both directions, and the bytewise fast path of
`matchesKey` answers as the nibble loop does. An encoding of more than half the
address space is left to trap in the decoder. -/
theorem compactPath_exact :
    (∀ (out : Slice) (path : Path) (terminal : Bool), compactLen path.len ≤ out.len →
      ∃ encoded, encodeCompact out path terminal = .ok encoded ∧
        (usizeMax < encoded.len * 2 ∨
          ∃ decoded, CompactPath.decode encoded = .ok decoded ∧ decoded.nibbles = path.nibbles ∧
            decoded.len = path.len ∧ decoded.terminal = terminal)) ∧
    (∀ encoded decoded, CompactPath.decode encoded = .ok decoded →
      ∀ (out : Slice) (path : Path), path.nibbles = decoded.nibbles →
        compactLen path.len ≤ out.len →
          encodeCompact out path decoded.terminal = .ok encoded) ∧
    (∀ encoded decoded, CompactPath.decode encoded = .ok decoded → ∀ key depth,
      decoded.matchesKey key depth = decoded.matchesKeyByNibbles key depth ∧
        decoded.matchesKey key depth =
          some (decide (depth + decoded.len ≤ keyNibbleLen key ∧
            decoded.nibbles = ((nibbles key.bytes).drop depth).take decoded.len))) := by
  refine ⟨?_, ?_, ?_⟩
  · intro out path terminal room
    obtain ⟨encoded, encodedEq, bytes⟩ := encodeCompact_eq terminal room
    refine ⟨encoded, encodedEq, ?_⟩
    by_cases fits : encoded.len * 2 ≤ usizeMax
    · obtain ⟨decoded, decodedEq, nibblesEq, lenEq, terminalEq⟩ :=
        decode_compactBytes bytes (fun _ => path.nibbles_lt) fits
      rw [Path.nibbles_length] at lenEq
      exact .inr ⟨decoded, decodedEq, nibblesEq, lenEq, terminalEq⟩
    · exact .inl (Nat.lt_of_not_le fits)
  · intro encoded decoded accepted out path same room
    obtain ⟨again, againEq, bytes⟩ := encodeCompact_eq decoded.terminal room
    rw [same, (CompactPath.decoded accepted).canonical] at bytes
    rw [againEq, Slice.ext bytes]
  · intro encoded decoded accepted key depth
    have shape := CompactPath.decoded accepted
    rw [CompactPath.matchesKey_eq shape, CompactPath.matchesKeyByNibbles_eq shape]
    exact ⟨rfl, rfl⟩

end EvmZig.Mpt
