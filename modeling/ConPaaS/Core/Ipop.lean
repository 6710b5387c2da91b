import ConPaaS.Lib.Base32

namespace ConPaaS.Ipop

open Base32 (Byte bits digits digit quintet)

/-- A place of the list that is joined in the end, empty until it is written. -/
abbrev Cell := Option Char

/-- Python's assignment to a place of a list, which has to be there. -/
def write (asciiOut : List Cell) (place : Nat) (c : Char) : Option (List Cell) :=
  if place < asciiOut.length then some (asciiOut.set place (some c)) else none

def writeDigit (asciiOut : List Cell) (place idx : Nat) : Option (List Cell) := do
  let c ← Base32.alphabet[idx]?
  write asciiOut place c

/-- `_encode_block`, from the last byte to the first. Each round leaves the bits
of its byte that belong to the character before. -/
def encodeBlock (asciiOut : List Cell) (asciiOff : Nat) (binary : List Byte) (offset blockLength : Nat) :
    Option (List Cell) := do
  let (idx, asciiOut) ← if blockLength ≥ 5 then do
      let byte ← binary[offset + 4]?
      let asciiOut ← writeDigit asciiOut (asciiOff + 7) (byte.val &&& 0x1F)
      some ((byte.val &&& 0xE0) >>> 5, asciiOut)
    else some (0, asciiOut)
  let (idx, asciiOut) ← if blockLength ≥ 4 then do
      let byte ← binary[offset + 3]?
      let asciiOut ← writeDigit asciiOut (asciiOff + 6) (idx ||| (byte.val &&& 0x03) <<< 3)
      let asciiOut ← writeDigit asciiOut (asciiOff + 5) ((byte.val &&& 0x7C) >>> 2)
      some ((byte.val &&& 0x80) >>> 7, asciiOut)
    else some (idx, asciiOut)
  let (idx, asciiOut) ← if blockLength ≥ 3 then do
      let byte ← binary[offset + 2]?
      let asciiOut ← writeDigit asciiOut (asciiOff + 4) (idx ||| (byte.val &&& 0x0F) <<< 1)
      some ((byte.val &&& 0xF0) >>> 4, asciiOut)
    else some (idx, asciiOut)
  let (idx, asciiOut) ← if blockLength ≥ 2 then do
      let byte ← binary[offset + 1]?
      let asciiOut ← writeDigit asciiOut (asciiOff + 3) (idx ||| (byte.val &&& 0x01) <<< 4)
      let asciiOut ← writeDigit asciiOut (asciiOff + 2) ((byte.val &&& 0x3E) >>> 1)
      some ((byte.val &&& 0xC0) >>> 6, asciiOut)
    else some (idx, asciiOut)
  if blockLength ≥ 1 then do
    let byte ← binary[offset]?
    let asciiOut ← writeDigit asciiOut (asciiOff + 1) (idx ||| (byte.val &&& 0x7) <<< 2)
    writeDigit asciiOut asciiOff (byte.val >>> 3)
  else some asciiOut

def padLength (length : Nat) : Nat :=
  if length % 5 = 1 then 6
  else if length % 5 = 2 then 4
  else if length % 5 = 3 then 3
  else if length % 5 = 4 then 1
  else 0

def encLength (length : Nat) (pad : Bool) : Nat :=
  8 * (length / 5) + if padLength length > 0 then (if pad then 8 else 8 - padLength length) else 0

/-- The list that `_to_base32` fills. -/
def encoded (binary : List Byte) (offset length : Nat) (pad : Bool) : Option (List Cell) := do
  let blocks := length / 5
  let cells ← (List.range blocks).foldlM
    (fun cells block => encodeBlock cells (8 * block) binary (offset + 5 * block) 5)
    (List.replicate (encLength length pad) none)
  let cells ← encodeBlock cells (8 * blocks) binary (offset + 5 * blocks) (length % 5)
  if pad then
    (List.range (padLength length)).foldlM (fun cells i => write cells (encLength length pad - i - 1) '=') cells
  else some cells

/-- `_to_base32`: places that are not written are empty texts. -/
def toBase32 (binary : List Byte) (offset length : Nat) (pad : Bool) : Option (List Char) :=
  (encoded binary offset length pad).map (List.filterMap id)

/-- The bits of a byte that the masks and shifts pick. -/
theorem byte_parts (byte : Byte) :
    let bit := byte.val.testBit
    byte.val &&& 0x1F = quintet (bit 4) (bit 3) (bit 2) (bit 1) (bit 0) ∧
    (byte.val &&& 0xE0) >>> 5 = quintet false false (bit 7) (bit 6) (bit 5) ∧
    (byte.val &&& 0x03) <<< 3 = quintet (bit 1) (bit 0) false false false ∧
    (byte.val &&& 0x7C) >>> 2 = quintet (bit 6) (bit 5) (bit 4) (bit 3) (bit 2) ∧
    (byte.val &&& 0x80) >>> 7 = quintet false false false false (bit 7) ∧
    (byte.val &&& 0x0F) <<< 1 = quintet (bit 3) (bit 2) (bit 1) (bit 0) false ∧
    (byte.val &&& 0xF0) >>> 4 = quintet false (bit 7) (bit 6) (bit 5) (bit 4) ∧
    (byte.val &&& 0x01) <<< 4 = quintet (bit 0) false false false false ∧
    (byte.val &&& 0x3E) >>> 1 = quintet (bit 5) (bit 4) (bit 3) (bit 2) (bit 1) ∧
    (byte.val &&& 0xC0) >>> 6 = quintet false false false (bit 7) (bit 6) ∧
    (byte.val &&& 0x7) <<< 2 = quintet (bit 2) (bit 1) (bit 0) false false ∧
    byte.val >>> 3 = quintet (bit 7) (bit 6) (bit 5) (bit 4) (bit 3) := by
  revert byte
  decide +kernel

variable {front cells : List Cell} {place : Nat}

theorem write_append (within : place < cells.length) (c : Char) :
    write (front ++ cells) (front.length + place) c = some (front ++ cells.set place (some c)) := by
  have long : front.length + place < (front ++ cells).length := by
    rw [List.length_append]
    omega
  rw [write, if_pos long, List.set_append_right _ _ (Nat.le_add_right _ _), Nat.add_sub_cancel_left]

theorem writeDigit_append (within : place < cells.length) (a b c d e : Bool) :
    writeDigit (front ++ cells) (front.length + place) (quintet a b c d e) =
      some (front ++ cells.set place (some (digit a b c d e))) := by
  have found : Base32.alphabet[quintet a b c d e]? = some (digit a b c d e) :=
    List.getElem?_eq_getElem (Base32.quintet_lt a b c d e)
  rw [writeDigit, found]
  exact write_append within _

theorem writeDigit_first (cell : Cell) (a b c d e : Bool) :
    writeDigit (front ++ cell :: cells) front.length (quintet a b c d e) = some (front ++ some (digit a b c d e) :: cells) :=
  @writeDigit_append front (cell :: cells) 0 (Nat.succ_pos _) a b c d e

/-- A block is encoded to its own characters, at the places that are given. -/
theorem encodeBlock_block {binary block : List Byte} {offset : Nat} {back : List Cell} (short : block.length ≤ 5)
    (read : ∀ i < block.length, binary[offset + i]? = block[i]?) :
    encodeBlock (front ++ (List.replicate (digits (block.flatMap bits)).length none ++ back)) front.length binary offset
      block.length = some (front ++ ((digits (block.flatMap bits)).map some ++ back)) := by
  have first (some : 0 < block.length) : binary[offset]? = block[0]? := read 0 some
  match block, short with
  | [], _ => rfl
  | [b0], _ =>
    simp [encodeBlock, first, byte_parts b0, writeDigit_append, writeDigit_first, digits, bits, List.replicate]
  | [b0, b1], _ =>
    simp [encodeBlock, first, read 1, byte_parts b0, byte_parts b1, Base32.quintet_or, writeDigit_append,
      writeDigit_first, digits, bits, List.replicate, -Nat.and_one_is_mod]
  | [b0, b1, b2], _ =>
    simp [encodeBlock, first, read 1, read 2, byte_parts b0, byte_parts b1, byte_parts b2, Base32.quintet_or,
      writeDigit_append, writeDigit_first, digits, bits, List.replicate, -Nat.and_one_is_mod]
  | [b0, b1, b2, b3], _ =>
    simp [encodeBlock, first, read 1, read 2, read 3, byte_parts b0, byte_parts b1, byte_parts b2, byte_parts b3,
      Base32.quintet_or, writeDigit_append, writeDigit_first, digits, bits, List.replicate, -Nat.and_one_is_mod]
  | [b0, b1, b2, b3, b4], _ =>
    simp [encodeBlock, first, read 1, read 2, read 3, read 4, byte_parts b0, byte_parts b1, byte_parts b2, byte_parts b3,
      byte_parts b4, Base32.quintet_or, writeDigit_append, writeDigit_first, digits, bits, List.replicate,
      -Nat.and_one_is_mod]

/-- A further round of a loop over a range. -/
theorem foldlM_range_succ {σ : Type} {f : σ → Nat → Option σ} {before mid after : σ} {n : Nat}
    (rounds : (List.range n).foldlM f before = some mid) (round : f mid n = some after) :
    (List.range (n + 1)).foldlM f before = some after := by
  rw [List.range_succ, List.foldlM_append, rounds]
  change (f mid n >>= pure) = some after
  rw [bind_pure, round]

section

variable {binary selected : List Byte} {offset total : Nat}

/-- The full blocks are encoded one after the other. -/
theorem encodeBlocks (read : ∀ i < selected.length, binary[offset + i]? = selected[i]?) {blocks : Nat}
    (within : 5 * blocks ≤ selected.length) (room : 8 * blocks ≤ total) :
    (List.range blocks).foldlM (fun cells block => encodeBlock cells (8 * block) binary (offset + 5 * block) 5)
        (List.replicate total none) =
      some ((digits ((selected.take (5 * blocks)).flatMap bits)).map some ++ List.replicate (total - 8 * blocks) none) := by
  induction blocks with
  | zero => simp [digits]
  | succ blocks ih =>
    refine foldlM_range_succ (ih (by omega) (by omega)) ?_
    have whole : (selected.take (5 * blocks)).length = 5 * blocks := List.length_take_of_le (by omega)
    have filled : ((digits ((selected.take (5 * blocks)).flatMap bits)).map some).length = 8 * blocks := by
      rw [List.length_map, Base32.length_digits, Base32.length_flatMap_bits, whole]
      omega
    have five : ((selected.drop (5 * blocks)).take 5).length = 5 := by
      rw [List.length_take, List.length_drop]
      omega
    have eight : (digits (((selected.drop (5 * blocks)).take 5).flatMap bits)).length = 8 := by
      rw [Base32.length_digits, Base32.length_flatMap_bits, five]
    have next : ∀ i < ((selected.drop (5 * blocks)).take 5).length,
        binary[offset + 5 * blocks + i]? = ((selected.drop (5 * blocks)).take 5)[i]? := by
      intro i small
      rw [List.getElem?_take_of_lt (by omega), List.getElem?_drop, Nat.add_assoc]
      exact read _ (by omega)
    have run := @encodeBlock_block ((digits ((selected.take (5 * blocks)).flatMap bits)).map some) binary _ _
      (List.replicate (total - 8 * (blocks + 1)) none) five.le next
    have left : 8 + (total - 8 * (blocks + 1)) = total - 8 * blocks := by omega
    rw [filled, five, eight, ← List.replicate_add, left] at run
    have more : selected.take (5 * (blocks + 1)) = selected.take (5 * blocks) ++ (selected.drop (5 * blocks)).take 5 := by
      rw [Nat.mul_add, List.take_add]
    rw [run, more, Base32.digits_bytes_append (by omega), List.map_append, List.append_assoc]

/-- The padding is written from the end. -/
theorem padEncoded {n k : Nat} (within : k ≤ n) :
    (List.range k).foldlM (fun cells i => write cells (front.length + n - i - 1) '=')
        (front ++ List.replicate n none) =
      some (front ++ List.replicate (n - k) none ++ List.replicate k (some '=')) := by
  induction k with
  | zero => simp
  | succ k ih =>
    refine foldlM_range_succ (ih (by omega)) ?_
    obtain ⟨left, rfl⟩ := Nat.exists_eq_add_of_le within
    have before : k + 1 + left - k = left + 1 := by omega
    have place : front.length + (k + 1 + left) - k - 1 = (front ++ List.replicate left (none : Cell)).length + 0 := by
      rw [List.length_append, List.length_replicate]
      omega
    have after : k + 1 + left - (k + 1) = left := by omega
    rw [before, place, after, List.replicate_succ', ← List.append_assoc, List.append_assoc (front ++ _),
      List.singleton_append, write_append (Nat.succ_pos _)]
    rfl

/-- All places but those of the padding have been written. -/
theorem encodeAll {length : Nat} (read : ∀ i < selected.length, binary[offset + i]? = selected[i]?)
    (selects : selected.length = length) (room : (digits (selected.flatMap bits)).length ≤ total) :
    ((List.range (length / 5)).foldlM (fun cells block => encodeBlock cells (8 * block) binary (offset + 5 * block) 5)
        (List.replicate total none) >>= fun cells =>
      encodeBlock cells (8 * (length / 5)) binary (offset + 5 * (length / 5)) (length % 5)) =
    some ((digits (selected.flatMap bits)).map some ++
      List.replicate (total - (digits (selected.flatMap bits)).length) none) := by
  rw [Base32.length_digits, Base32.length_flatMap_bits] at room
  have whole : (selected.take (5 * (length / 5))).length = 5 * (length / 5) := List.length_take_of_le (by omega)
  have filled : ((digits ((selected.take (5 * (length / 5))).flatMap bits)).map some).length = 8 * (length / 5) := by
    rw [List.length_map, Base32.length_digits, Base32.length_flatMap_bits, whole]
    omega
  have rest : (selected.drop (5 * (length / 5))).length = length % 5 := by
    rw [List.length_drop]
    omega
  have next : ∀ i < (selected.drop (5 * (length / 5))).length,
      binary[offset + 5 * (length / 5) + i]? = (selected.drop (5 * (length / 5)))[i]? := by
    intro i small
    rw [List.getElem?_drop, Nat.add_assoc]
    exact read _ (by omega)
  have run := @encodeBlock_block ((digits ((selected.take (5 * (length / 5))).flatMap bits)).map some) binary _ _
    (List.replicate (total - (digits (selected.flatMap bits)).length) none) (by omega) next
  have all : digits (selected.flatMap bits) = digits ((selected.take (5 * (length / 5))).flatMap bits) ++
      digits ((selected.drop (5 * (length / 5))).flatMap bits) := by
    rw [← Base32.digits_bytes_append (by omega), List.take_append_drop]
  have left : (digits ((selected.drop (5 * (length / 5))).flatMap bits)).length +
      (total - (digits (selected.flatMap bits)).length) = total - 8 * (length / 5) := by
    simp only [Base32.length_digits, Base32.length_flatMap_bits, rest]
    omega
  rw [filled, rest, ← List.replicate_add, left] at run
  rw [encodeBlocks read (by omega) (by omega), Option.bind_eq_bind, Option.bind_some, run, all, List.map_append,
    List.append_assoc]

end

/-- The table of the padding is the number of characters missing to a full block. -/
theorem padLength_eq (length : Nat) : padLength length = (8 - (8 * length + 4) / 5 % 8) % 8 := by
  unfold padLength
  split_ifs <;> omega

theorem encLength_eq (length : Nat) (pad : Bool) :
    encLength length pad = (8 * length + 4) / 5 + if pad then padLength length else 0 := by
  unfold encLength
  rw [padLength_eq]
  split_ifs <;> omega

theorem encoded_eq {binary : List Byte} {offset length : Nat} (within : offset + length ≤ binary.length) (pad : Bool) :
    encoded binary offset length pad = some ((Base32.encode pad ((binary.drop offset).take length)).map some) := by
  have selects : ((binary.drop offset).take length).length = length := by
    rw [List.length_take, List.length_drop]
    omega
  have read : ∀ i < ((binary.drop offset).take length).length,
      binary[offset + i]? = ((binary.drop offset).take length)[i]? := by
    intro i small
    rw [List.getElem?_take_of_lt (by omega), List.getElem?_drop]
  have long : (digits (((binary.drop offset).take length).flatMap bits)).length = (8 * length + 4) / 5 := by
    rw [Base32.length_digits, Base32.length_flatMap_bits, selects]
  have all := @encodeAll binary ((binary.drop offset).take length) offset (encLength length pad) length read selects
    (by rw [long, encLength_eq]; omega)
  unfold encoded
  dsimp only
  rw [← bind_assoc, all, long, Option.bind_eq_bind, Option.bind_some, encLength_eq, Nat.add_sub_cancel_left, Base32.encode,
    long]
  cases pad with
  | false => simp
  | true =>
    have padded := @padEncoded ((digits (((binary.drop offset).take length).flatMap bits)).map some) (padLength length)
      (padLength length) (Nat.le_refl _)
    rw [List.length_map, long] at padded
    simp only [if_true]
    rw [padded, ← padLength_eq]
    simp

theorem toBase32_eq {binary : List Byte} {offset length : Nat} (within : offset + length ≤ binary.length) (pad : Bool) :
    toBase32 binary offset length pad = some (Base32.encode pad ((binary.drop offset).take length)) := by
  rw [toBase32, encoded_eq within, Option.map_some, List.filterMap_map]
  exact congrArg some List.filterMap_some

theorem toBase32_rfc4648 {binary : List Byte} {offset length : Nat} (within : offset + length ≤ binary.length)
    (pad : Bool) :
    toBase32 binary offset length pad = some (Base32.encode pad ((binary.drop offset).take length)) ∧
    (∃ cells, encoded binary offset length pad = some cells ∧ ∀ cell ∈ cells, cell ≠ none) ∧
    ∀ (binary' : List Byte) (offset' : Nat), offset' + length ≤ binary'.length →
      toBase32 binary' offset' length pad = toBase32 binary offset length pad →
      (binary'.drop offset').take length = (binary.drop offset).take length := by
  refine ⟨toBase32_eq within pad, ⟨_, encoded_eq within pad, by simp⟩, fun binary' offset' within' same => ?_⟩
  rw [toBase32_eq within, toBase32_eq within'] at same
  refine Base32.encode_inj ?_ (Option.some.inj same)
  rw [List.length_take, List.length_drop, List.length_take, List.length_drop]
  omega

/-- Two of three bytes, with padding. -/
theorem twoBytes_rfc4648 : toBase32 [0x66, 0x6f, 0x6f] 1 2 true = some (Base32.encode true [0x6f, 0x6f]) ∧
    (∃ cells, encoded [0x66, 0x6f, 0x6f] 1 2 true = some cells ∧ ∀ cell ∈ cells, cell ≠ none) ∧
    ∀ (binary' : List Byte) (offset' : Nat), offset' + 2 ≤ binary'.length →
      toBase32 binary' offset' 2 true = toBase32 [0x66, 0x6f, 0x6f] 1 2 true →
      (binary'.drop offset').take 2 = [0x6f, 0x6f] :=
  @toBase32_rfc4648 [0x66, 0x6f, 0x6f] 1 2 (by decide) true

end ConPaaS.Ipop
