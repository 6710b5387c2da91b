import Mathlib.Data.Fintype.Basic
import Mathlib.Data.List.TakeDrop

/-! The base 32 encoding of RFC 4648. -/

namespace Base32

abbrev Byte := Fin 256

def alphabet : List Char := "ABCDEFGHIJKLMNOPQRSTUVWXYZ234567".toList

/-- The number of five bits, the first of them the highest. -/
def quintet (a b c d e : Bool) : Nat := 16 * a.toNat + 8 * b.toNat + 4 * c.toNat + 2 * d.toNat + e.toNat

theorem quintet_lt (a b c d e : Bool) : quintet a b c d e < 32 := by
  revert a b c d e
  decide

theorem quintet_inj {a b c d e a' b' c' d' e' : Bool} (same : quintet a b c d e = quintet a' b' c' d' e') :
    a = a' ∧ b = b' ∧ c = c' ∧ d = d' ∧ e = e' := by
  revert a b c d e a' b' c' d' e'
  decide

/-- Two numbers put together from their bits. -/
theorem quintet_or (a b c d e a' b' c' d' e' : Bool) :
    quintet a b c d e ||| quintet a' b' c' d' e' = quintet (a || a') (b || b') (c || c') (d || d') (e || e') := by
  revert a b c d e a' b' c' d' e'
  decide

/-- The character for five bits. -/
def digit (a b c d e : Bool) : Char := alphabet.get ⟨quintet a b c d e, quintet_lt a b c d e⟩

/-- The bits of a byte, the highest one first. -/
def bits (byte : Byte) : List Bool :=
  [byte.val.testBit 7, byte.val.testBit 6, byte.val.testBit 5, byte.val.testBit 4,
    byte.val.testBit 3, byte.val.testBit 2, byte.val.testBit 1, byte.val.testBit 0]

/-- The characters for groups of five bits. The last group is filled up with zeros. -/
def digits : List Bool → List Char
  | [] => []
  | [a] => [digit a false false false false]
  | [a, b] => [digit a b false false false]
  | [a, b, c] => [digit a b c false false]
  | [a, b, c, d] => [digit a b c d false]
  | a :: b :: c :: d :: e :: rest => digit a b c d e :: digits rest

/-- The encoding, padded to a multiple of eight characters or not. -/
def encode (pad : Bool) (bytes : List Byte) : List Char :=
  let text := digits (bytes.flatMap bits)
  if pad then text ++ List.replicate ((8 - text.length % 8) % 8) '=' else text

example : encode true [0x66, 0x6f, 0x6f, 0x62, 0x61, 0x72] = "MZXW6YTBOI======".toList := by decide

/-- The bits a character stands for. -/
def value (c : Char) : List Bool :=
  let place := alphabet.idxOf c
  [place.testBit 4, place.testBit 3, place.testBit 2, place.testBit 1, place.testBit 0]

def ofBits (bits : List Bool) : Nat := bits.foldl (fun number bit => 2 * number + bit.toNat) 0

theorem value_digit (a b c d e : Bool) : value (digit a b c d e) = [a, b, c, d, e] := by
  revert a b c d e
  decide

theorem ofBits_bits (byte : Byte) : ofBits (bits byte) = byte.val := by
  revert byte
  decide +kernel

theorem bits_inj {byte byte' : Byte} (same : bits byte = bits byte') : byte = byte' :=
  Fin.ext (by rw [← ofBits_bits byte, same, ofBits_bits])

variable {xs ys : List Bool} {bytes bytes' : List Byte}

theorem flatMap_bits_inj (same : bytes.flatMap bits = bytes'.flatMap bits) : bytes = bytes' := by
  induction bytes generalizing bytes' with
  | nil =>
    cases bytes' with
    | nil => rfl
    | cons => cases same
  | cons byte rest ih =>
    cases bytes' with
    | nil => cases same
    | cons byte' rest' =>
      obtain ⟨first, later⟩ := List.append_inj same rfl
      rw [bits_inj first, ih later]

/-- The characters tell all the bits. -/
theorem prefix_value_digits (xs : List Bool) : xs <+: (digits xs).flatMap value := by
  fun_induction digits xs with
  | case1 => exact List.nil_prefix
  | case2 a => simp [value_digit]
  | case3 a b => simp [value_digit]
  | case4 a b c => simp [value_digit]
  | case5 a b c d => simp [value_digit]
  | case6 a b c d e rest ih => simpa [value_digit] using ih

theorem digits_inj (length : xs.length = ys.length) (same : digits xs = digits ys) : xs = ys := by
  have first := prefix_value_digits xs
  rw [same] at first
  exact (List.prefix_of_prefix_length_le first (prefix_value_digits ys) length.le).eq_of_length length

theorem length_digits (xs : List Bool) : (digits xs).length = (xs.length + 4) / 5 := by
  fun_induction digits xs with
  | case1 => rfl
  | case2 | case3 | case4 | case5 => simp
  | case6 a b c d e rest ih =>
    simp only [List.length_cons, ih]
    omega

theorem length_flatMap_bits : (bytes.flatMap bits).length = 8 * bytes.length := by
  induction bytes with
  | nil => rfl
  | cons byte rest ih =>
    rw [List.flatMap_cons, List.length_append, ih, List.length_cons]
    change 8 + _ = _
    omega

theorem encode_inj {pad : Bool} (length : bytes.length = bytes'.length) (same : encode pad bytes = encode pad bytes') :
    bytes = bytes' := by
  have long : (bytes.flatMap bits).length = (bytes'.flatMap bits).length := by
    rw [length_flatMap_bits, length_flatMap_bits, length]
  refine flatMap_bits_inj (digits_inj long ?_)
  cases pad with
  | true => exact (List.append_inj same (by rw [length_digits, length_digits, long])).1
  | false => exact same

theorem digits_append (whole : xs.length % 5 = 0) (ys : List Bool) : digits (xs ++ ys) = digits xs ++ digits ys := by
  fun_induction digits xs with
  | case1 => rfl
  | case2 | case3 | case4 | case5 => simp at whole
  | case6 a b c d e rest ih =>
    have others : rest.length % 5 = 0 := by
      simp only [List.length_cons] at whole
      omega
    rw [List.cons_append, List.cons_append, List.cons_append, List.cons_append, List.cons_append, digits, ih others]
    rfl

/-- Five bytes are encoded by themselves. -/
theorem digits_bytes_append (whole : bytes.length % 5 = 0) (rest : List Byte) :
    digits ((bytes ++ rest).flatMap bits) = digits (bytes.flatMap bits) ++ digits (rest.flatMap bits) := by
  rw [List.flatMap_append, digits_append]
  rw [length_flatMap_bits]
  omega

end Base32
