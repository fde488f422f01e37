/-!
# Byte text

Source files, identifiers and the strings of an AmLang program are byte sequences: a column
counts bytes, and an identifier may hold any byte from `0x80` up, whether or not the bytes form
valid UTF-8. The library carries such text as a `String` whose every character has a code below
256 and stands for exactly one byte. Comparing two such strings character by character is then
comparing their bytes, and their `length` is their size in bytes.

This module converts between that representation and real byte arrays, and between it and
Unicode text, whose bytes are its UTF-8 encoding.

## Main definitions

* `Bytes.ofByteArray`, `Bytes.toByteArray` — the two directions of the representation.
* `Bytes.ofUnicode` — the byte text of a Unicode string (its UTF-8 bytes).
* `Bytes.toUnicode?` — the Unicode string whose UTF-8 bytes these are, if there is one.
-/

namespace AmLang.Bytes

/-- The character standing for byte `b`. -/
def charOf (b : UInt8) : Char := Char.ofNat b.toNat

/-- The byte a character of byte text stands for (its code, cut to eight bits). -/
def byteOf (c : Char) : UInt8 := c.toNat.toUInt8

/-- Byte text holding the bytes of `a`, one character per byte. -/
def ofByteArray (a : ByteArray) : String :=
  String.ofList (a.toList.map charOf)

/-- The bytes a byte text stands for. -/
def toByteArray (s : String) : ByteArray :=
  ⟨(s.toList.map byteOf).toArray⟩

/-- The byte text of a Unicode string: one character per byte of its UTF-8 encoding. -/
def ofUnicode (s : String) : String :=
  ofByteArray s.toUTF8

/-- The Unicode string whose UTF-8 encoding is this byte text, when the bytes are valid UTF-8. -/
def toUnicode? (s : String) : Option String :=
  String.fromUTF8? (toByteArray s)

/-- One byte as two lowercase hexadecimal digits. -/
def hexByte (b : UInt8) : String :=
  let digit (n : Nat) : Char := if n < 10 then Char.ofNat (48 + n) else Char.ofNat (87 + n)
  String.ofList [digit (b.toNat / 16), digit (b.toNat % 16)]

/-- Every byte of a byte text as two lowercase hexadecimal digits. -/
def toHex (s : String) : String :=
  String.join (s.toList.map (fun c => hexByte (byteOf c)))

/-- The value of a hexadecimal digit of either case. -/
def hexDigit? (c : Char) : Option Nat :=
  if '0' ≤ c ∧ c ≤ '9' then some (c.toNat - 48)
  else if 'a' ≤ c ∧ c ≤ 'f' then some (c.toNat - 87)
  else if 'A' ≤ c ∧ c ≤ 'F' then some (c.toNat - 55)
  else none

/-- Reads pairs of hexadecimal digits as bytes; an odd count or a non-digit gives `none`. -/
def ofHex? : List Char → Option (List Char)
  | [] => some []
  | [_] => none
  | a :: b :: rest => do
    let hi ← hexDigit? a
    let lo ← hexDigit? b
    let tail ← ofHex? rest
    pure (Char.ofNat (hi * 16 + lo) :: tail)

/-- A code below the surrogates is the code of the character it makes. -/
theorem toNat_ofNat_of_lt {n : Nat} (h : n < 55296) : (Char.ofNat n).toNat = n := by
  rw [Char.ofNat, dif_pos (Or.inl h)]
  exact UInt32.toNat_ofNatLT

theorem toList_ofByteArray (a : ByteArray) :
    (ofByteArray a).toList = a.toList.map charOf := by
  simp [ofByteArray]

end AmLang.Bytes
