import Redog.Text

/-!
# Percent encoding

The encoding of a string for one segment of the path of a URL: letters, digits and `-_.~` stand
for themselves, and every other byte of the UTF-8 text is written as `%` and two digits. The
decoder takes what is not an escape as it is.

## Main results

* `decode_encode`: an encoded string decodes to itself.
* `all_encode`: which characters there are in an encoded string.
-/

namespace Percent

open Rust

/-- The byte stands for itself: it is a letter, a digit, or one of the four other unreserved
characters. -/
def isUnreserved (b : UInt8) : Bool :=
  (0x30 ≤ b && b ≤ 0x39) || (0x41 ≤ b && b ≤ 0x5A) || (0x61 ≤ b && b ≤ 0x7A) ||
    b == 0x2D || b == 0x5F || b == 0x2E || b == 0x7E

/-- The digits of an escape, with letters in upper case. -/
def hexDigit (n : ℕ) : Char :=
  if n < 10 then Char.ofNat (48 + n) else Char.ofNat (55 + n)

/-- A byte of an encoded string: a character that may stay, or an escape of three characters. -/
def encodeByte (b : UInt8) : List Char :=
  if isUnreserved b then [Char.ofNat b.toNat]
  else ['%', hexDigit (b.toNat / 16), hexDigit (b.toNat % 16)]

/-- The encoding of a string: each byte of its UTF-8 stands for itself or is escaped. -/
def encode (s : String) : String :=
  .ofList ((utf8 s).flatMap encodeByte)

/-- The value of a digit, in either case. -/
def hexValue (b : UInt8) : Option ℕ :=
  if 0x30 ≤ b ∧ b ≤ 0x39 then some (b.toNat - 48)
  else if 0x41 ≤ b ∧ b ≤ 0x46 then some (b.toNat - 55)
  else if 0x61 ≤ b ∧ b ≤ 0x66 then some (b.toNat - 87)
  else none

/-- The value of an escape, without its `%`. -/
def escaped (hi lo : UInt8) : Option UInt8 :=
  match hexValue hi, hexValue lo with
  | some x, some y => some (.ofNat (16 * x + y))
  | _, _ => none

/-- The bytes with their escapes replaced. A percent sign that starts no escape stands for
itself. -/
def decodeBytes : List UInt8 → List UInt8
  | b :: hi :: lo :: rest =>
      if b = 0x25 then
        match escaped hi lo with
        | some value => value :: decodeBytes rest
        | none => b :: decodeBytes (hi :: lo :: rest)
      else b :: decodeBytes (hi :: lo :: rest)
  | bytes => bytes

/-- The decoding of a string; `none` when it is not UTF-8. -/
def decode (s : String) : Option String :=
  fromUtf8 (decodeBytes (utf8 s))

/-- The bytes that one byte is encoded as, one or three of them. -/
def bytesOf (b : UInt8) : List UInt8 :=
  (encodeByte b).flatMap String.utf8EncodeChar

/-- The bytes of an encoded string are those that each of its bytes is encoded to. -/
theorem utf8_encode (s : String) : utf8 (encode s) = (utf8 s).flatMap bytesOf := by
  rw [encode, utf8_ofList, List.flatMap_assoc]
  rfl

/-- An encoded byte is itself, or an escape with its value. -/
theorem bytesOf_cases (b : UInt8) :
    (bytesOf b = [b] ∧ b ≠ 0x25) ∨
      ∃ hi lo, bytesOf b = [0x25, hi, lo] ∧ escaped hi lo = some b := by
  have htable : ∀ n < 256, (bytesOf (.ofNat n) = [.ofNat n] ∧ UInt8.ofNat n ≠ 0x25) ∨
      ∃ hi ∈ bytesOf (.ofNat n), ∃ lo ∈ bytesOf (.ofNat n),
        bytesOf (.ofNat n) = [0x25, hi, lo] ∧ escaped hi lo = some (.ofNat n) := by
    decide +kernel
  have hb := htable b.toNat b.toNat_lt
  rw [UInt8.ofNat_toNat] at hb
  rcases hb with hb | ⟨hi, -, lo, -, hb⟩
  · exact .inl hb
  · exact .inr ⟨hi, lo, hb⟩

/-- A byte that begins no escape is passed over. -/
theorem decodeBytes_cons {b : UInt8} (h : b ≠ 0x25) (rest : List UInt8) :
    decodeBytes (b :: rest) = b :: decodeBytes rest := by
  match rest with
  | [] => rfl
  | [_] => rfl
  | hi :: lo :: rest => rw [decodeBytes, if_neg h]

/-- An escape is decoded to its byte, and decoding goes on behind it. -/
theorem decodeBytes_escape {hi lo b : UInt8} (h : escaped hi lo = some b) (rest : List UInt8) :
    decodeBytes (0x25 :: hi :: lo :: rest) = b :: decodeBytes rest := by
  rw [decodeBytes, if_pos rfl, h]

/-- Bytes that have been encoded are decoded to what they were. -/
theorem decodeBytes_encoded (bytes : List UInt8) : decodeBytes (bytes.flatMap bytesOf) = bytes := by
  induction bytes with
  | nil => rfl
  | cons b bytes ih =>
      rw [List.flatMap_cons]
      rcases bytesOf_cases b with ⟨hb, hne⟩ | ⟨hi, lo, hb, hescaped⟩
      · rw [hb, List.singleton_append, decodeBytes_cons hne, ih]
      · rw [hb]
        exact (decodeBytes_escape hescaped _).trans (congrArg (b :: ·) ih)

/-- **What is encoded decodes to itself**, whatever characters the string has. -/
theorem decode_encode (s : String) : decode (encode s) = some s := by
  rw [decode, utf8_encode, decodeBytes_encoded, fromUtf8_eq_some_iff]

/-- Different strings have different encodings, since each can be decoded. -/
theorem encode_inj {s t : String} (h : encode s = encode t) : s = t :=
  Option.some.inj ((decode_encode s).symm.trans (h ▸ decode_encode t))

/-- The character can be in an encoded string. -/
def isEncoded (c : Char) : Bool :=
  c == '%' || decide (c.toNat < 128) && isUnreserved (.ofNat c.toNat)

/-- There are only unreserved characters and escapes in an encoded string. -/
theorem all_encode (s : String) : (encode s).toList.all isEncoded := by
  have htable : ∀ n < 256, (encodeByte (.ofNat n)).all isEncoded := by decide +kernel
  rw [encode, String.toList_ofList, List.all_flatMap, List.all_eq_true]
  intro b _
  have hb := htable b.toNat b.toNat_lt
  rwa [UInt8.ofNat_toNat] at hb

/-- A character that would have to be escaped is in no encoded string. -/
theorem notMem_encode {c : Char} (hc : isEncoded c = false) (s : String) :
    c ∉ (encode s).toList := by
  intro h
  have hall := List.all_eq_true.mp (all_encode s) c h
  rw [hc] at hall
  cases hall

end Percent
