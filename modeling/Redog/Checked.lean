import Mathlib.Data.List.Basic
import Mathlib.Data.Nat.Bitwise

/-!
# Computations that may panic

Safe Rust turns an index outside a slice, or a range that is not inside it, into a panic.
This module gives the value of such a computation as `Checked α`: either a result or the
`Panic` that stopped it. Absence of panics is then a theorem about a model and not a side
condition of its definition.

Byte parsers read slices by position. The lemmas here come in two forms: over a position
known to be in bounds (`index_eq_ok`, `be16At_eq_ok`), for arguments about arbitrary input,
and over an input split at the position (`getD_append`, `wordAt_append`), for arguments
about encoded input.

## Main results

* `index_eq_ok`, `slice_eq_ok`, `be16At_eq_ok`: in-bounds accesses return.
* `wordAt_append`: a big-endian length written at a position is read back there.
-/

namespace Rust

/-- The panics of the modelled code, by what it did to run into them. -/
inductive Panic
  /-- `data[i]` with `i` not below the length. -/
  | indexOutOfBounds
  /-- `data[a..b]` with `b` past the end or below `a`. -/
  | sliceOutOfRange
  /-- An integer operation left the range of its type. -/
  | arithmeticOverflow
deriving DecidableEq, Repr

/-- A computation that returns or panics. No panic is caught, so it ends the call it happens in. -/
abbrev Checked (α : Type) := Except Panic α

/-! ### Slices -/

/-- `data[i]`: the byte at the index, a panic where the slice is not that long. -/
def index (data : List UInt8) (i : ℕ) : Checked UInt8 :=
  match data[i]? with
  | some b => .ok b
  | none => .error .indexOutOfBounds

/-- `data[a..b]`: the bytes from `a` up to `b`, a panic where the range is the wrong way round or
ends behind the slice. -/
def slice (data : List UInt8) (a b : ℕ) : Checked (List UInt8) :=
  if a ≤ b ∧ b ≤ data.length then .ok ((data.take b).drop a)
  else .error .sliceOutOfRange

/-- `((hi as usize) << 8) | (lo as usize)`. -/
def be16 (hi lo : UInt8) : ℕ :=
  (hi.toNat <<< 8) ||| lo.toNat

/-- The two bytes `data[i]`, `data[i + 1]` read as a big-endian number. -/
def be16At (data : List UInt8) (i : ℕ) : Checked ℕ := do
  let hi ← index data i
  let lo ← index data (i + 1)
  return be16 hi lo

/-- Two bytes in network order are a number in base 256, the first byte being the high one. -/
theorem be16_eq (hi lo : UInt8) : be16 hi lo = hi.toNat * 256 + lo.toNat := by
  have hlo : lo.toNat < 2 ^ 8 := lo.toNat_lt
  rw [be16, ← Nat.shiftLeft_add_eq_or_of_lt hlo, Nat.shiftLeft_eq]

/-- Two bytes in network order are a number below 65536. -/
theorem be16_lt (hi lo : UInt8) : be16 hi lo < 65536 := by
  have := hi.toNat_lt
  have := lo.toNat_lt
  rw [be16_eq]
  omega

/-- The byte at a position, zero outside the slice: the layout of a message can be
described with it before knowing that the message is long enough. -/
def byteAt (data : List UInt8) (i : ℕ) : ℕ :=
  (data.getD i 0).toNat

/-- The big-endian number at a position, with zeros outside the slice. -/
def wordAt (data : List UInt8) (i : ℕ) : ℕ :=
  be16 (data.getD i 0) (data.getD (i + 1) 0)

/-- Indexing within the bounds succeeds with the byte at the index. -/
theorem index_eq_ok {data : List UInt8} {i : ℕ} (h : i < data.length) :
    index data i = .ok (data.getD i 0) := by
  simp [index, List.getElem?_eq_getElem h]

/-- Reading two bytes in network order succeeds when both of them are within the bounds. -/
theorem be16At_eq_ok {data : List UInt8} {i : ℕ} (h : i + 2 ≤ data.length) :
    be16At data i = .ok (wordAt data i) := by
  rw [be16At, index_eq_ok (by omega), index_eq_ok (by omega)]
  rfl

/-- Slicing within the bounds succeeds with the bytes from the first index up to the second. -/
theorem slice_eq_ok {data : List UInt8} {a b : ℕ} (hab : a ≤ b) (hb : b ≤ data.length) :
    slice data a b = .ok ((data.take b).drop a) :=
  if_pos ⟨hab, hb⟩

/-- A slice that ends behind the data panics. -/
theorem slice_eq_error {data : List UInt8} {a b : ℕ} (h : data.length < b) :
    slice data a b = .error .sliceOutOfRange :=
  if_neg fun hab => absurd hab.2 (not_le.mpr h)

/-! ### Reading back what was written -/

/-- A number below `2 ^ 16` as two big-endian bytes. -/
def be16Bytes (n : ℕ) : List UInt8 :=
  [UInt8.ofNat (n / 256), UInt8.ofNat (n % 256)]

/-- A number in network order takes two bytes. -/
@[simp] theorem length_be16Bytes (n : ℕ) : (be16Bytes n).length = 2 := rfl

/-- A number below 65536 is read back from its two bytes. -/
theorem be16_be16Bytes {n : ℕ} (h : n < 65536) :
    be16 (UInt8.ofNat (n / 256)) (UInt8.ofNat (n % 256)) = n := by
  rw [be16_eq, UInt8.toNat_ofNat', UInt8.toNat_ofNat']
  omega

/-- Two bytes are written back as they were read. -/
theorem be16Bytes_be16 (hi lo : UInt8) : be16Bytes (be16 hi lo) = [hi, lo] := by
  have hlt := lo.toNat_lt
  have hdiv : be16 hi lo / 256 = hi.toNat := by
    rw [be16_eq]
    omega
  have hmod : be16 hi lo % 256 = lo.toNat := by
    rw [be16_eq]
    omega
  rw [be16Bytes, hdiv, hmod, UInt8.ofNat_toNat, UInt8.ofNat_toNat]

/-- The byte behind a known prefix, found by the length of the prefix. -/
theorem getD_append {data : List UInt8} {i : ℕ} (pre : List UInt8) (b : UInt8)
    (post : List UInt8)
    (hdata : data = pre ++ b :: post) (hi : pre.length = i) : data.getD i 0 = b := by
  subst hdata hi
  simp

/-- A number written behind a known prefix is read back at the length of the prefix. -/
theorem wordAt_append {data : List UInt8} {n i : ℕ} (pre post : List UInt8)
    (hn : n < 65536) (hdata : data = pre ++ (be16Bytes n ++ post))
    (hi : pre.length = i) : wordAt data i = n := by
  have hhi : data.getD i 0 = UInt8.ofNat (n / 256) :=
    getD_append pre _ (UInt8.ofNat (n % 256) :: post) (by rw [hdata]; rfl) hi
  have hlo : data.getD (i + 1) 0 = UInt8.ofNat (n % 256) :=
    getD_append (pre ++ [UInt8.ofNat (n / 256)]) _ post
      (by rw [hdata]; simp [be16Bytes]) (by simp [hi])
  rw [wordAt, hhi, hlo, be16_be16Bytes hn]

/-- A part between a known prefix and a known suffix is cut out by its bounds. -/
theorem slice_append {data : List UInt8} {a b : ℕ} (pre mid post : List UInt8)
    (hdata : data = pre ++ (mid ++ post)) (ha : pre.length = a)
    (hb : pre.length + mid.length = b) : slice data a b = .ok mid := by
  subst hdata ha hb
  rw [slice_eq_ok (by omega) (by simp)]
  simp [List.take_append]

/-! ### Writing a slice -/

/-- `data[i] = v`: the slice with the value at the index, a panic where it is not that long. -/
def setIndex {α : Type} (data : List α) (i : ℕ) (v : α) : Checked (List α) :=
  if i < data.length then .ok (data.set i v) else .error .indexOutOfBounds

/-- Assigning to an element within the bounds succeeds. -/
theorem setIndex_eq_ok {α : Type} {data : List α} {i : ℕ} (h : i < data.length) (v : α) :
    setIndex data i v = .ok (data.set i v) :=
  if_pos h

/-! ### Integer arithmetic

The operators as a debug build checks them. -/

/-- `a + b` at `u16`, with the check of a debug build: the sum, or a panic where it does not fit. -/
def u16Add (a b : UInt16) : Checked UInt16 :=
  if a.toNat + b.toNat < 2 ^ 16 then .ok (a + b) else .error .arithmeticOverflow

/-- `a + b` at `u16` as a release build computes it. -/
def u16WrappingAdd (a b : UInt16) : Checked UInt16 :=
  .ok (a + b)

/-- `a + b` at `u32`, with the check of a debug build: the sum, or a panic where it does not fit. -/
def u32Add (a b : UInt32) : Checked UInt32 :=
  if a.toNat + b.toNat < 2 ^ 32 then .ok (a + b) else .error .arithmeticOverflow

/-- `a - b` at `u32`, with the check of a debug build: the difference, or a panic where it would be
negative. -/
def u32Sub (a b : UInt32) : Checked UInt32 :=
  if b ≤ a then .ok (a - b) else .error .arithmeticOverflow

/-- `a << s` at `u32`: the shift must be below the width. -/
def u32Shl (a s : UInt32) : Checked UInt32 :=
  if s < 32 then .ok (a <<< s) else .error .arithmeticOverflow

/-- `a - b` at `usize`, for lengths. -/
def usizeSub (a b : ℕ) : Checked ℕ :=
  if b ≤ a then .ok (a - b) else .error .arithmeticOverflow

/-- A subtraction that stays at zero or above succeeds. -/
theorem usizeSub_eq_ok {a b : ℕ} (h : b ≤ a) : usizeSub a b = .ok (a - b) :=
  if_pos h

/-- A subtraction below zero panics in a debug build. -/
theorem usizeSub_eq_error {a b : ℕ} (h : a < b) : usizeSub a b = .error .arithmeticOverflow :=
  if_neg (not_le.mpr h)

/-- An addition of 32-bit numbers succeeds when the sum fits. -/
theorem u32Add_eq_ok {a b : UInt32} (h : a.toNat + b.toNat < 2 ^ 32) :
    u32Add a b = .ok (a + b) :=
  if_pos h

/-- The maximum of two 32-bit numbers is that of their values. -/
theorem u32_toNat_max (a b : UInt32) : (max a b).toNat = max a.toNat b.toNat := by
  show (if a ≤ b then b else a).toNat = max a.toNat b.toNat
  split
  · next hle => rw [max_eq_right (UInt32.le_iff_toNat_le.mp hle)]
  · next hlt =>
      have hle : b ≤ a := UInt32.le_of_lt (UInt32.not_le.mp hlt)
      rw [max_eq_left (UInt32.le_iff_toNat_le.mp hle)]

end Rust
