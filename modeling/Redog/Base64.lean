import Mathlib.Data.List.Basic
import Mathlib.Data.Option.Basic
import Mathlib.Order.Basic

/-!
# Base64

The standard alphabet, by groups of three bytes. A group is one number, written in four digits
of six bits. The last group may have one or two bytes; its digits are followed by padding, and
the bits behind its last byte are zero.

## Main results

* `decode_encode`: decoding undoes encoding.
* `decode_eq_some`: only texts of the alphabet and padding are decoded, and they are at least
  as long as what they stand for.
-/

namespace Base64

/-- The character of a digit: capital letters, small letters, decimal digits, a plus sign and a
slash, in this order. -/
def digitChar (n : ℕ) : Char :=
  if n < 26 then .ofNat (65 + n)
  else if n < 52 then .ofNat (97 + (n - 26))
  else if n < 62 then .ofNat (48 + (n - 52))
  else if n = 62 then '+' else '/'

/-- The digit of a character. The characters of other alphabets and the padding are no digits. -/
def digitValue (c : Char) : Option ℕ :=
  if c.isUpper then some (c.toNat - 65)
  else if c.isLower then some (c.toNat - 97 + 26)
  else if c.isDigit then some (c.toNat - 48 + 52)
  else if c = '+' then some 62
  else if c = '/' then some 63
  else none

/-- The character may occur in a text. -/
def isSymbol (c : Char) : Bool :=
  (digitValue c).isSome || c == '='

/-- The number that digits stand for, the most significant one first, unless a character is no
digit. -/
def readDigits (cs : List Char) : Option ℕ :=
  cs.foldlM (fun n c => (digitValue c).map (64 * n + ·)) 0

/-- Bytes as a text with padding: three bytes become four characters, and a rest of one or two is
filled up. -/
def encode : List UInt8 → List Char
  | [] => []
  | [a] =>
      let n := a.toNat * 16
      [digitChar (n / 64), digitChar (n % 64), '=', '=']
  | [a, b] =>
      let n := (a.toNat * 256 + b.toNat) * 4
      [digitChar (n / 4096), digitChar (n / 64 % 64), digitChar (n % 64), '=']
  | a :: b :: c :: rest =>
      let n := (a.toNat * 256 + b.toNat) * 256 + c.toNat
      digitChar (n / 262144) :: digitChar (n / 4096 % 64) :: digitChar (n / 64 % 64) ::
        digitChar (n % 64) :: encode rest

/-- The byte of two digits, whose last four bits have to be zero. -/
def decodeOne (cs : List Char) : Option (List UInt8) :=
  (readDigits cs).bind fun n => if n % 16 = 0 then some [.ofNat (n / 16)] else none

/-- The bytes of three digits, whose last two bits have to be zero. -/
def decodeTwo (cs : List Char) : Option (List UInt8) :=
  (readDigits cs).bind fun n =>
    if n % 4 = 0 then some [.ofNat (n / 1024), .ofNat (n / 4)] else none

/-- The bytes a text stands for, with padding or without. -/
def decode (padded : Bool) : List Char → Option (List UInt8)
  | [] => some []
  | [_] => none
  | [a, b] => if padded then none else decodeOne [a, b]
  | [a, b, c] => if padded then none else decodeTwo [a, b, c]
  | a :: b :: c :: d :: rest =>
      if d = '=' then
        if padded ∧ rest = [] then
          if c = '=' then decodeOne [a, b] else decodeTwo [a, b, c]
        else none
      else
        (readDigits [a, b, c, d]).bind fun n => (decode padded rest).map fun bytes =>
          .ofNat (n / 65536) :: .ofNat (n / 256) :: .ofNat n :: bytes

/-- The character of a digit is read as this digit, for all 64 of them. -/
theorem digitValue_digitChar {n : ℕ} (h : n < 64) : digitValue (digitChar n) = some n := by
  revert n
  decide

/-- No digit is written as the padding character, so padding can only stand at the end. -/
theorem digitChar_ne_pad {n : ℕ} (h : n < 64) : digitChar n ≠ '=' := by
  revert n
  decide

/-- What is read as a digit is a symbol of the alphabet. -/
theorem isSymbol_of_digitValue {c : Char} {n : ℕ} (h : digitValue c = some n) : isSymbol c := by
  rw [isSymbol, h, Option.isSome_some, Bool.true_or]

/-- What a digit is written as is a symbol of the alphabet. -/
theorem isSymbol_digitChar {n : ℕ} (h : n < 64) : isSymbol (digitChar n) :=
  isSymbol_of_digitValue (digitValue_digitChar h)

/-- The symbols are between `+` and `z`. -/
theorem toNat_of_isSymbol {c : Char} (h : isSymbol c) : 43 ≤ c.toNat ∧ c.toNat ≤ 122 := by
  rw [isSymbol, digitValue, Bool.or_eq_true, beq_iff_eq] at h
  split_ifs at h with hupper hlower hdigit hplus hslash
  · obtain ⟨hlo, hhi⟩ : 65 ≤ c.toNat ∧ c.toNat ≤ 90 := of_decide_eq_true hupper
    omega
  · obtain ⟨hlo, hhi⟩ := Bool.and_eq_true_iff.mp hlower
    have hlo : 97 ≤ c.toNat := of_decide_eq_true hlo
    have hhi : c.toNat ≤ 122 := of_decide_eq_true hhi
    omega
  · obtain ⟨hlo, hhi⟩ : 48 ≤ c.toNat ∧ c.toNat ≤ 57 := Char.isDigit_iff_toNat.mp hdigit
    omega
  · subst hplus
    decide
  · subst hslash
    decide
  · rcases h with h | rfl
    · cases h
    · decide

/-- Digits that have been written are read as the number they are the digits of in base 64. -/
theorem readDigits_digitChar {ns : List ℕ} (h : ∀ n ∈ ns, n < 64) :
    readDigits (ns.map digitChar) = some (ns.foldl (fun n d => 64 * n + d) 0) := by
  suffices hacc : ∀ acc, (ns.map digitChar).foldlM
      (fun n c => (digitValue c).map (64 * n + ·)) acc =
        some (ns.foldl (fun n d => 64 * n + d) acc) from hacc 0
  induction ns with
  | nil => exact fun acc => rfl
  | cons n ns ih =>
      intro acc
      obtain ⟨hn, hns⟩ := List.forall_mem_cons.mp h
      rw [List.map_cons, List.foldlM_cons, digitValue_digitChar hn, Option.map_some,
        Option.bind_eq_bind, Option.bind_some, ih hns, List.foldl_cons]

/-- Two digits hold twelve bits, of which a group with one byte uses eight. -/
theorem readDigits_two {n : ℕ} (h : n < 4096) :
    readDigits [digitChar (n / 64), digitChar (n % 64)] = some n := by
  have hread : readDigits ([n / 64, n % 64].map digitChar) = _ :=
    readDigits_digitChar (by simp; omega)
  refine hread.trans (congrArg some ?_)
  simp only [List.foldl_cons, List.foldl_nil]
  omega

/-- Three digits hold eighteen bits, of which a group with two bytes uses sixteen. -/
theorem readDigits_three {n : ℕ} (h : n < 262144) :
    readDigits [digitChar (n / 4096), digitChar (n / 64 % 64), digitChar (n % 64)] = some n := by
  have hread : readDigits ([n / 4096, n / 64 % 64, n % 64].map digitChar) = _ :=
    readDigits_digitChar (by simp; omega)
  refine hread.trans (congrArg some ?_)
  simp only [List.foldl_cons, List.foldl_nil]
  omega

/-- Four digits hold the twenty-four bits of a full group of three bytes. -/
theorem readDigits_four {n : ℕ} (h : n < 16777216) :
    readDigits [digitChar (n / 262144), digitChar (n / 4096 % 64), digitChar (n / 64 % 64),
      digitChar (n % 64)] = some n := by
  have hread : readDigits
      ([n / 262144, n / 4096 % 64, n / 64 % 64, n % 64].map digitChar) = _ :=
    readDigits_digitChar (by simp; omega)
  refine hread.trans (congrArg some ?_)
  simp only [List.foldl_cons, List.foldl_nil]
  omega

/-- A byte is determined by what a number leaves modulo 256. -/
theorem ofNat_eq {n : ℕ} {a : UInt8} (h : n % 256 = a.toNat) : UInt8.ofNat n = a := by
  rw [← UInt8.toNat_inj, UInt8.toNat_ofNat']
  exact h

/-- **Decoding undoes encoding**, by induction on groups of three bytes: each group takes four
characters, and only the last one may be shorter. -/
theorem decode_encode (bytes : List UInt8) : decode true (encode bytes) = some bytes := by
  induction bytes using encode.induct with
  | case1 => rfl
  | case2 a =>
      have ha : a.toNat < 256 := a.toNat_lt
      have hread := readDigits_two (n := a.toNat * 16) (by omega)
      have hbyte : UInt8.ofNat (a.toNat * 16 / 16) = a := ofNat_eq (by omega)
      rw [encode, decode, if_pos rfl, if_pos ⟨rfl, rfl⟩, if_pos rfl, decodeOne, hread,
        Option.bind_some, if_pos (Nat.mul_mod_left _ _), hbyte]
  | case3 a b =>
      have ha : a.toNat < 256 := a.toNat_lt
      have hb : b.toNat < 256 := b.toNat_lt
      have hread := readDigits_three (n := (a.toNat * 256 + b.toNat) * 4) (by omega)
      have hpad : digitChar ((a.toNat * 256 + b.toNat) * 4 % 64) ≠ '=' :=
        digitChar_ne_pad (by omega)
      have hfirst : UInt8.ofNat ((a.toNat * 256 + b.toNat) * 4 / 1024) = a :=
        ofNat_eq (by omega)
      have hsecond : UInt8.ofNat ((a.toNat * 256 + b.toNat) * 4 / 4) = b := ofNat_eq (by omega)
      rw [encode, decode, if_pos rfl, if_pos ⟨rfl, rfl⟩, if_neg hpad, decodeTwo, hread,
        Option.bind_some, if_pos (Nat.mul_mod_left _ _), hfirst, hsecond]
  | case4 a b c rest ih =>
      have ha : a.toNat < 256 := a.toNat_lt
      have hb : b.toNat < 256 := b.toNat_lt
      have hc : c.toNat < 256 := c.toNat_lt
      set n := (a.toNat * 256 + b.toNat) * 256 + c.toNat with hn
      have hread := readDigits_four (n := n) (by omega)
      have hpad : digitChar (n % 64) ≠ '=' := digitChar_ne_pad (by omega)
      have hfirst : UInt8.ofNat (n / 65536) = a := ofNat_eq (by omega)
      have hsecond : UInt8.ofNat (n / 256) = b := ofNat_eq (by omega)
      have hthird : UInt8.ofNat n = c := ofNat_eq (by omega)
      rw [encode, decode, if_neg hpad, ← hn, hread, Option.bind_some, ih, Option.map_some,
        hfirst, hsecond, hthird]

/-- A text is made of the alphabet and padding. -/
theorem isSymbol_of_mem_encode {bytes : List UInt8} {c : Char} (h : c ∈ encode bytes) :
    isSymbol c := by
  induction bytes using encode.induct with
  | case1 => cases h
  | case2 a =>
      have ha : a.toNat < 256 := a.toNat_lt
      simp only [encode, List.mem_cons, List.not_mem_nil, or_false] at h
      rcases h with rfl | rfl | rfl | rfl
      · exact isSymbol_digitChar (by omega)
      · exact isSymbol_digitChar (by omega)
      · rfl
      · rfl
  | case3 a b =>
      have ha : a.toNat < 256 := a.toNat_lt
      have hb : b.toNat < 256 := b.toNat_lt
      simp only [encode, List.mem_cons, List.not_mem_nil, or_false] at h
      rcases h with rfl | rfl | rfl | rfl
      · exact isSymbol_digitChar (by omega)
      · exact isSymbol_digitChar (by omega)
      · exact isSymbol_digitChar (by omega)
      · rfl
  | case4 a b c rest ih =>
      have ha : a.toNat < 256 := a.toNat_lt
      have hb : b.toNat < 256 := b.toNat_lt
      have hc : c.toNat < 256 := c.toNat_lt
      simp only [encode, List.mem_cons] at h
      rcases h with rfl | rfl | rfl | rfl | h
      · exact isSymbol_digitChar (by omega)
      · exact isSymbol_digitChar (by omega)
      · exact isSymbol_digitChar (by omega)
      · exact isSymbol_digitChar (by omega)
      · exact ih h

/-- Where digits are read, every character is a symbol of the alphabet. -/
theorem isSymbol_of_readDigits {cs : List Char} {n : ℕ} (h : readDigits cs = some n) {c : Char}
    (hc : c ∈ cs) : isSymbol c := by
  suffices hacc : ∀ acc, cs.foldlM (fun n c => (digitValue c).map (64 * n + ·)) acc = some n →
      isSymbol c from hacc 0 h
  clear h
  induction cs with
  | nil => cases hc
  | cons d cs ih =>
      intro acc h
      rw [List.foldlM_cons, Option.bind_eq_bind, Option.bind_eq_some_iff] at h
      obtain ⟨m, hm, h⟩ := h
      obtain ⟨v, hv, -⟩ := Option.map_eq_some_iff.mp hm
      rcases List.mem_cons.mp hc with rfl | hc
      · exact isSymbol_of_digitValue hv
      · exact ih hc m h

/-- The last group of one byte consists of symbols of the alphabet and gives one byte. -/
theorem decodeOne_eq_some {cs : List Char} {bytes : List UInt8} (h : decodeOne cs = some bytes) :
    (∀ c ∈ cs, isSymbol c) ∧ bytes.length = 1 := by
  obtain ⟨n, hread, h⟩ := Option.bind_eq_some_iff.mp h
  obtain ⟨-, ⟨⟩⟩ := Option.ite_none_right_eq_some.mp h
  exact ⟨fun c => isSymbol_of_readDigits hread, rfl⟩

/-- The last group of two bytes consists of symbols of the alphabet and gives two bytes. -/
theorem decodeTwo_eq_some {cs : List Char} {bytes : List UInt8} (h : decodeTwo cs = some bytes) :
    (∀ c ∈ cs, isSymbol c) ∧ bytes.length = 2 := by
  obtain ⟨n, hread, h⟩ := Option.bind_eq_some_iff.mp h
  obtain ⟨-, ⟨⟩⟩ := Option.ite_none_right_eq_some.mp h
  exact ⟨fun c => isSymbol_of_readDigits hread, rfl⟩

/-- Only texts of the alphabet and padding are decoded, and they are at least as long as what
they stand for. -/
theorem decode_eq_some {padded : Bool} {cs : List Char} {bytes : List UInt8}
    (h : decode padded cs = some bytes) :
    (∀ c ∈ cs, isSymbol c) ∧ bytes.length ≤ cs.length := by
  induction cs using decode.induct padded generalizing bytes with
  | case1 =>
      obtain rfl := Option.some.inj h
      exact ⟨List.forall_mem_nil _, Nat.le_refl _⟩
  | case2 a => cases h
  | case3 a b hpadded =>
      rw [decode, if_pos hpadded] at h
      cases h
  | case4 a b hpadded =>
      rw [decode, if_neg hpadded] at h
      obtain ⟨hsymbols, hlength⟩ := decodeOne_eq_some h
      exact ⟨hsymbols, hlength.trans_le (Nat.le_succ 1)⟩
  | case5 a b c hpadded =>
      rw [decode, if_pos hpadded] at h
      cases h
  | case6 a b c hpadded =>
      rw [decode, if_neg hpadded] at h
      obtain ⟨hsymbols, hlength⟩ := decodeTwo_eq_some h
      exact ⟨hsymbols, hlength.trans_le (Nat.le_succ 2)⟩
  | case7 a b rest hend =>
      obtain ⟨-, rfl⟩ := id hend
      rw [decode, if_pos rfl, if_pos hend, if_pos rfl] at h
      obtain ⟨hsymbols, hlength⟩ := decodeOne_eq_some h
      refine ⟨fun c hc => ?_, hlength.trans_le (Nat.le_add_left 1 3)⟩
      rcases List.mem_append.mp (show c ∈ [a, b] ++ ['=', '='] from hc) with hc | hc
      · exact hsymbols c hc
      · rw [List.mem_pair, or_self] at hc
        exact hc ▸ rfl
  | case8 a b c rest hend hpad =>
      obtain ⟨-, rfl⟩ := id hend
      rw [decode, if_pos rfl, if_pos hend, if_neg hpad] at h
      obtain ⟨hsymbols, hlength⟩ := decodeTwo_eq_some h
      refine ⟨fun d hd => ?_, hlength.trans_le (Nat.le_add_left 2 2)⟩
      rcases List.mem_append.mp (show d ∈ [a, b, c] ++ ['='] from hd) with hd | hd
      · exact hsymbols d hd
      · rw [List.mem_singleton] at hd
        exact hd ▸ rfl
  | case9 a b c rest hend =>
      rw [decode, if_pos rfl, if_neg hend] at h
      cases h
  | case10 a b c d rest hpad ih =>
      rw [decode, if_neg hpad] at h
      obtain ⟨n, hread, h⟩ := Option.bind_eq_some_iff.mp h
      obtain ⟨bytes, hrest, rfl⟩ := Option.map_eq_some_iff.mp h
      obtain ⟨hsymbols, hlength⟩ := ih hrest
      constructor
      · intro e he
        rcases List.mem_append.mp (show e ∈ [a, b, c, d] ++ rest from he) with he | he
        · exact isSymbol_of_readDigits hread he
        · exact hsymbols e he
      · simp only [List.length_cons]
        omega

end Base64
