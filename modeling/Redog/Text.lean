import Mathlib.Data.List.DropRight
import Mathlib.Data.List.Infix

/-!
# Text as the standard library sees it

The listeners, the rule parser and the configuration read text with a handful of `str`
methods. This module gives those methods on Lean strings: each works on the list of
characters and agrees with the byte-offset original, since the separators the callers use
are ASCII and no slice is ever cut inside a character.

Integers are read left to right as the library does it, one digit at a time, so the error
reported is the first one met: a character that is no digit before the overflow its
position would cause.

## Main results

* `fromUtf8_eq_some_iff`: decoding accepts exactly the encodings of strings.
* `fromUtf8_append`: bytes behind a text decode with it as they do alone.
* `splitn_eq_three_iff`: the three pieces `splitn` makes of a text.
* `splitOn_suffix_iff`: the last pieces of a text are the pieces of its end, cut at a
  separator.
* `parseUnsigned_repr`: a printed number within the bound parses back to itself.
-/

namespace Rust

/-! ### UTF-8 -/

/-- `str::as_bytes`: the bytes of the text in UTF-8. -/
def utf8 (s : String) : List UInt8 :=
  s.toByteArray.data.toList

/-- `String::from_utf8`, with the error dropped: the text of the bytes, where they are one. -/
def fromUtf8 (b : List UInt8) : Option String :=
  String.fromUTF8? ⟨b.toArray⟩

/-- Decoding accepts exactly the encodings of strings. -/
theorem fromUtf8_eq_some_iff {b : List UInt8} {s : String} :
    fromUtf8 b = some s ↔ b = utf8 s := by
  constructor
  · intro h
    simp only [fromUtf8, String.fromUTF8?, Option.dite_none_right_eq_some,
      Option.some.injEq] at h
    obtain ⟨_, rfl⟩ := h
    rfl
  · rintro rfl
    have hbytes : (⟨(utf8 s).toArray⟩ : ByteArray) = s.toByteArray := rfl
    rw [fromUtf8, hbytes, String.fromUTF8?, dif_pos s.isValidUTF8]
    rfl

/-- The bytes of a text read back as that text. -/
@[simp] theorem fromUtf8_utf8 (s : String) : fromUtf8 (utf8 s) = some s :=
  fromUtf8_eq_some_iff.mpr rfl

/-- The bytes of two texts in a row are the bytes of the first, then those of the second. -/
theorem utf8_append (s t : String) : utf8 (s ++ t) = utf8 s ++ utf8 t := by
  simp [utf8]

/-- Different texts have different bytes, because the bytes read back. -/
theorem utf8_inj {s t : String} (h : utf8 s = utf8 t) : s = t := by
  have hs := fromUtf8_utf8 s
  rw [h, fromUtf8_utf8] at hs
  exact (Option.some.inj hs).symm

/-- The bytes of a text are those of its characters. -/
theorem utf8_ofList (cs : List Char) : utf8 (.ofList cs) = cs.flatMap String.utf8EncodeChar := by
  rw [utf8, String.toByteArray_ofList, List.utf8Encode]
  simp

/-- A text has at most as many characters as bytes, each character taking at least one. -/
theorem length_le_length_utf8 (s : String) : s.toList.length ≤ (utf8 s).length := by
  rw [← String.ofList_toList (s := s), utf8_ofList, String.toList_ofList]
  induction s.toList with
  | nil => exact Nat.le_refl _
  | cons c cs ih =>
      have hpos := Char.utf8Size_pos c
      rw [List.flatMap_cons, List.length_append, List.length_cons, String.length_utf8EncodeChar]
      omega

/-- What follows characters is well formed exactly when it is with them. -/
theorem isValidUTF8_utf8Encode_append_iff {b : ByteArray} (cs : List Char) :
    ByteArray.IsValidUTF8 (cs.utf8Encode ++ b) ↔ ByteArray.IsValidUTF8 b := by
  induction cs with
  | nil => simp
  | cons c cs ih =>
      rw [← List.singleton_append, List.utf8Encode_append, ByteArray.append_assoc,
        ByteArray.isValidUTF8_utf8Encode_singleton_append_iff, ih]

/-- Bytes behind a text decode with it as they do alone. -/
theorem fromUtf8_append (s : String) (b : List UInt8) :
    fromUtf8 (utf8 s ++ b) = (fromUtf8 b).map (s ++ ·) := by
  ext u
  rw [fromUtf8_eq_some_iff, Option.map_eq_some_iff]
  constructor
  · intro h
    have hbytes : s.toList.utf8Encode ++ ⟨b.toArray⟩ = u.toByteArray := by
      have harray := congrArg List.toArray h
      rw [String.utf8Encode_toList]
      simpa [utf8, ByteArray.ext_iff, ← List.append_toArray] using harray
    have hvalid : ByteArray.IsValidUTF8 (s.toList.utf8Encode ++ ⟨b.toArray⟩) := by
      rw [hbytes]
      exact u.isValidUTF8
    obtain ⟨cs, hcs⟩ := (isValidUTF8_utf8Encode_append_iff s.toList).mp hvalid
    have hb : b = utf8 (.ofList cs) := by
      rw [utf8, String.toByteArray_ofList, ← hcs]
    refine ⟨.ofList cs, fromUtf8_eq_some_iff.mpr hb, utf8_inj ?_⟩
    rw [utf8_append, ← hb, h]
  · rintro ⟨t, ht, rfl⟩
    rw [utf8_append, fromUtf8_eq_some_iff.mp ht]

/-- The length of the malformed sequence at the start of `b`, as `Utf8Error::error_len`
counts it; `none` when `b` ends inside a sequence that is well formed so far. -/
def utf8ErrorLen (b : List UInt8) : Option ℕ :=
  let inRange (lo hi x : UInt8) : Bool := lo ≤ x && x ≤ hi
  match b with
  | [] => none
  | first :: rest =>
      let width := if inRange 0xC2 0xDF first then 2 else if inRange 0xE0 0xEF first then 3
        else if inRange 0xF0 0xF4 first then 4 else 0
      let lo := if first = 0xE0 then 0xA0 else if first = 0xF0 then 0x90 else 0x80
      let hi := if first = 0xED then 0x9F else if first = 0xF4 then 0x8F else 0xBF
      if width = 0 then some 1
      else match rest with
        | [] => none
        | second :: rest =>
            if !inRange lo hi second then some 1
            else match rest with
              | [] => none
              | third :: rest =>
                  if !inRange 0x80 0xBF third then some 2
                  else if rest = [] then none else some 3

/-- The text of the error `String::from_utf8` reports on malformed bytes. -/
def utf8ErrorText (b : List UInt8) : String :=
  let validUpTo := ((List.range (b.length + 1)).filter fun n =>
    (fromUtf8 (b.take n)).isSome).getLastD 0
  match utf8ErrorLen (b.drop validUpTo) with
  | some len => "invalid utf-8 sequence of " ++ Nat.repr len ++ " bytes from index " ++
      Nat.repr validUpTo
  | none => "incomplete utf-8 byte sequence from index " ++ Nat.repr validUpTo

/-! ### Characters -/

/-- `char::is_whitespace`: the Unicode property `White_Space`, by its list of characters. -/
def isWhitespace (c : Char) : Bool :=
  let n := c.toNat
  (9 ≤ n && n ≤ 13) || n == 0x20 || n == 0x85 || n == 0xA0 || n == 0x1680 ||
    (0x2000 ≤ n && n ≤ 0x200A) || n == 0x2028 || n == 0x2029 || n == 0x202F ||
    n == 0x205F || n == 0x3000

/-- `str::to_ascii_lowercase`: only `A` to `Z` change, every other letter stays as it is. -/
def toAsciiLowercase (s : String) : String :=
  .ofList (s.toList.map Char.toLower)

/-- `str::eq_ignore_ascii_case`: the texts are equal but for the case of letters of ASCII. -/
def eqIgnoreAsciiCase (s t : String) : Bool :=
  toAsciiLowercase s == toAsciiLowercase t

/-- Every text equals itself when the case of ASCII letters is ignored. -/
theorem eqIgnoreAsciiCase_self (s : String) : eqIgnoreAsciiCase s s = true :=
  beq_self_eq_true _

/-- `str::is_ascii`: every character is below 128, and so is one byte long. -/
def IsAscii (s : String) : Prop :=
  ∀ c ∈ s.toList, c.toNat < 128

/-- Lowering the case works character by character, on ASCII letters only. -/
@[simp] theorem toList_toAsciiLowercase (s : String) :
    (toAsciiLowercase s).toList = s.toList.map Char.toLower :=
  String.toList_ofList

/-- Lowering the case of two texts in a row is lowering that of each. -/
theorem toAsciiLowercase_append (s t : String) :
    toAsciiLowercase (s ++ t) = toAsciiLowercase s ++ toAsciiLowercase t := by
  rw [← String.toList_inj]
  simp

/-- Only `A` to `Z` change, each to the letter 32 places further on. -/
theorem toLower_cases (c : Char) :
    (65 ≤ c.toNat ∧ c.toNat ≤ 90 ∧ c.toLower.toNat = c.toNat + 32) ∨ c.toLower = c := by
  by_cases hupper : c.val ≥ 'A'.val ∧ c.val ≤ 'Z'.val
  · have hlo : 65 ≤ c.toNat := hupper.1
    have hhi : c.toNat ≤ 90 := hupper.2
    have hlower : c.toLower.val = c.val + 32 :=
      congrArg Char.val (dif_pos hupper : c.toLower = _)
    have hval : c.toLower.toNat = (c.toNat + 32) % 2 ^ 32 := congrArg UInt32.toNat hlower
    exact .inl ⟨hlo, hhi, by omega⟩
  · exact .inr (dif_neg hupper)

/-- What comes before the letters is not the lower case of another character. -/
theorem toLower_eq_iff_of_lt {c d : Char} (hd : d.toNat < 65) : c.toLower = d ↔ c = d := by
  rcases toLower_cases c with ⟨hlo, -, hlower⟩ | hsame
  · constructor
    · intro h
      rw [h] at hlower
      omega
    · rintro rfl
      omega
  · rw [hsame]

/-- The dot is no letter, so lowering the case neither makes one nor removes one. -/
theorem toLower_eq_dot_iff (c : Char) : c.toLower = '.' ↔ c = '.' :=
  toLower_eq_iff_of_lt (by decide)

/-! ### Searching and splitting -/

/-- `str::trim`: the text without the white space of Unicode at its two ends. -/
def trim (s : String) : String :=
  .ofList ((s.toList.dropWhile isWhitespace).rdropWhile isWhitespace)

/-- `str::split` at a character: the parts between its occurrences, one more than there are. -/
def split (sep : Char) (s : String) : List String :=
  (s.toList.splitOnP (· == sep)).map .ofList

/-- `str::lines`: the pieces that end with a line feed, without it and without a carriage return
before it, and what follows the last of them, if anything. -/
def lines (s : String) : List String :=
  let dropCr (line : List Char) := if line.getLast? = some '\r' then line.dropLast else line
  let pieces := s.toList.splitOn '\n'
  (pieces.dropLast.map dropCr ++ pieces.getLast?.toList.filter (· ≠ [])).map .ofList

/-- `str::split_whitespace`: the nonempty pieces between white space, none for a blank text. -/
def splitWhitespace (s : String) : List String :=
  ((s.toList.splitOnP isWhitespace).filter (· ≠ [])).map .ofList

/-- The pieces of `str::splitn` on characters: at most `n`, the last one taking the rest. -/
def splitnChars : ℕ → Char → List Char → List (List Char)
  | 0, _, _ => []
  | 1, _, cs => [cs]
  | n + 2, sep, cs =>
      match cs.dropWhile (· != sep) with
      | [] => [cs]
      | _ :: rest => cs.takeWhile (· != sep) :: splitnChars (n + 1) sep rest

/-- `str::splitn`: at most so many parts. The last one is the rest, with the separators in it. -/
def splitn (n : ℕ) (sep : Char) (s : String) : List String :=
  (splitnChars n sep s.toList).map .ofList

/-- `str::starts_with`: the text begins with the characters of the other. -/
def startsWith (pre s : String) : Bool :=
  pre.toList.isPrefixOf s.toList

/-- `str::strip_prefix`: what is behind the other text, where the text begins with it. -/
def stripPrefix (pre s : String) : Option String :=
  if startsWith pre s then some (.ofList (s.toList.drop pre.toList.length)) else none

/-- `str::ends_with`: the text ends with the characters of the other. -/
def endsWith (suf s : String) : Bool :=
  suf.toList.isSuffixOf s.toList

/-- `str::contains` of a substring: the characters of the other stand in the text one after the
other. -/
def contains (sub s : String) : Bool :=
  decide (sub.toList <:+: s.toList)

/-- `str::replace` of a character: every occurrence of it gives way to the new text. -/
def replace (c : Char) (new s : String) : String :=
  .ofList (s.toList.flatMap fun d => if d = c then new.toList else [d])

/-- The characters of a replaced text: each match becomes the new text, and the others stay. -/
@[simp] theorem toList_replace (c : Char) (new s : String) :
    (replace c new s).toList = s.toList.flatMap fun d => if d = c then new.toList else [d] :=
  String.toList_ofList

/-- `str::find` of a character, as a character position; `memchr` on bytes. -/
def find {α : Type} [DecidableEq α] (c : α) (s : List α) : Option ℕ :=
  s.findIdx? (· == c)

/-- `str::rfind` of a character, as a character position. -/
def rfind (c : Char) (s : List Char) : Option ℕ :=
  (s.reverse.findIdx? (· == c)).map (s.length - 1 - ·)

/-- Splitting always gives a piece, even of an empty text. -/
theorem splitnChars_ne_nil (n : ℕ) (sep : Char) (cs : List Char) :
    splitnChars (n + 1) sep cs ≠ [] := by
  cases n with
  | zero => exact List.cons_ne_nil _ _
  | succ n =>
      rw [splitnChars]
      split <;> exact List.cons_ne_nil _ _

/-- Without a separator there is one piece. -/
theorem splitn_eq_singleton (n : ℕ) {sep : Char} {s : String} (h : sep ∉ s.toList) :
    splitn (n + 2) sep s = [s] := by
  have hnil : s.toList.dropWhile (· != sep) = [] := by
    refine List.dropWhile_eq_nil_iff.mpr fun c hc => ?_
    have hc : c ≠ sep := ne_of_mem_of_not_mem hc h
    simpa using hc
  rw [splitn, splitnChars, hnil, List.map_singleton, String.ofList_toList]

/-- The first separator ends the first piece, and what is behind it is split further. -/
theorem splitnChars_append_cons (n : ℕ) {sep : Char} {pre : List Char} (h : sep ∉ pre)
    (post : List Char) :
    splitnChars (n + 2) sep (pre ++ sep :: post) = pre :: splitnChars (n + 1) sep post := by
  have hpre : ∀ c ∈ pre, (c != sep) = true := by
    intro c hc
    have hc : c ≠ sep := ne_of_mem_of_not_mem hc h
    simpa using hc
  have hsep : (sep != sep) = false := by simp
  rw [splitnChars, List.dropWhile_append_of_pos hpre, List.dropWhile_cons, hsep,
    List.takeWhile_append_of_pos hpre, List.takeWhile_cons, hsep]
  simp

/-- The text in front of the first separator is a piece, and the rest is split further. -/
theorem splitn_append_cons (n : ℕ) {sep : Char} {pre post s : String} (h : sep ∉ pre.toList)
    (hs : s.toList = pre.toList ++ sep :: post.toList) :
    splitn (n + 2) sep s = pre :: splitn (n + 1) sep post := by
  rw [splitn, hs, splitnChars_append_cons n h, List.map_cons, String.ofList_toList, splitn]

/-- Either there is no separator and one piece, or the first separator cuts the text in two. -/
theorem splitn_cases (n : ℕ) (sep : Char) (s : String) :
    (sep ∉ s.toList ∧ splitn (n + 2) sep s = [s]) ∨
    ∃ pre post : String, sep ∉ pre.toList ∧ s.toList = pre.toList ++ sep :: post.toList ∧
      splitn (n + 2) sep s = pre :: splitn (n + 1) sep post := by
  by_cases hsep : sep ∈ s.toList
  · obtain ⟨pre, post, hsplit, hpre⟩ := List.eq_append_cons_of_mem hsep
    have hpre : sep ∉ (String.ofList pre).toList := by rwa [String.toList_ofList]
    have hsplit : s.toList = (String.ofList pre).toList ++ sep :: (String.ofList post).toList := by
      rwa [String.toList_ofList, String.toList_ofList]
    exact .inr ⟨_, _, hpre, hsplit, splitn_append_cons n hpre hsplit⟩
  · exact .inl ⟨hsep, splitn_eq_singleton n hsep⟩

/-- There is more than one piece exactly when there is a separator. -/
theorem two_le_length_splitn_iff (n : ℕ) (sep : Char) (s : String) :
    2 ≤ (splitn (n + 2) sep s).length ↔ sep ∈ s.toList := by
  rcases splitn_cases n sep s with ⟨hsep, hone⟩ | ⟨pre, post, -, hs, hsplit⟩
  · rw [hone]
    exact iff_of_false (Nat.not_succ_le_self 1) hsep
  · rw [hsplit, hs, List.length_cons, splitn, List.length_map]
    refine iff_of_true (Nat.succ_le_succ ?_) (by simp)
    exact List.length_pos_iff.mpr (splitnChars_ne_nil n sep post.toList)

/-- Of three pieces the last is what follows the second separator. -/
theorem splitn_eq_three_iff {sep : Char} {s x y z : String} :
    splitn 3 sep s = [x, y, z] ↔
      sep ∉ x.toList ∧ sep ∉ y.toList ∧
        s.toList = x.toList ++ sep :: (y.toList ++ sep :: z.toList) := by
  constructor
  · intro h
    rcases splitn_cases 1 sep s with ⟨-, hone⟩ | ⟨x', rest, hx, hs, hsplit⟩
    · cases hone.symm.trans h
    obtain ⟨rfl, hrest⟩ := List.cons.inj (hsplit.symm.trans h)
    rcases splitn_cases 0 sep rest with ⟨-, hone⟩ | ⟨y', last, hy, hrest', hsplit'⟩
    · cases hone.symm.trans hrest
    obtain ⟨rfl, hlast⟩ := List.cons.inj (hsplit'.symm.trans hrest)
    obtain rfl : last = z := by simpa [splitn, splitnChars] using hlast
    exact ⟨hx, hy, by rw [hs, hrest']⟩
  · rintro ⟨hx, hy, hs⟩
    have hrest : (String.ofList (y.toList ++ sep :: z.toList)).toList =
        y.toList ++ sep :: z.toList := String.toList_ofList
    rw [splitn_append_cons 1 hx (hrest ▸ hs), splitn_append_cons 0 hy hrest]
    simp [splitn, splitnChars]

/-- A line and its end are the first line of what follows. -/
theorem lines_append_crlf {line : String} (h : '\n' ∉ line.toList) (rest : String) :
    lines (line ++ "\r\n" ++ rest) = line :: lines rest := by
  have hchars : (line ++ "\r\n" ++ rest).toList =
      (line.toList ++ ['\r']) ++ '\n' :: rest.toList := by
    simp
  have hnotMem : '\n' ∉ line.toList ++ ['\r'] := by
    simpa using h
  have hne := List.splitOn_ne_nil '\n' rest.toList
  simp only [lines, hchars, List.splitOn_append_cons_self_of_not_mem hnotMem,
    List.dropLast_cons_of_ne_nil hne, List.getLast?_cons_of_ne_nil hne, List.map_cons,
    List.cons_append, List.getLast?_concat, if_pos, List.dropLast_concat, String.ofList_toList]

/-- Whitespace in front of a text does not change what `trim` leaves of it. -/
theorem trim_append {pre : List Char} (hpre : ∀ c ∈ pre, isWhitespace c) (s : List Char) :
    trim (.ofList (pre ++ s)) = trim (.ofList s) := by
  rw [trim, trim, String.toList_ofList, String.toList_ofList,
    List.dropWhile_append_of_pos hpre]

/-- Whitespace behind a text is trimmed away, so it does not matter how much there is. -/
theorem trim_append_right {post : List Char} (hpost : ∀ c ∈ post, isWhitespace c) (s : List Char) :
    trim (.ofList (s ++ post)) = trim (.ofList s) := by
  have hdrop : ∀ cs : List Char,
      (cs ++ post).rdropWhile isWhitespace = cs.rdropWhile isWhitespace := by
    intro cs
    have hrev : ∀ c ∈ post.reverse, isWhitespace c := fun c hc => hpost c (List.mem_reverse.mp hc)
    rw [List.rdropWhile, List.reverse_append, List.dropWhile_append_of_pos hrev, List.rdropWhile]
  rw [trim, trim, String.toList_ofList, String.toList_ofList, List.dropWhile_append]
  split_ifs with hnil
  · rw [List.isEmpty_iff] at hnil
    rw [hnil, List.dropWhile_eq_nil_iff.mpr hpost]
  · rw [hdrop]

/-- The text neither starts nor ends with whitespace. -/
structure Trimmed (s : String) : Prop where
  head : ∀ c ∈ s.toList.head?, isWhitespace c = false
  last : ∀ c ∈ s.toList.getLast?, isWhitespace c = false

/-- Trimming leaves no whitespace at either end of the text. -/
theorem trimmed_trim (s : String) : Trimmed (trim s) where
  head c hc := by
    rw [trim, String.toList_ofList] at hc
    obtain ⟨post, hpost⟩ := List.rdropWhile_prefix isWhitespace (s.toList.dropWhile isWhitespace)
    have hhead : c ∈ (s.toList.dropWhile isWhitespace).head? := by
      rw [← hpost, List.head?_append, Option.mem_def, Option.mem_def.mp hc, Option.some_or]
    have hne : s.toList.dropWhile isWhitespace ≠ [] := by
      intro hnil
      rw [hnil] at hhead
      cases hhead
    have hnot := List.head_dropWhile_not isWhitespace hne
    rwa [(List.head_eq_iff_head?_eq_some hne).mpr hhead] at hnot
  last c hc := by
    rw [trim, String.toList_ofList] at hc
    obtain ⟨hne, rfl⟩ := List.mem_getLast?_eq_getLast hc
    exact eq_false_of_ne_true (List.rdropWhile_last_not _ _ hne)

/-- Trimming keeps a text without whitespace at its ends as it is. -/
theorem Trimmed.trim_eq {s : String} (h : Trimmed s) : trim s = s := by
  have hfront : s.toList.dropWhile isWhitespace = s.toList := by
    rcases hs : s.toList with - | ⟨c, cs⟩
    · rfl
    · have hc := h.head c (by rw [hs]; rfl)
      exact List.dropWhile_cons_of_neg (ne_true_of_eq_false hc)
  have hback : s.toList.rdropWhile isWhitespace = s.toList := by
    rw [List.rdropWhile_eq_self_iff]
    intro hne
    exact ne_true_of_eq_false (h.last _ (List.getLast?_eq_some_getLast hne))
  rw [trim, hfront, hback, String.ofList_toList]

/-- A text without whitespace anywhere is its own trimmed text. -/
theorem trim_eq_self {s : String} (h : ∀ c ∈ s.toList, isWhitespace c = false) : trim s = s :=
  Trimmed.trim_eq ⟨fun c hc => h c (List.mem_of_mem_head? hc),
    fun c hc => h c (List.mem_of_getLast? hc)⟩

/-- The trimmed texts are those that trimming keeps as they are. -/
theorem trimmed_iff {s : String} : Trimmed s ↔ trim s = s :=
  ⟨Trimmed.trim_eq, fun h => h ▸ trimmed_trim s⟩

/-- What `trim` cuts off at the two ends is whitespace, and the text is what is left between
them. -/
theorem exists_trim (s : String) :
    ∃ pre post : List Char, (∀ c ∈ pre, isWhitespace c) ∧ (∀ c ∈ post, isWhitespace c) ∧
      s.toList = pre ++ ((trim s).toList ++ post) := by
  refine ⟨s.toList.takeWhile isWhitespace,
    (s.toList.dropWhile isWhitespace).rtakeWhile isWhitespace, ?_, ?_, ?_⟩
  · exact fun c hc => List.mem_takeWhile_imp hc
  · exact fun c hc => List.mem_rtakeWhile_imp hc
  · rw [trim, String.toList_ofList, List.rdropWhile_append_rtakeWhile,
      List.takeWhile_append_dropWhile]

/-- What `trim` cuts off does not matter where whitespace is dropped. -/
theorem filter_trim (s : String) :
    (trim s).toList.filter (fun c => !isWhitespace c) =
      s.toList.filter fun c => !isWhitespace c := by
  obtain ⟨pre, post, hpre, hpost, hs⟩ := exists_trim s
  have hnil : ∀ cs : List Char, (∀ c ∈ cs, isWhitespace c) →
      cs.filter (fun c => !isWhitespace c) = [] := by
    intro cs hcs
    refine List.filter_eq_nil_iff.mpr fun c hc => ?_
    rw [hcs c hc, Bool.not_true]
    exact Bool.false_ne_true
  conv_rhs => rw [hs]
  rw [List.filter_append, List.filter_append, hnil pre hpre, hnil post hpost, List.nil_append,
    List.append_nil]

/-- Text that is not all whitespace makes more of what `trim` leaves. -/
theorem length_trim_lt {s more : String} (hmore : ¬ ∀ c ∈ more.toList, isWhitespace c) :
    (trim s).toList.length < (trim (s ++ more)).toList.length := by
  cases ht : (trim s).toList with
  | nil =>
      refine List.length_pos_iff.mpr fun hnil => hmore fun c hc => ?_
      obtain ⟨pre, post, hpre, hpost, hsplit⟩ := exists_trim (s ++ more)
      rw [hnil, List.nil_append, String.toList_append] at hsplit
      have hmem : c ∈ pre ++ post := hsplit ▸ List.mem_append_right _ hc
      exact (List.mem_append.mp hmem).elim (hpre c) (hpost c)
  | cons d t =>
      obtain ⟨pre, post, hpre, -, hs⟩ := exists_trim s
      -- what is left of `more` without the whitespace at its end
      set m := more.toList.rdropWhile isWhitespace with hm
      have hne : m ≠ [] := mt List.rdropWhile_eq_nil_iff.mp hmore
      have htrimmed : Trimmed (.ofList (d :: t ++ (post ++ m))) := by
        refine ⟨fun c hc => ?_, fun c hc => ?_⟩
        · refine (trimmed_trim s).head c ?_
          rw [String.toList_ofList] at hc
          rwa [ht]
        · rw [String.toList_ofList, ← List.append_assoc, List.getLast?_append_of_ne_nil _ hne,
            List.getLast?_eq_some_getLast hne] at hc
          obtain rfl := Option.some.inj hc
          exact eq_false_of_ne_true (List.rdropWhile_last_not _ _ hne)
      have hchars : (s ++ more).toList = pre ++ ((d :: t ++ (post ++ m)) ++
          more.toList.rtakeWhile isWhitespace) := by
        rw [String.toList_append, hs, ht, hm]
        simp only [List.append_assoc, List.rdropWhile_append_rtakeWhile, List.cons_append]
      have htrim : trim (s ++ more) = .ofList (d :: t ++ (post ++ m)) := by
        rw [← String.ofList_toList (s := s ++ more), hchars, trim_append hpre,
          trim_append_right fun c hc => List.mem_rtakeWhile_imp hc, htrimmed.trim_eq]
      have hpos := List.length_pos_iff.mpr hne
      rw [htrim, String.toList_ofList, List.length_append, List.length_append]
      omega

/-- A text starts with another when the characters of that one come first in its own. -/
theorem startsWith_iff {pre s : String} : startsWith pre s ↔ pre.toList <+: s.toList :=
  List.isPrefixOf_iff_prefix

/-- A prefix is stripped from the texts that start with it. -/
theorem stripPrefix_eq_some_iff {pre s rest : String} :
    stripPrefix pre s = some rest ↔ s.toList = pre.toList ++ rest.toList := by
  rw [stripPrefix, Option.ite_none_right_eq_some, startsWith_iff, Option.some.injEq]
  constructor
  · rintro ⟨⟨post, hpost⟩, rfl⟩
    rw [String.toList_ofList, ← hpost, List.drop_left]
  · intro h
    refine ⟨⟨rest.toList, h.symm⟩, ?_⟩
    rw [h, List.drop_left, String.ofList_toList]

/-- A text that was put in front is stripped off again. -/
theorem stripPrefix_append (pre rest : String) : stripPrefix pre (pre ++ rest) = some rest :=
  stripPrefix_eq_some_iff.mpr String.toList_append

/-- Trimming makes no characters: those that are left were there before. -/
theorem mem_of_mem_trim {c : Char} {s : String} (h : c ∈ (trim s).toList) : c ∈ s.toList := by
  rw [trim, String.toList_ofList] at h
  exact (List.dropWhile_suffix _).subset ((List.rdropWhile_prefix _ _).subset h)

/-- A text that has a separator splits at the last one. -/
theorem exists_append_cons_of_mem {α : Type} {c : α} {s : List α} (h : c ∈ s) :
    ∃ pre post, s = pre ++ c :: post ∧ c ∉ post := by
  obtain ⟨post, pre, hsplit, hpost⟩ := List.eq_append_cons_of_mem (List.mem_reverse.mpr h)
  refine ⟨pre.reverse, post.reverse, ?_, by simpa using hpost⟩
  rw [← List.reverse_reverse s, hsplit]
  simp

section Pieces

variable {α : Type} [DecidableEq α] {c : α}

/-- The last pieces of a text are the pieces of its end, cut at a separator. -/
theorem splitOn_suffix_iff {xs ys : List α} :
    xs.splitOn c <:+ ys.splitOn c ↔ xs = ys ∨ c :: xs <:+ ys := by
  constructor
  · rintro ⟨pre, hpre⟩
    have hys : ys = [c].intercalate (pre ++ xs.splitOn c) := by
      rw [hpre, List.intercalate_splitOn]
    rcases pre with - | ⟨piece, pre⟩
    · rw [List.nil_append, List.intercalate_splitOn] at hys
      exact .inl hys.symm
    · right
      rw [hys]
      clear hys hpre
      induction pre generalizing piece with
      | nil =>
          rw [List.singleton_append, List.intercalate_cons_of_ne_nil (List.splitOn_ne_nil c xs),
            List.intercalate_splitOn, List.append_assoc, List.singleton_append]
          exact List.suffix_append _ _
      | cons next pre ih =>
          rw [List.cons_append, List.intercalate_cons_of_ne_nil (by simp)]
          exact (ih next).trans (List.suffix_append _ _)
  · rintro (rfl | ⟨pre, rfl⟩)
    · exact List.suffix_rfl
    · rw [List.splitOn_append_cons_self]
      exact List.suffix_append _ _

/-- A text without separators belongs to the first piece of what follows it. -/
theorem splitOn_append {pre : List α} (hpre : c ∉ pre) (xs : List α) :
    (pre ++ xs).splitOn c = (xs.splitOn c).modifyHead (pre ++ ·) := by
  obtain ⟨first, pieces, hpieces⟩ := List.exists_cons_of_ne_nil (List.splitOn_ne_nil c xs)
  rw [hpieces, List.modifyHead_cons]
  induction pre with
  | nil => exact hpieces
  | cons x pre ih =>
      obtain ⟨hx, hpre⟩ := not_or.mp (mt List.mem_cons.mpr hpre)
      rw [List.cons_append, List.splitOn_cons_eq_if_modifyHead, ih hpre,
        if_neg (by simpa using Ne.symm hx), List.modifyHead_cons, List.cons_append]

/-- What follows a text continues its last piece. -/
theorem splitOn_append_of_concat {xs opened : List α} {done : List (List α)}
    (h : xs.splitOn c = done ++ [opened]) (ys : List α) :
    (xs ++ ys).splitOn c = done ++ (ys.splitOn c).modifyHead (opened ++ ·) := by
  by_cases hc : c ∈ xs
  · obtain ⟨pre, post, rfl, hpost⟩ := exists_append_cons_of_mem hc
    rw [List.splitOn_append_cons_self, List.splitOn_eq_singleton hpost] at h
    obtain ⟨rfl, hopened⟩ := List.append_inj' h rfl
    obtain rfl : post = opened := List.cons.inj hopened |>.1
    rw [List.append_assoc, List.cons_append, List.splitOn_append_cons_self,
      splitOn_append hpost]
  · have h : [] ++ [xs] = done ++ [opened] := (List.splitOn_eq_singleton hc).symm.trans h
    obtain ⟨rfl, hopened⟩ := List.append_inj' h rfl
    obtain rfl : xs = opened := List.cons.inj hopened |>.1
    rw [splitOn_append hc, List.nil_append]

/-- Replacing characters by texts commutes with splitting, if the separator stands for itself
and nothing else brings one in. -/
theorem flatMap_splitOn {f : α → List α} (hself : f c = [c]) (hf : ∀ x, c ∈ f x → x = c)
    (xs : List α) : (xs.splitOn c).map (List.flatMap f) = (xs.flatMap f).splitOn c := by
  induction xs with
  | nil => rfl
  | cons x xs ih =>
      obtain ⟨first, pieces, hpieces⟩ := List.exists_cons_of_ne_nil (List.splitOn_ne_nil c xs)
      rw [List.flatMap_cons, List.splitOn_cons_eq_if_modifyHead]
      by_cases hx : x = c
      · subst hx
        rw [if_pos (beq_self_eq_true x), hself, List.singleton_append,
          List.splitOn_cons_eq_if_modifyHead, if_pos (beq_self_eq_true x), ← ih]
        rfl
      · rw [if_neg (by simpa using hx), splitOn_append (mt (hf x) hx), ← ih, hpieces]
        rfl

/-- A change of characters that keeps the separators commutes with splitting. -/
theorem map_splitOn {f : α → α} (hf : ∀ x, f x = c ↔ x = c) (xs : List α) :
    (xs.splitOn c).map (List.map f) = (xs.map f).splitOn c := by
  have hmap : List.map f = List.flatMap fun x => [f x] := funext fun _ => List.map_eq_flatMap
  rw [hmap]
  refine flatMap_splitOn ?_ (fun x hx => ?_) xs
  · rw [(hf c).mpr rfl]
  · exact (hf x).mp (List.mem_singleton.mp hx).symm

/-- The pieces are made of the characters of the text. -/
theorem mem_of_mem_splitOn {xs piece : List α} (h : piece ∈ xs.splitOn c) {y : α}
    (hy : y ∈ piece) : y ∈ xs := by
  induction xs generalizing piece with
  | nil =>
      rw [List.splitOn_nil, List.mem_singleton] at h
      exact h ▸ hy
  | cons x xs ih =>
      rw [List.splitOn_cons_eq_if_modifyHead] at h
      split at h
      · rcases List.mem_cons.mp h with rfl | h
        · cases hy
        · exact List.mem_cons_of_mem _ (ih h hy)
      · cases hpieces : xs.splitOn c with
        | nil => exact absurd hpieces (List.splitOn_ne_nil c xs)
        | cons first pieces =>
            rw [hpieces, List.modifyHead_cons] at h
            rcases List.mem_cons.mp h with rfl | h
            · rcases List.mem_cons.mp hy with rfl | hy
              · exact List.mem_cons_self
              · exact List.mem_cons_of_mem _ (ih (hpieces ▸ List.mem_cons_self) hy)
            · exact List.mem_cons_of_mem _ (ih (hpieces ▸ List.mem_cons_of_mem _ h) hy)

end Pieces

/-- The position found is the first: the text splits there. -/
theorem find_eq_some_iff {α : Type} [DecidableEq α] {c : α} {s : List α} {i : ℕ} :
    find c s = some i ↔ ∃ pre post, s = pre ++ c :: post ∧ c ∉ pre ∧ pre.length = i := by
  induction s generalizing i with
  | nil => simp [find]
  | cons d s ih =>
      by_cases hd : d = c
      · subst hd
        constructor
        · intro h
          simp only [find, List.findIdx?_cons, beq_self_eq_true, if_true,
            Option.some.injEq] at h
          exact ⟨[], s, rfl, List.not_mem_nil, h⟩
        · rintro ⟨pre, post, heq, hpre, rfl⟩
          rcases pre with - | ⟨e, pre⟩
          · simp [find, List.findIdx?_cons]
          · obtain rfl : d = e := by injection heq
            exact absurd List.mem_cons_self hpre
      · have hstep : find c (d :: s) = (find c s).map (· + 1) := by
          simp [find, List.findIdx?_cons, hd]
        rw [hstep, Option.map_eq_some_iff]
        constructor
        · rintro ⟨j, hj, rfl⟩
          obtain ⟨pre, post, rfl, hpre, rfl⟩ := ih.mp hj
          exact ⟨d :: pre, post, rfl, by simpa [Ne.symm hd] using hpre, rfl⟩
        · rintro ⟨pre, post, heq, hpre, rfl⟩
          rcases pre with - | ⟨e, pre⟩
          · exact absurd (by injection heq) hd
          · injection heq with he hs
            subst he
            exact ⟨pre.length, ih.mpr ⟨pre, post, hs, by simp_all, rfl⟩, rfl⟩

/-- A character is found nowhere exactly when it does not occur. -/
theorem find_eq_none_iff {α : Type} [DecidableEq α] {c : α} {s : List α} :
    find c s = none ↔ c ∉ s := by
  simp only [find, List.findIdx?_eq_none_iff, beq_eq_false_iff_ne]
  exact ⟨fun h hc => h c hc rfl, fun h x hx hxc => h (hxc ▸ hx)⟩

/-- A position found from the right is the last: the text splits there. -/
theorem rfind_append_cons {c : Char} {pre post : List Char} (hpost : c ∉ post) :
    rfind c (pre ++ c :: post) = some pre.length := by
  have hrev : (pre ++ c :: post).reverse = post.reverse ++ c :: pre.reverse := by simp
  have hf : find c (pre ++ c :: post).reverse = some post.length :=
    find_eq_some_iff.mpr ⟨post.reverse, pre.reverse, hrev, by simpa using hpost, by simp⟩
  simp only [find] at hf
  simp only [rfind, hf, Option.map_some, List.length_append, List.length_cons]
  congr 1
  omega

/-- A text is cut at its last separator. -/
theorem rfind_cut {c : Char} {s pre post : List Char} (hs : s = pre ++ c :: post)
    (hpost : c ∉ post) :
    rfind c s = some pre.length ∧ s.take pre.length = pre ∧ s.drop (pre.length + 1) = post := by
  refine ⟨?_, ?_, ?_⟩
  · rw [hs, rfind_append_cons hpost]
  · rw [hs, List.take_left' rfl]
  · rw [hs, ← List.drop_drop, List.drop_left' rfl]
    rfl

/-- A character that does not occur is not found, from whichever end the search starts. -/
theorem rfind_eq_none {c : Char} {s : List Char} (h : c ∉ s) : rfind c s = none := by
  have hf : find c s.reverse = none := find_eq_none_iff.mpr (by simpa using h)
  rw [find] at hf
  rw [rfind, hf, Option.map_none]

/-- A text splits at its first separator in one way. -/
theorem append_cons_inj_left {α : Type} [DecidableEq α] {c : α} {pre post pre' post' : List α}
    (hpre : c ∉ pre) (hpre' : c ∉ pre') (h : pre ++ c :: post = pre' ++ c :: post') :
    pre = pre' ∧ post = post' := by
  have hfind := find_eq_some_iff.mpr ⟨pre, post, rfl, hpre, rfl⟩
  have hfind' := find_eq_some_iff.mpr ⟨pre', post', rfl, hpre', rfl⟩
  rw [h, hfind', Option.some.injEq] at hfind
  obtain ⟨heq, hcons⟩ := List.append_inj h hfind.symm
  exact ⟨heq, (List.cons.inj hcons).2⟩

/-- A text splits at its last separator in one way. -/
theorem append_cons_inj_right {c : Char} {pre post pre' post' : List Char} (hpost : c ∉ post)
    (hpost' : c ∉ post') (h : pre ++ c :: post = pre' ++ c :: post') :
    pre = pre' ∧ post = post' := by
  have hrfind : rfind c (pre ++ c :: post) = _ := rfind_append_cons hpost
  rw [h, rfind_append_cons hpost', Option.some.injEq] at hrfind
  obtain ⟨heq, hcons⟩ := List.append_inj h hrfind.symm
  exact ⟨heq, (List.cons.inj hcons).2⟩

/-- What `str::find` of a character cuts a text into: what comes before the first one, and what
follows it. -/
def cut (c : Char) (s : String) : Option (String × String) :=
  (find c s.toList).map fun i => (.ofList (s.toList.take i), .ofList (s.toList.drop (i + 1)))

/-- The same with `str::rfind`, at the last one. -/
def rcut (c : Char) (s : String) : Option (String × String) :=
  (rfind c s.toList).map fun i => (.ofList (s.toList.take i), .ofList (s.toList.drop (i + 1)))

/-- A text whose first part has no separator is cut behind that part. -/
theorem cut_of_toList_eq {c : Char} {s pre post : String} (hpre : c ∉ pre.toList)
    (hs : s.toList = pre.toList ++ c :: post.toList) : cut c s = some (pre, post) := by
  have hfind := find_eq_some_iff.mpr ⟨pre.toList, post.toList, hs, hpre, rfl⟩
  have htake : s.toList.take pre.toList.length = pre.toList := by
    rw [hs, List.take_left' rfl]
  have hdrop : s.toList.drop (pre.toList.length + 1) = post.toList := by
    rw [hs, ← List.drop_drop, List.drop_left' rfl]
    rfl
  rw [cut, hfind, Option.map_some, htake, hdrop, String.ofList_toList, String.ofList_toList]

/-- A text whose last part has no separator is cut in front of that part. -/
theorem rcut_of_toList_eq {c : Char} {s pre post : String} (hpost : c ∉ post.toList)
    (hs : s.toList = pre.toList ++ c :: post.toList) : rcut c s = some (pre, post) := by
  obtain ⟨hrfind, htake, hdrop⟩ := rfind_cut hs hpost
  rw [rcut, hrfind, Option.map_some, htake, hdrop, String.ofList_toList, String.ofList_toList]

/-- A text is not cut exactly when the separator does not occur in it. -/
theorem cut_eq_none_iff {c : Char} {s : String} : cut c s = none ↔ c ∉ s.toList := by
  rw [cut, Option.map_eq_none_iff, find_eq_none_iff]

/-- Cutting at the last separator fails exactly when there is none in the text. -/
theorem rcut_eq_none_iff {c : Char} {s : String} : rcut c s = none ↔ c ∉ s.toList := by
  constructor
  · intro h hc
    obtain ⟨pre, post, hs, hpost⟩ := exists_append_cons_of_mem hc
    have hs : s.toList = (String.ofList pre).toList ++ c :: (String.ofList post).toList := by
      rwa [String.toList_ofList, String.toList_ofList]
    rw [rcut_of_toList_eq (by rwa [String.toList_ofList]) hs] at h
    cases h
  · intro h
    rw [rcut, rfind_eq_none h, Option.map_none]

/-- Where the first `c` cuts a text. -/
theorem cut_eq_some_iff {c : Char} {s pre post : String} :
    cut c s = some (pre, post) ↔
      c ∉ pre.toList ∧ s.toList = pre.toList ++ c :: post.toList := by
  constructor
  · intro h
    obtain ⟨i, hi, heq⟩ := Option.map_eq_some_iff.mp h
    obtain ⟨before, behind, hs, hbefore, rfl⟩ := find_eq_some_iff.mp hi
    obtain ⟨rfl, rfl⟩ := Prod.mk.inj heq
    rw [String.toList_ofList, String.toList_ofList, hs, List.take_left' rfl, ← List.drop_drop,
      List.drop_left' rfl]
    exact ⟨hbefore, rfl⟩
  · rintro ⟨hpre, hs⟩
    exact cut_of_toList_eq hpre hs

/-- Where the last `c` cuts a text. -/
theorem rcut_eq_some_iff {c : Char} {s pre post : String} :
    rcut c s = some (pre, post) ↔
      c ∉ post.toList ∧ s.toList = pre.toList ++ c :: post.toList := by
  constructor
  · intro h
    have hc : c ∈ s.toList := by
      by_contra hc
      rw [rcut_eq_none_iff.mpr hc] at h
      cases h
    obtain ⟨before, behind, hs, hbehind⟩ := exists_append_cons_of_mem hc
    have hs' : s.toList = (String.ofList before).toList ++ c :: (String.ofList behind).toList := by
      rwa [String.toList_ofList, String.toList_ofList]
    have hbehind' : c ∉ (String.ofList behind).toList := by
      rwa [String.toList_ofList]
    rw [rcut_of_toList_eq hbehind' hs'] at h
    obtain ⟨rfl, rfl⟩ := Prod.mk.inj (Option.some.inj h)
    exact ⟨hbehind', hs'⟩
  · rintro ⟨hpost, hs⟩
    exact rcut_of_toList_eq hpost hs

/-- Two pieces are what the first separator cuts the text into. -/
theorem splitn_two (sep : Char) (s : String) :
    splitn 2 sep s = match cut sep s with
      | some (pre, post) => [pre, post]
      | none => [s] := by
  cases h : cut sep s with
  | none => exact splitn_eq_singleton 0 (cut_eq_none_iff.mp h)
  | some cuts =>
      obtain ⟨hpre, hs⟩ := cut_eq_some_iff.mp h
      rw [splitn_append_cons 0 hpre hs, splitn, splitnChars, List.map_singleton,
        String.ofList_toList]

/-- What a split starts with: the pieces of what follows the first separator come behind. -/
theorem split_eq (sep : Char) (s : String) :
    split sep s = match cut sep s with
      | some (pre, post) => pre :: split sep post
      | none => [s] := by
  cases h : cut sep s with
  | none =>
      have hs : s.toList.splitOn sep = [s.toList] :=
        List.splitOn_eq_singleton (cut_eq_none_iff.mp h)
      have hsplit : split sep s = (s.toList.splitOn sep).map .ofList := rfl
      rw [hsplit, hs, List.map_singleton, String.ofList_toList]
  | some cuts =>
      obtain ⟨hpre, hs⟩ := cut_eq_some_iff.mp h
      have hsplit : split sep s = (s.toList.splitOn sep).map .ofList := rfl
      rw [hsplit, hs, List.splitOn_append_cons_self_of_not_mem hpre, List.map_cons,
        String.ofList_toList]
      rfl

/-! ### Integers -/

/-- `std::num::IntErrorKind`, as far as unsigned parsing reports it. -/
inductive IntErrorKind
  | empty
  | invalidDigit
  | posOverflow
deriving DecidableEq, Repr

/-- The text of a `ParseIntError`, which the errors of the rules quote. -/
def IntErrorKind.text : IntErrorKind → String
  | .empty => "cannot parse integer from empty string"
  | .invalidDigit => "invalid digit found in string"
  | .posOverflow => "number too large to fit in target type"

/-- `char::to_digit(10)`: the value of a decimal digit of ASCII. -/
def toDigit (c : Char) : Option ℕ :=
  if c.isDigit then some (c.toNat - '0'.toNat) else none

/-- The digit loop of `from_str_radix`: each digit is checked before the sum it overflows. -/
def parseDigits (max : ℕ) : ℕ → List Char → Except IntErrorKind ℕ
  | acc, [] => .ok acc
  | acc, c :: cs =>
      match toDigit c with
      | none => .error .invalidDigit
      | some d => if 10 * acc + d ≤ max then parseDigits max (10 * acc + d) cs
          else .error .posOverflow

/-- `str::parse` at an unsigned type with largest value `max`. A single leading `+` is
accepted, and is an invalid digit alone. -/
def parseUnsigned (max : ℕ) (s : List Char) : Except IntErrorKind ℕ :=
  match s with
  | [] => .error .empty
  | ['+'] => .error .invalidDigit
  | '+' :: cs => parseDigits max 0 cs
  | cs => parseDigits max 0 cs

/-- `str::parse::<u16>`: a decimal number of 16 bits, with a plus sign at most before it. -/
def parseU16 (s : String) : Except IntErrorKind UInt16 :=
  (parseUnsigned 65535 s.toList).map UInt16.ofNat

/-- `str::parse::<u32>`: a decimal number of 32 bits, with a plus sign at most before it. -/
def parseU32 (s : String) : Except IntErrorKind UInt32 :=
  (parseUnsigned 4294967295 s.toList).map UInt32.ofNat

/-- `str::parse::<u64>`, with the value as a natural number. -/
def parseU64 (s : String) : Except IntErrorKind ℕ :=
  parseUnsigned 18446744073709551615 s.toList

/-- The value of digits is at least the value of those already read. -/
theorem le_ofDigitChars (cs : List Char) (acc : ℕ) : acc ≤ Nat.ofDigitChars 10 cs acc := by
  rw [Nat.ofDigitChars_eq_ofDigitChars_zero]
  calc acc ≤ 10 ^ cs.length * acc := Nat.le_mul_of_pos_left _ (Nat.pow_pos (by omega))
    _ ≤ 10 ^ cs.length * acc + Nat.ofDigitChars 10 cs 0 := Nat.le_add_right _ _

/-- A list of digits is read as its value when the value fits. -/
theorem parseDigits_eq_ok {max acc : ℕ} {cs : List Char} (hcs : ∀ c ∈ cs, c.isDigit)
    (hmax : Nat.ofDigitChars 10 cs acc ≤ max) :
    parseDigits max acc cs = .ok (Nat.ofDigitChars 10 cs acc) := by
  induction cs generalizing acc with
  | nil => simp [parseDigits]
  | cons c cs ih =>
      have hc : c.isDigit := hcs c List.mem_cons_self
      rw [Nat.ofDigitChars_cons] at hmax ⊢
      -- the running value never exceeds the final one
      have hle : 10 * acc + (c.toNat - '0'.toNat) ≤ max := (le_ofDigitChars cs _).trans hmax
      simp only [parseDigits, toDigit, hc, if_true, if_pos hle]
      exact ih (fun d hd => hcs d (List.mem_cons_of_mem _ hd)) hmax

/-- Only lists of digits are read, and only when their value fits. -/
theorem parseDigits_eq_ok_iff {max acc n : ℕ} {cs : List Char} (hacc : acc ≤ max) :
    parseDigits max acc cs = .ok n ↔
      (∀ c ∈ cs, c.isDigit) ∧ Nat.ofDigitChars 10 cs acc ≤ max ∧
        n = Nat.ofDigitChars 10 cs acc := by
  constructor
  · intro h
    suffices hfits : (∀ c ∈ cs, c.isDigit) ∧ Nat.ofDigitChars 10 cs acc ≤ max by
      rw [parseDigits_eq_ok hfits.1 hfits.2] at h
      exact ⟨hfits.1, hfits.2, (Except.ok.inj h).symm⟩
    induction cs generalizing acc with
    | nil => exact ⟨List.forall_mem_nil _, hacc⟩
    | cons c cs ih =>
        rw [parseDigits, toDigit] at h
        split_ifs at h with hc
        simp only at h
        split_ifs at h with hle
        obtain ⟨hcs, hmax⟩ := ih hle h
        exact ⟨List.forall_mem_cons.mpr ⟨hc, hcs⟩, hmax⟩
  · rintro ⟨hcs, hmax, rfl⟩
    exact parseDigits_eq_ok hcs hmax

/-- What is read is digits, behind a `+` or not, and their value. -/
theorem parseUnsigned_eq_ok {max n : ℕ} {s : List Char} (h : parseUnsigned max s = .ok n) :
    ∃ digits, digits ≠ [] ∧ (s = digits ∨ s = '+' :: digits) ∧ (∀ c ∈ digits, c.isDigit) ∧
      n = Nat.ofDigitChars 10 digits 0 := by
  unfold parseUnsigned at h
  split at h
  · cases h
  · cases h
  · next cs hne =>
      obtain ⟨hcs, -, hn⟩ := (parseDigits_eq_ok_iff (Nat.zero_le max)).mp h
      exact ⟨cs, fun hnil => hne (by rw [hnil]), .inr rfl, hcs, hn⟩
  · next cs hne _ _ =>
      obtain ⟨hcs, -, hn⟩ := (parseDigits_eq_ok_iff (Nat.zero_le max)).mp h
      exact ⟨s, hne, .inl rfl, hcs, hn⟩

/-- A printed number is made of digits. -/
theorem isDigit_of_mem_repr {c : Char} {n : ℕ} (h : c ∈ n.repr.toList) : c.isDigit := by
  rw [Nat.toList_repr] at h
  exact Nat.isDigit_of_mem_toDigits (by omega) (by omega) h

/-- A number written in decimal has digits only, so no other character occurs in it. -/
theorem notMem_repr {c : Char} (hc : c.isDigit = false) (n : ℕ) : c ∉ n.repr.toList :=
  fun h => ne_true_of_eq_false hc (isDigit_of_mem_repr h)

/-- No digit is whitespace, so trimming stops at digits. -/
theorem isWhitespace_of_isDigit {c : Char} (h : c.isDigit) : isWhitespace c = false := by
  have hlo : 48 ≤ c.toNat := (Char.isDigit_iff_toNat.mp h).1
  have hhi : c.toNat ≤ 57 := (Char.isDigit_iff_toNat.mp h).2
  simp only [isWhitespace, Bool.or_eq_false_iff, Bool.and_eq_false_iff, decide_eq_false_iff_not,
    beq_eq_false_iff_ne]
  omega

/-- A number written in decimal has no whitespace at its ends. -/
theorem trimmed_repr (n : ℕ) : Trimmed n.repr where
  head _ hc := isWhitespace_of_isDigit (isDigit_of_mem_repr (List.mem_of_mem_head? hc))
  last _ hc := isWhitespace_of_isDigit (isDigit_of_mem_repr (List.mem_of_getLast? hc))

/-- A printed number within the bound parses back to itself. -/
theorem parseUnsigned_repr {max n : ℕ} (h : n ≤ max) :
    parseUnsigned max n.repr.toList = .ok n := by
  have hdig : ∀ c ∈ Nat.toDigits 10 n, c.isDigit := fun c hc =>
    Nat.isDigit_of_mem_toDigits (by omega) (by omega) hc
  have hval : Nat.ofDigitChars 10 (Nat.toDigits 10 n) 0 = n :=
    Nat.ofDigitChars_toDigits (by omega) (by omega)
  have hparse : parseDigits max 0 (Nat.toDigits 10 n) = .ok n := by
    rw [parseDigits_eq_ok hdig (by rw [hval]; exact h), hval]
  rw [Nat.toList_repr]
  have hne : Nat.toDigits 10 n ≠ [] := Nat.toDigits_ne_nil
  unfold parseUnsigned
  split
  · exact absurd ‹_› hne
  · have := hdig '+' (by simp [*])
    simp at this
  · have := hdig '+' (by simp [*])
    simp at this
  · exact hparse

/-- A printed port parses back to itself. -/
theorem parseU16_repr (p : UInt16) : parseU16 (Nat.repr p.toNat) = .ok p := by
  have hp : p.toNat ≤ 65535 := by have := p.toNat_lt; omega
  rw [parseU16, parseUnsigned_repr hp]
  simp [Except.map]

end Rust
