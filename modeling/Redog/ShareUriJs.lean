import Redog.ShareUri

/-!
# Share links in the web frontend

When the backend call fails the frontend reads a subscription itself, with a parser of its own
for share links. This one takes a query off a Shadowsocks link too, insists on a port, rejects
a link whose name does not decode, and reads ports with `parseInt`.

Numbers of JavaScript are doubles. `parseInt` makes integers, infinities and not-a-number.

## Main results

* `sameResult_iff`: for which links both parsers give the same.
-/

namespace Redog.ShareUri

open Rust

/-! ### Numbers -/

/-- What `parseInt` can return, with one zero. -/
inductive Number
  | nan
  | int (n : ℤ)
  | infinity (negative : Bool)
deriving DecidableEq

/-- The nearest integer that has 53 significant bits, the even one of two. -/
def roundToDouble (n : ℕ) : ℕ :=
  if n < 1 <<< 53 then n
  else
    let unit := 1 <<< (n.log2 - 52)
    let roundUp := unit < 2 * (n % unit) ∨ (2 * (n % unit) = unit ∧ n / unit % 2 = 1)
    (if roundUp then n / unit + 1 else n / unit) * unit

/-- The double nearest to an integer with this sign and value. -/
def Number.ofNat (negative : Bool) (n : ℕ) : Number :=
  if 1 <<< 1024 ≤ roundToDouble n then .infinity negative
  else .int (if negative then -roundToDouble n else roundToDouble n)

/-- The characters `trim` and `parseInt` skip: white space and line ends, and the mark of the byte
order. -/
def isJsWhitespace (c : Char) : Bool :=
  (isWhitespace c && c != '\u0085') || c == '\uFEFF'

/-- `\s*`: what is left of the characters behind whitespace. -/
def skipSpace (s : List Char) : List Char := s.dropWhile isJsWhitespace

/-- `String.prototype.trim`, on the characters of a text. -/
def trimmed (s : List Char) : List Char := (skipSpace s).rdropWhile isJsWhitespace

/-- `String.prototype.trim`: the text without the white space of JavaScript at its two ends. -/
def jsTrim (s : String) : String := .ofList (trimmed s.toList)

/-- The value of a digit of the radix. -/
def radixDigit (radix : ℕ) (c : Char) : Option ℕ :=
  let value :=
    if c.isDigit then some (c.toNat - '0'.toNat)
    else if c.isLower then some (c.toNat - 'a'.toNat + 10)
    else if c.isUpper then some (c.toNat - 'A'.toNat + 10)
    else none
  value.filter (· < radix)

/-- The radix, and the text behind its mark. -/
def splitRadix (s : List Char) : ℕ × List Char :=
  match s with
  | '0' :: 'x' :: rest => (16, rest)
  | '0' :: 'X' :: rest => (16, rest)
  | s => (10, s)

/-- `parseInt` behind the sign: the digits of the radix up to the first character that is none.
Without a digit it is not a number. -/
def parseMagnitude (negative : Bool) (s : List Char) : Number :=
  let (radix, s) := splitRadix s
  let digits := s.takeWhile fun c => (radixDigit radix c).isSome
  if digits = [] then .nan
  else .ofNat negative (digits.foldl (fun n c => radix * n + (radixDigit radix c).getD 0) 0)

/-- `parseInt`: leading blanks and one sign are skipped, and the digits are read up to the first
other character. -/
def parseInt (s : String) : Number :=
  match s.toList.dropWhile isJsWhitespace with
  | '-' :: rest => parseMagnitude true rest
  | '+' :: rest => parseMagnitude false rest
  | rest => parseMagnitude false rest

/-- `n || default`: the default takes the place of zero and of what is not a number. -/
def Number.orDefault (n : Number) (default : ℕ) : Number :=
  if n = .nan ∨ n = .int 0 then .int default else n

/-- Only zero is rounded to zero, so the default takes the place of no other number. -/
theorem roundToDouble_eq_zero_iff {n : ℕ} : roundToDouble n = 0 ↔ n = 0 := by
  rw [roundToDouble]
  split_ifs with hsmall
  · rfl
  · have hn : n ≠ 0 := by
      rintro rfl
      exact hsmall (by decide)
    have hunit : 1 <<< (n.log2 - 52) = 2 ^ (n.log2 - 52) := by
      rw [Nat.shiftLeft_eq, Nat.one_mul]
    have hpos : 0 < 1 <<< (n.log2 - 52) := hunit ▸ Nat.two_pow_pos _
    have hle : 1 <<< (n.log2 - 52) ≤ n :=
      hunit ▸ (Nat.pow_le_pow_right Nat.two_pos (Nat.sub_le _ _)).trans (Nat.log2_self_le hn)
    have hquotient : 0 < n / 1 <<< (n.log2 - 52) := Nat.div_pos hle hpos
    refine iff_of_false (fun hzero => ?_) hn
    rcases Nat.mul_eq_zero.mp hzero with h | h
    · split_ifs at h
      exact hquotient.ne' h
    · exact hpos.ne' h

/-- A text of decimal digits has no radix mark in front, and so it is read in base ten. -/
theorem splitRadix_digits {digits : List Char} (hdigits : ∀ c ∈ digits, c.isDigit) :
    splitRadix digits = (10, digits) := by
  unfold splitRadix
  split
  · have hx := hdigits 'x' (by simp)
    cases hx
  · have hx := hdigits 'X' (by simp)
    cases hx
  · rfl

/-- Decimal digits are all read: the number is the double nearest to their value, with the sign
given. -/
theorem parseMagnitude_digits {digits : List Char} (hne : digits ≠ [])
    (hdigits : ∀ c ∈ digits, c.isDigit) (negative : Bool) :
    parseMagnitude negative digits = .ofNat negative (Nat.ofDigitChars 10 digits 0) := by
  have hvalue : ∀ c ∈ digits, radixDigit 10 c = some (c.toNat - '0'.toNat) := by
    intro c hc
    have hhi : c.toNat ≤ 57 := (Char.isDigit_iff_toNat.mp (hdigits c hc)).2
    have hlt : c.toNat - '0'.toNat < 10 := by
      show c.toNat - 48 < 10
      omega
    rw [radixDigit, if_pos (hdigits c hc), Option.filter_some, if_pos (decide_eq_true hlt)]
  have htake : digits.takeWhile (fun c => (radixDigit 10 c).isSome) = digits := by
    refine List.takeWhile_eq_self_iff.mpr fun c hc => ?_
    rw [hvalue c hc, Option.isSome_some]
  have hfold : digits.foldl (fun n c => 10 * n + (radixDigit 10 c).getD 0) 0 =
      Nat.ofDigitChars 10 digits 0 := by
    rw [Nat.ofDigitChars_eq_foldl]
    refine List.foldl_ext _ _ _ fun n c hc => ?_
    rw [hvalue c hc, Option.getD_some]
  simp only [parseMagnitude, splitRadix_digits hdigits, htake, hfold, if_neg hne]

/-! ### The parser -/

/-- What the parser uses of the web platform. Both functions throw where they give `none`. -/
class Web where
  atob : String → Option String
  decodeURIComponent : String → Option String

/-- The node the frontend builds, without the random identifier. -/
structure JsNode where
  name : String
  type : String
  server : String
  port : Number
  password : String
  cipher : String
  tls : Bool
deriving DecidableEq

namespace Js

section Parser

variable [Web]

/-- The decoded name behind the first `#`, or the default where there is none. Decoding may
throw. -/
def nameOf (default rest : String) : Option String :=
  match cut '#' rest with
  | some (_, fragment) => Web.decodeURIComponent fragment
  | none => some default

/-- The part in front of the first `#`, the whole text where there is none. -/
def beforeName (rest : String) : String :=
  match cut '#' rest with
  | some (main, _) => main
  | none => rest

/-- The server and the port of `hostPort`; without a port there is no node. -/
def splitPort (default : ℕ) (hostPort : String) : Option (String × Number) :=
  match split ':' hostPort with
  | server :: port :: _ => some (server, (parseInt port).orDefault default)
  | _ => none

/-- `parseShareUri` on a Shadowsocks link: the name, then the query, are cut off, and only the rest
is decoded. -/
def parseSs (rest : String) : Option JsNode := do
  let name ← nameOf "SS Node" rest
  let main := beforeName rest
  let main := match cut '?' main with
    | some (front, _) => front
    | none => main
  let decoded := (Web.atob main).getD main
  let (userInfo, hostPort) ← rcut '@' decoded
  let (cipher, password) := (cut ':' userInfo).getD ("aes-256-gcm", userInfo)
  let (server, port) ← splitPort 0 hostPort
  return { name, type := "ss", server, port, password, cipher, tls := false }

/-- `parseShareUri` on a Trojan link: a link without `@` or without a port gives no node. -/
def parseTrojan (without : String) : Option JsNode := do
  let (password, rest) ← cut '@' without
  let name ← nameOf "Trojan" rest
  let hp := (split '?' (beforeName rest)).head?.getD ""
  let (server, port) ← splitPort 443 hp
  return { name, type := "trojan", server, port, password, cipher := "", tls := true }

/-- `uri.length`, in UTF-16 code units: characters beyond the first plane count twice. -/
def length (s : String) : ℕ :=
  s.toList.foldr (fun c n => n + if c.toNat < 65536 then 1 else 2) 0

/-- The frontend's parser on links of these two kinds. -/
def parseShareUri (uri : String) : Option JsNode :=
  if length uri < 6 then none
  else
    match stripPrefix "ss://" uri with
    | some rest => parseSs rest
    | none => (stripPrefix "trojan://" uri).bind parseTrojan

end Parser

end Js

/-! ### Ports -/

/-- `parseInt` reads what the backend reads as a number. -/
theorem parseInt_of_parseU64 {p : String} {n : ℕ} (h : parseU64 p = .ok n) :
    parseInt p = .ofNat false n ∧ ':' ∉ p.toList := by
  obtain ⟨digits, hne, hp, hdigits, rfl⟩ := parseUnsigned_eq_ok h
  obtain ⟨d, rest, rfl⟩ := List.exists_cons_of_ne_nil hne
  have hd : d.isDigit := hdigits d List.mem_cons_self
  have hcolon : ':' ∉ d :: rest := fun hmem => absurd (hdigits ':' hmem) (by decide)
  have hmagnitude := parseMagnitude_digits hne hdigits false
  rcases hp with hp | hp
  · have hspace : isJsWhitespace d = false := by
      have hfeff : d ≠ '\uFEFF' := by
        rintro rfl
        exact absurd hd (by decide)
      rw [isJsWhitespace, isWhitespace_of_isDigit hd, Bool.false_and, Bool.false_or]
      exact beq_eq_false_iff_ne.mpr hfeff
    refine ⟨?_, hp ▸ hcolon⟩
    rw [parseInt, hp, List.dropWhile_cons_of_neg (ne_true_of_eq_false hspace)]
    split
    · next heq =>
        obtain rfl := (List.cons.inj heq).1
        cases hd
    · next heq =>
        obtain rfl := (List.cons.inj heq).1
        cases hd
    · exact hmagnitude
  · refine ⟨?_, ?_⟩
    · rw [parseInt, hp, List.dropWhile_cons_of_neg (by decide)]
      exact hmagnitude
    · rw [hp]
      exact List.not_mem_cons_of_ne_of_not_mem (by decide) hcolon

/-- The part in front of a second colon, which the frontend drops. -/
def beforeColon (p : String) : String :=
  match cut ':' p with
  | some (port, _) => port
  | none => p

/-- Both parsers read the same from what follows the first colon of an address: a number that is
a double and, when a default stands for it, not zero; or no number for the backend, and for the
frontend neither, or zero, or the default itself. -/
def SamePort (default : ℕ) (p : String) : Prop :=
  match parseU64 p with
  | .ok n => Number.ofNat false n = .int n ∧ (n = 0 → default = 0)
  | .error _ => parseInt (beforeColon p) ∈ [.nan, .int 0, .int default]

/-- The default results from no number, from zero, and from a number that is the default itself. -/
theorem orDefault_eq_int_iff {n : Number} {default : ℕ} :
    n.orDefault default = .int default ↔ n ∈ [.nan, .int 0, .int default] := by
  rw [Number.orDefault]
  split_ifs with h
  · refine iff_of_true rfl ?_
    rcases h with rfl | rfl <;> simp
  · obtain ⟨hnan, hzero⟩ := not_or.mp h
    simp [hnan, hzero]

/-- A natural number read as a double is a number: a large one becomes infinite, none becomes
`NaN`. -/
theorem ofNat_ne_nan (negative : Bool) (n : ℕ) : Number.ofNat negative n ≠ .nan := by
  rw [Number.ofNat]
  split_ifs <;> exact Number.noConfusion

/-- Rounding to a double makes zero of no other number, so `||` replaces nothing but zero here. -/
theorem ofNat_eq_zero_iff {n : ℕ} : Number.ofNat false n = .int 0 ↔ n = 0 := by
  rw [← roundToDouble_eq_zero_iff, Number.ofNat]
  by_cases hbig : 1 <<< 1024 ≤ roundToDouble n
  · rw [if_pos hbig]
    refine iff_of_false (fun h => by cases h) fun hzero => ?_
    rw [hzero] at hbig
    exact absurd hbig (by decide)
  · rw [if_neg hbig, if_neg Bool.false_ne_true, Number.int.injEq, Int.natCast_eq_zero]

/-- The port the frontend reads is the one the backend reads exactly when the text is a
`SamePort`. -/
theorem samePort_iff {default : ℕ} {p : String} :
    (parseInt (beforeColon p)).orDefault default =
      .int ((parseU64 p).toOption.getD default : ℕ) ↔ SamePort default p := by
  rw [SamePort]
  cases hparse : parseU64 p with
  | error e => exact orDefault_eq_int_iff
  | ok n =>
      obtain ⟨hparseInt, hcolon⟩ := parseInt_of_parseU64 hparse
      have hbefore : beforeColon p = p := by
        rw [beforeColon, cut_eq_none_iff.mpr hcolon]
      rw [hbefore, hparseInt]
      show (Number.ofNat false n).orDefault default = .int n ↔ _
      by_cases hzero : n = 0
      · subst hzero
        rw [Number.orDefault, if_pos (.inr (ofNat_eq_zero_iff.mpr rfl)), Number.int.injEq,
          Int.natCast_inj]
        exact ⟨fun h => ⟨ofNat_eq_zero_iff.mpr rfl, fun _ => h⟩, fun h => h.2 rfl⟩
      · have hneither : ¬ (Number.ofNat false n = .nan ∨ Number.ofNat false n = .int 0) :=
          not_or.mpr ⟨ofNat_ne_nan false n, mt ofNat_eq_zero_iff.mp hzero⟩
        rw [Number.orDefault, if_neg hneither]
        exact ⟨fun h => ⟨h, fun h' => absurd h' hzero⟩, fun h => h.1⟩

/-- The address has a port, and both parsers read the same one. -/
def AddressAlike (default : ℕ) (hostPort : String) : Prop :=
  ∃ server p, cut ':' hostPort = some (server, p) ∧ SamePort default p

/-- The backend cuts the address at its first colon, and without one it takes the whole as the
server. -/
theorem splitPort_eq (default : ℕ) (hostPort : String) :
    splitPort default hostPort = match cut ':' hostPort with
      | some (server, p) => (server, (parseU64 p).toOption.getD default)
      | none => (hostPort, default) := by
  rw [splitPort, splitn_two]
  cases cut ':' hostPort <;> rfl

/-- The frontend reads the port between the first two colons, and without a colon it has no
address. -/
theorem Js.splitPort_eq (default : ℕ) (hostPort : String) :
    Js.splitPort default hostPort = (cut ':' hostPort).map fun (server, p) =>
      (server, (parseInt (beforeColon p)).orDefault default) := by
  rw [Js.splitPort, split_eq]
  cases cut ':' hostPort with
  | none => rfl
  | some cuts =>
      obtain ⟨server, p⟩ := cuts
      simp only [Option.map_some, beforeColon]
      rw [split_eq]
      cases cut ':' p <;> rfl

/-- Both parsers read the same server and port exactly when the two addresses are alike. -/
theorem splitPort_eq_iff {default : ℕ} {hostPort : String} :
    Js.splitPort default hostPort =
      some ((splitPort default hostPort).1, .int (splitPort default hostPort).2) ↔
        AddressAlike default hostPort := by
  rw [Js.splitPort_eq, splitPort_eq]
  cases hcut : cut ':' hostPort with
  | none =>
      refine iff_of_false (fun h => by cases h) ?_
      rintro ⟨server, p, h, -⟩
      rw [hcut] at h
      cases h
  | some cuts =>
      obtain ⟨server, p⟩ := cuts
      simp only [Option.map_some, Option.some.injEq, Prod.mk.injEq, true_and, samePort_iff]
      constructor
      · exact fun h => ⟨server, p, hcut, h⟩
      · rintro ⟨server', p', h, hport⟩
        rw [hcut] at h
        obtain ⟨-, rfl⟩ := Prod.mk.inj (Option.some.inj h)
        exact hport

/-! ### Nodes -/

/-- The two nodes are equal, apart from the identifier. -/
structure SameNode (n : Node) (j : JsNode) : Prop where
  name : n.name = j.name
  type : n.type = j.type
  server : n.server = j.server
  port : j.port = .int n.port
  password : n.password = j.password
  cipher : n.cipher = j.cipher
  tls : n.tls = j.tls

/-- Both parsers reject the link, or they produce the same node. -/
def SameResult : Option Node → Option JsNode → Prop
  | none, none => True
  | some n, some j => SameNode n j
  | _, _ => False

/-- Where the backend rejects a link the frontend has the same result only by rejecting it too. -/
theorem sameResult_none_iff {j : Option JsNode} : SameResult none j ↔ j = none := by
  cases j with
  | none => exact iff_of_true trivial rfl
  | some j => exact iff_of_false (fun h => h) (Option.some_ne_none j)

section Links

variable [Codecs] [Web]

/-- The name behind `#`, if there is one, decodes. -/
def NameDecodes (rest : String) : Prop :=
  ∀ cuts ∈ cut '#' rest, (Codecs.urlDecode cuts.2).isSome

omit [Web] in
/-- Both parsers take the same part in front of the name: what precedes the first `#`. -/
theorem splitName_fst (default rest : String) :
    (splitName default rest).1 = Js.beforeName rest := by
  rw [splitName, Js.beforeName]
  cases cut '#' rest <;> rfl

/-- Either the name decodes and both parsers read the same, or the frontend rejects the link, as its
decoder throws. -/
theorem nameOf_cases (hweb : ∀ s, Web.decodeURIComponent s = Codecs.urlDecode s)
    (default rest : String) :
    (NameDecodes rest ∧ Js.nameOf default rest = some (splitName default rest).2) ∨
      (¬ NameDecodes rest ∧ Js.nameOf default rest = none) := by
  rw [NameDecodes, Js.nameOf, splitName]
  cases cut '#' rest with
  | none => exact .inl ⟨fun cuts h => absurd h (Option.not_mem_none cuts), rfl⟩
  | some cuts =>
      simp only [Option.mem_some_iff, forall_eq', hweb]
      cases Codecs.urlDecode cuts.2 with
      | none => exact .inr ⟨Bool.false_ne_true, rfl⟩
      | some name => exact .inl ⟨rfl, rfl⟩

/-- What makes a node of the backend and the result of the frontend the same, part by part. -/
theorem sameResult_some_iff (hweb : ∀ s, Web.decodeURIComponent s = Codecs.urlDecode s)
    (default rest type : String) (address : String × ℕ) (address' : Option (String × Number))
    (credentials credentials' : String × String) (tls : Bool) :
    SameResult
      (some ⟨(splitName default rest).2, type, address.1, address.2, credentials.2,
        credentials.1, tls⟩)
      ((Js.nameOf default rest).bind fun name => address'.map fun a =>
        ⟨name, type, a.1, a.2, credentials'.2, credentials'.1, tls⟩) ↔
      NameDecodes rest ∧ address' = some (address.1, .int address.2) ∧
        credentials = credentials' := by
  obtain ⟨hname, hnameOf⟩ | ⟨hname, hnameOf⟩ := nameOf_cases hweb default rest
  · rw [hnameOf, Option.bind_some]
    cases address' with
    | none => exact iff_of_false (fun h => h) fun h => by cases h.2.1
    | some a =>
        constructor
        · intro h
          exact ⟨hname, congrArg some (Prod.ext h.server.symm h.port),
            Prod.ext h.cipher h.password⟩
        · rintro ⟨-, ⟨⟩, rfl⟩
          exact ⟨rfl, rfl, rfl, rfl, rfl, rfl, rfl⟩
  · rw [hnameOf, Option.bind_none]
    exact iff_of_false (fun h => h) fun h => hname h.1

/-! ### Trojan links -/

/-- The address of a Trojan link, without the query. -/
def trojanAddress (rest : String) : String :=
  match cut '?' (Js.beforeName rest) with
  | some (address, _) => address
  | none => Js.beforeName rest

/-- For which Trojan links both parsers give the same: those without `@`, and those whose name
decodes and whose port is read alike. -/
def TrojanAlike (without : String) : Prop :=
  ∀ cuts ∈ cut '@' without, NameDecodes cuts.2 ∧ AddressAlike 443 (trojanAddress cuts.2)

omit [Codecs] [Web] in
/-- The first piece of a split text is what precedes the first question mark, or all of it. -/
theorem head?_split (s default : String) :
    (split '?' s).head?.getD default = match cut '?' s with
      | some (front, _) => front
      | none => s := by
  rw [split_eq]
  cases cut '?' s <;> rfl

/-- The parsers agree on a Trojan link exactly when its text is `TrojanAlike`; the cases are the
cuts they make. -/
theorem sameResult_trojan_iff (hweb : ∀ s, Web.decodeURIComponent s = Codecs.urlDecode s)
    (without : String) :
    SameResult (parseTrojan without) (Js.parseTrojan without) ↔ TrojanAlike without := by
  rw [TrojanAlike]
  cases hcut : cut '@' without with
  | none =>
      have hrust : parseTrojan without = none := by simp [parseTrojan, hcut]
      have hjs : Js.parseTrojan without = none := by simp [Js.parseTrojan, hcut]
      rw [hrust, hjs]
      exact iff_of_true trivial fun cuts h => absurd h (Option.not_mem_none cuts)
  | some cuts =>
      obtain ⟨password, rest⟩ := cuts
      set address := trojanAddress rest with haddress
      have hrust : parseTrojan without = some ⟨(splitName "Trojan" rest).2, "trojan",
          (splitPort 443 address).1, (splitPort 443 address).2, password, "", true⟩ := by
        have hhead := head?_split (Js.beforeName rest) (Js.beforeName rest)
        simp only [parseTrojan, hcut, Option.bind_eq_bind, Option.bind_some, splitName_fst, hhead]
        rfl
      have hjs : Js.parseTrojan without = (Js.nameOf "Trojan" rest).bind fun name =>
          (Js.splitPort 443 address).map fun a =>
            ⟨name, "trojan", a.1, a.2, password, "", true⟩ := by
        have hhead := head?_split (Js.beforeName rest) ""
        simp only [Js.parseTrojan, hcut, Option.bind_eq_bind, Option.bind_some, hhead,
          Option.map_eq_bind]
        rfl
      have hiff := sameResult_some_iff hweb "Trojan" rest "trojan" (splitPort 443 address)
        (Js.splitPort 443 address) ("", password) ("", password) true
      rw [hrust, hjs, hiff, splitPort_eq_iff]
      simp [haddress]

/-! ### Shadowsocks links -/

/-- The method and the password of a text, as both parsers split it. -/
def credentialsOf (userInfo : String) : String × String :=
  (cut ':' userInfo).getD ("aes-256-gcm", userInfo)

omit [Codecs] [Web] in
/-- A longer text has other credentials, provided that the default method does not start like
it: before its first colon there is a character this method does not have. -/
theorem credentialsOf_ne {s t : String} (hlength : t.toList.length < s.toList.length)
    (hmark : ':' ∉ t.toList → ∃ front : String, front.toList <+: s.toList ∧
      ':' ∉ front.toList ∧ ('@' ∈ front.toList ∨ '?' ∈ front.toList)) :
    credentialsOf s ≠ credentialsOf t := by
  intro heq
  rw [credentialsOf, credentialsOf] at heq
  cases hs : cut ':' s with
  | none =>
      cases ht : cut ':' t with
      | none =>
          rw [hs, ht, Option.getD_none, Option.getD_none] at heq
          rw [(Prod.mk.inj heq).2] at hlength
          exact lt_irrefl _ hlength
      | some cuts =>
          rw [hs, ht, Option.getD_none, Option.getD_some] at heq
          obtain ⟨-, htext⟩ := cut_eq_some_iff.mp (heq ▸ ht)
          rw [htext, List.length_append, List.length_cons] at hlength
          omega
  | some cuts =>
      obtain ⟨-, hstext⟩ := cut_eq_some_iff.mp hs
      cases ht : cut ':' t with
      | none =>
          obtain ⟨front, hfront, hcolon, hmark⟩ := hmark (cut_eq_none_iff.mp ht)
          rw [hs, ht, Option.getD_some, Option.getD_none] at heq
          have hle := length_le_of_cut hs hcolon hfront
          have hstart : front.toList <+: cuts.1.toList :=
            List.prefix_of_prefix_length_le hfront ⟨_, hstext.symm⟩ hle
          rw [(Prod.mk.inj heq).1] at hstart
          rcases hmark with hmark | hmark
          · exact absurd (hstart.subset hmark) (by simp)
          · exact absurd (hstart.subset hmark) (by simp)
      | some cuts' =>
          rw [hs, ht, Option.getD_some, Option.getD_some] at heq
          obtain ⟨-, httext⟩ := cut_eq_some_iff.mp ht
          rw [hstext, httext, heq] at hlength
          exact lt_irrefl _ hlength

omit [Web] in
/-- The backend's parser after its first step, with the decoded text a variable: the last `@` cuts
it. -/
theorem parseSs_eq (rest decoded : String)
    (h : (base64Decode (Js.beforeName rest)).getD (Js.beforeName rest) = decoded) :
    parseSs rest = (rcut '@' decoded).map fun (userInfo, hostPort) =>
      ⟨(splitName "SS Node" rest).2, "ss", (splitPort 0 hostPort).1, (splitPort 0 hostPort).2,
        (credentialsOf userInfo).2, (credentialsOf userInfo).1, false⟩ := by
  simp only [parseSs, splitName_fst, h, Option.map_eq_bind]
  rfl

/-- The part of a Shadowsocks link that the frontend decodes. -/
def beforeQuery (rest : String) : String :=
  match cut '?' (Js.beforeName rest) with
  | some (front, _) => front
  | none => Js.beforeName rest

omit [Codecs] in
/-- The frontend's parser after its first step: it decodes only what precedes the query. -/
theorem Js.parseSs_eq (rest decoded : String)
    (h : (Web.atob (beforeQuery rest)).getD (beforeQuery rest) = decoded) :
    Js.parseSs rest = (rcut '@' decoded).bind fun (userInfo, hostPort) =>
      (Js.nameOf "SS Node" rest).bind fun name => (Js.splitPort 0 hostPort).map fun a =>
        ⟨name, "ss", a.1, a.2, (credentialsOf userInfo).2, (credentialsOf userInfo).1, false⟩ := by
  simp only [Js.parseSs, beforeQuery] at h ⊢
  simp only [h]
  cases Js.nameOf "SS Node" rest with
  | none => cases rcut '@' decoded <;> rfl
  | some name =>
      cases rcut '@' decoded with
      | none => rfl
      | some cuts =>
          simp only [Option.bind_eq_bind, Option.bind_some, Option.map_eq_bind]
          rfl

/-- For which Shadowsocks links both parsers give the same. Without a query they split the same
text: the name has to decode and the port to be read alike, if there is a node at all. A query
must not have an `@`. When the part in front of it decodes, the backend finds no node, and the
frontend must not find one either. Otherwise the backend takes the query for a part of the port
and reads none. -/
def SsAlike (rest : String) : Prop :=
  match cut '?' (Js.beforeName rest) with
  | none =>
      let main := Js.beforeName rest
      ∀ cuts ∈ rcut '@' ((base64Decode main).getD main), NameDecodes rest ∧ AddressAlike 0 cuts.2
  | some (front, query) =>
      '@' ∉ query.toList ∧
        match base64Decode front with
        | some decoded =>
            ∀ cuts ∈ rcut '@' decoded, ¬ (NameDecodes rest ∧ ':' ∈ cuts.2.toList)
        | none =>
            ∀ cuts ∈ rcut '@' front, NameDecodes rest ∧
              ∃ server p, cut ':' cuts.2 = some (server, p) ∧
                parseInt (beforeColon p) ∈ [.nan, .int 0]

/-- Both parsers split the same decoded text, so they agree exactly when the link is one they treat
alike. -/
theorem sameResult_ss_iff_of_decoded (hweb : ∀ s, Web.decodeURIComponent s = Codecs.urlDecode s)
    {rest decoded : String}
    (hrust : (base64Decode (Js.beforeName rest)).getD (Js.beforeName rest) = decoded)
    (hjs : (Web.atob (beforeQuery rest)).getD (beforeQuery rest) = decoded) :
    SameResult (parseSs rest) (Js.parseSs rest) ↔
      ∀ cuts ∈ rcut '@' decoded, NameDecodes rest ∧ AddressAlike 0 cuts.2 := by
  rw [parseSs_eq rest decoded hrust, Js.parseSs_eq rest decoded hjs]
  cases rcut '@' decoded with
  | none => exact iff_of_true trivial fun cuts h => absurd h (Option.not_mem_none cuts)
  | some cuts =>
      have hiff := sameResult_some_iff hweb "SS Node" rest "ss" (splitPort 0 cuts.2)
        (Js.splitPort 0 cuts.2) (credentialsOf cuts.1) (credentialsOf cuts.1) false
      simp only [Option.map_some, Option.bind_some, Option.mem_some_iff, forall_eq']
      rw [hiff, splitPort_eq_iff, and_iff_left rfl]

omit [Codecs] [Web] in
/-- A question mark in front of the name ends what the frontend takes for the decoded part. -/
theorem beforeQuery_of_cut {rest front query : String}
    (hquery : cut '?' (Js.beforeName rest) = some (front, query)) : beforeQuery rest = front := by
  rw [beforeQuery, hquery]

omit [Web] in
/-- The backend reads a link with a query as it is. -/
theorem getD_base64Decode_of_cut (hcodecs : Codecs.DecodesBase64) {rest front query : String}
    (hquery : cut '?' (Js.beforeName rest) = some (front, query)) :
    (base64Decode (Js.beforeName rest)).getD (Js.beforeName rest) = Js.beforeName rest := by
  obtain ⟨-, hmain⟩ := cut_eq_some_iff.mp hquery
  have hnone : base64Decode (Js.beforeName rest) = none :=
    base64Decode_eq_none hcodecs (c := '?') (by rw [hmain]; simp) rfl rfl
  rw [hnone, Option.getD_none]

/-- A query with an `@`: the backend splits at this one, and its credentials are too long. -/
theorem not_sameResult_ss_of_mem (hcodecs : Codecs.DecodesBase64)
    (hweb : ∀ s, Web.decodeURIComponent s = Codecs.urlDecode s)
    (hatob : ∀ s, Web.atob s = base64Decode s) {rest front query : String}
    (hquery : cut '?' (Js.beforeName rest) = some (front, query)) (hat : '@' ∈ query.toList) :
    ¬ SameResult (parseSs rest) (Js.parseSs rest) := by
  obtain ⟨-, hmain⟩ := cut_eq_some_iff.mp hquery
  obtain ⟨pre, post, hsplit, hpost⟩ := exists_append_cons_of_mem hat
  -- the backend's credentials
  have hcut : rcut '@' (Js.beforeName rest) =
      some (.ofList (front.toList ++ '?' :: pre), .ofList post) := by
    refine rcut_eq_some_iff.mpr ⟨by rwa [String.toList_ofList], ?_⟩
    rw [hmain, hsplit, String.toList_ofList, String.toList_ofList, List.append_assoc,
      List.cons_append]
  rw [parseSs_eq rest _ (getD_base64Decode_of_cut hcodecs hquery), hcut, Js.parseSs_eq rest _ rfl,
    hatob, beforeQuery_of_cut hquery, Option.map_some]
  cases hjs : rcut '@' ((base64Decode front).getD front) with
  | none => exact fun h => h
  | some cuts =>
      rw [Option.bind_some]
      have hiff := sameResult_some_iff hweb "SS Node" rest "ss" (splitPort 0 (.ofList post))
        (Js.splitPort 0 cuts.2) (credentialsOf (.ofList (front.toList ++ '?' :: pre)))
        (credentialsOf cuts.1) false
      rw [hiff]
      rintro ⟨-, -, heq⟩
      obtain ⟨-, htext⟩ := rcut_eq_some_iff.mp hjs
      cases hdecode : base64Decode front with
      | some decoded =>
          rw [hdecode, Option.getD_some] at htext
          obtain ⟨hsymbols, hlength⟩ := base64Decode_eq_some hcodecs hdecode
          refine credentialsOf_ne ?_ (fun _ => ⟨.ofList (front.toList ++ ['?']), ?_, ?_, ?_⟩) heq
          · rw [htext, List.length_append, List.length_cons] at hlength
            rw [String.toList_ofList, List.length_append]
            omega
          · rw [String.toList_ofList, String.toList_ofList]
            exact ⟨pre, List.append_assoc _ _ _⟩
          · rw [String.toList_ofList, List.mem_append, not_or]
            refine ⟨fun hcolon => ?_, by simp⟩
            rcases hsymbols ':' hcolon with h | h <;> exact absurd h (by decide)
          · exact .inr (by simp)
      | none =>
          rw [hdecode, Option.getD_none] at htext
          refine credentialsOf_ne ?_
            (fun hcolon => ⟨.ofList (cuts.1.toList ++ ['@']), ?_, ?_, ?_⟩) heq
          · rw [String.toList_ofList, List.length_append, htext, List.length_append,
              List.length_cons]
            omega
          · rw [String.toList_ofList, String.toList_ofList, htext]
            exact ⟨cuts.2.toList ++ '?' :: pre, by simp⟩
          · rw [String.toList_ofList, List.mem_append, not_or]
            exact ⟨hcolon, by simp⟩
          · exact .inl (by simp)

/-- A query without an `@` behind a part that decodes: the backend finds no node. -/
theorem sameResult_ss_iff_of_some (hcodecs : Codecs.DecodesBase64)
    (hweb : ∀ s, Web.decodeURIComponent s = Codecs.urlDecode s)
    (hatob : ∀ s, Web.atob s = base64Decode s) {rest front query decoded : String}
    (hquery : cut '?' (Js.beforeName rest) = some (front, query)) (hat : '@' ∉ query.toList)
    (hdecode : base64Decode front = some decoded) :
    SameResult (parseSs rest) (Js.parseSs rest) ↔
      ∀ cuts ∈ rcut '@' decoded, ¬ (NameDecodes rest ∧ ':' ∈ cuts.2.toList) := by
  obtain ⟨-, hmain⟩ := cut_eq_some_iff.mp hquery
  obtain ⟨hsymbols, -⟩ := base64Decode_eq_some hcodecs hdecode
  have hfront : '@' ∉ front.toList := by
    intro hmem
    rcases hsymbols '@' hmem with h | h <;> exact absurd h (by decide)
  have hcut : rcut '@' (Js.beforeName rest) = none := by
    rw [rcut_eq_none_iff, hmain]
    simp [hfront, hat]
  rw [parseSs_eq rest _ (getD_base64Decode_of_cut hcodecs hquery), hcut, Js.parseSs_eq rest _ rfl,
    hatob, beforeQuery_of_cut hquery, hdecode, Option.map_none, sameResult_none_iff,
    Option.getD_some]
  cases rcut '@' decoded with
  | none => exact iff_of_true rfl fun cuts h => absurd h (Option.not_mem_none cuts)
  | some cuts =>
      simp only [Option.bind_some, Option.mem_some_iff, forall_eq']
      obtain ⟨hname, hnameOf⟩ | ⟨hname, hnameOf⟩ := nameOf_cases hweb "SS Node" rest
      · rw [hnameOf, Option.bind_some, Option.map_eq_none_iff, Js.splitPort_eq,
          Option.map_eq_none_iff, cut_eq_none_iff]
        exact ⟨fun hcolon h => hcolon h.2, fun h hcolon => h ⟨hname, hcolon⟩⟩
      · rw [hnameOf, Option.bind_none]
        exact iff_of_true rfl fun h => hname h.1

omit [Codecs] [Web] in
/-- The backend reads no port from a text with a query. -/
theorem parseU64_of_mem {p : String} (h : '?' ∈ p.toList) : (parseU64 p).toOption = none := by
  cases hparse : parseU64 p with
  | error e => rfl
  | ok n =>
      obtain ⟨digits, -, hp, hdigits, -⟩ := parseUnsigned_eq_ok hparse
      rcases hp with hp | hp
      · rw [hp] at h
        exact absurd (hdigits '?' h) (by decide)
      · rw [hp] at h
        rcases List.mem_cons.mp h with h | h
        · cases h
        · exact absurd (hdigits '?' h) (by decide)

/-- A query without an `@` behind a part that does not decode: the backend takes it for a part of
the address. -/
theorem sameResult_ss_iff_of_none (hcodecs : Codecs.DecodesBase64)
    (hweb : ∀ s, Web.decodeURIComponent s = Codecs.urlDecode s)
    (hatob : ∀ s, Web.atob s = base64Decode s) {rest front query : String}
    (hquery : cut '?' (Js.beforeName rest) = some (front, query)) (hat : '@' ∉ query.toList)
    (hdecode : base64Decode front = none) :
    SameResult (parseSs rest) (Js.parseSs rest) ↔
      ∀ cuts ∈ rcut '@' front, NameDecodes rest ∧
        ∃ server p, cut ':' cuts.2 = some (server, p) ∧
          parseInt (beforeColon p) ∈ [.nan, .int 0] := by
  obtain ⟨-, hmain⟩ := cut_eq_some_iff.mp hquery
  rw [parseSs_eq rest _ (getD_base64Decode_of_cut hcodecs hquery), Js.parseSs_eq rest _ rfl,
    hatob, beforeQuery_of_cut hquery, hdecode, Option.getD_none]
  cases hsplit : rcut '@' front with
  | none =>
      have hcut : rcut '@' (Js.beforeName rest) = none := by
        rw [rcut_eq_none_iff, hmain]
        simp [rcut_eq_none_iff.mp hsplit, hat]
      rw [hcut]
      exact iff_of_true trivial fun cuts h => absurd h (Option.not_mem_none cuts)
  | some cuts =>
      obtain ⟨userInfo, hostPort⟩ := cuts
      obtain ⟨hhostPort, hfront⟩ := rcut_eq_some_iff.mp hsplit
      set long := String.ofList (hostPort.toList ++ '?' :: query.toList) with hlong
      have hcut : rcut '@' (Js.beforeName rest) = some (userInfo, long) := by
        refine rcut_eq_some_iff.mpr ⟨?_, ?_⟩
        · rw [hlong, String.toList_ofList]
          simp [hhostPort, hat]
        · rw [hmain, hfront, hlong, String.toList_ofList, List.append_assoc, List.cons_append]
      have hiff := sameResult_some_iff hweb "SS Node" rest "ss" (splitPort 0 long)
        (Js.splitPort 0 hostPort) (credentialsOf userInfo) (credentialsOf userInfo) false
      simp only [hcut, Option.map_some, Option.bind_some, Option.mem_some_iff, forall_eq']
      rw [hiff, and_iff_left rfl, Js.splitPort_eq, splitPort_eq]
      refine and_congr_right fun _ => ?_
      cases hcolon : cut ':' hostPort with
      | none =>
          refine iff_of_false (fun h => by cases h) ?_
          rintro ⟨server, p, h, -⟩
          cases h
      | some address =>
          obtain ⟨server, p⟩ := address
          obtain ⟨hserver, hhost⟩ := cut_eq_some_iff.mp hcolon
          have hlongColon : cut ':' long =
              some (server, .ofList (p.toList ++ '?' :: query.toList)) := by
            refine cut_eq_some_iff.mpr ⟨hserver, ?_⟩
            rw [hlong, String.toList_ofList, String.toList_ofList, hhost, List.append_assoc,
              List.cons_append]
          have hnoPort := parseU64_of_mem
            (p := .ofList (p.toList ++ '?' :: query.toList)) (by simp)
          rw [hlongColon]
          simp only [hnoPort, Option.getD_none, Option.map_some, Option.some.injEq,
            Prod.mk.injEq, true_and, orDefault_eq_int_iff]
          have hzero : parseInt (beforeColon p) ∈ [Number.nan, .int 0, .int (0 : ℕ)] ↔
              parseInt (beforeColon p) ∈ [Number.nan, .int 0] := by
            simp
          rw [hzero]
          constructor
          · exact fun h => ⟨server, p, ⟨rfl, rfl⟩, h⟩
          · rintro ⟨server', p', ⟨rfl, rfl⟩, h⟩
            exact h

/-- The parsers agree on a Shadowsocks link exactly when its text is `SsAlike`; the cases are the
decodings that succeed. -/
theorem sameResult_ss_iff (hcodecs : Codecs.DecodesBase64)
    (hweb : ∀ s, Web.decodeURIComponent s = Codecs.urlDecode s)
    (hatob : ∀ s, Web.atob s = base64Decode s) (rest : String) :
    SameResult (parseSs rest) (Js.parseSs rest) ↔ SsAlike rest := by
  rw [SsAlike]
  cases hquery : cut '?' (Js.beforeName rest) with
  | none =>
      have hbefore : beforeQuery rest = Js.beforeName rest := by
        rw [beforeQuery, hquery]
      exact sameResult_ss_iff_of_decoded hweb rfl (by rw [hatob, hbefore])
  | some cuts =>
      obtain ⟨front, query⟩ := cuts
      by_cases hat : '@' ∈ query.toList
      · exact iff_of_false (not_sameResult_ss_of_mem hcodecs hweb hatob hquery hat)
          fun h => h.1 hat
      · simp only [hat, not_false_iff, true_and]
        cases hdecode : base64Decode front with
        | some decoded => exact sameResult_ss_iff_of_some hcodecs hweb hatob hquery hat hdecode
        | none => exact sameResult_ss_iff_of_none hcodecs hweb hatob hquery hat hdecode

/-! ### All links -/

omit [Codecs] [Web] in
/-- The length in UTF-16 units is additive, because each character has its units to itself. -/
theorem Js.length_append (pre s : String) : length (pre ++ s) = length pre + length s := by
  rw [length, String.toList_append, List.foldr_append]
  show List.foldr _ (length s) pre.toList = List.foldr _ 0 pre.toList + length s
  induction pre.toList with
  | nil => exact (Nat.zero_add _).symm
  | cons c cs ih => rw [List.foldr_cons, List.foldr_cons, ih, Nat.add_right_comm]

omit [Codecs] [Web] in
/-- Only the empty text has no UTF-16 unit, since each character has one or two. -/
theorem Js.length_eq_zero_iff {s : String} : length s = 0 ↔ s = "" := by
  rw [length, ← String.toList_eq_nil_iff]
  cases s.toList with
  | nil => exact iff_of_true rfl rfl
  | cons c cs =>
      refine iff_of_false (fun h => ?_) (List.cons_ne_nil c cs)
      rw [List.foldr_cons] at h
      split_ifs at h

/-- The shortest link is too short for the frontend, and has no node anyway. -/
theorem Js.parseShareUri_ss (hcodecs : Codecs.DecodesBase64)
    (hatob : ∀ s, Web.atob s = base64Decode s) (rest : String) :
    Js.parseShareUri ("ss://" ++ rest) = Js.parseSs rest := by
  have hlength : Js.length ("ss://" ++ rest) = 5 + Js.length rest := Js.length_append _ _
  rw [Js.parseShareUri, stripPrefix_append, hlength]
  split_ifs with hshort
  · obtain rfl : rest = "" := Js.length_eq_zero_iff.mp (by omega)
    have hdecoded : (Web.atob (beforeQuery "")).getD (beforeQuery "") = "" := by
      show (Web.atob "").getD "" = ""
      rw [hatob]
      cases hdecode : base64Decode "" with
      | none => rfl
      | some decoded =>
          have hle := (base64Decode_eq_some hcodecs hdecode).2
          exact String.toList_eq_nil_iff.mp (List.length_eq_zero_iff.mp (Nat.le_zero.mp hle))
    rw [Js.parseSs_eq "" "" hdecoded]
    rfl
  · rfl

omit [Codecs] in
/-- A link that starts with the Trojan scheme is parsed by the frontend's Trojan parser. -/
theorem Js.parseShareUri_trojan (rest : String) :
    Js.parseShareUri ("trojan://" ++ rest) = Js.parseTrojan rest := by
  have hlength : Js.length ("trojan://" ++ rest) = 9 + Js.length rest := Js.length_append _ _
  have hss : stripPrefix "ss://" ("trojan://" ++ rest) = none := by
    simp [stripPrefix, startsWith]
  rw [Js.parseShareUri, hlength, if_neg (by omega), hss, stripPrefix_append]
  rfl

/-- The condition on links of the two kinds. -/
def LinkAlike (uri : String) : Prop :=
  match stripPrefix "ss://" uri with
  | some rest => SsAlike rest
  | none => ∀ without ∈ stripPrefix "trojan://" uri, TrojanAlike without

/-- **For which links both parsers give the same.** -/
theorem sameResult_iff (hcodecs : Codecs.DecodesBase64)
    (hweb : ∀ s, Web.decodeURIComponent s = Codecs.urlDecode s)
    (hatob : ∀ s, Web.atob s = base64Decode s) (uri : String)
    (huri : startsWith "ss://" uri ∨ startsWith "trojan://" uri) :
    SameResult (parseShareUri uri) (Js.parseShareUri uri) ↔ LinkAlike uri := by
  have happend : ∀ pre : String, startsWith pre uri → ∃ rest, uri = pre ++ rest := by
    intro pre h
    obtain ⟨rest, hrest⟩ := startsWith_iff.mp h
    refine ⟨.ofList rest, String.toList_inj.mp ?_⟩
    rw [String.toList_append, String.toList_ofList, hrest]
  rcases huri with h | h
  · obtain ⟨rest, rfl⟩ := happend "ss://" h
    rw [parseShareUri_ss, Js.parseShareUri_ss hcodecs hatob, LinkAlike, stripPrefix_append]
    exact sameResult_ss_iff hcodecs hweb hatob rest
  · obtain ⟨rest, rfl⟩ := happend "trojan://" h
    have hss : stripPrefix "ss://" ("trojan://" ++ rest) = none := by
      simp [stripPrefix, startsWith]
    rw [parseShareUri_trojan, Js.parseShareUri_trojan, LinkAlike, hss, stripPrefix_append]
    simp only [Option.mem_some_iff, forall_eq']
    exact sameResult_trojan_iff hweb rest

end Links

/-! ### A link without a port -/

/-- A web platform whose decoders agree with the crates. -/
@[reducible] def plainWeb : Web where
  atob := @base64Decode plainNameCodecs
  decodeURIComponent := some

/-- A Trojan link with a port: the link is alike, and the two parsers read the same node. -/
theorem sameResult_iff_withPort :
    letI := plainNameCodecs
    letI := plainWeb
    startsWith "trojan://" "trojan://pw@example.com:443" ∧
    (SameResult (parseShareUri "trojan://pw@example.com:443")
      (Js.parseShareUri "trojan://pw@example.com:443") ↔
      LinkAlike "trojan://pw@example.com:443") := by
  let _ := plainNameCodecs
  let _ := plainWeb
  have hstart : startsWith "trojan://" "trojan://pw@example.com:443" := by decide
  exact ⟨hstart, sameResult_iff plainNameCodecs_lawful.toDecodesBase64 (fun _ => rfl)
    (fun _ => rfl) _ (.inr hstart)⟩

/-- A Trojan link without a port: the backend takes the default port, the frontend rejects it. -/
theorem not_sameResult :
    letI := plainNameCodecs
    letI := plainWeb
    ¬ ∀ uri, startsWith "ss://" uri ∨ startsWith "trojan://" uri →
      SameResult (parseShareUri uri) (Js.parseShareUri uri) := by
  intro h
  have hsame := h "trojan://pw@example.com" (.inr (by decide))
  have hrust : @parseShareUri plainNameCodecs "trojan://pw@example.com" =
      some ⟨"Trojan", "trojan", "example.com", 443, "pw", "", true⟩ := by
    decide +kernel
  have hjs : @Js.parseShareUri plainWeb "trojan://pw@example.com" = none := by
    decide +kernel
  rw [hrust, hjs] at hsame
  exact hsame

end Redog.ShareUri
