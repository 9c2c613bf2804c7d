import Redog.Api
import Redog.Base64
import Redog.Text

/-!
# Share links

A node can be imported from a link. For Shadowsocks the link holds the method, the password and
the address, either as they are or all of them in base64; a link that does not decode is read as
it is. For Trojan it holds the password and the address as they are. A name may follow behind
`#`, percent-encoded.

Base64 and percent encoding are those of two crates; what the results need of them is stated in
`Codecs.Lawful`.

## Main results

* `parseShareUri_link`: a node is read back from its links.
* `parseShareUri_userInfo_ne`: it is not, when the credentials alone are encoded.
-/

namespace Redog.ShareUri

open Rust

/-! ### The parser -/

/-- What the parser uses of the crates `base64`, `urlencoding` and `serde_json`. -/
class Codecs where
  /-- `STANDARD.decode` -/
  standard : String → Option (List UInt8)
  /-- `STANDARD_NO_PAD.decode` -/
  standardNoPad : String → Option (List UInt8)
  /-- `STANDARD.encode` -/
  encode : List UInt8 → String
  /-- `urlencoding::decode` -/
  urlDecode : String → Option String
  /-- `urlencoding::encode` -/
  urlEncode : String → String
  /-- `serde_json::from_str` -/
  fromJson : String → Option Json

/-- The JSON object of a node, with the fields that the import gives it. -/
structure Node where
  name : String
  type : String
  server : String
  port : ℕ
  password : String
  cipher : String
  tls : Bool
deriving DecidableEq

/-- The characters of base64 are no whitespace, so trimming leaves such a text as it is. -/
theorem isWhitespace_of_isSymbol {c : Char} (h : Base64.isSymbol c) : isWhitespace c = false := by
  obtain ⟨hlo, hhi⟩ := Base64.toNat_of_isSymbol h
  simp only [isWhitespace, Bool.or_eq_false_iff, Bool.and_eq_false_iff, decide_eq_false_iff_not,
    beq_eq_false_iff_ne]
  omega

section Parser

variable [Codecs]

/-- `base64_decode`: blanks are dropped, both standard alphabets are tried, and the bytes have to be
UTF-8. -/
def base64Decode (input : String) : Option String :=
  let cleaned := .ofList ((trim input).toList.filter fun c => !isWhitespace c)
  ((Codecs.standard cleaned).or (Codecs.standardNoPad cleaned)).bind fromUtf8

/-- The part in front of `#`, and the name behind it. -/
def splitName (default rest : String) : String × String :=
  match cut '#' rest with
  | some (main, fragment) => (main, (Codecs.urlDecode fragment).getD "")
  | none => (rest, default)

/-- The server and the port of `host_port`. -/
def splitPort (default : ℕ) (hostPort : String) : String × ℕ :=
  let parts := splitn 2 ':' hostPort
  (parts.head?.getD "", (parts[1]?.bind fun p => (parseU64 p).toOption).getD default)

/-- `parse_share_uri` on a Shadowsocks link, behind the scheme: the part in front of `#` is decoded,
and taken as it stands when it does not decode. -/
def parseSs (rest : String) : Option Node := do
  let (main, name) := splitName "SS Node" rest
  let decoded := (base64Decode main).getD main
  let (userInfo, hostPort) ← rcut '@' decoded
  let (cipher, password) := (cut ':' userInfo).getD ("aes-256-gcm", userInfo)
  let (server, port) := splitPort 0 hostPort
  return { name, type := "ss", server, port, password, cipher, tls := false }

/-- `Value::as_str`: the text of a value that is a string, nothing for any other value. -/
def asStr : Json → Option String
  | .string s => some s
  | _ => none

/-- `parse_share_uri` on a VMess link: a Base64 text of a JSON object, with a default for every
field it may leave out. -/
def parseVmess (rest : String) : Option Node := do
  let jsonStr ← base64Decode rest
  let obj ← Codecs.fromJson jsonStr
  let port := (obj.field "port").bind fun value =>
    match value with
    | .string s => (parseU64 s).toOption
    | .number n => some n
    | _ => none
  return {
    name := (((obj.field "ps").or (obj.field "remark")).bind asStr).getD "VMess"
    type := "vmess"
    server := ((obj.field "add").bind asStr).getD ""
    port := port.getD 0
    password := ((obj.field "id").bind asStr).getD ""
    cipher := ((obj.field "scy").bind asStr).getD "auto"
    tls := (obj.field "tls").bind asStr == some "tls" }

/-- `parse_share_uri` on a Trojan link: the password, the address in front of a query, and the name
behind `#`. -/
def parseTrojan (without : String) : Option Node := do
  let (password, rest) ← cut '@' without
  let (hostPort, name) := splitName "Trojan" rest
  let hp := (split '?' hostPort).head?.getD hostPort
  let (server, port) := splitPort 443 hp
  return { name, type := "trojan", server, port, password, cipher := "", tls := true }

/-- `parse_share_uri`: the scheme in front of the link chooses the parser; any other link is no
node. -/
def parseShareUri (uri : String) : Option Node :=
  match stripPrefix "ss://" uri with
  | some rest => parseSs rest
  | none =>
      match stripPrefix "vmess://" uri with
      | some rest => parseVmess rest
      | none => (stripPrefix "trojan://" uri).bind parseTrojan

/-- A link that starts with the Shadowsocks scheme is parsed as one, from behind the scheme. -/
theorem parseShareUri_ss (rest : String) : parseShareUri ("ss://" ++ rest) = parseSs rest := by
  rw [parseShareUri, stripPrefix_append]

/-- A link that starts with the Trojan scheme is parsed as one: the other two schemes do not fit
it. -/
theorem parseShareUri_trojan (rest : String) :
    parseShareUri ("trojan://" ++ rest) = parseTrojan rest := by
  have hss : stripPrefix "ss://" ("trojan://" ++ rest) = none := by
    simp [stripPrefix, startsWith]
  have hvmess : stripPrefix "vmess://" ("trojan://" ++ rest) = none := by
    simp [stripPrefix, startsWith]
  rw [parseShareUri, hss, hvmess, stripPrefix_append]
  rfl

/-! ### What the crates do -/

/-- Only texts in the alphabet of base64 are decoded, and none stands for more bytes than it has
characters. -/
structure Codecs.DecodesBase64 : Prop where
  standard_eq_some : ∀ s bytes, Codecs.standard s = some bytes →
    (∀ c ∈ s.toList, Base64.isSymbol c) ∧ bytes.length ≤ s.toList.length
  standardNoPad_eq_some : ∀ s bytes, Codecs.standardNoPad s = some bytes →
    (∀ c ∈ s.toList, Base64.isSymbol c) ∧ bytes.length ≤ s.toList.length

/-- Moreover base64 is written in its alphabet, and both decoders undo their encoders. -/
structure Codecs.Lawful : Prop extends Codecs.DecodesBase64 where
  standard_encode : ∀ bytes, Codecs.standard (Codecs.encode bytes) = some bytes
  isSymbol_of_mem_encode : ∀ bytes, ∀ c ∈ (Codecs.encode bytes).toList, Base64.isSymbol c
  urlDecode_urlEncode : ∀ s, Codecs.urlDecode (Codecs.urlEncode s) = some s

/-- The bytes of a text in base64, as the writer of a link encodes them. -/
def base64Encode (s : String) : String :=
  Codecs.encode (utf8 s)

/-- Every text survives the encoding: the encoded text has no blank to drop and decodes to the same
UTF-8. -/
theorem base64Decode_base64Encode (hcodecs : Codecs.Lawful) (s : String) :
    base64Decode (base64Encode s) = some s := by
  have hspace : ∀ c ∈ (base64Encode s).toList, isWhitespace c = false := fun c hc =>
    isWhitespace_of_isSymbol (hcodecs.isSymbol_of_mem_encode (utf8 s) c hc)
  have hfilter : (base64Encode s).toList.filter (fun c => !isWhitespace c) =
      (base64Encode s).toList :=
    List.filter_eq_self.mpr fun c hc => by rw [hspace c hc, Bool.not_false]
  have hdecode : Codecs.standard (base64Encode s) = some (utf8 s) :=
    hcodecs.standard_encode (utf8 s)
  simp only [base64Decode, trim_eq_self hspace, hfilter, String.ofList_toList, hdecode,
    Option.some_or, Option.bind_some, fromUtf8_utf8]

/-- What is decoded is whitespace and base64, and at least as long as what it stands for. -/
theorem base64Decode_eq_some (hcodecs : Codecs.DecodesBase64) {s text : String}
    (h : base64Decode s = some text) :
    (∀ c ∈ s.toList, isWhitespace c ∨ Base64.isSymbol c) ∧
      text.toList.length ≤ s.toList.length := by
  obtain ⟨bytes, hbytes, htext⟩ := Option.bind_eq_some_iff.mp h
  obtain ⟨pre, post, hpre, hpost, hs⟩ := exists_trim s
  set kept := (trim s).toList.filter fun c => !isWhitespace c with hkept
  have hcleaned : (∀ c ∈ kept, Base64.isSymbol c) ∧ bytes.length ≤ kept.length := by
    have hor := Option.or_eq_some_iff.mp hbytes
    rw [← String.toList_ofList (l := kept)]
    rcases hor with hstandard | ⟨-, hnoPad⟩
    · exact hcodecs.standard_eq_some _ _ hstandard
    · exact hcodecs.standardNoPad_eq_some _ _ hnoPad
  obtain ⟨hsymbols, hlength⟩ := hcleaned
  constructor
  · intro c hc
    cases hspace : isWhitespace c with
    | true => exact .inl rfl
    | false =>
        refine .inr (hsymbols c (List.mem_filter.mpr ⟨?_, by rw [hspace, Bool.not_false]⟩))
        rw [hs, List.mem_append, List.mem_append] at hc
        rcases hc with hc | hc | hc
        · exact absurd (hpre c hc) (ne_true_of_eq_false hspace)
        · exact hc
        · exact absurd (hpost c hc) (ne_true_of_eq_false hspace)
  · rw [fromUtf8_eq_some_iff.mp htext] at hlength
    calc text.toList.length ≤ (utf8 text).length := length_le_length_utf8 text
      _ ≤ kept.length := hlength
      _ ≤ (trim s).toList.length := List.length_filter_le _ _
      _ ≤ s.toList.length := by
        rw [hs, List.length_append, List.length_append]
        omega

/-- A text with a character that is neither a blank nor a Base64 symbol decodes to nothing. -/
theorem base64Decode_eq_none (hcodecs : Codecs.DecodesBase64) {s : String} {c : Char}
    (hc : c ∈ s.toList) (hspace : isWhitespace c = false) (hsymbol : Base64.isSymbol c = false) :
    base64Decode s = none := by
  rw [Option.eq_none_iff_forall_ne_some]
  intro text h
  rcases (base64Decode_eq_some hcodecs h).1 c hc with hc | hc
  · exact ne_true_of_eq_false hspace hc
  · exact ne_true_of_eq_false hsymbol hc

/-- The encoding never shortens a text, counted in characters: each character has at least one byte
to encode. -/
theorem length_le_length_base64Encode (hcodecs : Codecs.Lawful) (s : String) :
    s.toList.length ≤ (base64Encode s).toList.length :=
  (base64Decode_eq_some hcodecs.toDecodesBase64 (base64Decode_base64Encode hcodecs s)).2

/-! ### Links -/

omit [Codecs] in
/-- A server without a colon and a port written in decimal are read back as they were. -/
theorem splitPort_append (default : ℕ) {host : String} (hhost : ':' ∉ host.toList) {port : ℕ}
    (hport : port ≤ 65535) : splitPort default (host ++ ":" ++ port.repr) = (host, port) := by
  have hcut : cut ':' (host ++ ":" ++ port.repr) = some (host, port.repr) :=
    cut_eq_some_iff.mpr ⟨hhost, by simp⟩
  have hparse : parseU64 port.repr = .ok port :=
    parseUnsigned_repr (hport.trans (by decide))
  rw [splitPort, splitn_two, hcut]
  simp [hparse, Except.toOption]

/-- A name that was encoded behind `#` is decoded again, when the part in front has no `#`. -/
theorem splitName_append (hcodecs : Codecs.Lawful) (default : String) {main : String}
    (hmain : '#' ∉ main.toList) (name : String) :
    splitName default (main ++ "#" ++ Codecs.urlEncode name) = (main, name) := by
  have hcut : cut '#' (main ++ "#" ++ Codecs.urlEncode name) =
      some (main, Codecs.urlEncode name) :=
    cut_eq_some_iff.mpr ⟨hmain, by simp⟩
  rw [splitName, hcut]
  simp [hcodecs.urlDecode_urlEncode]

/-- The credentials and the address of a Shadowsocks node. -/
def plain (cipher password host : String) (port : ℕ) : String :=
  cipher ++ ":" ++ password ++ "@" ++ host ++ ":" ++ port.repr

/-- A link whose text decodes to, or is, the plain form. -/
theorem parseSs_of_decoded (hcodecs : Codecs.Lawful) {main cipher password host : String}
    {port : ℕ} (hmain : '#' ∉ main.toList)
    (hdecoded : (base64Decode main).getD main = plain cipher password host port)
    (hcipher : ':' ∉ cipher.toList) (hhost : ':' ∉ host.toList) (hhost' : '@' ∉ host.toList)
    (hport : port ≤ 65535) (name : String) :
    parseSs (main ++ "#" ++ Codecs.urlEncode name) =
      some ⟨name, "ss", host, port, password, cipher, false⟩ := by
  have hat : rcut '@' (plain cipher password host port) =
      some (cipher ++ ":" ++ password, host ++ ":" ++ port.repr) := by
    refine rcut_eq_some_iff.mpr ⟨?_, by simp [plain]⟩
    simp only [String.toList_append, List.mem_append, not_or]
    exact ⟨⟨hhost', by simp⟩, notMem_repr rfl port⟩
  have hcolon : cut ':' (cipher ++ ":" ++ password) = some (cipher, password) :=
    cut_eq_some_iff.mpr ⟨hcipher, by simp⟩
  simp only [parseSs, splitName_append hcodecs "SS Node" hmain, hdecoded, hat,
    Option.bind_eq_bind, Option.bind_some, hcolon, Option.getD_some,
    splitPort_append 0 hhost hport]
  rfl

/-- The query of a Trojan link is dropped. -/
theorem parseTrojan_address (hcodecs : Codecs.Lawful) {password host query : String} {port : ℕ}
    (hpassword : '@' ∉ password.toList) (hcolon : ':' ∉ host.toList) (hquestion : '?' ∉ host.toList)
    (hhash : '#' ∉ host.toList) (hport : port ≤ 65535) (hquery : '#' ∉ query.toList)
    (name : String) :
    parseTrojan (password ++ "@" ++ (host ++ ":" ++ port.repr ++ "?" ++ query ++ "#" ++
        Codecs.urlEncode name)) =
      some ⟨name, "trojan", host, port, password, "", true⟩ := by
  have hat : cut '@' (password ++ "@" ++ (host ++ ":" ++ port.repr ++ "?" ++ query ++ "#" ++
      Codecs.urlEncode name)) =
      some (password, host ++ ":" ++ port.repr ++ "?" ++ query ++ "#" ++ Codecs.urlEncode name) :=
    cut_eq_some_iff.mpr ⟨hpassword, by simp⟩
  have hmain : '#' ∉ (host ++ ":" ++ port.repr ++ "?" ++ query).toList := by
    simp only [String.toList_append, List.mem_append, not_or]
    exact ⟨⟨⟨⟨hhash, by simp⟩, notMem_repr rfl port⟩, by simp⟩, hquery⟩
  have hcut : cut '?' (host ++ ":" ++ port.repr ++ "?" ++ query) =
      some (host ++ ":" ++ port.repr, query) := by
    refine cut_eq_some_iff.mpr ⟨?_, by simp⟩
    simp only [String.toList_append, List.mem_append, not_or]
    exact ⟨⟨hquestion, by simp⟩, notMem_repr rfl port⟩
  have haddress : (split '?' (host ++ ":" ++ port.repr ++ "?" ++ query)).head?.getD
      (host ++ ":" ++ port.repr ++ "?" ++ query) = host ++ ":" ++ port.repr := by
    rw [split_eq, hcut]
    rfl
  simp only [parseTrojan, hat, Option.bind_eq_bind, Option.bind_some,
    splitName_append hcodecs "Trojan" hmain, haddress, splitPort_append 443 hcolon hport]
  rfl

/-- **Share links parse back.** A Shadowsocks node is read from its link in base64 and, when `#`
does not occur in its credentials, from its plain link. A Trojan node is read from its link. -/
theorem parseShareUri_link (hcodecs : Codecs.Lawful) (cipher password host name : String)
    (port : ℕ) (hcipher : ':' ∉ cipher.toList)
    (hhost : ∀ c ∈ [':', '@', '/', '?', '#'], c ∉ host.toList)
    (hport : 1 ≤ port ∧ port ≤ 65535) :
    parseShareUri ("ss://" ++ base64Encode (cipher ++ ":" ++ password ++ "@" ++ host ++ ":" ++
        port.repr) ++ "#" ++ Codecs.urlEncode name) =
      some ⟨name, "ss", host, port, password, cipher, false⟩ ∧
    ('#' ∉ cipher.toList → '#' ∉ password.toList →
      parseShareUri ("ss://" ++ cipher ++ ":" ++ password ++ "@" ++ host ++ ":" ++ port.repr ++
          "#" ++ Codecs.urlEncode name) =
        some ⟨name, "ss", host, port, password, cipher, false⟩) ∧
    ∀ query : String, '@' ∉ password.toList → '#' ∉ query.toList →
      parseShareUri ("trojan://" ++ password ++ "@" ++ host ++ ":" ++ port.repr ++ "?" ++ query ++
          "#" ++ Codecs.urlEncode name) =
        some ⟨name, "trojan", host, port, password, "", true⟩ := by
  have hcolon : ':' ∉ host.toList := hhost ':' (by simp)
  have hat : '@' ∉ host.toList := hhost '@' (by simp)
  have hquestion : '?' ∉ host.toList := hhost '?' (by simp)
  have hhash : '#' ∉ host.toList := hhost '#' (by simp)
  refine ⟨?_, fun hcipher' hpassword => ?_, fun query hpassword hquery => ?_⟩
  · have hsymbol : '#' ∉ (base64Encode (plain cipher password host port)).toList := fun h =>
      absurd (hcodecs.isSymbol_of_mem_encode _ _ h) (by decide)
    have hdecoded : (base64Decode (base64Encode (plain cipher password host port))).getD
        (base64Encode (plain cipher password host port)) = plain cipher password host port := by
      rw [base64Decode_base64Encode hcodecs, Option.getD_some]
    have hparse := parseSs_of_decoded hcodecs hsymbol hdecoded hcipher hcolon hat hport.2 name
    rw [← parseShareUri_ss, ← String.append_assoc, ← String.append_assoc] at hparse
    exact hparse
  · have hmain : '#' ∉ (plain cipher password host port).toList := by
      simp only [plain, String.toList_append, List.mem_append, not_or]
      exact ⟨⟨⟨⟨⟨⟨hcipher', by simp⟩, hpassword⟩, by simp⟩, hhash⟩, by simp⟩, notMem_repr rfl port⟩
    have hdecoded : (base64Decode (plain cipher password host port)).getD
        (plain cipher password host port) = plain cipher password host port := by
      have hnone : base64Decode (plain cipher password host port) = none :=
        base64Decode_eq_none hcodecs.toDecodesBase64 (c := ':') (by simp [plain]) rfl rfl
      rw [hnone, Option.getD_none]
    have hparse := parseSs_of_decoded hcodecs hmain hdecoded hcipher hcolon hat hport.2 name
    rw [← parseShareUri_ss] at hparse
    simpa only [plain, String.append_assoc] using hparse
  · have hparse := parseTrojan_address hcodecs hpassword hcolon hquestion hhash hport.2 hquery name
    rw [← parseShareUri_trojan] at hparse
    simpa only [String.append_assoc] using hparse

/-! ### Encoded credentials -/

omit [Codecs] in
/-- A text without separators that a text starts with does not go beyond the first separator. -/
theorem length_le_of_cut {s pre post front : String} {c : Char} (h : cut c s = some (pre, post))
    (hfront : c ∉ front.toList) (hstart : front.toList <+: s.toList) :
    front.toList.length ≤ pre.toList.length := by
  obtain ⟨-, hs⟩ := cut_eq_some_iff.mp h
  by_contra hlt
  have hcut : pre.toList ++ [c] <+: s.toList := ⟨post.toList, by simp [hs]⟩
  have hle : (pre.toList ++ [c]).length ≤ front.toList.length := by
    rw [List.length_append, List.length_singleton]
    omega
  have hmem := (List.prefix_of_prefix_length_le hcut hstart hle).subset
  exact hfront (hmem (List.mem_append_right _ List.mem_cons_self))

/-- The credentials that are taken from a text of base64, or from one that starts so, are not
those it stands for: one of them is at least as long as this base64. -/
theorem credentials_ne (hcodecs : Codecs.Lawful) (cipher password : String) {userInfo : String}
    (h : (base64Encode (cipher ++ ":" ++ password)).toList <+: userInfo.toList) :
    (cut ':' userInfo).getD ("aes-256-gcm", userInfo) ≠ (cipher, password) := by
  have hlength := length_le_length_base64Encode hcodecs (cipher ++ ":" ++ password)
  have hcolon : ':' ∉ (base64Encode (cipher ++ ":" ++ password)).toList := fun hmem =>
    absurd (hcodecs.isSymbol_of_mem_encode _ _ hmem) (by decide)
  have hsum : (cipher ++ ":" ++ password).toList.length =
      cipher.toList.length + (password.toList.length + 1) := by
    simp
  intro heq
  cases hcut : cut ':' userInfo with
  | none =>
      rw [hcut, Option.getD_none] at heq
      obtain rfl : userInfo = password := (Prod.mk.inj heq).2
      have hle := h.length_le
      omega
  | some cuts =>
      rw [hcut, Option.getD_some] at heq
      rw [heq] at hcut
      have hle := length_le_of_cut hcut hcolon h
      omega

/-- **Encoded credentials are imported as they stand.** A link in which base64 covers the method
and the password alone is not read as its node, whatever follows the address, a query for one. -/
theorem parseShareUri_userInfo_ne (hcodecs : Codecs.Lawful) (cipher password : String)
    {host : String} (hhost : '#' ∉ host.toList) (port : ℕ) {suffix : String}
    (hsuffix : '#' ∉ suffix.toList) (name : String) :
    parseShareUri ("ss://" ++ base64Encode (cipher ++ ":" ++ password) ++ "@" ++ host ++ ":" ++
        port.repr ++ suffix ++ "#" ++ Codecs.urlEncode name) ≠
      some ⟨name, "ss", host, port, password, cipher, false⟩ := by
  set credentials := base64Encode (cipher ++ ":" ++ password) with hcredentials
  set behind := host ++ ":" ++ port.repr ++ suffix with hbehind
  set main := credentials ++ "@" ++ behind with hmain
  have hhash : '#' ∉ main.toList := by
    have hsymbol : '#' ∉ credentials.toList := fun h =>
      absurd (hcodecs.isSymbol_of_mem_encode _ _ h) (by decide)
    simp only [hmain, hbehind, String.toList_append, List.mem_append, not_or]
    exact ⟨⟨hsymbol, by simp⟩, ⟨⟨hhost, by simp⟩, notMem_repr rfl port⟩, hsuffix⟩
  have hdecoded : (base64Decode main).getD main = main := by
    have hnone : base64Decode main = none :=
      base64Decode_eq_none hcodecs.toDecodesBase64 (c := '@') (by simp [hmain]) rfl rfl
    rw [hnone, Option.getD_none]
  -- the last `@` is the one behind the credentials, or comes after it
  obtain ⟨userInfo, hostPort, hcut, hstart⟩ : ∃ userInfo hostPort,
      rcut '@' main = some (userInfo, hostPort) ∧ credentials.toList <+: userInfo.toList := by
    cases hlast : rcut '@' behind with
    | none =>
        refine ⟨credentials, behind, rcut_eq_some_iff.mpr ⟨?_, by simp [hmain]⟩, List.prefix_rfl⟩
        exact rcut_eq_none_iff.mp hlast
    | some cuts =>
        obtain ⟨hpost, hsplit⟩ := rcut_eq_some_iff.mp hlast
        refine ⟨credentials ++ "@" ++ cuts.1, cuts.2, rcut_eq_some_iff.mpr ⟨hpost, ?_⟩, ?_⟩
        · simp [hmain, hsplit]
        · simp only [String.toList_append, List.append_assoc]
          exact List.prefix_append _ _
  have huri : "ss://" ++ credentials ++ "@" ++ host ++ ":" ++ port.repr ++ suffix ++ "#" ++
      Codecs.urlEncode name = "ss://" ++ (main ++ "#" ++ Codecs.urlEncode name) := by
    simp only [hmain, hbehind, String.append_assoc]
  intro hparse
  rw [huri, parseShareUri_ss] at hparse
  simp only [parseSs, splitName_append hcodecs "SS Node" hhash, hdecoded, hcut,
    Option.bind_eq_bind, Option.bind_some, Option.pure_def, Option.some.injEq,
    Node.mk.injEq] at hparse
  obtain ⟨-, -, -, -, hpassword, hcipher, -⟩ := hparse
  exact credentials_ne hcodecs cipher password hstart (Prod.ext hcipher hpassword)

end Parser

/-! ### Sample links -/

/-- Base64 as it is, and percent encoding of names that need none. -/
@[reducible] def plainNameCodecs : Codecs where
  standard s := Base64.decode true s.toList
  standardNoPad s := Base64.decode false s.toList
  encode bytes := .ofList (Base64.encode bytes)
  urlDecode := some
  urlEncode := id
  fromJson := fun _ => none

/-- The example codecs keep the laws: Base64 by its own round trip, and names that are not encoded
at all. -/
theorem plainNameCodecs_lawful :
    letI := plainNameCodecs
    Codecs.Lawful :=
  letI := plainNameCodecs
  { standard_encode := fun bytes => by
      show Base64.decode true (String.ofList (Base64.encode bytes)).toList = some bytes
      rw [String.toList_ofList, Base64.decode_encode]
    isSymbol_of_mem_encode := fun bytes c hc =>
      Base64.isSymbol_of_mem_encode (String.toList_ofList (l := Base64.encode bytes) ▸ hc)
    standard_eq_some := fun _ _ => Base64.decode_eq_some
    standardNoPad_eq_some := fun _ _ => Base64.decode_eq_some
    urlDecode_urlEncode := fun _ => rfl }

/-- The links of a node whose password has a separator in it. -/
theorem parseShareUri_link_tokyo :
    letI := plainNameCodecs
    parseShareUri ("ss://" ++ base64Encode ("aes-128-gcm" ++ ":" ++ "a:b" ++ "@" ++ "example.com" ++
        ":" ++ Nat.repr 8388) ++ "#" ++ Codecs.urlEncode "Tokyo") =
      some ⟨"Tokyo", "ss", "example.com", 8388, "a:b", "aes-128-gcm", false⟩ ∧
    parseShareUri ("ss://" ++ "aes-128-gcm" ++ ":" ++ "a:b" ++ "@" ++ "example.com" ++ ":" ++
        Nat.repr 8388 ++ "#" ++ Codecs.urlEncode "Tokyo") =
      some ⟨"Tokyo", "ss", "example.com", 8388, "a:b", "aes-128-gcm", false⟩ ∧
    parseShareUri ("trojan://" ++ "a:b" ++ "@" ++ "example.com" ++ ":" ++ Nat.repr 8388 ++ "?" ++
        "type=tcp" ++ "#" ++ Codecs.urlEncode "Tokyo") =
      some ⟨"Tokyo", "trojan", "example.com", 8388, "a:b", "", true⟩ := by
  let _ := plainNameCodecs
  obtain ⟨hencoded, hplain, htrojan⟩ := parseShareUri_link plainNameCodecs_lawful "aes-128-gcm"
    "a:b" "example.com" "Tokyo" 8388 (by simp) (by simp) (by decide)
  exact ⟨hencoded, hplain (by simp) (by simp), htrojan "type=tcp" (by simp) (by simp)⟩

/-- A link with encoded credentials and a query. -/
theorem parseShareUri_userInfo_ne_tokyo :
    letI := plainNameCodecs
    '#' ∉ "example.com".toList ∧ '#' ∉ "/?plugin=obfs".toList ∧
    parseShareUri ("ss://" ++ base64Encode ("aes-128-gcm" ++ ":" ++ "secret") ++ "@" ++
        "example.com" ++ ":" ++ Nat.repr 8388 ++ "/?plugin=obfs" ++ "#" ++
        Codecs.urlEncode "Tokyo") ≠
      some ⟨"Tokyo", "ss", "example.com", 8388, "secret", "aes-128-gcm", false⟩ := by
  let _ := plainNameCodecs
  have hhost : '#' ∉ "example.com".toList := by simp
  have hsuffix : '#' ∉ "/?plugin=obfs".toList := by simp
  exact ⟨hhost, hsuffix, parseShareUri_userInfo_ne plainNameCodecs_lawful "aes-128-gcm" "secret"
    hhost 8388 hsuffix "Tokyo"⟩

/-- The credentials `aes-128-gcm` and `secret` are imported as the default method and, for the
password, their base64. -/
theorem not_parseShareUri_userInfo :
    letI := plainNameCodecs
    ¬ ∀ (cipher password host name : String) (port : ℕ), ':' ∉ cipher.toList →
      (∀ c ∈ [':', '@', '/', '?', '#'], c ∉ host.toList) → 1 ≤ port ∧ port ≤ 65535 →
      parseShareUri ("ss://" ++ base64Encode (cipher ++ ":" ++ password) ++ "@" ++ host ++ ":" ++
          port.repr ++ "#" ++ Codecs.urlEncode name) =
        some ⟨name, "ss", host, port, password, cipher, false⟩ := by
  intro h
  have hexpected := h "aes-128-gcm" "secret" "example.com" "Tokyo" 8388 (by simp) (by simp)
    (by decide)
  have hread : letI := plainNameCodecs
      parseShareUri ("ss://" ++ base64Encode ("aes-128-gcm" ++ ":" ++ "secret") ++ "@" ++
          "example.com" ++ ":" ++ Nat.repr 8388 ++ "#" ++ Codecs.urlEncode "Tokyo") =
        some ⟨"Tokyo", "ss", "example.com", 8388, "YWVzLTEyOC1nY206c2VjcmV0", "aes-256-gcm",
          false⟩ := by
    decide +kernel
  have hpassword := congrArg (Option.map Node.password) (hread.symm.trans hexpected)
  revert hpassword
  decide

end Redog.ShareUri
