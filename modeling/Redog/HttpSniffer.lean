import Redog.Text

/-!
# The HTTP sniffer

`sniffHttpHost` takes the bytes of a request for text and looks for a line that starts with
`Host: ` or `host: `. It does not know of headers: the name may be written in no other way,
the colon must be followed by a space, and the lines of the body are searched like those of
the head.

A request here is what an HTTP/1.x client writes: a request line, headers and a body, each
line of the head ended by a carriage return and a line feed. `expectedHost` is the host its
first Host header names.

## Main results

* `sniffHttpHost_eq_expectedHost_iff`: for which requests the sniffer returns the host.
-/

namespace Redog

open Rust

/-! ### The code -/

/-- The part of `sniff_http_host` behind the prefix of a line: the value without the port. -/
def hostOfValue (value : String) : String :=
  let host := trim value
  match rfind ':' host.toList with
  | some colon =>
      match parseU16 (.ofList (host.toList.drop (colon + 1))) with
      | .ok _ => .ofList (host.toList.take colon)
      | .error _ => host
  | none => host

/-- The value of a line `sniff_http_host` takes for the Host header. -/
def hostValue (line : String) : Option String :=
  (stripPrefix "Host: " line).or (stripPrefix "host: " line)

/-- The check that the text looks like an HTTP request. -/
def looksLikeRequest (text : String) : Bool :=
  startsWith "GET " text || startsWith "POST " text || startsWith "PUT " text ||
    startsWith "DELETE " text || startsWith "HEAD " text || startsWith "OPTIONS " text ||
    startsWith "CONNECT " text || startsWith "PATCH " text

/-- `sniff_http_host`: the host of the first line of the request that starts with the name of the
header in one of its two usual spellings. -/
def sniffHttpHost (data : List UInt8) : Option String :=
  match fromUtf8 data with
  | none => none
  | some text =>
      if !looksLikeRequest text then none
      else (lines text).findSome? fun line => (hostValue line).map hostOfValue

/-! ### Requests -/

/-- The methods the sniffer knows. A request of any other is not looked into. -/
def sniffedMethods : List String :=
  ["GET", "POST", "PUT", "DELETE", "HEAD", "OPTIONS", "CONNECT", "PATCH"]

/-- A header: a name, optional whitespace behind the colon, and a value. -/
structure Header where
  name : String
  ows : String
  value : String
  colon_notMem : ':' ∉ name.toList
  ows_mem : ∀ c ∈ ows.toList, c = ' ' ∨ c = '\t'
  oneLine : '\n' ∉ name.toList ∧ '\n' ∉ value.toList

/-- The line of a header as it is sent, without the end of the line. -/
def Header.line (h : Header) : String :=
  h.name ++ ":" ++ h.ows ++ h.value

/-- The header is a Host header: its name is that, in whatever case. -/
def Header.isHost (h : Header) : Bool :=
  eqIgnoreAsciiCase h.name "host"

/-- A request: a request line that starts with a method, headers, and a body. -/
structure HttpRequest where
  method : String
  target : String
  headers : List Header
  body : String
  method_mem : method ∈ sniffedMethods
  oneLine : '\n' ∉ target.toList

/-- The headers with the blank line and the body behind them. -/
def headText (body : String) : List Header → String
  | [] => "" ++ "\r\n" ++ body
  | h :: headers => h.line ++ "\r\n" ++ headText body headers

/-- The request line: `target` is all that follows the method. -/
def HttpRequest.requestLine (request : HttpRequest) : String :=
  request.method ++ " " ++ request.target

/-- The text of a request: the request line, the headers, a blank line, and the body. -/
def HttpRequest.text (request : HttpRequest) : String :=
  request.requestLine ++ "\r\n" ++ headText request.body request.headers

/-- A decimal number of at least one digit that is at most 65535, so one that a port can have. -/
def IsPort (port : List Char) : Prop :=
  port ≠ [] ∧ (∀ c ∈ port, c.isDigit) ∧ Nat.ofDigitChars 10 port 0 ≤ 65535

instance (port : List Char) : Decidable (IsPort port) :=
  inferInstanceAs (Decidable (_ ∧ _ ∧ _))

/-- The host of a Host header: the text before the last colon when a decimal port follows it,
and the whole text otherwise. -/
def hostPart (host : String) : String :=
  match rfind ':' host.toList with
  | some colon =>
      if IsPort (host.toList.drop (colon + 1)) then .ofList (host.toList.take colon) else host
  | none => host

/-- The host the first Host header names, whitespace around its value aside. -/
def HttpRequest.expectedHost (request : HttpRequest) : Option String :=
  (request.headers.find? (·.isHost)).map fun h => hostPart (trim h.value)

/-! ### Ports -/

/-- The text ends with a port number that has a plus sign, which `str::parse` reads too. -/
def HasPlusPort (host : String) : Prop :=
  ∃ pre port, host.toList = pre ++ ':' :: '+' :: port ∧ IsPort port

/-- A decimal port number has no plus sign, although `str::parse` reads one. -/
theorem not_isPort_plus (port : List Char) : ¬ IsPort ('+' :: port) := by
  rintro ⟨-, hdigits, -⟩
  exact absurd (hdigits '+' List.mem_cons_self) (by decide)

/-- Without a plus sign in front a number is read digit by digit. -/
theorem parseUnsigned_eq_parseDigits {max : ℕ} {c : Char} {cs : List Char} (hc : c ≠ '+') :
    parseUnsigned max (c :: cs) = parseDigits max 0 (c :: cs) := by
  rw [parseUnsigned]
  · nofun
  · rintro ⟨⟩
    exact hc rfl
  · rintro _ ⟨⟩
    exact hc rfl

/-- `str::parse` reads port numbers, with a plus sign or without. -/
theorem parseU16_isOk_iff (port : List Char) :
    (∃ n, parseU16 (.ofList port) = .ok n) ↔
      IsPort port ∨ ∃ digits, port = '+' :: digits ∧ IsPort digits := by
  have hmap : (∃ n, parseU16 (.ofList port) = .ok n) ↔
      ∃ n, parseUnsigned 65535 port = .ok n := by
    rw [parseU16, String.toList_ofList]
    cases parseUnsigned 65535 port with
    | error e =>
        constructor
        · rintro ⟨n, hn⟩
          cases hn
        · rintro ⟨n, hn⟩
          cases hn
    | ok n => exact iff_of_true ⟨_, rfl⟩ ⟨n, rfl⟩
  have hdigits : ∀ c cs, (∃ n, parseDigits 65535 0 (c :: cs) = .ok n) ↔ IsPort (c :: cs) := by
    intro c cs
    simp only [parseDigits_eq_ok_iff (Nat.zero_le 65535)]
    constructor
    · rintro ⟨n, hcs, hmax, -⟩
      exact ⟨List.cons_ne_nil c cs, hcs, hmax⟩
    · rintro ⟨-, hcs, hmax⟩
      exact ⟨_, hcs, hmax, rfl⟩
  rw [hmap]
  rcases port with - | ⟨c, cs⟩
  · constructor
    · rintro ⟨n, hn⟩
      cases hn
    · rintro (⟨hne, -⟩ | ⟨_, heq, -⟩)
      · exact absurd rfl hne
      · cases heq
  by_cases hc : c = '+'
  · subst hc
    rw [or_iff_right (not_isPort_plus cs)]
    rcases cs with - | ⟨d, ds⟩
    · constructor
      · rintro ⟨n, hn⟩
        cases hn
      · rintro ⟨_, heq, hne, -⟩
        obtain ⟨-, rfl⟩ := List.cons.inj heq
        exact absurd rfl hne
    · have hplus : parseUnsigned 65535 ('+' :: d :: ds) = parseDigits 65535 0 (d :: ds) := rfl
      rw [hplus, hdigits]
      constructor
      · exact fun h => ⟨d :: ds, rfl, h⟩
      · rintro ⟨_, heq, h⟩
        obtain ⟨-, rfl⟩ := List.cons.inj heq
        exact h
  · rw [parseUnsigned_eq_parseDigits hc, hdigits, iff_comm]
    refine or_iff_left ?_
    rintro ⟨_, heq, -⟩
    exact hc (List.cons.inj heq).1

/-- A value without a colon is taken for the host as a whole, less the whitespace around it. -/
theorem hostOfValue_of_notMem {value : String} (h : ':' ∉ (trim value).toList) :
    hostOfValue value = trim value := by
  rw [hostOfValue, rfind_eq_none h]

/-- What follows the last colon is cut off when it is read as a number. -/
theorem hostOfValue_of_colon {value : String} {pre post : List Char}
    (h : (trim value).toList = pre ++ ':' :: post) (hpost : ':' ∉ post) :
    hostOfValue value =
      if (parseU16 (.ofList post)).toOption.isSome then .ofList pre else trim value := by
  obtain ⟨hrfind, htake, hdrop⟩ := rfind_cut h hpost
  rw [hostOfValue, hrfind]
  simp only [htake, hdrop]
  cases parseU16 (.ofList post) <;> rfl

/-- A text that `str::parse` reads as a port: a decimal port number, with a plus sign or
without. -/
def ReadsAsPort (port : List Char) : Prop :=
  IsPort port ∨ ∃ digits, port = '+' :: digits ∧ IsPort digits

/-- A text is read as a port number exactly when it is one, with a plus sign or without. -/
theorem isSome_parseU16_iff (port : List Char) :
    (parseU16 (.ofList port)).toOption.isSome ↔ ReadsAsPort port := by
  rw [ReadsAsPort, ← parseU16_isOk_iff]
  cases parseU16 (.ofList port) with
  | error e => exact iff_of_false Bool.false_ne_true nofun
  | ok n => exact iff_of_true rfl ⟨n, rfl⟩

/-- A port has no colon, so the colon in front of it is the last one of the value. -/
theorem ReadsAsPort.colon_notMem {port : List Char} (h : ReadsAsPort port) : ':' ∉ port := by
  have hdigits : ∀ digits, IsPort digits → ':' ∉ digits := fun digits hport hmem =>
    absurd (hport.2.1 ':' hmem) (by decide)
  rcases h with h | ⟨digits, rfl, h⟩
  · exact hdigits port h
  · intro hmem
    rcases List.mem_cons.mp hmem with hplus | hmem
    · exact absurd hplus (by decide)
    · exact hdigits digits h hmem

/-- A host without a colon has no port to be removed. -/
theorem hostPart_of_notMem {host : String} (h : ':' ∉ host.toList) : hostPart host = host := by
  rw [hostPart, rfind_eq_none h]

/-- What stands before the last colon is the host exactly when a decimal port follows it. -/
theorem hostPart_of_colon {host : String} {pre post : List Char}
    (h : host.toList = pre ++ ':' :: post) (hpost : ':' ∉ post) :
    hostPart host = if IsPort post then .ofList pre else host := by
  obtain ⟨hrfind, htake, hdrop⟩ := rfind_cut h hpost
  rw [hostPart, hrfind]
  simp only [htake, hdrop]

/-- The value without its port is the host part, unless the port has a plus sign. -/
theorem hostOfValue_eq_iff (value : String) :
    hostOfValue value = hostPart (trim value) ↔ ¬ HasPlusPort (trim value) := by
  by_cases hcolon : ':' ∈ (trim value).toList
  swap
  · rw [hostOfValue_of_notMem hcolon, hostPart_of_notMem hcolon]
    refine iff_of_true rfl ?_
    rintro ⟨pre, port, heq, -⟩
    rw [heq] at hcolon
    exact hcolon (by simp)
  obtain ⟨pre, post, hsplit, hpost⟩ := exists_append_cons_of_mem hcolon
  have hplus : HasPlusPort (trim value) ↔ ∃ digits, post = '+' :: digits ∧ IsPort digits := by
    constructor
    · rintro ⟨pre', port, hsplit', hport⟩
      have hcolon' := ReadsAsPort.colon_notMem (.inr ⟨port, rfl, hport⟩)
      obtain ⟨-, heq⟩ := append_cons_inj_right hpost hcolon' (hsplit.symm.trans hsplit')
      exact ⟨port, heq, hport⟩
    · rintro ⟨port, rfl, hport⟩
      exact ⟨pre, port, hsplit, hport⟩
  have hne : String.ofList pre ≠ trim value := by
    intro h
    have hlen := congrArg (fun s : String => s.toList.length) h
    simp [hsplit] at hlen
  rw [hostOfValue_of_colon hsplit hpost, hostPart_of_colon hsplit hpost, hplus]
  have hread := isSome_parseU16_iff post
  by_cases hport : IsPort post
  · rw [if_pos hport, if_pos (hread.mpr (.inl hport))]
    refine iff_of_true rfl ?_
    rintro ⟨digits, rfl, -⟩
    exact not_isPort_plus digits hport
  · rw [if_neg hport]
    split_ifs with hsome
    · exact iff_of_false hne fun h => h ((hread.mp hsome).resolve_left hport)
    · exact iff_of_true rfl fun h => hsome (hread.mpr (.inr h))

/-- The host of a value does not depend on the whitespace around the value. -/
theorem hostOfValue_congr {value value' : String} (h : trim value = trim value') :
    hostOfValue value = hostOfValue value' := by
  rw [hostOfValue, h, ← hostOfValue]

/-! ### Hosts with a port behind them -/

/-- The text is the host with a port behind it. -/
def EndsInPort (text host : String) : Prop :=
  ∃ port, ReadsAsPort port ∧ text.toList = host.toList ++ ':' :: port

/-- A text ends in one port at most, so the host before it is determined. -/
theorem EndsInPort.unique {text host host' : String} (h : EndsInPort text host)
    (h' : EndsInPort text host') : host = host' := by
  obtain ⟨port, hport, htext⟩ := h
  obtain ⟨port', hport', htext'⟩ := h'
  obtain ⟨hhost, -⟩ := append_cons_inj_right hport.colon_notMem hport'.colon_notMem
    (htext.symm.trans htext')
  exact String.toList_inj.mp hhost

/-- The sniffer takes a port off the value if there is one. -/
theorem hostOfValue_cases (value : String) :
    EndsInPort (trim value) (hostOfValue value) ∨
      hostOfValue value = trim value ∧ ∀ host, ¬ EndsInPort (trim value) host := by
  by_cases hcolon : ':' ∈ (trim value).toList
  swap
  · refine .inr ⟨hostOfValue_of_notMem hcolon, ?_⟩
    rintro host ⟨port, -, htext⟩
    rw [htext] at hcolon
    exact hcolon (List.mem_append_right _ List.mem_cons_self)
  obtain ⟨pre, post, hsplit, hpost⟩ := exists_append_cons_of_mem hcolon
  have hhost := hostOfValue_of_colon hsplit hpost
  have hread := isSome_parseU16_iff post
  by_cases hport : ReadsAsPort post
  · rw [if_pos (hread.mpr hport)] at hhost
    refine .inl ⟨post, hport, ?_⟩
    rw [hhost, String.toList_ofList, hsplit]
  · rw [if_neg (mt hread.mp hport)] at hhost
    refine .inr ⟨hhost, ?_⟩
    rintro host ⟨port, hport', htext⟩
    obtain ⟨-, rfl⟩ := append_cons_inj_right hpost hport'.colon_notMem (hsplit.symm.trans htext)
    exact hport hport'

/-- From a value with a port behind its host the host is taken. -/
theorem hostOfValue_of_endsInPort {value host : String} (h : EndsInPort (trim value) host) :
    hostOfValue value = host := by
  rcases hostOfValue_cases value with h' | ⟨-, hnone⟩
  · exact h'.unique h
  · exact absurd h (hnone host)

/-- A value that ends in no port is taken for the host as a whole. -/
theorem hostOfValue_of_not_endsInPort {value : String}
    (h : ∀ host, ¬ EndsInPort (trim value) host) : hostOfValue value = trim value := by
  rcases hostOfValue_cases value with h' | ⟨hsame, -⟩
  · exact absurd h' (h _)
  · exact hsame

/-- The text names the host: it is the host with a port behind it, or the host itself and ends
in no port. -/
def NamesHost (text host : String) : Prop :=
  EndsInPort text host ∨ text = host ∧ ∀ host', ¬ EndsInPort text host'

/-- The host of a value is the one that its text names. -/
theorem hostOfValue_eq_host_iff (value host : String) :
    hostOfValue value = host ↔ NamesHost (trim value) host := by
  constructor
  · rintro rfl
    rcases hostOfValue_cases value with hport | ⟨hsame, hnone⟩
    · exact .inl hport
    · exact .inr ⟨hsame.symm, hnone⟩
  · rintro (hport | ⟨rfl, hnone⟩)
    · exact hostOfValue_of_endsInPort hport
    · exact hostOfValue_of_not_endsInPort hnone

/-! ### Lines of a request -/

/-- The check tests for each method with a space behind it. -/
theorem looksLikeRequest_iff {text : String} :
    looksLikeRequest text ↔ ∃ method ∈ sniffedMethods, startsWith (method ++ " ") text := by
  have hany : looksLikeRequest text = sniffedMethods.any fun m => startsWith (m ++ " ") text := by
    simp [looksLikeRequest, sniffedMethods, Bool.or_assoc]
  rw [hany, List.any_eq_true]

/-- The lines taken for the Host header: the name is written in one of two ways, and a space
follows the colon. -/
theorem hostValue_eq_some {line value : String} (h : hostValue line = some value) :
    ∃ name : String, (name = "Host" ∨ name = "host") ∧
      line.toList = name.toList ++ ':' :: ' ' :: value.toList := by
  rw [hostValue, Option.or_eq_some_iff, stripPrefix_eq_some_iff, stripPrefix_eq_some_iff] at h
  obtain h | ⟨-, h⟩ := h
  · exact ⟨"Host", .inl rfl, h⟩
  · exact ⟨"host", .inr rfl, h⟩

/-- The value of a line stands behind the name in one of its two spellings, a colon and a space. -/
theorem hostValue_eq_some_iff {line value : String} :
    hostValue line = some value ↔ ∃ name : String, (name = "Host" ∨ name = "host") ∧
      line.toList = name.toList ++ ':' :: ' ' :: value.toList := by
  refine ⟨hostValue_eq_some, ?_⟩
  rw [hostValue, Option.or_eq_some_iff, stripPrefix_eq_some_iff, stripPrefix_eq_some_iff]
  rintro ⟨name, rfl | rfl, hline⟩
  · exact .inl hline
  · refine .inr ⟨?_, hline⟩
    rw [stripPrefix, startsWith, hline]
    rfl

/-- A line that starts with `Host: ` or `host: `, with what stands behind it. -/
def HostLine (line value : String) : Prop := line = "Host: " ++ value ∨ line = "host: " ++ value

/-- A line that starts with one of the two prefixes. -/
def IsHostLine (line : String) : Prop := ∃ value, HostLine line value

/-- The first of the lines that starts so. -/
def FirstHostLine (lines : List String) (value : String) : Prop :=
  ∃ earlier line later, lines = earlier ++ line :: later ∧ (∀ l ∈ earlier, ¬ IsHostLine l) ∧
    HostLine line value

/-- These are the lines whose value is read. -/
theorem hostValue_eq_some_iff_hostLine {line value : String} :
    hostValue line = some value ↔ HostLine line value := by
  have hupper : ("Host: " ++ value).toList = "Host".toList ++ ':' :: ' ' :: value.toList :=
    String.toList_append
  have hlower : ("host: " ++ value).toList = "host".toList ++ ':' :: ' ' :: value.toList :=
    String.toList_append
  rw [hostValue_eq_some_iff, HostLine, ← String.toList_inj, ← String.toList_inj, hupper, hlower]
  constructor
  · rintro ⟨name, rfl | rfl, hline⟩
    · exact .inl hline
    · exact .inr hline
  · rintro (hline | hline)
    · exact ⟨"Host", .inl rfl, hline⟩
    · exact ⟨"host", .inr rfl, hline⟩

/-- From a line that starts with neither prefix no value is read. -/
theorem hostValue_eq_none_iff {line : String} : hostValue line = none ↔ ¬ IsHostLine line := by
  simp only [Option.eq_none_iff_forall_ne_some, ne_eq, hostValue_eq_some_iff_hostLine, IsHostLine,
    not_exists]

/-- The value that is found first is that of the first line with one of the prefixes. -/
theorem findSome?_hostValue_eq_some_iff {lines : List String} {value : String} :
    lines.findSome? hostValue = some value ↔ FirstHostLine lines value := by
  rw [List.findSome?_eq_some_iff]
  simp only [hostValue_eq_none_iff, hostValue_eq_some_iff_hostLine, FirstHostLine]
  constructor
  · rintro ⟨earlier, line, later, hlines, hline, hearlier⟩
    exact ⟨earlier, line, later, hlines, hearlier, hline⟩
  · rintro ⟨earlier, line, later, hlines, hearlier, hline⟩
    exact ⟨earlier, line, later, hlines, hline, hearlier⟩

/-- Only Host headers are taken for one, and the value is found. -/
theorem Header.of_hostValue_line {h : Header} {value : String}
    (hvalue : hostValue h.line = some value) : h.isHost ∧ trim value = trim h.value := by
  obtain ⟨name, hname, hline⟩ := hostValue_eq_some hvalue
  have hcolon : ':' ∉ name.toList := by
    obtain rfl | rfl := hname <;> decide
  have hchars : h.line.toList = h.name.toList ++ ':' :: (h.ows.toList ++ h.value.toList) := by
    simp [line]
  obtain ⟨heq, hrest⟩ := append_cons_inj_left h.colon_notMem hcolon (hchars.symm.trans hline)
  refine ⟨?_, ?_⟩
  · rw [isHost, String.toList_inj.mp heq]
    obtain rfl | rfl := hname <;> decide
  · have hows : ∀ c ∈ h.ows.toList, isWhitespace c := by
      intro c hc
      obtain rfl | rfl := h.ows_mem c hc <;> rfl
    have hspace : ∀ c ∈ [' '], isWhitespace c := List.forall_mem_singleton.mpr rfl
    calc trim value = trim (.ofList ([' '] ++ value.toList)) := by
          rw [trim_append hspace, String.ofList_toList]
      _ = trim (.ofList (h.ows.toList ++ h.value.toList)) := by
          rw [hrest, List.singleton_append]
      _ = trim h.value := by
          rw [trim_append hows, String.ofList_toList]

/-- The lines of a head with its body: the headers, the blank line, and the lines of the body. -/
theorem lines_headText (body : String) (headers : List Header) :
    lines (headText body headers) = headers.map Header.line ++ "" :: lines body := by
  induction headers with
  | nil => exact lines_append_crlf (by decide) body
  | cons h headers ih =>
      have hline : '\n' ∉ h.line.toList := by
        have hows : '\n' ∉ h.ows.toList := fun hmem => by
          obtain hc | hc := h.ows_mem _ hmem <;> exact absurd hc (by decide)
        simp [Header.line, h.oneLine, hows]
      rw [headText, lines_append_crlf hline, ih, List.map_cons, List.cons_append]

namespace HttpRequest

/-- The lines of a request: the request line, and the lines of its head and body. -/
theorem lines_text (request : HttpRequest) :
    lines request.text =
      request.requestLine :: (request.headers.map Header.line ++ "" :: lines request.body) := by
  have hmethod : ∀ method ∈ sniffedMethods, '\n' ∉ method.toList := by decide
  have hline : '\n' ∉ request.requestLine.toList := by
    simp [requestLine, request.oneLine, hmethod _ request.method_mem]
  rw [text, lines_append_crlf hline, lines_headText]

/-- No method starts like the name of the Host header. -/
theorem hostValue_requestLine (request : HttpRequest) : hostValue request.requestLine = none := by
  have hmethod : ∀ method ∈ sniffedMethods, 2 ≤ method.toList.length ∧
      method.toList.take 2 ≠ "Ho".toList ∧ method.toList.take 2 ≠ "ho".toList := by decide
  obtain ⟨hlen, hupper, hlower⟩ := hmethod _ request.method_mem
  rw [Option.eq_none_iff_forall_ne_some]
  intro value hvalue
  obtain ⟨name, hname, hline⟩ := hostValue_eq_some hvalue
  have htake := congrArg (List.take 2) hline
  rw [requestLine, String.toList_append, String.toList_append, List.append_assoc,
    List.take_append_of_le_length hlen] at htake
  obtain rfl | rfl := hname
  · exact hupper htake
  · exact hlower htake

/-- The headers and the body of a request are searched for the Host header. -/
theorem sniffHttpHost_text (request : HttpRequest) :
    sniffHttpHost (utf8 request.text) =
      ((request.headers.map Header.line ++ lines request.body).findSome? hostValue).map
        hostOfValue := by
  have hsplit : request.text = (request.method ++ " ") ++
      (request.target ++ "\r\n" ++ headText request.body request.headers) := by
    simp [text, requestLine, String.append_assoc]
  have hlooks : looksLikeRequest request.text := by
    refine looksLikeRequest_iff.mpr ⟨_, request.method_mem, startsWith_iff.mpr ?_⟩
    rw [hsplit]
    exact ⟨_, String.toList_append.symm⟩
  have hblank : ("" :: lines request.body).findSome? hostValue =
      (lines request.body).findSome? hostValue := by
    rw [List.findSome?_cons, show hostValue "" = none by decide]
  have hlines : (lines request.text).findSome? hostValue =
      (request.headers.map Header.line ++ lines request.body).findSome? hostValue := by
    rw [request.lines_text, List.findSome?_cons, request.hostValue_requestLine,
      List.findSome?_append, hblank, ← List.findSome?_append]
  rw [sniffHttpHost, fromUtf8_utf8, ← hlines, List.map_findSome?]
  simp only [hlooks, Bool.not_true, Bool.false_eq_true, if_false]
  rfl

/-! ### When the host is found -/

/-- The sniffer gets to the first Host header. Without such a header no line of the body starts
like one. With one, its own line starts so and its port has no plus sign, or else the first line
behind it that starts so names the same host. -/
def GetsToHost (request : HttpRequest) : Prop :=
  match request.headers.dropWhile (!·.isHost) with
  | [] => ∀ line ∈ lines request.body, ¬ IsHostLine line
  | h :: behind =>
      (IsHostLine h.line ∧ ¬ HasPlusPort (trim h.value)) ∨
        (¬ IsHostLine h.line ∧ ∃ value,
          FirstHostLine (behind.map Header.line ++ lines request.body) value ∧
            NamesHost (trim value) (hostPart (trim h.value)))

/-- **When the host is found.** The sniffer returns the host of the first Host header, or
nothing without such a header, exactly when it gets to that header. -/
theorem sniffHttpHost_eq_expectedHost_iff (request : HttpRequest) :
    sniffHttpHost (utf8 request.text) = request.expectedHost ↔ request.GetsToHost := by
  rw [request.sniffHttpHost_text, expectedHost, GetsToHost]
  induction request.headers with
  | nil =>
      rw [List.map_nil, List.nil_append, List.find?_nil, Option.map_none,
        Option.map_eq_none_iff, List.findSome?_eq_none_iff]
      exact forall₂_congr fun _ _ => hostValue_eq_none_iff
  | cons h headers ih =>
      rw [List.map_cons, List.cons_append, List.findSome?_cons]
      by_cases hhost : h.isHost
      · rw [List.find?_cons_of_pos hhost, List.dropWhile_cons_of_neg (by simpa using hhost),
          Option.map_some]
        cases hvalue : hostValue h.line with
        | some value =>
            obtain ⟨-, htrim⟩ := Header.of_hostValue_line hvalue
            have hline : IsHostLine h.line := ⟨value, hostValue_eq_some_iff_hostLine.mp hvalue⟩
            simp only [Option.map_some, Option.some.injEq, hline, true_and, not_true_eq_false,
              false_and, or_false]
            rw [hostOfValue_congr htrim, hostOfValue_eq_iff]
        | none =>
            -- the headers behind this one and the body are searched
            have hline : ¬ IsHostLine h.line := hostValue_eq_none_iff.mp hvalue
            simp only [Option.map_eq_some_iff, hline, false_and, not_false_eq_true, true_and,
              false_or, findSome?_hostValue_eq_some_iff, hostOfValue_eq_host_iff]
      · have hvalue : hostValue h.line = none := by
          rw [Option.eq_none_iff_forall_ne_some]
          exact fun value hvalue => hhost (Header.of_hostValue_line hvalue).1
        rw [List.find?_cons_of_neg hhost, List.dropWhile_cons_of_pos (by simpa using hhost),
          hvalue]
        exact ih

/-- A request whose Host header is written in capitals, with a line of the same shape in its
body. -/
def capitalHost : HttpRequest where
  method := "POST"
  target := "/ HTTP/1.1"
  headers :=
    [{ name := "HOST", ows := " ", value := "a.io", colon_notMem := by simp, ows_mem := by simp,
       oneLine := by simp }]
  body := "Host: b.io"
  method_mem := by simp [sniffedMethods]
  oneLine := by simp

/-- The sniffer finds the line of the body. -/
theorem sniffHttpHost_capitalHost :
    sniffHttpHost (utf8 capitalHost.text) = some "b.io" ∧
      capitalHost.expectedHost = some "a.io" := by
  decide +kernel

end HttpRequest

end Redog
