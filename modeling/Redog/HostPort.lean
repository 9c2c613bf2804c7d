import Redog.HttpParse
import Redog.HttpSniffer

/-!
# Hosts with ports

A host is written bare or in brackets, and behind it comes nothing, a colon, or a colon and a
port: six ways, which `parse_host_port` reads back. It accepts more. What follows a closing
bracket is ignored unless it starts with a colon, and the host in the brackets may be empty.

The authority of a URL ends at the first slash, question mark or number sign behind it.
`extract_host_from_target` looks for the slash only, so what it reads of a URL with a query
and no path is the authority with the query behind it.

## Main results

* `parseHostPort_rendered`: the six ways are read back.
* `readsWhole_iff`: when nothing but the six ways is accepted.
* `extractHostFromTarget_eq_iff`: when only the authority of a URL decides.
-/

namespace Redog

open Rust

/-! ### Ports that are refused -/

/-- A text behind a colon that is no port. -/
def BadPort (port : List Char) : Prop :=
  port ≠ [] ∧ ∀ p, parseU16 (.ofList port) ≠ .ok p

/-- A port is refused exactly when it is bad: it is not empty and no number that fits. -/
theorem portOf_eq_none_iff {port : List Char} {defaultPort : UInt16} :
    portOf port defaultPort = none ↔ BadPort port := by
  rw [portOf, BadPort]
  split_ifs with hport
  · exact iff_of_false not_false fun h => h.1 hport
  · rw [and_iff_right hport, Option.eq_none_iff_forall_ne_some]
    exact forall_congr' fun p => not_congr toOption_eq_some_iff

/-- A port that is accepted is the number that is read, or the default when nothing is there. -/
theorem portOf_eq_some_iff {port : List Char} {defaultPort p : UInt16} :
    portOf port defaultPort = some p ↔
      port = [] ∧ p = defaultPort ∨ port ≠ [] ∧ parseU16 (.ofList port) = .ok p := by
  rw [portOf]
  split_ifs with hport
  · rw [Option.some.injEq]
    constructor
    · exact fun h => .inl ⟨hport, h.symm⟩
    · rintro (⟨-, rfl⟩ | ⟨hne, -⟩)
      · rfl
      · exact absurd hport hne
  · rw [toOption_eq_some_iff]
    constructor
    · exact fun h => .inr ⟨hport, h⟩
    · rintro (⟨h, -⟩ | ⟨-, h⟩)
      · exact absurd h hport
      · exact h

/-- What stands behind a closing bracket is refused exactly when it is a colon with a bad port. -/
theorem portBehind_eq_none_iff {rest : List Char} {defaultPort : UInt16} :
    portBehind rest defaultPort = none ↔ ∃ port, rest = ':' :: port ∧ BadPort port := by
  by_cases hcolon : rest.head? = some ':'
  · obtain ⟨port, rfl⟩ := List.head?_eq_some_iff.mp hcolon
    rw [portBehind, portOf_eq_none_iff]
    constructor
    · exact fun h => ⟨port, rfl, h⟩
    · rintro ⟨_, heq, h⟩
      obtain ⟨-, rfl⟩ := List.cons.inj heq
      exact h
  · rw [portBehind_of_ne hcolon]
    refine iff_of_false (Option.some_ne_none _) ?_
    rintro ⟨port, rfl, -⟩
    exact hcolon rfl

/-- A port is made of digits and a plus sign. -/
theorem mem_of_parseU16 {port : List Char} {p : UInt16} {c : Char}
    (h : parseU16 (.ofList port) = .ok p) (hc : c ∈ port) : c.isDigit ∨ c = '+' := by
  obtain hport | ⟨digits, rfl, hport⟩ := (parseU16_isOk_iff port).mp ⟨p, h⟩
  · exact .inl (hport.2.1 c hc)
  · obtain rfl | hc := List.mem_cons.mp hc
    · exact .inr rfl
    · exact .inl (hport.2.1 c hc)

/-- A port with a question mark or a number sign is none. -/
theorem badPort_of_mem {port : List Char} {c : Char} (hmem : c ∈ port)
    (hc : c = '?' ∨ c = '#') : BadPort port := by
  refine ⟨List.ne_nil_of_mem hmem, fun p hport => ?_⟩
  have hchar := mem_of_parseU16 hport hmem
  obtain rfl | rfl := hc <;> simp at hchar

/-- The texts that are refused. -/
inductive Refused : List Char → Prop
  | empty : Refused []
  | unopened {cs : List Char} : ']' ∈ cs → cs.head? ≠ some '[' → Refused cs
  | bracketed {host port : List Char} : ']' ∉ host → BadPort port →
      Refused ('[' :: (host ++ ']' :: ':' :: port))
  | noHost {port : List Char} : ']' ∉ port → ':' ∉ port → Refused (':' :: port)
  | colon {host port : List Char} : ']' ∉ host ++ ':' :: port → ':' ∉ port → BadPort port →
      Refused (host ++ ':' :: port)

/-- The texts that are refused, told by their characters alone. -/
theorem toOption_parseHostPort_eq_none_iff {s : String} {defaultPort : UInt16} :
    (parseHostPort s defaultPort).toOption = none ↔ Refused s.toList := by
  constructor
  · intro h
    have hshape := targetShape s.toList
    generalize hs : s.toList = cs at hshape ⊢
    cases hshape with
    | empty => exact .empty
    | unopened hbracket hopen => exact .unopened hbracket hopen
    | bracketed hhost =>
        rw [parseHostPort_of_bracketed hs hhost, Option.map_eq_none_iff,
          portBehind_eq_none_iff] at h
        obtain ⟨port, rfl, hport⟩ := h
        exact .bracketed hhost hport
    | @colon host port hbracket hport =>
        rw [parseHostPort_of_colon hs (hs ▸ hbracket) hport] at h
        split_ifs at h with hhost
        · subst hhost
          exact .noHost (fun hmem => hbracket (List.mem_cons_of_mem _ hmem)) hport
        · rw [Option.map_eq_none_iff, portOf_eq_none_iff] at h
          exact .colon hbracket hport h
    | bare hne hbracket hcolon =>
        rw [parseHostPort_of_bare (hs ▸ hne) (hs ▸ hbracket) (hs ▸ hcolon)] at h
        cases h
  · intro h
    generalize hs : s.toList = cs at h
    cases h with
    | empty =>
        rw [parseHostPort, if_pos hs]
        rfl
    | unopened hbracket hopen =>
        exact parseHostPort_of_unopened (hs ▸ hbracket) (hs ▸ hopen) defaultPort
    | bracketed hhost hport =>
        rw [parseHostPort_of_bracketed hs hhost, portBehind, portOf_eq_none_iff.mpr hport,
          Option.map_none]
    | @noHost port hbracket hcolon =>
        have hnotMem : ']' ∉ s.toList := by
          rw [hs, List.mem_cons]
          rintro (h | h)
          · exact absurd h (by decide)
          · exact hbracket h
        have hsplit : s.toList = [] ++ ':' :: port := hs
        rw [parseHostPort_of_colon hsplit hnotMem hcolon, if_pos rfl]
    | colon hbracket hcolon hport =>
        rw [parseHostPort_of_colon hs (hs ▸ hbracket) hcolon, portOf_eq_none_iff.mpr hport,
          Option.map_none, ite_self]

/-- What is read, by the shape of the text. -/
theorem parseHostPort_cases {s host : String} {defaultPort p : UInt16}
    (h : parseHostPort s defaultPort = .ok (host, p)) :
    (∃ host' rest, ']' ∉ host' ∧ s.toList = '[' :: (host' ++ ']' :: rest) ∧
      host = .ofList host' ∧ portBehind rest defaultPort = some p) ∨
    (∃ host' port, host' ≠ [] ∧ ']' ∉ s.toList ∧ ':' ∉ port ∧
      s.toList = host' ++ ':' :: port ∧ host = .ofList host' ∧
      portOf port defaultPort = some p) ∨
    s ≠ "" ∧ ']' ∉ s.toList ∧ ':' ∉ s.toList ∧ host = s ∧ p = defaultPort := by
  rw [← toOption_eq_some_iff] at h
  have hshape := targetShape s.toList
  generalize hs : s.toList = cs at hshape ⊢
  cases hshape with
  | empty =>
      rw [toOption_parseHostPort_eq_none_iff.mpr (hs ▸ .empty)] at h
      cases h
  | unopened hbracket hopen =>
      rw [parseHostPort_of_unopened (hs ▸ hbracket) (hs ▸ hopen)] at h
      cases h
  | bracketed hhost =>
      rw [parseHostPort_of_bracketed hs hhost, Option.map_eq_some_iff] at h
      obtain ⟨p, hport, heq⟩ := h
      obtain ⟨rfl, rfl⟩ := Prod.mk.inj heq
      exact .inl ⟨_, _, hhost, rfl, rfl, hport⟩
  | colon hbracket hcolon =>
      rw [parseHostPort_of_colon hs (hs ▸ hbracket) hcolon] at h
      split_ifs at h with hne
      obtain ⟨p, hport, heq⟩ := Option.map_eq_some_iff.mp h
      obtain ⟨rfl, rfl⟩ := Prod.mk.inj heq
      exact .inr (.inl ⟨_, _, hne, hbracket, hcolon, rfl, rfl, hport⟩)
  | bare hne hbracket hcolon =>
      rw [parseHostPort_of_bare (hs ▸ hne) (hs ▸ hbracket) (hs ▸ hcolon),
        toOption_eq_some_iff] at h
      obtain ⟨rfl, rfl⟩ := Prod.mk.inj (Except.ok.inj h)
      refine .inr (.inr ⟨?_, hbracket, hcolon, rfl, rfl⟩)
      rintro rfl
      exact hne hs.symm

/-! ### The six ways -/

/-- The ways to write a host with a port. -/
inductive Names (defaultPort : UInt16) : String → String → UInt16 → Prop
  | bare (host : String) : Names defaultPort host host defaultPort
  | bareColon (host : String) : Names defaultPort (host ++ ":") host defaultPort
  | barePort (host port : String) {p : UInt16} : parseU16 port = .ok p →
      Names defaultPort (host ++ ":" ++ port) host p
  | bracketed (host : String) : Names defaultPort ("[" ++ host ++ "]") host defaultPort
  | bracketedColon (host : String) : Names defaultPort ("[" ++ host ++ "]:") host defaultPort
  | bracketedPort (host port : String) {p : UInt16} : parseU16 port = .ok p →
      Names defaultPort ("[" ++ host ++ "]:" ++ port) host p

/-- A bare host is read back without a port and with an empty one. -/
theorem parseHostPort_bare {host : String} (hne : host ≠ "") (hcolon : ':' ∉ host.toList)
    (hbracket : ']' ∉ host.toList) (defaultPort : UInt16) :
    parseHostPort host defaultPort = .ok (host, defaultPort) ∧
      parseHostPort (host ++ ":") defaultPort = .ok (host, defaultPort) := by
  have hne : host.toList ≠ [] := by simpa using hne
  refine ⟨parseHostPort_of_bare hne hbracket hcolon defaultPort, ?_⟩
  have hs : (host ++ ":").toList = host.toList ++ ':' :: [] := String.toList_append
  have hnotMem : ']' ∉ (host ++ ":").toList := by
    rw [hs]
    simpa using hbracket
  rw [← toOption_eq_some_iff, parseHostPort_of_colon hs hnotMem List.not_mem_nil, if_neg hne,
    portOf, if_pos rfl, Option.map_some, String.ofList_toList]

/-- A host in brackets gets the default port too, where no port or an empty one follows them. -/
theorem parseHostPort_inBrackets {host : String} (hbracket : ']' ∉ host.toList)
    (defaultPort : UInt16) :
    parseHostPort ("[" ++ host ++ "]") defaultPort = .ok (host, defaultPort) ∧
      parseHostPort ("[" ++ host ++ "]:") defaultPort = .ok (host, defaultPort) := by
  have hs : ("[" ++ host ++ "]").toList = '[' :: (host.toList ++ ']' :: []) := by simp
  have hs' : ("[" ++ host ++ "]:").toList = '[' :: (host.toList ++ ']' :: [':']) := by simp
  constructor
  · rw [← toOption_eq_some_iff, parseHostPort_of_bracketed hs hbracket,
      portBehind_of_ne (by simp), Option.map_some, String.ofList_toList]
  · rw [← toOption_eq_some_iff, parseHostPort_of_bracketed hs' hbracket, portBehind, portOf,
      if_pos rfl, Option.map_some, String.ofList_toList]

/-- **Written hosts are read back**: bare, in brackets, with a port and without one, whatever the
default port is. -/
theorem parseHostPort_rendered (port defaultPort : UInt16) :
    (∀ host : String, host ≠ "" → ':' ∉ host.toList → ']' ∉ host.toList →
      parseHostPort host defaultPort = .ok (host, defaultPort) ∧
      parseHostPort (host ++ ":") defaultPort = .ok (host, defaultPort) ∧
      parseHostPort (host ++ ":" ++ Nat.repr port.toNat) defaultPort = .ok (host, port)) ∧
    ∀ host : String, ']' ∉ host.toList →
      parseHostPort ("[" ++ host ++ "]") defaultPort = .ok (host, defaultPort) ∧
      parseHostPort ("[" ++ host ++ "]:") defaultPort = .ok (host, defaultPort) ∧
      parseHostPort ("[" ++ host ++ "]:" ++ Nat.repr port.toNat) defaultPort =
        .ok (host, port) := by
  constructor
  · intro host hne hcolon hbracket
    obtain ⟨hbare, hempty⟩ := parseHostPort_bare hne hcolon hbracket defaultPort
    have hne : host.toList ≠ [] := by simpa using hne
    exact ⟨hbare, hempty, parseHostPort_plain hne hbracket port defaultPort⟩
  · intro host hbracket
    obtain ⟨hbare, hempty⟩ := parseHostPort_inBrackets hbracket defaultPort
    exact ⟨hbare, hempty, parseHostPort_bracketed hbracket port defaultPort⟩

/-- Two hosts that are read back, a name with its port and an address of IPv6 without one. -/
theorem parseHostPort_rendered_sample :
    parseHostPort ("example.com" ++ ":" ++ Nat.repr 8080) 80 = .ok ("example.com", 8080) ∧
      parseHostPort ("[" ++ "::1" ++ "]:") 80 = .ok ("::1", 80) := by
  obtain ⟨hbare, hbrackets⟩ := parseHostPort_rendered 8080 80
  exact ⟨(hbare "example.com" (by simp) (by simp) (by simp)).2.2,
    (hbrackets "::1" (by simp)).2.1⟩

/-! ### What is accepted -/

/-- Nothing but the six ways is accepted, and no empty host. -/
def ReadsWhole (s : String) (defaultPort : UInt16) : Prop :=
  ∀ host p, parseHostPort s defaultPort = .ok (host, p) →
    host ≠ "" ∧ Names defaultPort s host p

/-- What follows a bracketed host is nothing or starts with a colon, and the host is not empty
unless the port is refused. -/
def BracketsClose (s : String) : Prop :=
  ∀ host rest, ']' ∉ host → s.toList = '[' :: (host ++ ']' :: rest) →
    (rest = [] ∨ rest.head? = some ':') ∧
      (host = [] → ∃ port, rest = ':' :: port ∧ BadPort port)

/-- Behind a bracketed host only a colon and a port name it. -/
theorem Names.bracketed_rest {s host : String} {defaultPort p : UInt16}
    (h : Names defaultPort s host p) {rest : List Char} (hhost : ']' ∉ host.toList)
    (hs : s.toList = '[' :: (host.toList ++ ']' :: rest)) :
    rest = [] ∨ rest.head? = some ':' := by
  have hmem : ']' ∈ s.toList := by
    rw [hs]
    simp
  cases h with
  | bare => exact absurd hmem hhost
  | bareColon => exact absurd hmem (by simpa using hhost)
  | barePort _ port hport =>
      have hmem : ']' ∈ port.toList := by simpa [hhost] using hmem
      rw [← String.ofList_toList (s := port)] at hport
      simpa using mem_of_parseU16 hport hmem
  | bracketed =>
      left
      simpa using hs
  | bracketedColon =>
      right
      have hrest : [':'] = rest := by simpa using hs
      rw [← hrest]
      rfl
  | bracketedPort _ port hport =>
      right
      have hrest : ':' :: port.toList = rest := by simpa using hs
      rw [← hrest]
      rfl

/-- What is read of a bracketed host names the text when nothing behind it is ignored. -/
theorem names_of_bracketed {s : String} {host rest : List Char} {defaultPort p : UInt16}
    (hs : s.toList = '[' :: (host ++ ']' :: rest)) (hrest : rest = [] ∨ rest.head? = some ':')
    (h : portBehind rest defaultPort = some p) : Names defaultPort s (.ofList host) p := by
  obtain rfl | hcolon := hrest
  · obtain rfl := Option.some.inj h
    obtain rfl : s = "[" ++ .ofList host ++ "]" := String.toList_inj.mp (by simp [hs])
    exact .bracketed _
  · obtain ⟨port, rfl⟩ := List.head?_eq_some_iff.mp hcolon
    obtain ⟨rfl, rfl⟩ | ⟨-, hport⟩ := portOf_eq_some_iff.mp h
    · obtain rfl : s = "[" ++ .ofList host ++ "]:" := String.toList_inj.mp (by simp [hs])
      exact .bracketedColon _
    · obtain rfl : s = "[" ++ .ofList host ++ "]:" ++ .ofList port :=
        String.toList_inj.mp (by simp [hs])
      exact .bracketedPort _ _ hport

/-- A text with a colon in front of an acceptable port names the host before the colon. -/
theorem names_of_colon {s : String} {host port : List Char} {defaultPort p : UInt16}
    (hs : s.toList = host ++ ':' :: port) (h : portOf port defaultPort = some p) :
    Names defaultPort s (.ofList host) p := by
  obtain ⟨rfl, rfl⟩ | ⟨-, hport⟩ := portOf_eq_some_iff.mp h
  · obtain rfl : s = .ofList host ++ ":" := String.toList_inj.mp (by simp [hs])
    exact .bareColon _
  · obtain rfl : s = .ofList host ++ ":" ++ .ofList port := String.toList_inj.mp (by simp [hs])
    exact .barePort _ _ hport

/-- **When nothing else is accepted.** Exactly when nothing but a colon follows a bracketed
host, and an empty host in brackets has a port that is refused. -/
theorem readsWhole_iff (s : String) (defaultPort : UInt16) :
    ReadsWhole s defaultPort ↔ BracketsClose s := by
  have hne : ∀ {host : List Char}, String.ofList host ≠ "" ↔ host ≠ [] := by simp
  constructor
  · intro h host rest hhost hs
    have hread := parseHostPort_of_bracketed hs hhost defaultPort
    cases hport : portBehind rest defaultPort with
    | none =>
        obtain ⟨port, rfl, hbad⟩ := portBehind_eq_none_iff.mp hport
        exact ⟨.inr rfl, fun _ => ⟨port, rfl, hbad⟩⟩
    | some p =>
        rw [hport, Option.map_some, toOption_eq_some_iff] at hread
        obtain ⟨hhost', hnames⟩ := h _ p hread
        refine ⟨hnames.bracketed_rest ?_ ?_, fun hnil => absurd hnil (hne.mp hhost')⟩
        · rwa [String.toList_ofList]
        · rw [String.toList_ofList, hs]
  · intro h host p hread
    obtain ⟨host', rest, hhost, hs, rfl, hport⟩ | ⟨host', port, hnil, -, -, hs, rfl, hport⟩ |
      ⟨hnil, -, -, rfl, rfl⟩ := parseHostPort_cases hread
    · obtain ⟨hrest, hempty⟩ := h _ _ hhost hs
      refine ⟨hne.mpr fun hnil => ?_, names_of_bracketed hs hrest hport⟩
      rw [portBehind_eq_none_iff.mpr (hempty hnil)] at hport
      cases hport
    · exact ⟨hne.mpr hnil, names_of_colon hs hport⟩
    · exact ⟨hnil, .bare _⟩

/-- A host in brackets with `x` behind it, and empty brackets. -/
theorem not_readsWhole : ¬ ReadsWhole "[::1]x" 80 ∧ ¬ ReadsWhole "[]" 80 := by
  have hignored : parseHostPort "[::1]x" 80 = .ok ("::1", 80) := by decide +kernel
  have hempty : parseHostPort "[]" 80 = .ok ("", 80) := by decide +kernel
  constructor
  · intro h
    have hrest := (h _ _ hignored).2.bracketed_rest (by simp)
      (show "[::1]x".toList = '[' :: ("::1".toList ++ ']' :: ['x']) by simp)
    simp at hrest
  · exact fun h => (h _ _ hempty).1 rfl

/-! ### The authority of a URL -/

/-- What is read of a URL behind the authority: the text before the first slash. -/
def query (tail : String) : List Char :=
  tail.toList.takeWhile (· ≠ '/')

/-- The part of a target up to its first slash. -/
theorem untilSlash_eq (s : String) : untilSlash s = .ofList (s.toList.takeWhile (· ≠ '/')) := by
  rw [untilSlash]
  congr 1
  cases hfind : find '/' s.toList with
  | none =>
      have hslash := find_eq_none_iff.mp hfind
      rw [Option.getD_none, List.take_length, List.takeWhile_eq_self_iff.mpr]
      intro c hc
      simpa using ne_of_mem_of_not_mem hc hslash
  | some i =>
      obtain ⟨pre, post, hs, hpre, rfl⟩ := find_eq_some_iff.mp hfind
      have hall : ∀ c ∈ pre, decide (c ≠ '/') = true := fun c hc => by
        simpa using ne_of_mem_of_not_mem hc hpre
      rw [Option.getD_some, hs, List.take_left' rfl, List.takeWhile_append_of_pos hall]
      simp

/-- Of a URL the authority is read, and what comes before the first slash behind it. -/
theorem extractHostFromTarget_http {auth : String} (hauth : '/' ∉ auth.toList) (tail : String)
    (defaultPort : UInt16) :
    extractHostFromTarget ("http://" ++ auth ++ tail) defaultPort =
      parseHostPort (.ofList (auth.toList ++ query tail)) defaultPort := by
  have hstrip : stripPrefix "http://" ("http://" ++ auth ++ tail) = some (auth ++ tail) :=
    stripPrefix_eq_some_iff.mpr (by simp)
  have hall : ∀ c ∈ auth.toList, decide (c ≠ '/') = true := fun c hc => by
    simpa using ne_of_mem_of_not_mem hc hauth
  rw [extractHostFromTarget, hstrip]
  simp only
  rw [untilSlash_eq, String.toList_append, List.takeWhile_append_of_pos hall, query]

/-- The host is made of the characters of the text. -/
theorem mem_of_mem_host {s host : String} {defaultPort p : UInt16} {c : Char}
    (hread : parseHostPort s defaultPort = .ok (host, p)) (hc : c ∈ host.toList) :
    c ∈ s.toList := by
  obtain ⟨host', rest, -, hs, rfl, -⟩ | ⟨host', port, -, -, -, hs, rfl, -⟩ |
    ⟨-, -, -, rfl, -⟩ := parseHostPort_cases hread
  · rw [String.toList_ofList] at hc
    rw [hs]
    exact List.mem_cons_of_mem _ (List.mem_append_left _ hc)
  · rw [String.toList_ofList] at hc
    rw [hs]
    exact List.mem_append_left _ hc
  · exact hc

/-- What comes before the first separator belongs to the part before any of them. -/
theorem mem_of_append_eq {c sep : Char} {pre post head tail : List Char} (hne : c ≠ sep)
    (hpre : sep ∉ pre) (h : pre ++ c :: post = head ++ sep :: tail) : c ∈ head := by
  obtain ⟨mid, rfl, hmid⟩ | ⟨mid, rfl, hmid⟩ := List.append_eq_append_iff.mp h
  · rcases mid with - | ⟨d, mid⟩
    · exact absurd (List.cons.inj hmid).1 hne
    · rw [(List.cons.inj hmid).1]
      simp
  · rcases mid with - | ⟨d, mid⟩
    · exact absurd (List.cons.inj hmid).1.symm hne
    · rw [(List.cons.inj hmid).1] at hpre
      simp at hpre

/-- A question mark or a number sign that comes before any closing bracket is part of the
host. -/
theorem mem_host_of_append {s host : String} {pre post : List Char} {c : Char}
    {defaultPort p : UInt16} (hread : parseHostPort s defaultPort = .ok (host, p))
    (hs : s.toList = pre ++ c :: post) (hpre : ']' ∉ pre) (hc : c = '?' ∨ c = '#') :
    c ∈ host.toList := by
  have hmem : c ∈ s.toList := by
    rw [hs]
    simp
  have hclose : c ≠ ']' := by
    rintro rfl
    simp at hc
  obtain ⟨host', rest, -, hs', rfl, -⟩ | ⟨host', port, -, -, -, hs', rfl, hport⟩ |
    ⟨-, -, -, rfl, -⟩ := parseHostPort_cases hread
  · have hsplit : pre ++ c :: post = ('[' :: host') ++ ']' :: rest := hs.symm.trans hs'
    rw [String.toList_ofList]
    obtain rfl | hmem := List.mem_cons.mp (mem_of_append_eq hclose hpre hsplit)
    · simp at hc
    · exact hmem
  · rw [String.toList_ofList]
    rw [hs', List.mem_append, List.mem_cons] at hmem
    obtain hmem | rfl | hmem := hmem
    · exact hmem
    · simp at hc
    · rw [portOf_eq_none_iff.mpr (badPort_of_mem hmem hc)] at hport
      cases hport
  · exact hmem

/-- Only the authority of a URL decides: nothing but the authority comes before the first
slash, or the authority is a bracketed host without a colon behind it, or both the authority
and the authority with what comes before the slash are refused. -/
def AuthorityDecides (auth tail : String) : Prop :=
  query tail = [] ∨
    (∃ host rest, ']' ∉ host ∧ auth.toList = '[' :: (host ++ ']' :: rest) ∧
      rest.head? ≠ some ':') ∨
    Refused auth.toList ∧ Refused (auth.toList ++ query tail)

/-- The tail of a URL starts with a slash, a question mark or a number sign, and a question
mark or a number sign is where what is read behind the authority starts. -/
theorem query_cases {tail : String}
    (htail : ∀ c, tail.toList.head? = some c → c = '/' ∨ c = '?' ∨ c = '#') :
    query tail = [] ∨ ∃ c rest, query tail = c :: rest ∧ (c = '?' ∨ c = '#') := by
  rw [query]
  cases hcs : tail.toList with
  | nil => exact .inl rfl
  | cons c cs =>
      obtain rfl | hc := htail c (by rw [hcs, List.head?_cons])
      · exact .inl rfl
      · refine .inr ⟨c, _, List.takeWhile_cons_of_pos ?_, hc⟩
        obtain rfl | rfl := hc <;> decide

/-- A query behind an authority that is read is ignored only behind a bracketed host without a
colon. -/
theorem bracketed_of_query_ignored {auth longer host : String} {rest : List Char} {c : Char}
    {defaultPort p : UInt16} (hread : parseHostPort auth defaultPort = .ok (host, p))
    (hread' : parseHostPort longer defaultPort = .ok (host, p))
    (hsplit : longer.toList = auth.toList ++ c :: rest) (hc : c = '?' ∨ c = '#')
    (hnotMem : c ∉ auth.toList) :
    ∃ host behind, ']' ∉ host ∧ auth.toList = '[' :: (host ++ ']' :: behind) ∧
      behind.head? ≠ some ':' := by
  have hbracket : ']' ∈ auth.toList := by
    by_contra hbracket
    exact hnotMem (mem_of_mem_host hread (mem_host_of_append hread' hsplit hbracket hc))
  obtain ⟨host', behind, hhost, hs, -, -⟩ | ⟨_, _, -, hnot, -⟩ | ⟨-, hnot, -⟩ :=
    parseHostPort_cases hread
  · refine ⟨host', behind, hhost, hs, fun hcolon => ?_⟩
    -- the port would run into the question mark or the number sign
    obtain ⟨port, rfl⟩ := List.head?_eq_some_iff.mp hcolon
    have hs' : longer.toList = '[' :: (host' ++ ']' :: ':' :: (port ++ c :: rest)) := by
      rw [hsplit, hs]
      simp
    rw [← toOption_eq_some_iff, parseHostPort_of_bracketed hs' hhost, portBehind,
      portOf_eq_none_iff.mpr (badPort_of_mem (by simp) hc)] at hread'
    cases hread'
  · exact absurd hbracket hnot
  · exact absurd hbracket hnot

/-- Behind the brackets a query is ignored, as whatever does not start with a colon is. -/
theorem parseHostPort_bracketed_query {auth longer : String} {host behind rest : List Char}
    {c : Char} (hhost : ']' ∉ host) (hs : auth.toList = '[' :: (host ++ ']' :: behind))
    (hcolon : behind.head? ≠ some ':') (hsplit : longer.toList = auth.toList ++ c :: rest)
    (hc : c = '?' ∨ c = '#') (defaultPort : UInt16) :
    (parseHostPort longer defaultPort).toOption = (parseHostPort auth defaultPort).toOption := by
  have hs' : longer.toList = '[' :: (host ++ ']' :: (behind ++ c :: rest)) := by
    rw [hsplit, hs]
    simp
  have hcolon' : (behind ++ c :: rest).head? ≠ some ':' := by
    rcases behind with - | ⟨d, behind⟩
    · obtain rfl | rfl := hc <;> simp
    · exact hcolon
  rw [parseHostPort_of_bracketed hs' hhost, parseHostPort_of_bracketed hs hhost,
    portBehind_of_ne hcolon, portBehind_of_ne hcolon']

/-- **When only the authority of a URL decides.** -/
theorem extractHostFromTarget_eq_iff {auth tail : String}
    (hauth : ∀ c ∈ auth.toList, c ≠ '/' ∧ c ≠ '?' ∧ c ≠ '#')
    (htail : ∀ c, tail.toList.head? = some c → c = '/' ∨ c = '?' ∨ c = '#')
    (defaultPort : UInt16) :
    (extractHostFromTarget ("http://" ++ auth ++ tail) defaultPort).toOption =
        (parseHostPort auth defaultPort).toOption ↔ AuthorityDecides auth tail := by
  have hslash : '/' ∉ auth.toList := fun h => (hauth '/' h).1 rfl
  rw [extractHostFromTarget_http hslash, AuthorityDecides]
  set longer : String := .ofList (auth.toList ++ query tail) with hlonger
  have hlist : longer.toList = auth.toList ++ query tail := by rw [hlonger, String.toList_ofList]
  obtain hquery | ⟨c, rest, hquery, hc⟩ := query_cases htail
  · rw [hlonger, hquery, List.append_nil, String.ofList_toList]
    exact iff_of_true rfl (.inl rfl)
  have hnotMem : c ∉ auth.toList := by
    intro hmem
    obtain rfl | rfl := hc
    · exact (hauth _ hmem).2.1 rfl
    · exact (hauth _ hmem).2.2 rfl
  have hsplit : longer.toList = auth.toList ++ c :: rest := by rw [hlist, hquery]
  constructor
  · intro heq
    cases hread : (parseHostPort auth defaultPort).toOption with
    | none =>
        rw [hread] at heq
        rw [toOption_parseHostPort_eq_none_iff] at heq hread
        exact .inr (.inr ⟨hread, hlist ▸ heq⟩)
    | some result =>
        rw [hread, toOption_eq_some_iff] at heq
        rw [toOption_eq_some_iff] at hread
        exact .inr (.inl (bracketed_of_query_ignored hread heq hsplit hc hnotMem))
  · rintro (hnil | ⟨host, behind, hhost, hs, hcolon⟩ | ⟨hrefused, hrefused'⟩)
    · rw [hnil] at hquery
      cases hquery
    · exact parseHostPort_bracketed_query hhost hs hcolon hsplit hc defaultPort
    · rw [toOption_parseHostPort_eq_none_iff.mpr hrefused,
        toOption_parseHostPort_eq_none_iff.mpr (hlist ▸ hrefused')]

/-- A URL with a path, a query and a fragment gives the host and the port before them. -/
theorem extractHostFromTarget_eq_sample :
    (extractHostFromTarget ("http://" ++ "example.com:8080" ++ "/a?b#c") 80).toOption =
      (parseHostPort "example.com:8080" 80).toOption := by
  refine (extractHostFromTarget_eq_iff ?_ ?_ 80).mpr (.inl (by decide))
  · simp
  · simp

/-- In a URL with a query and no path the query is read as a part of the host. -/
theorem extractHostFromTarget_query :
    extractHostFromTarget ("http://" ++ "example.com" ++ "?q") 80 =
        .ok ("example.com?q", 80) ∧
      parseHostPort "example.com" 80 = .ok ("example.com", 80) := by
  decide +kernel

end Redog
