import Redog.Core

/-!
# Targets of HTTP requests

`parse_host_port` and `extract_host_from_target`: the host and the port of the target of a
proxy request, with IPv6 literals in brackets. Slices are cut at ASCII characters found
before, so they are taken on the list of characters.

A target divides in one of five ways (`TargetShape`), and what is read of it is said for
each of them, up to the texts of errors.

## Main results

* `parseHostPort_of_bracketed`, `parseHostPort_of_colon`, `parseHostPort_of_bare`: what is
  read of each shape.
* `parseHostPort_authority`: the textual form of an address with a port is read back.
-/

namespace Redog

open Rust

/-- The digits after a colon, or the default when there are none. -/
def parsePort (s : String) (port : List Char) (defaultPort : UInt16) : Except Error UInt16 :=
  if port = [] then .ok defaultPort
  else match parseU16 (.ofList port) with
    | .ok port => .ok port
    | .error _ => .error (.protocol ("invalid port in: " ++ s))

/-- `parse_host_port`: the host and the port of a text. A host in brackets is taken out of them, and
a text without a port has the given one. -/
def parseHostPort (s : String) (defaultPort : UInt16) : Except Error (String × UInt16) :=
  let cs := s.toList
  if cs = [] then .error (.protocol "empty host string")
  else match find ']' cs with
    | some bracketEnd =>
        if cs.head? ≠ some '[' ∨ bracketEnd = 0 then
          .error (.protocol ("malformed IPv6 address: " ++ s))
        else do
          let host := (cs.take bracketEnd).drop 1
          let port ← match cs.drop (bracketEnd + 1) with
            | ':' :: port => parsePort s port defaultPort
            | _ => .ok defaultPort
          return (.ofList host, port)
    | none =>
        match rfind ':' cs with
        | some colon =>
            if cs.take colon = [] then .error (.protocol ("empty host in: " ++ s))
            else do
              let port ← parsePort s (cs.drop (colon + 1)) defaultPort
              return (.ofList (cs.take colon), port)
        | none => .ok (s, defaultPort)

/-- The text before the first slash, the whole text where there is none. -/
def untilSlash (s : String) : String :=
  let cs := s.toList
  .ofList (cs.take ((find '/' cs).getD cs.length))

/-- `extract_host_from_target`: a target with a scheme is cut at the first slash behind it, any
other is taken as it is. -/
def extractHostFromTarget (target : String) (defaultPort : UInt16) :
    Except Error (String × UInt16) :=
  match stripPrefix "http://" target with
  | some rest => parseHostPort (untilSlash rest) defaultPort
  | none =>
      match stripPrefix "https://" target with
      | some rest => parseHostPort (untilSlash rest) defaultPort
      | none => parseHostPort target defaultPort

/-! ### The shapes of a target -/

/-- How a target divides: at the first closing bracket, and without one at the last colon. -/
inductive TargetShape : List Char → Prop
  | empty : TargetShape []
  | unopened {cs : List Char} : ']' ∈ cs → cs.head? ≠ some '[' → TargetShape cs
  | bracketed {host rest : List Char} : ']' ∉ host → TargetShape ('[' :: (host ++ ']' :: rest))
  | colon {host port : List Char} : ']' ∉ host ++ ':' :: port → ':' ∉ port →
      TargetShape (host ++ ':' :: port)
  | bare {cs : List Char} : cs ≠ [] → ']' ∉ cs → ':' ∉ cs → TargetShape cs

/-- Every text has one of the shapes: it is told apart by its brackets and by its last colon. -/
theorem targetShape (cs : List Char) : TargetShape cs := by
  by_cases hbracket : ']' ∈ cs
  · by_cases hopen : cs.head? = some '['
    · obtain ⟨tail, rfl⟩ := List.head?_eq_some_iff.mp hopen
      obtain hmem | hmem := List.mem_cons.mp hbracket
      · exact absurd hmem (by decide)
      · obtain ⟨host, rest, rfl, hhost⟩ := List.eq_append_cons_of_mem hmem
        exact .bracketed hhost
    · exact .unopened hbracket hopen
  · by_cases hcolon : ':' ∈ cs
    · obtain ⟨host, port, rfl, hport⟩ := exists_append_cons_of_mem hcolon
      exact .colon hbracket hport
    · by_cases hne : cs = []
      · rw [hne]
        exact .empty
      · exact .bare hne hbracket hcolon

/-- The port a text behind a colon stands for. -/
def portOf (port : List Char) (defaultPort : UInt16) : Option UInt16 :=
  if port = [] then some defaultPort else (parseU16 (.ofList port)).toOption

/-- The port that what follows a bracketed host stands for: without a colon it is ignored. -/
def portBehind (rest : List Char) (defaultPort : UInt16) : Option UInt16 :=
  match rest with
  | ':' :: port => portOf port defaultPort
  | _ => some defaultPort

/-- A result without its error is the value of a success. -/
theorem toOption_eq_some_iff {ε α : Type} {x : Except ε α} {a : α} :
    x.toOption = some a ↔ x = .ok a := by
  cases x with
  | error e => exact iff_of_false nofun nofun
  | ok b => rw [Except.toOption, Option.some.injEq, Except.ok.injEq]

/-- Reading a port fails or succeeds as `portOf` says, whatever the text of the error. -/
theorem toOption_parsePort (s : String) (port : List Char) (defaultPort : UInt16) :
    (parsePort s port defaultPort).toOption = portOf port defaultPort := by
  rw [parsePort, portOf]
  split_ifs
  · rfl
  · cases parseU16 (.ofList port) <;> rfl

/-- Without a colon behind the closing bracket the port is the default one. -/
theorem portBehind_of_ne {rest : List Char} (h : rest.head? ≠ some ':') (defaultPort : UInt16) :
    portBehind rest defaultPort = some defaultPort := by
  rcases rest with - | ⟨c, rest⟩
  · rfl
  · rw [portBehind]
    rintro _ ⟨⟩
    exact h rfl

section Shapes

variable {s : String} {host port rest : List Char}

/-- A closing bracket without an opening one at the start is refused. -/
theorem parseHostPort_of_unopened (hbracket : ']' ∈ s.toList)
    (hopen : s.toList.head? ≠ some '[') (defaultPort : UInt16) :
    (parseHostPort s defaultPort).toOption = none := by
  rw [parseHostPort, if_neg (List.ne_nil_of_mem hbracket)]
  cases hfind : find ']' s.toList with
  | none => exact absurd hbracket (find_eq_none_iff.mp hfind)
  | some bracketEnd =>
      simp only
      rw [if_pos (.inl hopen)]
      rfl

/-- In a text that starts with brackets the host is what is between them, and what follows may hold
a port. -/
theorem parseHostPort_of_bracketed (hs : s.toList = '[' :: (host ++ ']' :: rest))
    (hhost : ']' ∉ host) (defaultPort : UInt16) :
    (parseHostPort s defaultPort).toOption =
      (portBehind rest defaultPort).map fun port => (.ofList host, port) := by
  have hcs : s.toList = ('[' :: host) ++ ']' :: rest := hs
  have hopen : ']' ∉ '[' :: host := by simpa using hhost
  have hfind : find ']' s.toList = some (host.length + 1) :=
    find_eq_some_iff.mpr ⟨'[' :: host, rest, hcs, hopen, rfl⟩
  have htake : (s.toList.take (host.length + 1)).drop 1 = host := by
    rw [hcs, List.take_left' List.length_cons]
    rfl
  have hdrop : s.toList.drop (host.length + 1 + 1) = rest := by
    rw [hcs, ← List.drop_drop, List.drop_left' List.length_cons]
    rfl
  rw [parseHostPort, if_neg (by rw [hs]; exact List.cons_ne_nil _ _), hfind]
  simp only
  rw [if_neg (by rw [hs]; simp), htake, hdrop]
  by_cases hcolon : rest.head? = some ':'
  · obtain ⟨port, rfl⟩ := List.head?_eq_some_iff.mp hcolon
    rw [portBehind, ← toOption_parsePort s]
    simp only
    cases parsePort s port defaultPort <;> rfl
  · rw [portBehind_of_ne hcolon]
    split
    · exact absurd rfl hcolon
    · rfl

/-- Without brackets the last colon parts the host from the port, and a host has to be there. -/
theorem parseHostPort_of_colon (hs : s.toList = host ++ ':' :: port) (hbracket : ']' ∉ s.toList)
    (hport : ':' ∉ port) (defaultPort : UInt16) :
    (parseHostPort s defaultPort).toOption =
      if host = [] then none
      else (portOf port defaultPort).map fun port => (.ofList host, port) := by
  obtain ⟨hrfind, htake, hdrop⟩ := rfind_cut hs hport
  rw [parseHostPort, if_neg (by rw [hs]; simp), find_eq_none_iff.mpr hbracket]
  simp only
  rw [hrfind]
  simp only
  rw [htake, hdrop, ← toOption_parsePort s]
  split_ifs
  · rfl
  · cases parsePort s port defaultPort <;> rfl

/-- A text with neither a bracket nor a colon is a host with the default port. -/
theorem parseHostPort_of_bare (hne : s.toList ≠ []) (hbracket : ']' ∉ s.toList)
    (hcolon : ':' ∉ s.toList) (defaultPort : UInt16) :
    parseHostPort s defaultPort = .ok (s, defaultPort) := by
  rw [parseHostPort, if_neg hne, find_eq_none_iff.mpr hbracket]
  simp only
  rw [rfind_eq_none hcolon]

end Shapes

/-! ### Addresses as targets -/

/-- An address with a port as a request target: an IPv6 address is bracketed. -/
def authority (ip : IpAddr) (port : UInt16) : String :=
  match ip with
  | .v4 ip => ip.display ++ ":" ++ Nat.repr port.toNat
  | .v6 ip => "[" ++ ip.display ++ "]:" ++ Nat.repr port.toNat

/-- A port that has been printed is read back. -/
theorem portOf_repr (port defaultPort : UInt16) :
    portOf (Nat.repr port.toNat).toList defaultPort = some port := by
  have hne : (Nat.repr port.toNat).toList ≠ [] := by
    rw [Nat.toList_repr]
    exact Nat.toDigits_ne_nil
  rw [portOf, if_neg hne, String.ofList_toList, parseU16_repr]
  rfl

/-- A bracketed text with a port is the text and the port. -/
theorem parseHostPort_bracketed {host : String} (h : ']' ∉ host.toList)
    (port defaultPort : UInt16) :
    parseHostPort ("[" ++ host ++ "]:" ++ Nat.repr port.toNat) defaultPort =
      .ok (host, port) := by
  set s := "[" ++ host ++ "]:" ++ Nat.repr port.toNat with hs
  have hcs : s.toList = '[' :: (host.toList ++ ']' :: ':' :: (Nat.repr port.toNat).toList) := by
    simp [hs]
  rw [← toOption_eq_some_iff, parseHostPort_of_bracketed hcs h, portBehind, portOf_repr,
    Option.map_some, String.ofList_toList]

/-- A nonempty text without a bracket, with a port, is the text and the port. -/
theorem parseHostPort_plain {host : String} (hne : host.toList ≠ [])
    (hbracket : ']' ∉ host.toList) (port defaultPort : UInt16) :
    parseHostPort (host ++ ":" ++ Nat.repr port.toNat) defaultPort = .ok (host, port) := by
  set s := host ++ ":" ++ Nat.repr port.toNat with hs
  have hcs : s.toList = host.toList ++ ':' :: (Nat.repr port.toNat).toList := by
    simp [hs]
  have hnotMem : ']' ∉ s.toList := by
    rw [hcs, List.mem_append, List.mem_cons]
    rintro (h | h | h)
    · exact hbracket h
    · exact absurd h (by decide)
    · exact notMem_repr (by decide) _ h
  rw [← toOption_eq_some_iff,
    parseHostPort_of_colon hcs hnotMem (notMem_repr (by decide) _), if_neg hne, portOf_repr,
    Option.map_some, String.ofList_toList]

/-- The target printed for an address is read back as the text of the address and the
port. -/
theorem parseHostPort_authority (ip : IpAddr) (port defaultPort : UInt16) :
    parseHostPort (authority ip port) defaultPort = .ok (ip.display, port) := by
  have hbracket := ip.bracket_notMem_display
  cases ip with
  | v4 ip => exact parseHostPort_plain ip.display_ne_nil hbracket port defaultPort
  | v6 ip => exact parseHostPort_bracketed hbracket port defaultPort

end Redog
