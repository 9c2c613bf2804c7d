import Redog.HostPort

/-!
# Two splitters

Two functions take a port off a host: `parse_host_port` for the target of a request, and the
HTTP sniffer for the value of a Host header. The sniffer cuts what follows the last colon when
it reads as a number, and knows neither brackets nor a colon without a port.

## Main results

* `sniffHttpHost_hostRequest_iff`: for which authorities they give the same host.
-/

namespace Redog

open Rust

/-- A request whose Host header has the value `a`. -/
def hostRequest (a : String) : String :=
  "GET / HTTP/1.1\r\nHost: " ++ a ++ "\r\n\r\n"

/-- The request with one Host header, put together from its parts. -/
theorem hostRequest_eq (a : String) :
    hostRequest a = "GET" ++ " " ++ "/ HTTP/1.1" ++ "\r\n" ++
      ("Host" ++ ":" ++ " " ++ a ++ "\r\n" ++ ("" ++ "\r\n" ++ "")) := by
  have hhead : "GET / HTTP/1.1\r\nHost: ".toList = "GET".toList ++ (" ".toList ++
      ("/ HTTP/1.1".toList ++ ("\r\n".toList ++ ("Host".toList ++
        (":".toList ++ " ".toList))))) := by
    decide
  have hend : "\r\n\r\n".toList =
      "\r\n".toList ++ ("".toList ++ ("\r\n".toList ++ "".toList)) := by
    decide
  apply String.toList_inj.mp
  unfold hostRequest
  simp only [String.toList_append, List.append_assoc, hhead, hend]

/-- The sniffer takes the value of the header. -/
theorem sniffHttpHost_hostRequest {a : String} (ha : '\n' ∉ a.toList) :
    sniffHttpHost (utf8 (hostRequest a)) = some (hostOfValue a) := by
  let header : Header :=
    { name := "Host"
      ows := " "
      value := a
      colon_notMem := by simp
      ows_mem := by simp
      oneLine := ⟨by simp, ha⟩ }
  let request : HttpRequest :=
    { method := "GET"
      target := "/ HTTP/1.1"
      headers := [header]
      body := ""
      method_mem := List.mem_cons_self
      oneLine := by simp }
  have htext : request.text = hostRequest a := (hostRequest_eq a).symm
  have hvalue : hostValue header.line = some a := by
    have hline : stripPrefix "Host: " header.line = some a :=
      stripPrefix_eq_some_iff.mpr (by simp [header, Header.line])
    rw [hostValue, hline, Option.some_or]
  rw [← htext, request.sniffHttpHost_text]
  simp only [request, List.map_singleton, List.singleton_append, List.findSome?_cons, hvalue,
    Option.map_some]

/-- A bracketed host is not what the sniffer makes of it: the bracket before it stays. -/
theorem hostOfValue_ne_of_bracketed {value : String} {host rest : List Char}
    (hs : (trim value).toList = '[' :: (host ++ ']' :: rest)) :
    hostOfValue value ≠ .ofList host := by
  intro heq
  have hwhole : trim value ≠ .ofList host := by
    intro h
    have hlen := congrArg (fun s : String => s.toList.length) h
    simp only [hs, String.toList_ofList, List.length_cons, List.length_append] at hlen
    omega
  by_cases hcolon : ':' ∈ (trim value).toList
  · obtain ⟨pre, post, hsplit, hpost⟩ := exists_append_cons_of_mem hcolon
    rw [hostOfValue_of_colon hsplit hpost] at heq
    split_ifs at heq
    · -- shifted by the bracket, the host would have one opening bracket less
      obtain rfl : pre = host := by simpa using congrArg String.toList heq
      have hshift : ('[' :: pre) ++ ']' :: rest = (pre ++ [':']) ++ post := by
        rw [List.append_assoc, List.singleton_append, ← hsplit, hs, List.cons_append]
      have hcons := (List.append_inj hshift (by simp)).1
      have hcount := congrArg (List.count '[') hcons
      simp at hcount
    · exact hwhole heq
  · rw [hostOfValue_of_notMem hcolon] at heq
    exact hwhole heq

/-- **When the two splitters agree.** On an authority without whitespace that
`parse_host_port` accepts, the sniffer gives the same host exactly when there is no closing
bracket and no colon at the end. -/
theorem sniffHttpHost_hostRequest_iff {a host : String} {defaultPort p : UInt16}
    (ha : ∀ c ∈ a.toList, isWhitespace c = false)
    (hread : parseHostPort a defaultPort = .ok (host, p)) :
    sniffHttpHost (utf8 (hostRequest a)) = some host ↔
      ']' ∉ a.toList ∧ a.toList.getLast? ≠ some ':' := by
  have hline : '\n' ∉ a.toList := fun h => absurd (ha _ h) (by decide)
  have htrim := trim_eq_self ha
  rw [sniffHttpHost_hostRequest hline, Option.some.injEq]
  obtain ⟨host', rest, -, hs, rfl, -⟩ |
    ⟨host', port, -, hbracket, hcolon, hs, rfl, hport⟩ | ⟨-, hbracket, hcolon, rfl, -⟩ :=
    parseHostPort_cases hread
  · refine iff_of_false (fun heq => ?_) fun h => h.1 (by rw [hs]; simp)
    exact hostOfValue_ne_of_bracketed (htrim ▸ hs) heq
  · have hne : a ≠ .ofList host' := by
      rintro heq
      have hlen := congrArg (fun s : String => s.toList.length) heq
      simp [hs] at hlen
    rw [hostOfValue_of_colon (htrim ▸ hs) hcolon, htrim, hs]
    obtain ⟨rfl, -⟩ | ⟨hne', hport⟩ := portOf_eq_some_iff.mp hport
    · have hempty : (parseU16 (.ofList [])).toOption.isSome = false := by decide
      rw [hempty, if_neg Bool.false_ne_true]
      exact iff_of_false hne fun h => h.2 (by simp)
    · have hsome : (parseU16 (.ofList port)).toOption.isSome = true := by rw [hport]; rfl
      rw [if_pos hsome]
      refine iff_of_true rfl ⟨hs ▸ hbracket, fun hlast => hcolon ?_⟩
      rw [List.getLast?_append_of_ne_nil _ (List.cons_ne_nil _ _),
        List.getLast?_cons_of_ne_nil hne'] at hlast
      exact List.mem_of_getLast? hlast
  · rw [hostOfValue_of_notMem (by rwa [htrim]), htrim]
    refine iff_of_true rfl ⟨hbracket, fun hlast => hcolon ?_⟩
    exact List.mem_of_getLast? hlast

/-- A name with a port, which meets the condition, so that the sniffer gives the name. -/
theorem sniffHttpHost_hostRequest_sample :
    sniffHttpHost (utf8 (hostRequest "example.com:8080")) = some "example.com" ↔
      ']' ∉ "example.com:8080".toList ∧ "example.com:8080".toList.getLast? ≠ some ':' := by
  have hread : parseHostPort "example.com:8080" 80 = .ok ("example.com", 8080) := by
    decide +kernel
  exact sniffHttpHost_hostRequest_iff (by simp [isWhitespace]) hread

/-- An IPv6 address with a port, and a name with a colon and no port. -/
theorem hostSplitters_differ :
    parseHostPort "[::1]:80" 80 = .ok ("::1", 80) ∧
      sniffHttpHost (utf8 (hostRequest "[::1]:80")) = some "[::1]" ∧
      parseHostPort "example.com:" 80 = .ok ("example.com", 80) ∧
      sniffHttpHost (utf8 (hostRequest "example.com:")) = some "example.com:" := by
  decide +kernel

end Redog
