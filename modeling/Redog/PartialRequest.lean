import Redog.HttpSniffer

/-!
# Sniffing part of a request

A peek sees the first bytes of a connection, and these may break off anywhere. The TLS
sniffer reads the lengths in front of what it parses and gives no name until all is there.
The HTTP sniffer has no such check: the last line of the text counts as a line whether it is
ended or not, so a Host header cut in its value gives a host that the request does not have.

`StableCut` describes the cuts that do no harm, by the bytes on both sides of the cut alone.
A host is given away early in one more way: bytes behind the cut that are no UTF-8 make the
sniffer refuse the whole request.

## Main results

* `hostOfValue_append_iff`: when more of a value leaves the host as it is.
* `sniffed_prefix_iff`: when the host of a prefix is that of the whole.
-/

namespace Redog

open Rust

/-! ### Hosts of values -/

/-- The host is no longer than the value it is taken from. -/
theorem length_hostOfValue_le (value : String) :
    (hostOfValue value).toList.length ≤ (trim value).toList.length := by
  rcases hostOfValue_cases value with ⟨port, -, htext⟩ | ⟨hsame, -⟩
  · rw [htext, List.length_append]
    exact Nat.le_add_right _ _
  · rw [hsame]

/-- A value that breaks off before `more` has the host of the whole value: `more` is
whitespace, or the whole value ends in a port, and the part of it is the host alone or the
host with a shorter port. -/
def SameHost (value more : String) : Prop :=
  (∀ c ∈ more.toList, isWhitespace c) ∨
    ∃ host, EndsInPort (trim (value ++ more)) host ∧
      (EndsInPort (trim value) host ∨
        trim value = host ∧ ∀ host', ¬ EndsInPort (trim value) host')

/-- **When more of a value leaves the host as it is.** -/
theorem hostOfValue_append_iff (value more : String) :
    hostOfValue value = hostOfValue (value ++ more) ↔ SameHost value more := by
  constructor
  · intro h
    by_cases hmore : ∀ c ∈ more.toList, isWhitespace c
    · exact .inl hmore
    right
    rcases hostOfValue_cases (value ++ more) with hport | ⟨hwhole, -⟩
    · refine ⟨_, hport, ?_⟩
      rw [← h]
      rcases hostOfValue_cases value with hport' | ⟨hsame, hnone⟩
      · exact .inl hport'
      · exact .inr ⟨hsame.symm, hnone⟩
    · -- the whole value is longer than what its beginning gives
      have hlt := length_trim_lt (s := value) hmore
      have hle := length_hostOfValue_le value
      rw [h, hwhole] at hle
      omega
  · rintro (hmore | ⟨host, hport, hpart⟩)
    · refine hostOfValue_congr ?_
      have happend := trim_append_right hmore value.toList
      rwa [String.ofList_append, String.ofList_toList, String.ofList_toList, eq_comm] at happend
    · rw [hostOfValue_of_endsInPort hport]
      rcases hpart with hport' | ⟨hsame, hnone⟩
      · exact hostOfValue_of_endsInPort hport'
      · rw [hostOfValue_of_not_endsInPort hnone, hsame]

/-! ### Lines -/

/-- The host of a line, if it is taken for the Host header. -/
def hostOfLine (line : String) : Option String :=
  (hostValue line).map hostOfValue

/-- What follows a Host header on its line belongs to the value. -/
theorem hostValue_append {line value : String} (h : hostValue line = some value) (more : String) :
    hostValue (line ++ more) = some (value ++ more) := by
  obtain ⟨name, hname, hline⟩ := hostValue_eq_some h
  refine hostValue_eq_some_iff.mpr ⟨name, hname, ?_⟩
  rw [String.toList_append, hline, String.toList_append, List.append_assoc]
  rfl

/-- The carriage return at the end of a line has no part in the host. -/
theorem hostOfLine_append_cr (line : String) : hostOfLine (line ++ "\r") = hostOfLine line := by
  have hcr : ∀ c ∈ "\r".toList, isWhitespace c := List.forall_mem_singleton.mpr rfl
  cases hvalue : hostValue line with
  | some value =>
      have hhost := (hostOfValue_append_iff value "\r").mpr (.inl hcr)
      rw [hostOfLine, hostOfLine, hostValue_append hvalue, hvalue, Option.map_some,
        Option.map_some, hhost]
  | none =>
      suffices hnone : hostValue (line ++ "\r") = none by
        rw [hostOfLine, hostOfLine, hnone, hvalue]
      rw [Option.eq_none_iff_forall_ne_some] at hvalue ⊢
      intro value hsome
      obtain ⟨name, hname, hline⟩ := hostValue_eq_some hsome
      rw [String.toList_append] at hline
      rcases List.eq_nil_or_concat value.toList with hnil | ⟨value', c, hconcat⟩
      · have hsplit : line.toList ++ ['\r'] = (name.toList ++ [':']) ++ [' '] := by
          rw [hnil] at hline
          simpa using hline
        obtain ⟨-, hlast⟩ := List.append_inj' hsplit rfl
        exact absurd hlast (by decide)
      · have hsplit : line.toList ++ ['\r'] = (name.toList ++ ':' :: ' ' :: value') ++ [c] := by
          rw [hconcat] at hline
          simpa using hline
        obtain ⟨hline, -⟩ := List.append_inj' hsplit rfl
        refine hvalue (.ofList value') (hostValue_eq_some_iff.mpr ⟨name, hname, ?_⟩)
        rw [hline, String.toList_ofList]

/-- The lines of a text that a line feed has ended. -/
def endedLines (text : String) : List String :=
  (text.toList.splitOn '\n').dropLast.map .ofList

/-- The line a text breaks off in. -/
def openLine (text : String) : String :=
  .ofList ((text.toList.splitOn '\n').getLastD [])

/-- The line a text starts with, which is the whole text where no line ends. -/
def firstLine (text : String) : String :=
  .ofList ((text.toList.splitOn '\n').headD [])

/-- The pieces of a text between line feeds: the lines that have been ended, and the one that is
open. -/
theorem splitOn_eq_endedLines (text : String) :
    text.toList.splitOn '\n' = (endedLines text).map String.toList ++ [(openLine text).toList] := by
  have hne := List.splitOn_ne_nil '\n' text.toList
  have hmap : String.toList ∘ String.ofList = id := funext fun _ => String.toList_ofList
  rw [endedLines, openLine, List.map_map, hmap, List.map_id, String.toList_ofList,
    List.getLastD_eq_getLast?, List.getLast?_eq_some_getLast hne, Option.getD_some,
    List.dropLast_append_getLast]

/-- The carriage returns and an empty line at the end do not matter to the search. -/
theorem findSome?_lines (text : String) :
    (lines text).findSome? hostOfLine =
      (text.toList.splitOn '\n').findSome? fun piece => hostOfLine (.ofList piece) := by
  have hended : ∀ piece : List Char,
      hostOfLine (.ofList (if piece.getLast? = some '\r' then piece.dropLast else piece)) =
        hostOfLine (.ofList piece) := by
    intro piece
    split_ifs with hcr
    · have hpiece : String.ofList piece = .ofList piece.dropLast ++ "\r" := by
        rw [← String.toList_inj, String.toList_append, String.toList_ofList,
          String.toList_ofList]
        exact (List.dropLast_append_getLast? _ hcr).symm
      rw [hpiece, hostOfLine_append_cr]
    · rfl
  have hopen : ∀ piece : List Char, (([piece].filter (· ≠ [])).map String.ofList).findSome?
      hostOfLine = hostOfLine (.ofList piece) := by
    intro piece
    cases piece with
    | nil => rfl
    | cons c cs =>
        have hsome : [c :: cs].filter (· ≠ []) = [c :: cs] := rfl
        rw [hsome, List.map_singleton, List.findSome?_singleton]
  have hlines : lines text = (((endedLines text).map String.toList).map (fun piece =>
      if piece.getLast? = some '\r' then piece.dropLast else piece) ++
        [(openLine text).toList].filter (· ≠ [])).map .ofList := by
    simp only [lines, splitOn_eq_endedLines, List.dropLast_concat, List.getLast?_concat,
      Option.toList_some]
  rw [hlines, splitOn_eq_endedLines, List.map_append, List.findSome?_append, hopen,
    List.findSome?_append, List.findSome?_singleton, List.findSome?_map, List.findSome?_map]
  simp only [Function.comp_def, hended]

/-- The host of a request is searched for in the ended lines, and then in the open one. -/
theorem findSome?_lines_eq (text : String) :
    (lines text).findSome? hostOfLine =
      ((endedLines text).findSome? hostOfLine).or (hostOfLine (openLine text)) := by
  rw [findSome?_lines, splitOn_eq_endedLines, List.findSome?_append, List.findSome?_map,
    List.findSome?_singleton, String.ofList_toList]
  simp only [Function.comp_def, String.ofList_toList]

/-- When a text goes on its ended lines stay as they are, and the open one is continued. -/
theorem findSome?_lines_append (text more : String) :
    ∃ later, (lines (text ++ more)).findSome? hostOfLine =
      ((endedLines text).findSome? hostOfLine).or
        ((hostOfLine (openLine text ++ firstLine more)).or later) := by
  obtain ⟨first, pieces, hpieces⟩ :=
    List.exists_cons_of_ne_nil (List.splitOn_ne_nil '\n' more.toList)
  have hfirst : openLine text ++ firstLine more =
      .ofList ((openLine text).toList ++ first) := by
    rw [firstLine, hpieces, List.headD_cons, String.ofList_append, String.ofList_toList]
  refine ⟨pieces.findSome? fun piece => hostOfLine (.ofList piece), ?_⟩
  rw [findSome?_lines, String.toList_append,
    splitOn_append_of_concat (splitOn_eq_endedLines text) more.toList, hpieces,
    List.modifyHead_cons, List.findSome?_append, List.findSome?_map, List.findSome?_cons, hfirst]
  simp only [Function.comp_def, String.ofList_toList]
  cases hostOfLine (.ofList ((openLine text).toList ++ first)) <;> rfl

/-- The sniffer searches the lines of a request. -/
theorem sniffHttpHost_utf8 {text : String} (h : looksLikeRequest text) :
    sniffHttpHost (utf8 text) = (lines text).findSome? hostOfLine := by
  rw [sniffHttpHost, fromUtf8_utf8]
  simp only [h, Bool.not_true, Bool.false_eq_true, if_false]
  rfl

/-- What follows a request does not change what it starts with. -/
theorem looksLikeRequest_append {text : String} (h : looksLikeRequest text) (more : String) :
    looksLikeRequest (text ++ more) := by
  obtain ⟨method, hmethod, hstart⟩ := looksLikeRequest_iff.mp h
  refine looksLikeRequest_iff.mpr ⟨method, hmethod, ?_⟩
  rw [startsWith_iff] at hstart ⊢
  exact hstart.trans ⟨more.toList, String.toList_append.symm⟩

/-! ### Cuts -/

/-- The text has no Host header, or what follows is text too, and the Host header of the first
text has been ended by a line feed or breaks off where the host is known. -/
def HostSettled (text : String) (rest : List UInt8) : Prop :=
  (∀ line ∈ endedLines text ++ [openLine text], hostValue line = none) ∨
    ∃ more, fromUtf8 rest = some more ∧
      ((∃ line ∈ endedLines text, (hostValue line).isSome) ∨
        ∃ value, hostValue (openLine text) = some value ∧ SameHost value (firstLine more))

/-- A cut that does no harm: where the bytes before it look like a request, the host is settled. -/
def StableCut (p rest : List UInt8) : Prop :=
  ∀ text, fromUtf8 p = some text → looksLikeRequest text → HostSettled text rest

/-- From a request no host is taken exactly when no line of it is taken for the Host header. -/
theorem sniffHttpHost_eq_none_iff {text : String} (h : looksLikeRequest text) :
    sniffHttpHost (utf8 text) = none ↔
      ∀ line ∈ endedLines text ++ [openLine text], hostValue line = none := by
  rw [sniffHttpHost_utf8 h, findSome?_lines_eq, Option.or_eq_none_iff, List.findSome?_eq_none_iff,
    List.forall_mem_append, List.forall_mem_singleton]
  simp only [hostOfLine, Option.map_eq_none_iff]

/-- A Host header that has ended gives the host of the whole request. -/
theorem sniffHttpHost_of_ended {text more line : String} (h : looksLikeRequest text)
    (hline : line ∈ endedLines text) (hvalue : (hostValue line).isSome) :
    sniffHttpHost (utf8 text) = sniffHttpHost (utf8 (text ++ more)) := by
  obtain ⟨later, hlater⟩ := findSome?_lines_append text more
  have hended : ((endedLines text).findSome? hostOfLine).isSome := by
    rw [List.findSome?_isSome_iff]
    exact ⟨line, hline, by rwa [hostOfLine, Option.isSome_map]⟩
  obtain ⟨host, hhost⟩ := Option.isSome_iff_exists.mp hended
  rw [sniffHttpHost_utf8 h, sniffHttpHost_utf8 (looksLikeRequest_append h more), hlater,
    findSome?_lines_eq, hhost, Option.some_or, Option.some_or]

/-- One that is still open gives the host of the whole request when its value does. -/
theorem sniffHttpHost_of_open {text more value : String} (h : looksLikeRequest text)
    (hended : ∀ line ∈ endedLines text, hostValue line = none)
    (hvalue : hostValue (openLine text) = some value) :
    sniffHttpHost (utf8 text) = sniffHttpHost (utf8 (text ++ more)) ↔
      SameHost value (firstLine more) := by
  obtain ⟨later, hlater⟩ := findSome?_lines_append text more
  have hnone : (endedLines text).findSome? hostOfLine = none :=
    List.findSome?_eq_none_iff.mpr fun line hline => by
      rw [hostOfLine, hended line hline, Option.map_none]
  rw [sniffHttpHost_utf8 h, sniffHttpHost_utf8 (looksLikeRequest_append h more), hlater,
    findSome?_lines_eq, hnone, Option.none_or, Option.none_or, hostOfLine, hostOfLine, hvalue,
    hostValue_append hvalue, Option.map_some, Option.map_some, Option.some_or, Option.some.injEq,
    hostOfValue_append_iff]

/-- What the sniffer makes of a text is nothing, or what it makes of the whole, exactly when
the host is settled. -/
theorem hostSettled_iff {text : String} (h : looksLikeRequest text) (rest : List UInt8) :
    (sniffHttpHost (utf8 text) = none ∨
        sniffHttpHost (utf8 text) = sniffHttpHost (utf8 text ++ rest)) ↔
      HostSettled text rest := by
  rw [HostSettled, ← sniffHttpHost_eq_none_iff h]
  cases hrest : fromUtf8 rest with
  | none =>
      have hwhole : sniffHttpHost (utf8 text ++ rest) = none := by
        rw [sniffHttpHost, fromUtf8_append, hrest, Option.map_none]
      rw [hwhole, or_self]
      refine (or_iff_left ?_).symm
      rintro ⟨more, hmore, -⟩
      cases hmore
  | some more =>
      obtain rfl := fromUtf8_eq_some_iff.mp hrest
      simp only [Option.some.injEq, exists_eq_left', ← utf8_append]
      refine or_congr_right' fun hnone => ?_
      rw [sniffHttpHost_eq_none_iff h, List.forall_mem_append, List.forall_mem_singleton] at hnone
      by_cases hended : ∃ line ∈ endedLines text, (hostValue line).isSome
      · obtain ⟨line, hline, hvalue⟩ := hended
        exact iff_of_true (sniffHttpHost_of_ended h hline hvalue) (.inl ⟨line, hline, hvalue⟩)
      · rw [or_iff_right hended]
        have hended : ∀ line ∈ endedLines text, hostValue line = none := by
          simpa using hended
        have hopen : hostValue (openLine text) ≠ none := fun hopen => hnone ⟨hended, hopen⟩
        obtain ⟨value, hvalue⟩ := Option.ne_none_iff_exists'.mp hopen
        rw [sniffHttpHost_of_open h hended hvalue, hvalue]
        simp only [Option.some.injEq, exists_eq_left']

/-- **When the host of a prefix is that of the whole.** What the sniffer makes of the bytes
before a cut is nothing, or what it makes of all bytes, exactly at the cuts that do no harm. -/
theorem sniffed_prefix_iff (p rest : List UInt8) :
    (sniffHttpHost p = none ∨ sniffHttpHost p = sniffHttpHost (p ++ rest)) ↔
      StableCut p rest := by
  by_cases hlooks : ∃ text, fromUtf8 p = some text ∧ looksLikeRequest text
  · obtain ⟨text, htext, hlooks⟩ := hlooks
    obtain rfl := fromUtf8_eq_some_iff.mp htext
    rw [hostSettled_iff hlooks]
    constructor
    · intro h text' htext' _
      obtain rfl := Option.some.inj (htext.symm.trans htext')
      exact h
    · exact fun h => h text htext hlooks
  · have hnone : sniffHttpHost p = none := by
      rw [sniffHttpHost]
      cases htext : fromUtf8 p with
      | none => rfl
      | some text => exact if_pos (by simpa [htext] using hlooks)
    exact iff_of_true (.inl hnone) fun text htext h => absurd ⟨text, htext, h⟩ hlooks

/-- The beginning of a request, cut behind four letters of the host. -/
def cutRequest : String := "GET / HTTP/1.1\r\nHost: exam"

/-- The host of the beginning is `exam`, that of the request `example.com`. -/
theorem sniffed_prefix_differs :
    ¬ (sniffHttpHost (utf8 cutRequest) = none ∨
      sniffHttpHost (utf8 cutRequest) =
        sniffHttpHost (utf8 cutRequest ++ utf8 "ple.com\r\n\r\n")) := by
  have hcut : sniffHttpHost (utf8 cutRequest) = some "exam" := by
    rw [sniffHttpHost, fromUtf8_utf8]
    decide +kernel
  have hwhole : sniffHttpHost (utf8 (cutRequest ++ "ple.com\r\n\r\n")) = some "example.com" := by
    rw [sniffHttpHost, fromUtf8_utf8]
    decide +kernel
  rw [← utf8_append, hcut, hwhole]
  decide

end Redog
