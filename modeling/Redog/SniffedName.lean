import Redog.Sniffer

/-!
# Where a sniffed name comes from

The lengths in a TLS record nest: the record declares the length of the handshake message,
the message that of the ClientHello, the ClientHello that of its extensions, and so on down
to a host name. A name the sniffer returns should lie inside all of them, since a server
that reads the lengths as they are declared sees no other name.

The sniffer compares the end of the extensions with the record and not with the ClientHello,
slices the body of the SNI extension out of the record and not out of the extensions, and
compares the end of a name with that body and not with the list of names. `ReadName` is
where the sniffer reads a name, `NestedName` adds the three comparisons it does not make.

## Main results

* `sniffTlsSni_eq_some_iff`: the sniffer returns exactly the names it reads.
* `returnsNested_iff`: when the names it returns lie inside all lengths around them.
-/

namespace Redog

open Rust

/-! ### The list of names -/

/-- Reading a list of names from `start`, the headers of entries that are not host names are
skipped with their names; `entry` is reached in this way. -/
inductive EntryAt (body : List UInt8) (stop : ℕ) : ℕ → ℕ → Prop
  | here (entry : ℕ) : EntryAt body stop entry entry
  | skip {start entry : ℕ} : start + 3 ≤ stop → body.getD start 0 ≠ 0 →
      EntryAt body stop (start + 3 + wordAt body (start + 1)) entry →
        EntryAt body stop start entry

/-- The bytes of the name of an entry. -/
def nameAt (body : List UInt8) (entry : ℕ) : List UInt8 :=
  (body.take (entry + 3 + wordAt body (entry + 1))).drop (entry + 3)

/-- `entry` is the first host name entry of a list that stops at `stop`, and its name lies in
the body. -/
structure HostNameAt (body : List UInt8) (start stop entry : ℕ) : Prop where
  reached : EntryAt body stop start entry
  header_le : entry + 3 ≤ stop
  hostName : body.getD entry 0 = 0
  name_le : entry + 3 + wordAt body (entry + 1) ≤ body.length

/-- One step of the loop over the names: an entry that is a host name ends the search, another one
is skipped. -/
theorem hostNameAt_iff {body : List UInt8} {start stop entry : ℕ} (h : start + 3 ≤ stop) :
    HostNameAt body start stop entry ↔
      if body.getD start 0 = 0 then
        entry = start ∧ start + 3 + wordAt body (start + 1) ≤ body.length
      else HostNameAt body (start + 3 + wordAt body (start + 1)) stop entry := by
  split_ifs with htype
  · constructor
    · rintro ⟨hreached, -, -, hle⟩
      cases hreached with
      | here => exact ⟨rfl, hle⟩
      | skip _ hne _ => exact absurd htype hne
    · rintro ⟨rfl, hle⟩
      exact ⟨.here _, h, htype, hle⟩
  · constructor
    · rintro ⟨hreached, hheader, hname, hle⟩
      cases hreached with
      | here => exact absurd hname htype
      | skip _ _ hnext => exact ⟨hnext, hheader, hname, hle⟩
    · rintro ⟨hreached, hheader, hname, hle⟩
      exact ⟨.skip h htype hreached, hheader, hname, hle⟩

/-- Where no header fits in front of the end of the list there is no host name entry. -/
theorem not_hostNameAt {body : List UInt8} {start stop entry : ℕ} (h : ¬ start + 3 ≤ stop) :
    ¬ HostNameAt body start stop entry := by
  rintro ⟨hreached, hheader, -, -⟩
  cases hreached with
  | here => exact h hheader
  | skip hle _ _ => exact h hle

/-- The loop over the names returns the first host name when it lies in the body and is
valid. Strong induction on the bytes left below `stop`. -/
theorem walkServerNames_eq_some_iff {body : List UInt8} {stop : ℕ} (hstop : stop ≤ body.length)
    (name : String) : ∀ (n start : ℕ), stop - start ≤ n →
      (walkServerNames body stop start = .ok (some name) ↔
        ∃ entry, HostNameAt body start stop entry ∧ nameAt body entry = utf8 name) := by
  have hnone : ∀ start, ¬ start + 3 ≤ stop →
      (walkServerNames body stop start = .ok (some name) ↔
        ∃ entry, HostNameAt body start stop entry ∧ nameAt body entry = utf8 name) := by
    intro start h
    rw [walkServerNames_stop h]
    refine iff_of_false nofun ?_
    rintro ⟨entry, hentry, -⟩
    exact not_hostNameAt h hentry
  intro n
  induction n with
  | zero => exact fun start hn => hnone start (by omega)
  | succ n ih =>
      intro start hn
      by_cases h : start + 3 ≤ stop
      swap
      · exact hnone start h
      rw [walkServerNames_step hstop h]
      simp only [hostNameAt_iff h]
      by_cases htype : body.getD start 0 = 0
      · simp only [if_pos htype]
        by_cases hle : start + 3 + wordAt body (start + 1) ≤ body.length
        · rw [if_pos ⟨htype, hle⟩, Except.ok.injEq, fromUtf8_eq_some_iff, ← nameAt]
          constructor
          · exact fun hname => ⟨start, ⟨rfl, hle⟩, hname⟩
          · rintro ⟨entry, ⟨rfl, -⟩, hname⟩
            exact hname
        · -- a host name that does not lie in the body ends the loop
          rw [if_neg fun hboth => hle hboth.2, walkServerNames_stop (by omega)]
          refine iff_of_false nofun ?_
          rintro ⟨entry, ⟨-, hle'⟩, -⟩
          exact hle hle'
      · simp only [if_neg htype]
        rw [if_neg fun hboth => htype hboth.1]
        exact ih _ (by omega)

/-- The body of an SNI extension holds a list of names, and `entry` is its first host name. -/
structure NameInBody (body : List UInt8) (entry : ℕ) : Prop where
  two_le : 2 ≤ body.length
  list_le : 2 + wordAt body 0 ≤ body.length
  hostName : HostNameAt body 2 (2 + wordAt body 0) entry

/-- The parser of the extension returns exactly the name of the first host name entry, when its
bytes are UTF-8. -/
theorem parseSniExtension_eq_some_iff {body : List UInt8} {name : String} :
    parseSniExtension body = .ok (some name) ↔
      ∃ entry, NameInBody body entry ∧ nameAt body entry = utf8 name := by
  rw [parseSniExtension]
  by_cases hlen : body.length < 2
  · rw [if_pos hlen]
    refine iff_of_false (by rintro ⟨⟩) ?_
    rintro ⟨entry, ⟨hle, -, -⟩, -⟩
    omega
  rw [if_neg hlen, be16At_eq_ok (by omega)]
  simp only [bind, Except.bind]
  by_cases hlist : body.length < 2 + wordAt body 0
  · rw [if_pos hlist]
    refine iff_of_false (by rintro ⟨⟩) ?_
    rintro ⟨entry, ⟨-, hle, -⟩, -⟩
    omega
  rw [if_neg hlist, walkServerNames_eq_some_iff (by omega) name _ 2 le_rfl]
  refine exists_congr fun entry => and_congr_left fun _ => ?_
  exact ⟨fun h => ⟨by omega, by omega, h⟩, fun h => h.hostName⟩

/-! ### The extensions -/

/-- The bytes of the body of an extension. -/
def bodyAt (handshake : List UInt8) (pos : ℕ) : List UInt8 :=
  (handshake.take (pos + 4 + wordAt handshake (pos + 2))).drop (pos + 4)

/-- `pos` is the header of the first SNI extension below `stop`, and its body lies in the
handshake message. -/
structure SniAt (handshake : List UInt8) (start stop pos : ℕ) : Prop where
  reached : HeaderAt handshake start stop pos
  header_le : pos + 4 ≤ stop
  sni : wordAt handshake pos = 0
  body_le : pos + 4 + wordAt handshake (pos + 2) ≤ handshake.length

/-- One step of the loop over the extensions: the SNI extension ends the search, another one is
skipped. -/
theorem sniAt_iff {handshake : List UInt8} {start stop pos : ℕ} (h : start + 4 ≤ stop) :
    SniAt handshake start stop pos ↔
      if wordAt handshake start = 0 then
        pos = start ∧ start + 4 + wordAt handshake (start + 2) ≤ handshake.length
      else SniAt handshake (start + 4 + wordAt handshake (start + 2)) stop pos := by
  split_ifs with htype
  · constructor
    · rintro ⟨hreached, -, -, hle⟩
      obtain rfl | ⟨-, hne, -⟩ := headerAt_iff.mp hreached
      · exact ⟨rfl, hle⟩
      · exact absurd htype hne
    · rintro ⟨rfl, hle⟩
      exact ⟨.first, h, htype, hle⟩
  · constructor
    · rintro ⟨hreached, hheader, hsni, hle⟩
      obtain rfl | ⟨-, -, hnext⟩ := headerAt_iff.mp hreached
      · exact absurd hsni htype
      · exact ⟨hnext, hheader, hsni, hle⟩
    · rintro ⟨hreached, hheader, hsni, hle⟩
      exact ⟨headerAt_iff.mpr (.inr ⟨h, htype, hreached⟩), hheader, hsni, hle⟩

/-- Where no header fits in front of the end of the block there is no SNI extension. -/
theorem not_sniAt {handshake : List UInt8} {start stop pos : ℕ} (h : ¬ start + 4 ≤ stop) :
    ¬ SniAt handshake start stop pos := by
  rintro ⟨hreached, hheader, -, -⟩
  obtain rfl | ⟨hle, -, -⟩ := headerAt_iff.mp hreached
  · exact h hheader
  · exact h hle

/-- The loop over the extensions returns what the body of the first SNI extension holds.
Strong induction on the bytes left below `stop`. -/
theorem walkExtensions_eq_some_iff {handshake : List UInt8} {stop : ℕ}
    (hstop : stop ≤ handshake.length) (name : String) : ∀ (n start : ℕ), stop - start ≤ n →
      (walkExtensions handshake stop start = .ok (some name) ↔
        ∃ pos, SniAt handshake start stop pos ∧
          parseSniExtension (bodyAt handshake pos) = .ok (some name)) := by
  have hnone : ∀ start, ¬ start + 4 ≤ stop →
      (walkExtensions handshake stop start = .ok (some name) ↔
        ∃ pos, SniAt handshake start stop pos ∧
          parseSniExtension (bodyAt handshake pos) = .ok (some name)) := by
    intro start h
    rw [walkExtensions_stop h]
    refine iff_of_false nofun ?_
    rintro ⟨pos, hpos, -⟩
    exact not_sniAt h hpos
  intro n
  induction n with
  | zero => exact fun start hn => hnone start (by omega)
  | succ n ih =>
      intro start hn
      by_cases h : start + 4 ≤ stop
      swap
      · exact hnone start h
      rw [walkExtensions_step hstop h]
      simp only [sniAt_iff h]
      by_cases htype : wordAt handshake start = 0
      · simp only [if_pos htype]
        by_cases hle : start + 4 + wordAt handshake (start + 2) ≤ handshake.length
        · rw [slice_eq_ok (by omega) hle]
          constructor
          · exact fun hname => ⟨start, ⟨rfl, hle⟩, hname⟩
          · rintro ⟨pos, ⟨rfl, -⟩, hname⟩
            exact hname
        · -- the slice of the body panics
          rw [slice_eq_error (by omega)]
          refine iff_of_false nofun ?_
          rintro ⟨pos, ⟨-, hle'⟩, -⟩
          exact hle hle'
      · simp only [if_neg htype]
        exact ih _ (by omega)

/-! ### The record -/

/-- Where the sniffer reads a name: the handshake message in the record, its extensions
between `start` and `stop`, the header `pos` of the first SNI extension, and the first host
name `entry` in the body of that extension. -/
structure ReadName (data handshake : List UInt8) (start stop pos entry : ℕ) : Prop where
  record : HandshakeRecord data handshake
  block : ExtensionBlock handshake start stop
  sni : SniAt handshake start stop pos
  name : NameInBody (bodyAt handshake pos) entry

/-- **What the sniffer returns.** The sniffer returns exactly the valid names it reads. -/
theorem sniffTlsSni_eq_some_iff {data : List UInt8} {name : String} :
    sniffTlsSni data = .ok (some name) ↔
      ∃ handshake start stop pos entry, ReadName data handshake start stop pos entry ∧
        nameAt (bodyAt handshake pos) entry = utf8 name := by
  obtain ⟨handshake, hrecord, heq⟩ | ⟨hnone, heq⟩ := sniffTlsSni_eq data
  swap
  · rw [heq]
    refine iff_of_false nofun ?_
    rintro ⟨handshake, _, _, _, _, h, _⟩
    exact hnone handshake h.record
  rw [heq, parseClientHelloSni]
  obtain ⟨r, hr, hblock⟩ := helloExtensions_eq handshake
  rw [hr]
  constructor
  · intro h
    obtain - | ⟨start, stop⟩ := r
    · cases h
    have hB := (hblock start stop).mp rfl
    obtain ⟨pos, hsni, hbody⟩ :=
      (walkExtensions_eq_some_iff hB.stop_le name _ start le_rfl).mp h
    obtain ⟨entry, hentry, hname⟩ := parseSniExtension_eq_some_iff.mp hbody
    exact ⟨handshake, start, stop, pos, entry, ⟨hrecord, hB, hsni, hentry⟩, hname⟩
  · rintro ⟨handshake', start, stop, pos, entry, ⟨hrecord', hB, hsni, hentry⟩, hname⟩
    obtain rfl := hrecord'.handshake_eq.trans hrecord.handshake_eq.symm
    rw [(hblock start stop).mpr hB]
    exact (walkExtensions_eq_some_iff hB.stop_le name _ start le_rfl).mpr
      ⟨pos, hsni, parseSniExtension_eq_some_iff.mpr ⟨entry, hentry, hname⟩⟩

/-- A list has one first host name entry, by induction on the entries that are skipped on the way to
it. -/
theorem HostNameAt.unique {body : List UInt8} {start stop entry entry' : ℕ}
    (h : HostNameAt body start stop entry) (h' : HostNameAt body start stop entry') :
    entry = entry' := by
  obtain ⟨hreached, hheader, hname, hle⟩ := h
  induction hreached with
  | here entry =>
      rw [hostNameAt_iff hheader, if_pos hname] at h'
      exact h'.1.symm
  | skip hskip hne _ ih =>
      rw [hostNameAt_iff hskip, if_neg hne] at h'
      exact ih h' hheader hname hle

/-- A block has one first SNI extension. The induction is on the bytes that are left of the
block. -/
theorem SniAt.unique {handshake : List UInt8} {stop pos pos' : ℕ} : ∀ (n start : ℕ),
    stop - start ≤ n → SniAt handshake start stop pos → SniAt handshake start stop pos' →
      pos = pos' := by
  intro n
  induction n with
  | zero => exact fun start hn h _ => absurd h (not_sniAt (by omega))
  | succ n ih =>
      intro start hn h h'
      by_cases hle : start + 4 ≤ stop
      swap
      · exact absurd h (not_sniAt hle)
      rw [sniAt_iff hle] at h h'
      split_ifs at h h' with htype
      · exact h.1.trans h'.1.symm
      · exact ih _ (by omega) h h'

/-- The sniffer reads one name at most. -/
theorem ReadName.unique {data handshake handshake' : List UInt8}
    {start start' stop stop' pos pos' entry entry' : ℕ}
    (h : ReadName data handshake start stop pos entry)
    (h' : ReadName data handshake' start' stop' pos' entry') :
    handshake = handshake' ∧ start = start' ∧ stop = stop' ∧ pos = pos' ∧ entry = entry' := by
  obtain rfl := h.record.handshake_eq.trans h'.record.handshake_eq.symm
  obtain rfl := h.block.start_eq.trans h'.block.start_eq.symm
  obtain rfl := h.block.stop_eq.trans h'.block.stop_eq.symm
  obtain rfl := SniAt.unique _ start le_rfl h.sni h'.sni
  exact ⟨rfl, rfl, rfl, rfl, h.name.hostName.unique h'.name.hostName⟩

/-! ### Nesting -/

/-- A name all lengths around it enclose: the extensions end inside the ClientHello, the body
of the SNI extension inside the extensions, and the name inside the list of names. That the
ClientHello ends inside the record and the list inside the body the sniffer checks. -/
structure NestedName (data handshake : List UInt8) (start stop pos entry : ℕ) : Prop
    extends ReadName data handshake start stop pos entry where
  extensions_le : stop ≤ 4 + helloLength handshake
  body_le : pos + 4 + wordAt handshake (pos + 2) ≤ stop
  name_le : entry + 3 + wordAt (bodyAt handshake pos) (entry + 1) ≤
    2 + wordAt (bodyAt handshake pos) 0

/-- What the sniffer returns is a name all lengths around it enclose. -/
def ReturnsNested (data : List UInt8) : Prop :=
  ∀ name, sniffTlsSni data = .ok (some name) →
    ∃ handshake start stop pos entry, NestedName data handshake start stop pos entry ∧
      nameAt (bodyAt handshake pos) entry = utf8 name

/-- Where a valid name is read, the extensions end inside the ClientHello, the body of the SNI
extension inside the extensions, and the name inside the list of names. -/
def LengthsNest (data : List UInt8) : Prop :=
  ∀ handshake start stop pos entry, ReadName data handshake start stop pos entry →
    (∃ name, nameAt (bodyAt handshake pos) entry = utf8 name) →
      stop ≤ 4 + helloLength handshake ∧
        pos + 4 + wordAt handshake (pos + 2) ≤ stop ∧
        entry + 3 + wordAt (bodyAt handshake pos) (entry + 1) ≤
          2 + wordAt (bodyAt handshake pos) 0

/-- **When sniffed names lie inside all lengths around them.** Exactly when the three lengths
the sniffer does not compare with the ones around them do not exceed them. -/
theorem returnsNested_iff (data : List UInt8) : ReturnsNested data ↔ LengthsNest data := by
  constructor
  · rintro h handshake start stop pos entry hread ⟨name, hname⟩
    have hsniff := sniffTlsSni_eq_some_iff.mpr ⟨_, _, _, _, _, hread, hname⟩
    obtain ⟨handshake', start', stop', pos', entry', hnested, -⟩ := h name hsniff
    obtain ⟨rfl, rfl, rfl, rfl, rfl⟩ := hread.unique hnested.toReadName
    exact ⟨hnested.extensions_le, hnested.body_le, hnested.name_le⟩
  · intro h name hsniff
    obtain ⟨handshake, start, stop, pos, entry, hread, hname⟩ :=
      sniffTlsSni_eq_some_iff.mp hsniff
    obtain ⟨hextensions, hbody, hle⟩ := h handshake start stop pos entry hread ⟨name, hname⟩
    exact ⟨handshake, start, stop, pos, entry, ⟨hread, hextensions, hbody, hle⟩, hname⟩

/-- A ClientHello whose SNI extension has a list of three bytes, the header of an entry, and
the name `a.io` behind the list. -/
def nameBehindList : List UInt8 :=
  [0x16, 0x03, 0x01, 0x00, 0x39, 0x01, 0x00, 0x00, 0x35, 0x03, 0x03] ++
    List.replicate 32 0 ++ [0x00, 0x00, 0x00, 0x00, 0x00, 0x0d, 0x00, 0x00, 0x00, 0x09,
      0x00, 0x03, 0x00, 0x00, 0x04, 0x61, 0x2e, 0x69, 0x6f]

/-- The sniffer returns `a.io`, which is no name of the list. -/
theorem not_returnsNested :
    sniffTlsSni nameBehindList = .ok (some "a.io") ∧ ¬ ReturnsNested nameBehindList := by
  have hsniff : sniffTlsSni nameBehindList = .ok (some "a.io") := by decide +kernel
  have hread : ReadName nameBehindList (nameBehindList.drop 5) 44 57 44 2 := by
    refine ⟨⟨by decide, rfl, by decide, rfl⟩, ⟨rfl, by decide, by decide, by decide, by decide⟩,
      ⟨.first, by decide, by decide, by decide⟩, by decide, by decide, .here 2, by decide,
      by decide, by decide⟩
  refine ⟨hsniff, fun h => ?_⟩
  obtain ⟨handshake, start, stop, pos, entry, hnested, -⟩ := h "a.io" hsniff
  obtain ⟨rfl, rfl, rfl, rfl, rfl⟩ := hread.unique hnested.toReadName
  exact absurd hnested.name_le (by decide)

end Redog
