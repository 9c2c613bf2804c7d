import Redog.Checked
import Redog.Text

/-!
# The TLS sniffer

`sniffTlsSni` reads the server name out of the first bytes of a connection: a TLS record
holding a ClientHello whose extension block carries the name. Everything it reads is sent
by the client, so each access is written with the checked `index` and `slice`, and the
model panics where the code would.

The parser of the ClientHello is cut in two at the extension block. `helloExtensions`
walks the fixed part of the message and returns where the extension headers start and
stop; `walkExtensions` is the loop over them.

## Main results

* `sniffTlsSni_ok_iff`: the sniffer returns on exactly the inputs with no
  `OverlongServerName`, an SNI extension whose declared length runs past the record. On
  those it slices out of range and panics.
-/

namespace Redog

open Rust

/-! ### The code -/

/-- The loop of `parse_sni_extension` over the entries of the server name list, which ends
at `stop`. An entry of another type, or one that does not fit, is stepped over. -/
def walkServerNames (data : List UInt8) (stop pos : ℕ) : Checked (Option String) :=
  if _h : pos + 3 ≤ stop then do
    let nameType ← index data pos
    let nameLen ← be16At data (pos + 1)
    if nameType = 0x00 ∧ pos + 3 + nameLen ≤ data.length then do
      let name ← slice data (pos + 3) (pos + 3 + nameLen)
      return fromUtf8 name
    else walkServerNames data stop (pos + 3 + nameLen)
  else return none
termination_by stop - pos

/-- `parse_sni_extension`: the body of an extension of type 0. -/
def parseSniExtension (data : List UInt8) : Checked (Option String) :=
  if data.length < 2 then return none
  else do
    let listLen ← be16At data 0
    if data.length < 2 + listLen then return none
    else walkServerNames data (2 + listLen) 2

/-- The loop of `parse_client_hello_sni` over the extension headers below `stop`. -/
def walkExtensions (data : List UInt8) (stop pos : ℕ) : Checked (Option String) :=
  if _h : pos + 4 ≤ stop then do
    let extType ← be16At data pos
    let extLen ← be16At data (pos + 2)
    if extType = 0x0000 then do
      let body ← slice data (pos + 4) (pos + 4 + extLen)
      parseSniExtension body
    else walkExtensions data stop (pos + 4 + extLen)
  else return none
termination_by stop - pos

/-- The part of `parse_client_hello_sni` before its loop: where the extension headers
start and where they stop, or `none` when the message is no complete ClientHello or has
no extension block. -/
def helloExtensions (data : List UInt8) : Checked (Option (ℕ × ℕ)) :=
  if data.isEmpty then return none
  else do
    let msgType ← index data 0
    if msgType ≠ 0x01 ∨ data.length < 4 then return none
    else do
      let len₁ ← index data 1
      let len₂ ← index data 2
      let len₃ ← index data 3
      let helloLength := (len₁.toNat <<< 16) ||| (len₂.toNat <<< 8) ||| len₃.toNat
      -- client version and random
      let pos := 4 + 2 + 32
      if data.length < 4 + helloLength ∨ pos ≥ data.length then return none
      else do
        let sessionIdLen ← index data pos
        let pos := pos + (1 + sessionIdLen.toNat)
        if pos + 2 > data.length then return none
        else do
          let cipherSuitesLen ← be16At data pos
          let pos := pos + (2 + cipherSuitesLen)
          if pos ≥ data.length then return none
          else do
            let compressionLen ← index data pos
            let pos := pos + (1 + compressionLen.toNat)
            if pos + 2 > data.length then return none
            else do
              let extensionsLen ← be16At data pos
              let pos := pos + 2
              let extensionsEnd := pos + extensionsLen
              if extensionsEnd > data.length then return none
              else return some (pos, extensionsEnd)

/-- `parse_client_hello_sni`: the fields before the extensions are stepped over, then the extensions
are walked. -/
def parseClientHelloSni (data : List UInt8) : Checked (Option String) := do
  match ← helloExtensions data with
  | none => return none
  | some (pos, extensionsEnd) => walkExtensions data extensionsEnd pos

/-- `sniff_tls_sni`. The record version is read and ignored. -/
def sniffTlsSni (data : List UInt8) : Checked (Option String) :=
  if data.length < 6 then return none
  else do
    let contentType ← index data 0
    if contentType ≠ 0x16 then return none
    else do
      let _recordVersion ← be16At data 1
      let recordLength ← be16At data 3
      if data.length < 5 + recordLength then return none
      else do
        let handshake ← slice data 5 (5 + recordLength)
        parseClientHelloSni handshake

/-! ### Reading in bounds -/

/-- One turn of the loop over the names, with its reads, which all lie inside the extension. -/
theorem walkServerNames_step {data : List UInt8} {stop pos : ℕ}
    (hstop : stop ≤ data.length) (h : pos + 3 ≤ stop) :
    walkServerNames data stop pos =
      if data.getD pos 0 = 0 ∧ pos + 3 + wordAt data (pos + 1) ≤ data.length then
        .ok (fromUtf8 ((data.take (pos + 3 + wordAt data (pos + 1))).drop (pos + 3)))
      else walkServerNames data stop (pos + 3 + wordAt data (pos + 1)) := by
  rw [walkServerNames, dif_pos h, index_eq_ok (by omega), be16At_eq_ok (by omega)]
  simp only [bind, Except.bind]
  split
  · next hfits =>
      rw [slice_eq_ok (by omega) hfits.2]
      rfl
  · rfl

/-- The loop over the names ends without a name where the header of an entry does not fit. -/
theorem walkServerNames_stop {data : List UInt8} {stop pos : ℕ} (h : ¬ pos + 3 ≤ stop) :
    walkServerNames data stop pos = .ok none := by
  rw [walkServerNames, dif_neg h]
  rfl

/-- One turn of the loop over the extensions. Only the slice of the body may fall outside the
message. -/
theorem walkExtensions_step {data : List UInt8} {stop pos : ℕ}
    (hstop : stop ≤ data.length) (h : pos + 4 ≤ stop) :
    walkExtensions data stop pos =
      if wordAt data pos = 0 then
        slice data (pos + 4) (pos + 4 + wordAt data (pos + 2)) >>= parseSniExtension
      else walkExtensions data stop (pos + 4 + wordAt data (pos + 2)) := by
  rw [walkExtensions, dif_pos h, be16At_eq_ok (by omega), be16At_eq_ok (by omega)]
  rfl

/-- The loop over the extensions ends without a name where the header of an extension does not
fit. -/
theorem walkExtensions_stop {data : List UInt8} {stop pos : ℕ} (h : ¬ pos + 4 ≤ stop) :
    walkExtensions data stop pos = .ok none := by
  rw [walkExtensions, dif_neg h]
  rfl

/-- The loop over the server names never leaves the list it was given. Strong induction on
the bytes left below `stop`. -/
theorem walkServerNames_isOk {data : List UInt8} {stop : ℕ} (hstop : stop ≤ data.length) :
    ∀ (n pos : ℕ), stop - pos ≤ n → ∃ r, walkServerNames data stop pos = .ok r := by
  intro n
  induction n with
  | zero =>
      intro pos hpos
      exact ⟨_, walkServerNames_stop (by omega)⟩
  | succ n ih =>
      intro pos hpos
      by_cases h : pos + 3 ≤ stop
      · rw [walkServerNames_step hstop h]
        split
        · exact ⟨_, rfl⟩
        · exact ih _ (by omega)
      · exact ⟨_, walkServerNames_stop h⟩

/-- The body of an SNI extension is parsed without a panic. -/
theorem parseSniExtension_isOk (data : List UInt8) :
    ∃ r, parseSniExtension data = .ok r := by
  rw [parseSniExtension]
  split
  · exact ⟨_, rfl⟩
  · next hlen =>
      rw [be16At_eq_ok (by omega)]
      simp only [bind, Except.bind]
      split
      · exact ⟨_, rfl⟩
      · exact walkServerNames_isOk (by omega) _ _ le_rfl

/-! ### The layout of a ClientHello

Where the variable fields of the message start, read off the length bytes before them.
Outside the message the lengths read as zero, so the positions make sense for every input
and the checks of the code are comparisons with them. -/

/-- The position of the cipher suite length, after the session id. -/
def cipherSuitesAt (data : List UInt8) : ℕ :=
  4 + 2 + 32 + (1 + byteAt data (4 + 2 + 32))

/-- The position of the compression list length, after the cipher suites. -/
def compressionAt (data : List UInt8) : ℕ :=
  cipherSuitesAt data + (2 + wordAt data (cipherSuitesAt data))

/-- The position of the extension block length, after the compression list. -/
def extensionsAt (data : List UInt8) : ℕ :=
  compressionAt data + (1 + byteAt data (compressionAt data))

/-- The length the message header declares, in its three bytes. -/
def helloLength (data : List UInt8) : ℕ :=
  (byteAt data 1 <<< 16) ||| (byteAt data 2 <<< 8) ||| byteAt data 3

/-- The handshake message `data` is a ClientHello whose extension headers lie between
`start` and `stop`. -/
structure ExtensionBlock (data : List UInt8) (start stop : ℕ) : Prop where
  msgType : data[0]? = some 0x01
  helloLength_le : 4 + helloLength data ≤ data.length
  start_eq : start = extensionsAt data + 2
  stop_eq : stop = start + wordAt data (extensionsAt data)
  stop_le : stop ≤ data.length

/-- The extension header positions the loop visits: the first one, and the one after each
header of another type than SNI. -/
inductive HeaderAt (data : List UInt8) (start stop : ℕ) : ℕ → Prop
  | first : HeaderAt data start stop start
  | next {pos : ℕ} : HeaderAt data start stop pos → pos + 4 ≤ stop →
      wordAt data pos ≠ 0 → HeaderAt data start stop (pos + 4 + wordAt data (pos + 2))

/-- The conditions on a block as one conjunction, in the order in which the code checks them. -/
theorem extensionBlock_iff {data : List UInt8} {start stop : ℕ} :
    ExtensionBlock data start stop ↔
      data[0]? = some 0x01 ∧ 4 + helloLength data ≤ data.length ∧
        start = extensionsAt data + 2 ∧ stop = start + wordAt data (extensionsAt data) ∧
        stop ≤ data.length :=
  ⟨fun ⟨h₁, h₂, h₃, h₄, h₅⟩ => ⟨h₁, h₂, h₃, h₄, h₅⟩,
    fun ⟨h₁, h₂, h₃, h₄, h₅⟩ => ⟨h₁, h₂, h₃, h₄, h₅⟩⟩

/-- A block inside the message puts every length field before it inside the message. -/
theorem ExtensionBlock.bounds {data : List UInt8} {start stop : ℕ}
    (h : ExtensionBlock data start stop) :
    38 < data.length ∧ cipherSuitesAt data + 2 ≤ data.length ∧
      compressionAt data < data.length ∧ extensionsAt data + 2 ≤ data.length := by
  have hstop := h.stop_le
  rw [h.stop_eq, h.start_eq] at hstop
  simp only [extensionsAt, compressionAt, cipherSuitesAt] at hstop ⊢
  omega

/-- The part of the message before the extension headers is read without a panic, and the
result is the extension block when there is one. The cases are the checks of the code in
their order. -/
theorem helloExtensions_eq (data : List UInt8) :
    ∃ r, helloExtensions data = .ok r ∧
      ∀ start stop, r = some (start, stop) ↔ ExtensionBlock data start stop := by
  have hnone : (∀ start stop, ¬ ExtensionBlock data start stop) →
      ∀ start stop, (none : Option (ℕ × ℕ)) = some (start, stop) ↔
        ExtensionBlock data start stop :=
    fun h start stop => by simpa using h start stop
  rw [helloExtensions]
  by_cases h0 : data.isEmpty
  · rw [if_pos h0]
    refine ⟨none, rfl, hnone fun start stop hB => ?_⟩
    have := hB.bounds.1
    simp_all
  have hlen : 0 < data.length := by
    rw [List.isEmpty_iff] at h0
    exact List.length_pos_iff.mpr h0
  rw [if_neg h0, index_eq_ok hlen]
  simp only [bind, Except.bind]
  by_cases h1 : data.getD 0 0 ≠ 0x01 ∨ data.length < 4
  · rw [if_pos h1]
    refine ⟨none, rfl, hnone fun start stop hB => ?_⟩
    have := hB.bounds.1
    have htype := hB.msgType
    rw [List.getElem?_eq_getElem hlen] at htype
    simp_all
    omega
  rw [if_neg h1, index_eq_ok (by omega), index_eq_ok (by omega), index_eq_ok (by omega)]
  simp only
  by_cases h2 : data.length < 4 + helloLength data ∨ 4 + 2 + 32 ≥ data.length
  · refine ⟨none, if_pos h2, hnone fun start stop hB => ?_⟩
    have := hB.bounds.1
    have := hB.helloLength_le
    omega
  have hpos : ∀ i, (data.getD i 0).toNat = byteAt data i := fun i => rfl
  rw [show (data.getD 1 0).toNat <<< 16 ||| (data.getD 2 0).toNat <<< 8 |||
    (data.getD 3 0).toNat = helloLength data from rfl, if_neg h2, index_eq_ok (by omega)]
  simp only [hpos]
  rw [← cipherSuitesAt]
  by_cases h3 : cipherSuitesAt data + 2 > data.length
  · rw [if_pos h3]
    refine ⟨none, rfl, hnone fun start stop hB => ?_⟩
    have := hB.bounds
    omega
  rw [if_neg h3, be16At_eq_ok (by omega)]
  simp only
  rw [← compressionAt]
  by_cases h4 : compressionAt data ≥ data.length
  · rw [if_pos h4]
    refine ⟨none, rfl, hnone fun start stop hB => ?_⟩
    have := hB.bounds
    omega
  rw [if_neg h4, index_eq_ok (by omega)]
  simp only [hpos]
  rw [← extensionsAt]
  by_cases h5 : extensionsAt data + 2 > data.length
  · rw [if_pos h5]
    refine ⟨none, rfl, hnone fun start stop hB => ?_⟩
    have := hB.bounds
    omega
  rw [if_neg h5, be16At_eq_ok (by omega)]
  simp only
  by_cases h6 : extensionsAt data + 2 + wordAt data (extensionsAt data) > data.length
  · rw [if_pos h6]
    refine ⟨none, rfl, hnone fun start stop hB => ?_⟩
    have := hB.stop_le
    rw [hB.stop_eq, hB.start_eq] at this
    omega
  rw [if_neg h6]
  refine ⟨_, rfl, fun start stop => ?_⟩
  have htype : data[0]? = some 0x01 := by
    rw [List.getElem?_eq_getElem hlen]
    simp_all
  have hhello : 4 + helloLength data ≤ data.length := by omega
  rw [extensionBlock_iff, Option.some.injEq, Prod.mk.injEq]
  constructor
  · rintro ⟨rfl, rfl⟩
    exact ⟨htype, hhello, rfl, rfl, by omega⟩
  · rintro ⟨-, -, rfl, rfl, -⟩
    exact ⟨rfl, rfl⟩

/-! ### When the sniffer returns -/

/-- The visited headers, unfolded at the first one instead of the last. -/
theorem headerAt_iff {data : List UInt8} {start stop pos : ℕ} :
    HeaderAt data start stop pos ↔ pos = start ∨
      (start + 4 ≤ stop ∧ wordAt data start ≠ 0 ∧
        HeaderAt data (start + 4 + wordAt data (start + 2)) stop pos) := by
  constructor
  · intro h
    induction h with
    | first => exact Or.inl rfl
    | @next p hp hle hne ih =>
        right
        rcases ih with rfl | ⟨hle', hne', hp'⟩
        · exact ⟨hle, hne, HeaderAt.first⟩
        · exact ⟨hle', hne', HeaderAt.next hp' hle hne⟩
  · rintro (rfl | ⟨hle, hne, h⟩)
    · exact HeaderAt.first
    · induction h with
      | first => exact HeaderAt.next HeaderAt.first hle hne
      | next _ hle' hne' ih => exact HeaderAt.next ih hle' hne'

/-- The loop over the extensions returns exactly when no visited SNI header declares a
body that runs past the message. Induction on the bytes left below `stop`. -/
theorem walkExtensions_ok_iff {data : List UInt8} {stop : ℕ} (hstop : stop ≤ data.length) :
    ∀ (n start : ℕ), stop - start ≤ n →
      ((∃ r, walkExtensions data stop start = .ok r) ↔
        ∀ pos, HeaderAt data start stop pos → pos + 4 ≤ stop → wordAt data pos = 0 →
          pos + 4 + wordAt data (pos + 2) ≤ data.length) := by
  intro n
  induction n with
  | zero =>
      intro start hn
      refine ⟨fun _ pos hpos hle => ?_, fun _ => ⟨_, walkExtensions_stop (by omega)⟩⟩
      rcases headerAt_iff.mp hpos with rfl | ⟨hle', -, -⟩ <;> omega
  | succ n ih =>
      intro start hn
      by_cases h : start + 4 ≤ stop
      swap
      · refine ⟨fun _ pos hpos hle => ?_, fun _ => ⟨_, walkExtensions_stop h⟩⟩
        rcases headerAt_iff.mp hpos with rfl | ⟨hle', -, -⟩ <;> omega
      rw [walkExtensions_step hstop h]
      by_cases htype : wordAt data start = 0
      · rw [if_pos htype]
        by_cases hfits : start + 4 + wordAt data (start + 2) ≤ data.length
        · rw [slice_eq_ok (by omega) hfits]
          refine ⟨fun _ pos hpos _ _ => ?_, fun _ => parseSniExtension_isOk _⟩
          rcases headerAt_iff.mp hpos with rfl | ⟨-, hne, -⟩
          · exact hfits
          · exact absurd htype hne
        · rw [slice_eq_error (by omega)]
          refine ⟨?_, fun hall => absurd (hall start HeaderAt.first h htype) hfits⟩
          rintro ⟨r, hr⟩
          cases hr
      · rw [if_neg htype, ih _ (by omega)]
        refine forall_congr' fun pos => ?_
        rw [@headerAt_iff data start stop pos]
        refine ⟨fun hall => ?_, fun hall hpos => hall (Or.inr ⟨h, htype, hpos⟩)⟩
        rintro (rfl | ⟨-, -, hpos⟩) hle hzero
        · exact absurd hzero htype
        · exact hall hpos hle hzero

/-- The loop visits an SNI extension whose declared length runs past the end of the
handshake message. -/
def OverlongServerName (data : List UInt8) : Prop :=
  ∃ start stop pos, ExtensionBlock data start stop ∧ HeaderAt data start stop pos ∧
    pos + 4 ≤ stop ∧ wordAt data pos = 0 ∧
    data.length < pos + 4 + wordAt data (pos + 2)

/-- `handshake` is the payload of the TLS handshake record at the front of `data`. -/
structure HandshakeRecord (data handshake : List UInt8) : Prop where
  length_le : 6 ≤ data.length
  contentType : data[0]? = some 0x16
  recordLength_le : 5 + wordAt data 3 ≤ data.length
  handshake_eq : handshake = (data.take (5 + wordAt data 3)).drop 5

/-- The parser of the handshake message returns exactly when the message has no SNI
extension that runs past it. -/
theorem parseClientHelloSni_ok_iff (data : List UInt8) :
    (∃ r, parseClientHelloSni data = .ok r) ↔ ¬ OverlongServerName data := by
  obtain ⟨r, hr, hblock⟩ := helloExtensions_eq data
  rw [parseClientHelloSni, hr]
  rcases r with - | ⟨start, stop⟩
  · refine iff_of_true ⟨none, rfl⟩ ?_
    rintro ⟨start, stop, pos, hB, -⟩
    exact absurd ((hblock start stop).mpr hB) (by simp)
  · have hB := (hblock start stop).mp rfl
    simp only [bind, Except.bind]
    rw [walkExtensions_ok_iff hB.stop_le _ _ le_rfl]
    constructor
    · rintro hall ⟨start', stop', pos, hB', hpos, hle, hzero, hlong⟩
      obtain ⟨rfl, rfl⟩ : start = start' ∧ stop = stop' := by
        simpa using (hblock start' stop').mpr hB'
      exact absurd (hall pos hpos hle hzero) (by omega)
    · intro hnot pos hpos hle hzero
      by_contra hlong
      exact hnot ⟨start, stop, pos, hB, hpos, hle, hzero, by omega⟩

/-- Everything before the handshake message is read without a panic: the sniffer is the
message parser on the payload of the record, and `none` when there is no record. -/
theorem sniffTlsSni_eq (data : List UInt8) :
    (∃ handshake, HandshakeRecord data handshake ∧
        sniffTlsSni data = parseClientHelloSni handshake) ∨
      ((∀ handshake, ¬ HandshakeRecord data handshake) ∧ sniffTlsSni data = .ok none) := by
  rw [sniffTlsSni]
  by_cases hlen : data.length < 6
  · exact Or.inr ⟨fun _ hR => absurd hR.length_le (by omega), if_pos hlen⟩
  rw [if_neg hlen, index_eq_ok (by omega)]
  simp only [bind, Except.bind]
  by_cases htype : data.getD 0 0 ≠ 0x16
  · refine Or.inr ⟨fun _ hR => ?_, if_pos htype⟩
    have := hR.contentType
    simp_all
  rw [if_neg htype, be16At_eq_ok (by omega), be16At_eq_ok (by omega)]
  simp only
  by_cases hrec : data.length < 5 + wordAt data 3
  · exact Or.inr ⟨fun _ hR => absurd hR.recordLength_le (by omega), if_pos hrec⟩
  rw [if_neg hrec, slice_eq_ok (by omega) (by omega)]
  refine Or.inl ⟨_, ⟨by omega, ?_, by omega, rfl⟩, rfl⟩
  have h0 : 0 < data.length := by omega
  rw [List.getElem?_eq_getElem h0]
  simp_all

/-- **When the sniffer returns.** On every input the sniffer returns without leaving its
buffers exactly when the input is no handshake record whose ClientHello leads the loop to
an SNI extension longer than the rest of the record. -/
theorem sniffTlsSni_ok_iff (data : List UInt8) :
    (∃ r, sniffTlsSni data = .ok r) ↔
      ¬ ∃ handshake, HandshakeRecord data handshake ∧ OverlongServerName handshake := by
  rcases sniffTlsSni_eq data with ⟨hs, hR, heq⟩ | ⟨hnone, heq⟩
  · rw [heq, parseClientHelloSni_ok_iff]
    refine not_congr ⟨fun h => ⟨hs, hR, h⟩, ?_⟩
    rintro ⟨hs', hR', h⟩
    rwa [hR.handshake_eq, ← hR'.handshake_eq]
  · rw [heq]
    refine iff_of_true ⟨none, rfl⟩ ?_
    rintro ⟨hs, hR, -⟩
    exact hnone hs hR

/-- A ClientHello whose only extension is an SNI extension declaring 65535 bytes. -/
def overlongHello : List UInt8 :=
  [0x16, 0x03, 0x01, 0x00, 0x30, 0x01, 0x00, 0x00, 0x2c, 0x03, 0x03] ++
    List.replicate 32 0 ++ [0x00, 0x00, 0x00, 0x00, 0x00, 0x04, 0x00, 0x00, 0xff, 0xff]

/-- The sniffer panics on it: the slice of the extension body is out of range. -/
theorem sniffTlsSni_overlongHello :
    sniffTlsSni overlongHello = .error .sliceOutOfRange := by
  decide +kernel

end Redog
