import Mathlib.Data.Vector.Basic
import Redog.Sniffer

/-!
# ClientHello messages on the wire

The sniffer only reads. This module writes: a `ClientHello` is the content of a message
whose length fields all hold, and `ClientHello.record` is its TLS encoding as one
handshake record. The completeness of the sniffer is the decode-after-encode law between
the two.

The proof follows the nesting of the format. `walkServerNames_encode` reads back a list of
names, `walkExtensions_encode` a list of extensions, each by induction on the list with
the bytes already passed as a parameter, and `extensionBlock_message` places the
extensions in the message.

## Main results

* `sniffTlsSni_clientHello`: the sniffer returns the first host name of the first SNI
  extension of an encoded ClientHello, and `none` when it has no SNI extension.
-/

namespace Redog

open Rust

/-! ### The format -/

/-- An entry of a server name list; type 0 is a host name. -/
structure ServerName where
  nameType : UInt8
  name : List UInt8
  length_lt : name.length < 65536

/-- An extension; type 0 is the server name indication. -/
structure Extension where
  extType : UInt16
  body : List UInt8
  length_lt : body.length < 65536

/-- The entries of a server name list, without the length of the list. -/
def encodeServerNames : List ServerName → List UInt8
  | [] => []
  | e :: es => e.nameType :: (be16Bytes e.name.length ++ (e.name ++ encodeServerNames es))

/-- The body of an SNI extension: the length of the list of names, and then the list. -/
def serverNameList (names : List ServerName) : List UInt8 :=
  be16Bytes (encodeServerNames names).length ++ encodeServerNames names

/-- The extensions, without the length of the block. -/
def encodeExtensions : List Extension → List UInt8
  | [] => []
  | e :: es =>
      be16Bytes e.extType.toNat ++ (be16Bytes e.body.length ++ (e.body ++ encodeExtensions es))

/-- The extension block, absent in a message without extensions. -/
def extensionBlock : Option (List Extension) → List UInt8
  | none => []
  | some es => be16Bytes (encodeExtensions es).length ++ encodeExtensions es

/-- The fields of a ClientHello, each within its own length field. -/
structure HelloFields where
  version : List.Vector UInt8 2
  random : List.Vector UInt8 32
  sessionId : List UInt8
  cipherSuites : List UInt8
  compression : List UInt8
  extensions : Option (List Extension)
  sessionId_le : sessionId.length ≤ 255
  cipherSuites_lt : cipherSuites.length < 65536
  compression_le : compression.length ≤ 255

/-- What follows the session id: the cipher suites, the compression methods and the extensions, each
with its length. -/
def HelloFields.afterSessionId (h : HelloFields) : List UInt8 :=
  be16Bytes h.cipherSuites.length ++ (h.cipherSuites ++
    (UInt8.ofNat h.compression.length :: (h.compression ++ extensionBlock h.extensions)))

/-- The ClientHello without its handshake header: version, random, session id, and what follows
it. -/
def HelloFields.body (h : HelloFields) : List UInt8 :=
  h.version.toList ++ (h.random.toList ++
    (UInt8.ofNat h.sessionId.length :: (h.sessionId ++ h.afterSessionId)))

/-- The handshake message: type 1, a three-byte length, the body. -/
def HelloFields.message (h : HelloFields) : List UInt8 :=
  0x01 :: UInt8.ofNat (h.body.length / 65536) :: (be16Bytes (h.body.length % 65536) ++ h.body)

/-- A ClientHello that fits one record, whose length field has two bytes. -/
structure ClientHello extends HelloFields where
  fits : toHelloFields.message.length < 65536

/-- The message as a single handshake record. -/
def ClientHello.record (h : ClientHello) (recordVersion : List.Vector UInt8 2) : List UInt8 :=
  0x16 :: (recordVersion.toList ++ (be16Bytes h.message.length ++ h.message))

/-- The first extension of type 0, the type of the server names. -/
def HelloFields.firstSni (h : HelloFields) : Option Extension :=
  (h.extensions.getD []).find? (·.extType == 0)

/-- The first host name entry of a server name list. -/
def firstHostName (names : List ServerName) : Option ServerName :=
  names.find? (·.nameType == 0)

/-! ### Reading the lists back -/

/-- The loop over the server names returns the first host name. -/
theorem walkServerNames_encode {data : List UInt8} (names : List ServerName) :
    ∀ pre : List UInt8, data = pre ++ encodeServerNames names →
      walkServerNames data data.length pre.length =
        .ok ((firstHostName names).bind fun e => fromUtf8 e.name) := by
  induction names with
  | nil =>
      intro pre hdata
      have hlen : data.length = pre.length := by simp [hdata, encodeServerNames]
      exact walkServerNames_stop (by omega)
  | cons e es ih =>
      intro pre hdata
      rw [encodeServerNames] at hdata
      have hlen := congrArg List.length hdata
      simp only [List.length_append, List.length_cons, length_be16Bytes] at hlen
      have htype : data.getD pre.length 0 = e.nameType := getD_append pre _ _ hdata rfl
      have hword : wordAt data (pre.length + 1) = e.name.length :=
        wordAt_append (pre ++ [e.nameType]) (e.name ++ encodeServerNames es) e.length_lt
          (by simp [hdata]) (by simp)
      rw [walkServerNames_step le_rfl (by omega), htype, hword]
      by_cases hhost : e.nameType = 0
      · rw [if_pos ⟨hhost, by omega⟩, firstHostName, List.find?_cons_of_pos (by simpa using hhost)]
        have hname : (data.take (pre.length + 3 + e.name.length)).drop (pre.length + 3)
            = e.name := by
          have hsplit : data = (pre ++ e.nameType :: be16Bytes e.name.length) ++
              (e.name ++ encodeServerNames es) := by simp [hdata]
          have hpre : pre.length + 3 =
              (pre ++ e.nameType :: be16Bytes e.name.length).length := by simp
          rw [hsplit, hpre, List.take_append, List.drop_append]
          simp
        rw [hname]
        rfl
      · rw [if_neg (fun h => hhost h.1), firstHostName,
          List.find?_cons_of_neg (by simpa using hhost)]
        have hnext := ih (pre ++ e.nameType :: (be16Bytes e.name.length ++ e.name))
          (by simp [hdata])
        rw [firstHostName] at hnext
        rw [← hnext]
        congr 1
        simp
        omega

/-- An SNI extension body is parsed to its first host name. -/
theorem parseSniExtension_serverNameList {names : List ServerName}
    (hlen : (serverNameList names).length < 65536) :
    parseSniExtension (serverNameList names) =
      .ok ((firstHostName names).bind fun e => fromUtf8 e.name) := by
  have hlen' : (serverNameList names).length = 2 + (encodeServerNames names).length := by
    simp [serverNameList]
  have hword : wordAt (serverNameList names) 0 = (encodeServerNames names).length :=
    wordAt_append [] (encodeServerNames names) (by omega) rfl rfl
  rw [parseSniExtension, if_neg (by omega), be16At_eq_ok (by omega), hword]
  simp only [bind, Except.bind]
  rw [if_neg (by omega), ← hlen']
  exact walkServerNames_encode names (be16Bytes (encodeServerNames names).length) rfl

/-- The loop over the extensions stops at the first SNI extension and parses its body. -/
theorem walkExtensions_encode {data : List UInt8} (es : List Extension) :
    ∀ pre : List UInt8, data = pre ++ encodeExtensions es →
      walkExtensions data data.length pre.length =
        match es.find? (·.extType == 0) with
        | some e => parseSniExtension e.body
        | none => .ok none := by
  induction es with
  | nil =>
      intro pre hdata
      have hlen : data.length = pre.length := by simp [hdata, encodeExtensions]
      exact walkExtensions_stop (by omega)
  | cons e es ih =>
      intro pre hdata
      rw [encodeExtensions] at hdata
      have hlen := congrArg List.length hdata
      simp only [List.length_append, length_be16Bytes] at hlen
      have htype : wordAt data pre.length = e.extType.toNat :=
        wordAt_append pre _ e.extType.toNat_lt hdata rfl
      have hword : wordAt data (pre.length + 2) = e.body.length :=
        wordAt_append (pre ++ be16Bytes e.extType.toNat) (e.body ++ encodeExtensions es)
          e.length_lt (by simp [hdata]) (by simp)
      rw [walkExtensions_step le_rfl (by omega), htype, hword]
      by_cases hsni : e.extType = 0
      · rw [if_pos (by simp [hsni]), List.find?_cons_of_pos (by simpa using hsni),
          slice_append (pre ++ (be16Bytes e.extType.toNat ++ be16Bytes e.body.length))
            e.body (encodeExtensions es) (by simp [hdata]) (by simp) (by simp)]
        rfl
      · have hne : ¬ e.extType.toNat = 0 := fun h => hsni (UInt16.toNat_inj.mp h)
        rw [if_neg hne, List.find?_cons_of_neg (by simpa using hsni), ← ih
          (pre ++ (be16Bytes e.extType.toNat ++ (be16Bytes e.body.length ++ e.body)))
          (by simp [hdata])]
        congr 1
        simp
        omega

/-! ### The fixed part of the message -/

/-- Three bytes in network order, put together by shifts as the sniffer does it. -/
theorem be24 (a b c : UInt8) :
    (a.toNat <<< 16) ||| (b.toNat <<< 8) ||| c.toNat = a.toNat * 65536 + be16 b c := by
  rw [Nat.or_assoc, be16, ← Nat.shiftLeft_add_eq_or_of_lt, Nat.shiftLeft_eq]
  exact be16_lt b c

/-- A number below 256 is kept by the conversion to a byte. -/
theorem toNat_ofNat_of_lt {n : ℕ} (h : n < 256) : (UInt8.ofNat n).toNat = n := by
  rw [UInt8.toNat_ofNat', Nat.mod_eq_of_lt h]

/-- The message up to the session id length: 38 bytes. -/
def HelloFields.header (h : HelloFields) : List UInt8 :=
  0x01 :: UInt8.ofNat (h.body.length / 65536) ::
    (be16Bytes (h.body.length % 65536) ++ (h.version.toList ++ h.random.toList))

/-- Type, length, version and random take the first 38 bytes of a message. -/
theorem HelloFields.length_header (h : HelloFields) : h.header.length = 38 := by
  simp [header]

/-- The message by the first of its fields of varying length, the session id. -/
theorem HelloFields.message_eq (h : HelloFields) :
    h.message = h.header ++ (UInt8.ofNat h.sessionId.length ::
      (h.sessionId ++ h.afterSessionId)) := by
  simp [message, header, body]

/-- The cipher suites are where the walk over a message looks for them: behind the session id. -/
theorem HelloFields.cipherSuitesAt_message (h : HelloFields) :
    cipherSuitesAt h.message = 39 + h.sessionId.length := by
  have hbyte : byteAt h.message 38 = h.sessionId.length := by
    rw [byteAt, getD_append h.header _ _ h.message_eq h.length_header]
    exact toNat_ofNat_of_lt (by have := h.sessionId_le; omega)
  rw [cipherSuitesAt, hbyte]
  omega

/-- The compression methods are where the walk looks for them: behind the cipher suites. -/
theorem HelloFields.compressionAt_message (h : HelloFields) :
    compressionAt h.message = 41 + h.sessionId.length + h.cipherSuites.length := by
  have hword : wordAt h.message (39 + h.sessionId.length) = h.cipherSuites.length :=
    wordAt_append (h.header ++ (UInt8.ofNat h.sessionId.length :: h.sessionId))
      (h.cipherSuites ++ (UInt8.ofNat h.compression.length ::
        (h.compression ++ Redog.extensionBlock h.extensions)))
      h.cipherSuites_lt (by simp [h.message_eq, afterSessionId])
      (by simp [h.length_header]; omega)
  rw [compressionAt, h.cipherSuitesAt_message, hword]
  omega

/-- The extensions are where the walk looks for them: behind the compression methods. -/
theorem HelloFields.extensionsAt_message (h : HelloFields) :
    extensionsAt h.message =
      42 + h.sessionId.length + h.cipherSuites.length + h.compression.length := by
  have hbyte : byteAt h.message (41 + h.sessionId.length + h.cipherSuites.length)
      = h.compression.length := by
    rw [byteAt, getD_append (h.header ++ (UInt8.ofNat h.sessionId.length ::
        (h.sessionId ++ (be16Bytes h.cipherSuites.length ++ h.cipherSuites))))
      (UInt8.ofNat h.compression.length) (h.compression ++ Redog.extensionBlock h.extensions)
      (by simp [h.message_eq, afterSessionId]) (by simp [h.length_header]; omega)]
    exact toNat_ofNat_of_lt (by have := h.compression_le; omega)
  rw [extensionsAt, h.compressionAt_message, hbyte]
  omega

/-- A message ends with its block of extensions. -/
theorem HelloFields.length_message (h : HelloFields) :
    h.message.length = extensionsAt h.message + (Redog.extensionBlock h.extensions).length := by
  rw [h.extensionsAt_message, h.message_eq]
  simp [h.length_header, afterSessionId]
  omega

/-- The length in the header of a message is that of its body, as long as it fits its field. -/
theorem HelloFields.helloLength_message (h : HelloFields)
    (hfits : h.message.length < 65536) :
    helloLength h.message = h.body.length := by
  have hbody : h.body.length < 65536 := by
    simp [message] at hfits
    omega
  have hbyte : byteAt h.message 1 = 0 := by
    simp [byteAt, message, Nat.div_eq_of_lt hbody]
  have hword : wordAt h.message 2 = h.body.length := by
    have h2 : wordAt h.message 2 = h.body.length % 65536 :=
      wordAt_append [0x01, UInt8.ofNat (h.body.length / 65536)] h.body
        (Nat.mod_lt _ (by omega)) rfl rfl
    rw [h2, Nat.mod_eq_of_lt hbody]
  rw [wordAt] at hword
  rw [helloLength, byteAt, byteAt, byteAt, be24, hword]
  rw [byteAt] at hbyte
  omega

/-- The extensions of an encoded message are the rest of it from their start. -/
theorem ClientHello.extensionBlock_message (h : ClientHello) {es : List Extension}
    (hes : h.extensions = some es) :
    ExtensionBlock h.message (extensionsAt h.message + 2) h.message.length := by
  have hlen := h.length_message
  rw [hes] at hlen
  simp only [Redog.extensionBlock, List.length_append, length_be16Bytes] at hlen
  have hfits := h.fits
  refine ⟨rfl, ?_, rfl, ?_, le_rfl⟩
  · rw [h.helloLength_message h.fits]
    simp [HelloFields.message]
    omega
  · have hword : wordAt h.message (extensionsAt h.message) = (encodeExtensions es).length :=
      wordAt_append (h.header ++ (UInt8.ofNat h.sessionId.length :: (h.sessionId ++
          (be16Bytes h.cipherSuites.length ++ (h.cipherSuites ++
            (UInt8.ofNat h.compression.length :: h.compression))))))
        (encodeExtensions es) (by omega)
        (by simp [h.message_eq, HelloFields.afterSessionId, hes, Redog.extensionBlock])
        (by rw [h.extensionsAt_message]; simp [h.length_header]; omega)
    omega

/-! ### Decode after encode -/

/-- The parser on an encoded message: the body of the first SNI extension, if any. -/
theorem ClientHello.parseClientHelloSni_message (h : ClientHello) :
    parseClientHelloSni h.message =
      match h.firstSni with
      | some e => parseSniExtension e.body
      | none => .ok none := by
  obtain ⟨r, hr, hblock⟩ := helloExtensions_eq h.message
  rw [parseClientHelloSni, hr]
  cases hes : h.extensions with
  | none =>
      have hnone : r = none := by
        rcases r with - | ⟨start, stop⟩
        · rfl
        · have hB := ((hblock start stop).mp rfl).bounds
          have hlen := h.length_message
          rw [hes] at hlen
          simp only [Redog.extensionBlock, List.length_nil] at hlen
          omega
      rw [hnone, HelloFields.firstSni, hes]
      rfl
  | some es =>
      have hr' := (hblock _ _).mpr (h.extensionBlock_message hes)
      rw [hr', HelloFields.firstSni, hes]
      have hpre : extensionsAt h.message + 2 = (h.header ++
          (UInt8.ofNat h.sessionId.length :: (h.sessionId ++
            (be16Bytes h.cipherSuites.length ++ (h.cipherSuites ++
              (UInt8.ofNat h.compression.length :: (h.compression ++
                be16Bytes (encodeExtensions es).length))))))).length := by
        rw [h.extensionsAt_message]
        simp [h.length_header]
        omega
      simp only [bind, Except.bind]
      rw [hpre]
      exact walkExtensions_encode es _
        (by simp [h.message_eq, HelloFields.afterSessionId, hes, Redog.extensionBlock])

/-- The sniffer on an encoded record, whatever follows it, is the parser on the message. -/
theorem ClientHello.sniffTlsSni_record (h : ClientHello) (recordVersion : List.Vector UInt8 2)
    (trailing : List UInt8) :
    sniffTlsSni (h.record recordVersion ++ trailing) = parseClientHelloSni h.message := by
  set data := h.record recordVersion ++ trailing with hdata
  have hrecord : data = (0x16 :: recordVersion.toList) ++
      (be16Bytes h.message.length ++ (h.message ++ trailing)) := by
    simp [hdata, record]
  have hword : wordAt data 3 = h.message.length :=
    wordAt_append _ _ h.fits hrecord (by simp)
  have hlen := congrArg List.length hrecord
  simp at hlen
  have hmsg : h.message.length = 38 + 1 + (h.sessionId ++ h.afterSessionId).length := by
    rw [h.message_eq]
    simp [h.length_header]
    omega
  have hR : HandshakeRecord data h.message := by
    refine ⟨by omega, by rw [hrecord]; rfl, by omega, ?_⟩
    have hslice : slice data 5 (5 + wordAt data 3) = _ :=
      slice_eq_ok (by omega) (by omega)
    rw [slice_append (0x16 :: (recordVersion.toList ++ be16Bytes h.message.length))
      h.message trailing (by simp [hrecord]) (by simp) (by simp [hword])] at hslice
    exact Except.ok.inj hslice
  rcases sniffTlsSni_eq data with ⟨hs, hR', heq⟩ | ⟨hnone, -⟩
  · rw [heq, hR'.handshake_eq, ← hR.handshake_eq]
  · exact absurd hR (hnone _)

/-- **Completeness of the sniffer.** On an encoded ClientHello the sniffer returns the
first host name of the first SNI extension when it is a string, and `none` when no
extension has type 0. -/
theorem sniffTlsSni_clientHello (h : ClientHello) (recordVersion : List.Vector UInt8 2)
    (trailing : List UInt8) :
    (∀ (e : Extension) (names : List ServerName) (entry : ServerName) (n : String),
        h.firstSni = some e → e.body = serverNameList names →
        firstHostName names = some entry → entry.name = utf8 n →
        sniffTlsSni (h.record recordVersion ++ trailing) = .ok (some n)) ∧
      (h.firstSni = none → sniffTlsSni (h.record recordVersion ++ trailing) = .ok none) := by
  rw [h.sniffTlsSni_record, h.parseClientHelloSni_message]
  constructor
  · intro e names entry n hsni hbody hentry hname
    have hlen := e.length_lt
    rw [hbody] at hlen
    simp only [hsni]
    rw [hbody, parseSniExtension_serverNameList hlen, hentry, Option.bind_some, hname,
      fromUtf8_utf8]
  · intro hsni
    rw [hsni]

/-- A ClientHello offering one cipher suite, with an empty extension before its SNI
extension for `a.io`. -/
def sampleHello : ClientHello where
  version := ⟨[0x03, 0x03], rfl⟩
  random := ⟨List.replicate 32 0x07, rfl⟩
  sessionId := []
  cipherSuites := [0x13, 0x01]
  compression := [0x00]
  extensions := some
    [{ extType := 0x17, body := [], length_lt := by decide },
     { extType := 0, body := serverNameList
        [{ nameType := 0, name := utf8 "a.io", length_lt := by decide }],
       length_lt := by decide }]
  sessionId_le := by decide
  cipherSuites_lt := by decide
  compression_le := by decide
  fits := by decide

/-- The sniffer finds `a.io` in it, with two bytes of the next record behind. -/
theorem sniffTlsSni_sampleHello :
    sniffTlsSni (sampleHello.record ⟨[0x03, 0x01], rfl⟩ ++ [0x14, 0x03]) =
      .ok (some "a.io") :=
  (sniffTlsSni_clientHello sampleHello ⟨[0x03, 0x01], rfl⟩ [0x14, 0x03]).1
    _ _ _ "a.io" rfl rfl rfl rfl

end Redog
