import Redog.Net

/-!
# Reading addresses

`SocketAddr::from_str`. A reader takes what it reads from the front of a text and gives what is
left of it; an address has been read when nothing is left.

## Main results

* `SocketAddr.exists_of_parse`: an address ends with its port, behind a colon.
* `SocketAddr.port_of_parse`: the port that is printed behind a host is the one that is read.
* `SocketAddr.parse_v4`: an IPv4 address is read back as it is printed.
-/

namespace Rust

/-! ### Readers -/

/-- `Parser`: what is left of the text is its state. -/
abbrev Reader := StateT (List Char) Option

/-- `char::to_digit`, of a radix up to 16. -/
def toDigitIn (radix : ℕ) (c : Char) : Option ℕ :=
  let value :=
    if c.isDigit then some (c.toNat - '0'.toNat)
    else if 'a' ≤ c ∧ c ≤ 'f' then some (c.toNat - 'a'.toNat + 10)
    else if 'A' ≤ c ∧ c ≤ 'F' then some (c.toNat - 'A'.toNat + 10)
    else none
  value.filter (· < radix)

/-- The number that the digits of a radix stand for, the most significant one first. -/
def digitsValue (radix : ℕ) (digits : List Char) : ℕ :=
  digits.foldl (fun n c => radix * n + (toDigitIn radix c).getD 0) 0

/-- `Parser::read_given_char`: the next character, if it is this one. Nothing is read where it is
not. -/
def readGivenChar (c : Char) : Reader Unit
  | [] => none
  | d :: cs => if d = c then some ((), cs) else none

/-- `Parser::read_number`, of a type with largest value `max`. -/
def readNumber (radix : ℕ) (maxDigits : Option ℕ) (allowZeroPrefix : Bool) (max : ℕ) :
    Reader ℕ := fun cs =>
  let digits := cs.takeWhile fun c => (toDigitIn radix c).isSome
  if digits = [] ∨ (maxDigits.any fun n => decide (n < digits.length)) ∨
      (!allowZeroPrefix && digits.head? == some '0' && decide (1 < digits.length)) ∨
      max < digitsValue radix digits then
    none
  else some (digitsValue radix digits, cs.dropWhile fun c => (toDigitIn radix c).isSome)

/-- `Parser::read_port`: a colon, then a decimal number below 65536, leading zeros allowed. -/
def readPort : Reader UInt16 := do
  readGivenChar ':'
  let port ← readNumber 10 none true 65535
  return UInt16.ofNat port

/-- One part of a dotted address: at most three decimal digits, no leading zero, and at most 255. -/
def readOctet : Reader UInt8 := do
  let octet ← readNumber 10 (some 3) false 255
  return UInt8.ofNat octet

/-- `Parser::read_ipv4_addr`: four octets with a dot between each two of them. -/
def readIpv4Addr : Reader Ipv4Addr := do
  let a ← readOctet
  readGivenChar '.'
  let b ← readOctet
  readGivenChar '.'
  let c ← readOctet
  readGivenChar '.'
  let d ← readOctet
  return .new a b c d

/-- What stands in front of a group. -/
def readSeparator (first : Bool) : Reader Unit :=
  if first then pure () else readGivenChar ':'

/-- `read_groups`: up to so many groups of an IPv6 address, and whether the last two of them are
written as an IPv4 address, which needs two places. -/
def readGroups : ℕ → Bool → List Char → (List ℕ × Bool) × List Char
  | 0, _, cs => (([], false), cs)
  | places + 1, first, cs =>
      let ipv4 := if places = 0 then none else (do readSeparator first; readIpv4Addr).run cs
      match ipv4 with
      | some (ip, rest) => (([ip.toU32.toNat / 65536, ip.toU32.toNat % 65536], true), rest)
      | none =>
          match (do readSeparator first; readNumber 16 (some 4) true 65535).run cs with
          | some (group, rest) =>
              let groups := readGroups places false rest
              ((group :: groups.1.1, groups.1.2), groups.2)
          | none => (([], false), cs)

/-- `Ipv6Addr::from` of the eight groups: each of them gives two bytes, the high one first. -/
def Ipv6Addr.ofGroups (groups : List ℕ) : Ipv6Addr :=
  ⟨.ofFn fun i : Fin 16 =>
    let group := groups.getD (i / 2) 0
    UInt8.ofNat (if i.val % 2 = 0 then group / 256 else group % 256)⟩

/-- The groups behind `::`, which stands for one group of zeros at least. -/
def readTail (head : List ℕ) : Reader Ipv6Addr := fun cs =>
  let tail := readGroups (7 - head.length) true cs
  let zeros := List.replicate (8 - head.length - tail.1.1.length) 0
  some (.ofGroups (head ++ zeros ++ tail.1.1), tail.2)

/-- `Parser::read_ipv6_addr`: eight groups, or fewer with one `::` that stands for the missing ones.
An address of IPv4 may only end it. -/
def readIpv6Addr : Reader Ipv6Addr := fun cs =>
  let head := readGroups 8 true cs
  if head.1.1.length = 8 then some (.ofGroups head.1.1, head.2)
  else if head.1.2 then none
  else (do readGivenChar ':'; readGivenChar ':'; readTail head.1.1).run head.2

/-- `Parser::read_scope_id`: a percent sign, then a decimal number of 32 bits. -/
def readScopeId : Reader ℕ := do
  readGivenChar '%'
  readNumber 10 none true 4294967295

/-- `Parser::read_socket_addr_v4`: an address of IPv4 directly followed by a port. -/
def readSocketAddrV4 : Reader SocketAddr := do
  let ip ← readIpv4Addr
  let port ← readPort
  return ⟨.v4 ip, port⟩

/-- What stands in front of the port of an IPv6 address. -/
def readBracketed : Reader Ipv6Addr := do
  readGivenChar '['
  let ip ← readIpv6Addr
  let _scopeId ← readScopeId <|> pure 0
  readGivenChar ']'
  return ip

/-- `Parser::read_socket_addr_v6`: an address of IPv6 in brackets, then a port. The scope is read
and dropped. -/
def readSocketAddrV6 : Reader SocketAddr := do
  let ip ← readBracketed
  let port ← readPort
  return ⟨.v6 ip, port⟩

/-- `SocketAddr::from_str`: an address of either kind with its port, and nothing behind them. -/
def SocketAddr.parse (s : String) : Option SocketAddr :=
  match (readSocketAddrV4 <|> readSocketAddrV6).run s.toList with
  | some (addr, []) => some addr
  | _ => none

/-! ### What is left -/

/-- What is left is the end of the text. -/
def Advances {α : Type} (read : Reader α) : Prop :=
  ∀ (cs rest : List Char) (a : α), read.run cs = some (a, rest) → rest <:+ cs

namespace Advances

variable {α β : Type}

/-- A reader that takes nothing leaves all of the input. -/
theorem pure (a : α) : Advances (Pure.pure a) := by
  intro cs rest b h
  rw [StateT.run_pure] at h
  obtain ⟨-, rfl⟩ := Prod.mk.inj (Option.some.inj h)
  exact List.suffix_refl _

/-- Two readers one after the other: what the second leaves is a suffix of what the first has
left. -/
theorem bind {read : Reader α} {next : α → Reader β} (h : Advances read)
    (hnext : ∀ a, Advances (next a)) : Advances (read >>= next) := by
  intro cs rest b hrun
  rw [StateT.run_bind] at hrun
  obtain ⟨⟨a, mid⟩, hread, hrest⟩ := Option.bind_eq_some_iff.mp hrun
  exact (hnext a _ _ _ hrest).trans (h _ _ _ hread)

/-- A second attempt starts from the same input, so either way a suffix of it is left. -/
theorem orElse {read read' : Reader α} (h : Advances read) (h' : Advances read') :
    Advances (read <|> read') := by
  intro cs rest a hrun
  rw [StateT.run_orElse] at hrun
  cases hread : read.run cs with
  | some result =>
      rw [hread] at hrun
      exact h _ _ _ (hread.trans hrun)
  | none =>
      rw [hread] at hrun
      exact h' _ _ _ hrun

/-- A reader for one given character leaves the rest of the input or fails. -/
theorem readGivenChar (c : Char) : Advances (readGivenChar c) := by
  intro cs rest a h
  cases cs with
  | nil => cases h
  | cons d cs =>
      rw [StateT.run, Rust.readGivenChar] at h
      split_ifs at h
      obtain ⟨-, rfl⟩ := Prod.mk.inj (Option.some.inj h)
      exact List.suffix_cons d cs

/-- A number is a run of digits, and what stands behind the digits is left. -/
theorem readNumber (radix : ℕ) (maxDigits : Option ℕ) (allowZeroPrefix : Bool) (max : ℕ) :
    Advances (readNumber radix maxDigits allowZeroPrefix max) := by
  intro cs rest a h
  rw [StateT.run, Rust.readNumber] at h
  split_ifs at h
  obtain ⟨-, rfl⟩ := Prod.mk.inj (Option.some.inj h)
  exact List.dropWhile_suffix _

/-- An octet of an IPv4 address is a number of at most three digits. -/
theorem readOctet : Advances readOctet :=
  (readNumber 10 (some 3) false 255).bind fun _ => pure _

/-- Four octets with dots between them leave what stands behind the last one. -/
theorem readIpv4Addr : Advances readIpv4Addr :=
  readOctet.bind fun _ => (readGivenChar '.').bind fun _ =>
    readOctet.bind fun _ => (readGivenChar '.').bind fun _ =>
      readOctet.bind fun _ => (readGivenChar '.').bind fun _ =>
        readOctet.bind fun _ => pure _

/-- The separator in front of a group of an IPv6 address, which the first group does not have. -/
theorem readSeparator (first : Bool) : Advances (readSeparator first) := by
  cases first with
  | true => exact pure ()
  | false => exact readGivenChar ':'

end Advances

/-- However many groups of an IPv6 address are read, what is left is a suffix of the input. -/
theorem readGroups_suffix (places : ℕ) (first : Bool) (cs : List Char) :
    (readGroups places first cs).2 <:+ cs := by
  induction places generalizing first cs with
  | zero => exact List.suffix_refl cs
  | succ places ih =>
      rw [readGroups]
      split
      · rename_i ip rest hipv4
        split_ifs at hipv4
        exact (Advances.readSeparator first).bind (fun _ => Advances.readIpv4Addr) _ _ _ hipv4
      · split
        · rename_i group rest hgroup
          have hread := (Advances.readSeparator first).bind
            (fun _ => Advances.readNumber 16 (some 4) true 65535) _ _ _ hgroup
          exact (ih false rest).trans hread
        · exact List.suffix_refl cs

/-- The groups behind a double colon leave what stands behind the last one. -/
theorem Advances.readTail (head : List ℕ) : Advances (readTail head) := by
  intro cs rest ip h
  obtain ⟨-, rfl⟩ := Prod.mk.inj (Option.some.inj h)
  exact readGroups_suffix _ _ cs

/-- An IPv6 address, with a double colon or without one, leaves what stands behind it. -/
theorem Advances.readIpv6Addr : Advances readIpv6Addr := by
  intro cs rest ip h
  have hhead := readGroups_suffix 8 true cs
  rw [StateT.run, Rust.readIpv6Addr] at h
  split_ifs at h
  · obtain ⟨-, rfl⟩ := Prod.mk.inj (Option.some.inj h)
    exact hhead
  · have hzeros : Advances (do
        Rust.readGivenChar ':'
        Rust.readGivenChar ':'
        Rust.readTail (readGroups 8 true cs).1.1) :=
      (readGivenChar ':').bind fun _ => (readGivenChar ':').bind fun _ => readTail _
    exact (hzeros _ _ _ h).trans hhead

/-- An IPv6 address in brackets leaves what stands behind the closing bracket. -/
theorem Advances.readBracketed : Advances readBracketed :=
  (readGivenChar '[').bind fun _ => readIpv6Addr.bind fun _ =>
    (((readGivenChar '%').bind fun _ => readNumber _ _ _ _).orElse (pure 0)).bind fun _ =>
      (readGivenChar ']').bind fun _ => pure _

/-! ### The port -/

/-- A port is read to the end of the text when that is a colon and digits. -/
theorem exists_of_readPort {cs : List Char} {port : UInt16}
    (h : readPort.run cs = some (port, [])) :
    ∃ digits, cs = ':' :: digits ∧ (∀ c ∈ digits, (toDigitIn 10 c).isSome) ∧
      port = UInt16.ofNat (digitsValue 10 digits) := by
  rw [readPort, StateT.run_bind] at h
  obtain ⟨⟨⟨⟩, rest⟩, hcolon, hbehind⟩ := Option.bind_eq_some_iff.mp h
  obtain rfl : cs = ':' :: rest := by
    cases cs with
    | nil => cases hcolon
    | cons d cs =>
        rw [StateT.run, readGivenChar] at hcolon
        split_ifs at hcolon with hd
        rw [hd, (Prod.mk.inj (Option.some.inj hcolon)).2]
  rw [StateT.run_bind] at hbehind
  obtain ⟨⟨n, rest'⟩, hnumber, hport⟩ := Option.bind_eq_some_iff.mp hbehind
  obtain ⟨rfl, rfl⟩ := Prod.mk.inj (Option.some.inj hport)
  rw [StateT.run, readNumber] at hnumber
  split_ifs at hnumber
  obtain ⟨rfl, hleft⟩ := Prod.mk.inj (Option.some.inj hnumber)
  have hall := List.dropWhile_eq_nil_iff.mp hleft
  refine ⟨rest, rfl, hall, ?_⟩
  rw [List.takeWhile_eq_self_iff.mpr hall]

/-- What reads an address and then its port. -/
theorem exists_of_readAddress {α : Type} {read : Reader α} (hread : Advances read)
    (ip : α → IpAddr) {cs : List Char} {addr : SocketAddr}
    (h : (do
      let a ← read
      let port ← readPort
      return (⟨ip a, port⟩ : SocketAddr)).run cs = some (addr, [])) :
    ∃ front digits, cs = front ++ ':' :: digits ∧ (∀ c ∈ digits, (toDigitIn 10 c).isSome) ∧
      addr.port = UInt16.ofNat (digitsValue 10 digits) := by
  rw [StateT.run_bind] at h
  obtain ⟨⟨a, mid⟩, hfront, h⟩ := Option.bind_eq_some_iff.mp h
  rw [StateT.run_bind] at h
  obtain ⟨⟨port, rest⟩, hport, h⟩ := Option.bind_eq_some_iff.mp h
  obtain ⟨rfl, rfl⟩ := Prod.mk.inj (Option.some.inj h)
  obtain ⟨digits, rfl, hdigits, hvalue⟩ := exists_of_readPort hport
  obtain ⟨front, rfl⟩ := hread _ _ _ hfront
  exact ⟨front, digits, rfl, hdigits, hvalue⟩

/-- An address ends with its port, behind a colon. -/
theorem SocketAddr.exists_of_parse {s : String} {addr : SocketAddr}
    (h : SocketAddr.parse s = some addr) :
    ∃ front digits, s.toList = front ++ ':' :: digits ∧
      (∀ c ∈ digits, (toDigitIn 10 c).isSome) ∧
      addr.port = UInt16.ofNat (digitsValue 10 digits) := by
  rw [SocketAddr.parse] at h
  split at h
  · rename_i read hread
    obtain rfl := Option.some.inj h
    rw [StateT.run_orElse] at hread
    cases hv4 : readSocketAddrV4.run s.toList with
    | some result =>
        rw [hv4] at hread
        exact exists_of_readAddress Advances.readIpv4Addr .v4 (hv4.trans hread)
    | none =>
        rw [hv4] at hread
        exact exists_of_readAddress Advances.readBracketed .v6 hread
  · cases h

/-- A decimal digit is read as its distance from zero. -/
theorem toDigitIn_of_isDigit {c : Char} (h : c.isDigit) :
    toDigitIn 10 c = some (c.toNat - '0'.toNat) := by
  have hhi : c.toNat ≤ 57 := (Char.isDigit_iff_toNat.mp h).2
  have hlt : c.toNat - '0'.toNat < 10 := by
    show c.toNat - 48 < 10
    omega
  rw [toDigitIn, if_pos h, Option.filter_some, if_pos (decide_eq_true hlt)]

/-- Every character of a printed number is read as a digit again. -/
theorem isSome_toDigits {n : ℕ} {c : Char} (h : c ∈ Nat.toDigits 10 n) :
    (toDigitIn 10 c).isSome := by
  rw [toDigitIn_of_isDigit (Nat.isDigit_of_mem_toDigits (by omega) (by omega) h)]
  rfl

/-- Printed digits have the value that was printed. -/
theorem digitsValue_toDigits (n : ℕ) : digitsValue 10 (Nat.toDigits 10 n) = n := by
  calc digitsValue 10 (Nat.toDigits 10 n)
      = Nat.ofDigitChars 10 (Nat.toDigits 10 n) 0 := by
        refine List.foldl_ext _ _ 0 fun m c hc => ?_
        rw [toDigitIn_of_isDigit (Nat.isDigit_of_mem_toDigits (by omega) (by omega) hc),
          Option.getD_some]
    _ = n := Nat.ofDigitChars_toDigits (by omega) (by omega)

/-- The characters of a host with a port behind it: the host, a colon and the digits of the port. -/
theorem toList_append_port (host : String) (port : UInt16) :
    (host ++ ":" ++ Nat.repr port.toNat).toList =
      host.toList ++ ':' :: Nat.toDigits 10 port.toNat := by
  rw [String.toList_append, String.toList_append, Nat.toList_repr, List.append_assoc]
  rfl

/-- There is no colon among digits, so the last colon of a text is the one in front of the port. -/
theorem colon_notMem {digits : List Char} (h : ∀ c ∈ digits, (toDigitIn 10 c).isSome) :
    ':' ∉ digits :=
  fun hmem => absurd (h ':' hmem) (by decide)

/-- The port that is printed behind a host is the one that is read, whatever the host. -/
theorem SocketAddr.port_of_parse {host : String} {port : UInt16} {addr : SocketAddr}
    (h : SocketAddr.parse (host ++ ":" ++ Nat.repr port.toNat) = some addr) :
    addr.port = port := by
  obtain ⟨front, digits, hs, hdigits, hport⟩ := SocketAddr.exists_of_parse h
  rw [toList_append_port] at hs
  obtain ⟨-, rfl⟩ := append_cons_inj_right (colon_notMem fun c => isSome_toDigits)
    (colon_notMem hdigits) hs
  rw [hport, digitsValue_toDigits, UInt16.ofNat_toNat]

/-! ### Printed addresses -/

/-- Only zero is printed with a zero in front. -/
theorem eq_zero_of_head?_toDigits {n : ℕ} (h : (Nat.toDigits 10 n).head? = some '0') : n = 0 := by
  induction n using Nat.strong_induction_on with
  | _ n ih =>
  by_cases hn : n < 10
  · rw [Nat.toDigits_of_lt_base hn] at h
    have hdigit : n.digitChar = '0' := Option.some.inj h
    have hzero : ∀ k : Fin 10, k.val.digitChar = '0' → k.val = 0 := by decide
    exact hzero ⟨n, hn⟩ hdigit
  · -- the digits in front of the last one are those of a smaller number
    rw [Nat.toDigits_of_base_le (by omega) (by omega),
      List.head?_append_of_ne_nil _ Nat.toDigits_ne_nil] at h
    have hzero := ih (n / 10) (by omega) h
    omega

/-- A printed number is read, up to what is no digit. -/
theorem readNumber_toDigits {n max : ℕ} (hmax : n ≤ max) {maxDigits : Option ℕ}
    (hlength : ∀ k ∈ maxDigits, (Nat.toDigits 10 n).length ≤ k) (allowZeroPrefix : Bool)
    {rest : List Char} (hrest : ∀ c ∈ rest.head?, toDigitIn 10 c = none) :
    (readNumber 10 maxDigits allowZeroPrefix max).run (Nat.toDigits 10 n ++ rest) =
      some (n, rest) := by
  have hdigits : ∀ c ∈ Nat.toDigits 10 n, (toDigitIn 10 c).isSome := fun c => isSome_toDigits
  have hstop : rest.takeWhile (fun c => (toDigitIn 10 c).isSome) = [] ∧
      rest.dropWhile (fun c => (toDigitIn 10 c).isSome) = rest := by
    cases rest with
    | nil => exact ⟨rfl, rfl⟩
    | cons c rest =>
        have hc : ¬ (toDigitIn 10 c).isSome := by
          rw [hrest c rfl]
          decide
        exact ⟨List.takeWhile_cons_of_neg hc, List.dropWhile_cons_of_neg hc⟩
  have htake : (Nat.toDigits 10 n ++ rest).takeWhile (fun c => (toDigitIn 10 c).isSome) =
      Nat.toDigits 10 n := by
    rw [List.takeWhile_append_of_pos hdigits, hstop.1, List.append_nil]
  have hdrop : (Nat.toDigits 10 n ++ rest).dropWhile (fun c => (toDigitIn 10 c).isSome) =
      rest := by
    rw [List.dropWhile_append_of_pos hdigits, hstop.2]
  rw [StateT.run, readNumber, htake, hdrop, digitsValue_toDigits]
  refine if_neg ?_
  rintro (hnil | hlong | hprefix | hlarge)
  · exact Nat.toDigits_ne_nil hnil
  · cases maxDigits with
    | none => cases hlong
    | some k => exact absurd (hlength k rfl) (not_le.mpr (of_decide_eq_true hlong))
  · simp only [Bool.and_eq_true, beq_iff_eq, decide_eq_true_eq] at hprefix
    obtain rfl := eq_zero_of_head?_toDigits hprefix.1.2
    exact absurd hprefix.2 (by decide)
  · omega

/-- A printed octet is read back, and nothing behind it is taken for a part of it. -/
theorem readOctet_toDigits (b : UInt8) {rest : List Char}
    (hrest : ∀ c ∈ rest.head?, toDigitIn 10 c = none) :
    readOctet.run (Nat.toDigits 10 b.toNat ++ rest) = some (b, rest) := by
  have hb := b.toNat_lt
  have hlength : ∀ k ∈ some 3, (Nat.toDigits 10 b.toNat).length ≤ k := by
    rintro k ⟨⟩
    exact (Nat.length_toDigits_le_iff (by omega) (by omega)).mpr (by omega)
  have hnumber : (readNumber 10 (some 3) false 255).run (Nat.toDigits 10 b.toNat ++ rest) =
      some (b.toNat, rest) := readNumber_toDigits (by omega) hlength false hrest
  rw [readOctet, StateT.run_bind, hnumber]
  show some (UInt8.ofNat b.toNat, rest) = some (b, rest)
  rw [UInt8.ofNat_toNat]

/-- Every IPv4 address is made of four octets. -/
theorem Ipv4Addr.exists_new (ip : Ipv4Addr) : ∃ a b c d, ip = .new a b c d := by
  obtain ⟨⟨octets, hlength⟩⟩ := ip
  obtain ⟨a, b, c, d, rfl⟩ := List.length_eq_four.mp hlength
  exact ⟨a, b, c, d, rfl⟩

/-- The characters of a printed IPv4 address: four octets in decimal with dots between them. -/
theorem Ipv4Addr.toList_display_new (a b c d : UInt8) :
    (Ipv4Addr.new a b c d).display.toList =
      Nat.toDigits 10 a.toNat ++ '.' :: (Nat.toDigits 10 b.toNat ++ '.' ::
        (Nat.toDigits 10 c.toNat ++ '.' :: Nat.toDigits 10 d.toNat)) := by
  rw [Ipv4Addr.display, String.toList_ofList]
  simp [Ipv4Addr.new, List.intercalate]

/-- A reader for a given character takes this character. -/
theorem readGivenChar_cons (c : Char) (rest : List Char) :
    (readGivenChar c).run (c :: rest) = some ((), rest) :=
  if_pos rfl

/-- A printed IPv4 address is read, up to a colon. -/
theorem readIpv4Addr_display (ip : Ipv4Addr) (rest : List Char) :
    readIpv4Addr.run (ip.display.toList ++ ':' :: rest) = some (ip, ':' :: rest) := by
  obtain ⟨a, b, c, d, rfl⟩ := ip.exists_new
  have hdot : ∀ cs : List Char, ∀ c ∈ ('.' :: cs).head?, toDigitIn 10 c = none := by
    rintro cs c ⟨⟩
    decide
  have hcolon : ∀ c ∈ (':' :: rest).head?, toDigitIn 10 c = none := by
    rintro c ⟨⟩
    decide
  rw [Ipv4Addr.toList_display_new]
  simp only [List.append_assoc, List.cons_append, readIpv4Addr, StateT.run_bind,
    readOctet_toDigits _ (hdot _), readGivenChar_cons, readOctet_toDigits _ hcolon,
    Option.bind_eq_bind, Option.bind_some]
  rfl

/-- An IPv4 address is read back as it is printed. -/
theorem SocketAddr.parse_v4 (ip : Ipv4Addr) (port : UInt16) :
    SocketAddr.parse (ip.display ++ ":" ++ Nat.repr port.toNat) = some ⟨.v4 ip, port⟩ := by
  have hnumber : (readNumber 10 none true 65535).run (Nat.toDigits 10 port.toNat) =
      some (port.toNat, []) := by
    have hport := port.toNat_lt
    rw [← List.append_nil (Nat.toDigits 10 port.toNat)]
    refine readNumber_toDigits (by omega) ?_ true ?_
    · exact fun k hk => absurd hk (Option.not_mem_none k)
    · exact fun c hc => absurd hc (Option.not_mem_none c)
  have hport : readPort.run (':' :: Nat.toDigits 10 port.toNat) = some (port, []) := by
    rw [readPort, StateT.run_bind, readGivenChar_cons]
    show (readNumber 10 none true 65535 >>= fun port => pure (UInt16.ofNat port)).run
      (Nat.toDigits 10 port.toNat) = some (port, [])
    rw [StateT.run_bind, hnumber]
    show some (UInt16.ofNat port.toNat, []) = some (port, [])
    rw [UInt16.ofNat_toNat]
  have hv4 : readSocketAddrV4.run (ip.display.toList ++ ':' :: Nat.toDigits 10 port.toNat) =
      some (⟨.v4 ip, port⟩, []) := by
    rw [readSocketAddrV4, StateT.run_bind, readIpv4Addr_display]
    show (readPort >>= fun port => pure (⟨.v4 ip, port⟩ : SocketAddr)).run
      (':' :: Nat.toDigits 10 port.toNat) = some (⟨.v4 ip, port⟩, [])
    rw [StateT.run_bind, hport]
    rfl
  rw [SocketAddr.parse, toList_append_port, StateT.run_orElse, hv4]
  rfl

end Rust
