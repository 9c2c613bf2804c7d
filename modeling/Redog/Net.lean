import Mathlib.Data.Vector.Basic
import Redog.Text

/-!
# Addresses

`std::net` addresses as their octets in network order, with the textual forms the
standard library prints. An IPv6 socket address is taken without flow information and
scope, which nothing here reads.

## Main results

* `Ipv4Addr.toU32_ofU32`: an address made of a number is that number.
* `Ipv4Addr.mem_display`, `Ipv6Addr.mem_display`: the characters of a printed address. In
  particular neither form contains a bracket (`IpAddr.bracket_notMem_display`).
-/

namespace Rust

/-! ### Address values -/

/-- `std::net::Ipv4Addr`: the four bytes of an address, the most significant one first. -/
structure Ipv4Addr where
  octets : List.Vector UInt8 4
deriving DecidableEq

/-- `std::net::Ipv6Addr`: the sixteen bytes of an address, the most significant one first. -/
structure Ipv6Addr where
  octets : List.Vector UInt8 16
deriving DecidableEq

/-- `std::net::IpAddr`: an address of one of the two kinds. -/
inductive IpAddr
  | v4 (ip : Ipv4Addr)
  | v6 (ip : Ipv6Addr)
deriving DecidableEq

/-- `std::net::SocketAddr`: an address with a port. The scope and the flow of an address of IPv6 are
left out. -/
structure SocketAddr where
  ip : IpAddr
  port : UInt16
deriving DecidableEq

/-- `Ipv4Addr::new`: the address of four octets, in the order they are written. -/
def Ipv4Addr.new (a b c d : UInt8) : Ipv4Addr :=
  ⟨⟨[a, b, c, d], rfl⟩⟩

/-- `u32::from` of an IPv4 address: the octets as a big-endian number. -/
def Ipv4Addr.toU32 (ip : Ipv4Addr) : UInt32 :=
  ip.octets.toList.foldl (fun acc b => (acc <<< 8) ||| b.toUInt32) 0

/-- `Ipv4Addr::from` of a `u32`: its bytes, with the most significant one as the first octet. -/
def Ipv4Addr.ofU32 (n : UInt32) : Ipv4Addr :=
  .new (n >>> 24).toUInt8 (n >>> 16).toUInt8 (n >>> 8).toUInt8 n.toUInt8

/-- Another octet is another digit to the base 256. -/
theorem toNat_shiftLeft_or (acc : UInt32) (b : UInt8) (hacc : acc.toNat < 2 ^ 24) :
    ((acc <<< 8) ||| b.toUInt32).toNat = acc.toNat * 256 + b.toNat := by
  have hb : b.toNat < 2 ^ 8 := b.toNat_lt
  have hshift : (acc <<< 8).toNat = acc.toNat <<< 8 := by
    rw [UInt32.toNat_shiftLeft, Nat.mod_eq_of_lt]
    · rfl
    · show acc.toNat <<< 8 < 2 ^ 32
      rw [Nat.shiftLeft_eq]
      omega
  rw [UInt32.toNat_or, hshift, UInt8.toNat_toUInt32, ← Nat.shiftLeft_add_eq_or_of_lt hb,
    Nat.shiftLeft_eq]

/-- An address is the number of its octets to the base 256. -/
theorem Ipv4Addr.toNat_toU32_new (a b c d : UInt8) :
    (Ipv4Addr.new a b c d).toU32.toNat =
      ((a.toNat * 256 + b.toNat) * 256 + c.toNat) * 256 + d.toNat := by
  have ha := a.toNat_lt
  have hb := b.toNat_lt
  have hc := c.toNat_lt
  have hzero : (0 : UInt32).toNat = 0 := rfl
  show (((((((0 : UInt32) <<< 8) ||| a.toUInt32) <<< 8) ||| b.toUInt32) <<< 8 |||
    c.toUInt32) <<< 8 ||| d.toUInt32).toNat = _
  have h₁ := toNat_shiftLeft_or 0 a (by omega)
  have h₂ := toNat_shiftLeft_or _ b (by rw [h₁]; omega)
  have h₃ := toNat_shiftLeft_or _ c (by rw [h₂, h₁]; omega)
  rw [toNat_shiftLeft_or _ d (by rw [h₃, h₂, h₁]; omega), h₃, h₂, h₁, hzero, Nat.zero_mul,
    Nat.zero_add]

/-- An address made of a number is that number. -/
theorem Ipv4Addr.toU32_ofU32 (n : UInt32) : (Ipv4Addr.ofU32 n).toU32 = n := by
  have hn := n.toNat_lt
  rw [← UInt32.toNat_inj, Ipv4Addr.ofU32, Ipv4Addr.toNat_toU32_new]
  simp only [UInt32.toNat_toUInt8, UInt32.toNat_shiftRight, Nat.shiftRight_eq_div_pow]
  have h24 : (24 : UInt32).toNat % 32 = 24 := rfl
  have h16 : (16 : UInt32).toNat % 32 = 16 := rfl
  have h8 : (8 : UInt32).toNat % 32 = 8 := rfl
  rw [h24, h16, h8]
  omega
/-! ### Parsing -/

/-- One group of a dotted address: one to three digits, no leading zero, at most 255. -/
def parseOctet (cs : List Char) : Option UInt8 :=
  if cs.length ≤ 3 ∧ (cs.head? = some '0' → cs.length = 1) ∧ cs.head? ≠ some '+' then
    match parseUnsigned 255 cs with
    | .ok n => some (UInt8.ofNat n)
    | .error _ => none
  else none

/-- `Ipv4Addr::from_str`: four decimal octets between dots, none of them with a leading zero. -/
def Ipv4Addr.parse (s : String) : Option Ipv4Addr :=
  match (s.toList.splitOnP (· == '.')).mapM parseOctet with
  | some [a, b, c, d] => some (.new a b c d)
  | _ => none

/-! ### Display -/

/-- `Ipv4Addr::to_string`: the octets in decimal with a dot between each two of them. -/
def Ipv4Addr.display (ip : Ipv4Addr) : String :=
  .ofList (['.'].intercalate (ip.octets.toList.map fun b => Nat.toDigits 10 b.toNat))

/-- The eight 16-bit groups of an IPv6 address. -/
def Ipv6Addr.segments (ip : Ipv6Addr) : List ℕ :=
  (List.range 8).map fun i =>
    (ip.octets.toList.getD (2 * i) 0).toNat * 256 + (ip.octets.toList.getD (2 * i + 1) 0).toNat

/-- The first of the longest runs of zero groups, as start and length. `i` is the position
of the first group given, `cur` the run it continues, `best` the longest run so far. -/
def longestZeroRun : List ℕ → ℕ → ℕ × ℕ → ℕ × ℕ → ℕ × ℕ
  | [], _, _, best => best
  | seg :: rest, i, cur, best =>
      if seg = 0 then
        let cur' := if cur.2 = 0 then (i, 1) else (cur.1, cur.2 + 1)
        longestZeroRun rest (i + 1) cur' (if cur'.2 > best.2 then cur' else best)
      else longestZeroRun rest (i + 1) (0, 0) best

/-- Groups in lower-case hexadecimal, separated by colons. -/
def hexGroups (segs : List ℕ) : List Char :=
  [':'].intercalate (segs.map (Nat.toDigits 16))

/-- `Ipv6Addr::to_string`: an IPv4-mapped address prints its IPv4 part, any other address
its groups with the longest run of two or more zeros as `::`. -/
def Ipv6Addr.display (ip : Ipv6Addr) : String :=
  let segs := ip.segments
  if segs.take 6 = [0, 0, 0, 0, 0, 0xffff] then
    "::ffff:" ++ Ipv4Addr.display
      (.new (ip.octets.get 12) (ip.octets.get 13) (ip.octets.get 14) (ip.octets.get 15))
  else
    let zeros := longestZeroRun segs 0 (0, 0) (0, 0)
    if zeros.2 > 1 then
      .ofList (hexGroups (segs.take zeros.1) ++ [':', ':'] ++
        hexGroups (segs.drop (zeros.1 + zeros.2)))
    else .ofList (hexGroups segs)

/-- `IpAddr::to_string`: the text of the address, which tells the two kinds apart. -/
def IpAddr.display : IpAddr → String
  | .v4 ip => ip.display
  | .v6 ip => ip.display

/-! ### The characters of a printed address -/

/-- What is in joined parts is in the separator or in one of the parts. -/
theorem mem_intercalate {α : Type} {sep : List α} {c : α} :
    ∀ {xs : List (List α)}, c ∈ sep.intercalate xs → c ∈ sep ∨ ∃ x ∈ xs, c ∈ x
  | [], h => by simp [List.intercalate] at h
  | [x], h => Or.inr ⟨x, List.mem_cons_self, by simpa [List.intercalate] using h⟩
  | x :: y :: xs, h => by
      rw [List.intercalate_cons_cons, List.mem_append, List.mem_append] at h
      rcases h with (h | h) | h
      · exact Or.inr ⟨x, List.mem_cons_self, h⟩
      · exact Or.inl h
      · rcases mem_intercalate h with h | ⟨z, hz, h⟩
        · exact Or.inl h
        · exact Or.inr ⟨z, List.mem_cons_of_mem _ hz, h⟩

/-- The digits of a number, in a base of at most sixteen, are letters and decimal digits. -/
theorem isAlphanum_of_mem_toDigits {b : ℕ} (hb : 1 < b) (hb' : b ≤ 16) :
    ∀ (n : ℕ) {c : Char}, c ∈ Nat.toDigits b n → c.isAlphanum := by
  have hdigit : ∀ d < 16, (Nat.digitChar d).isAlphanum := by decide
  intro n
  induction n using Nat.strong_induction_on with
  | _ n ih =>
      intro c hc
      by_cases hn : n < b
      · rw [Nat.toDigits_of_lt_base hn, List.mem_singleton] at hc
        exact hc ▸ hdigit n (by omega)
      · rw [Nat.toDigits_of_base_le hb (by omega), List.mem_append, List.mem_singleton] at hc
        rcases hc with hc | rfl
        · exact ih (n / b) (Nat.div_lt_self (by omega) hb) hc
        · exact hdigit _ (by have := Nat.mod_lt n (by omega : b > 0); omega)

/-- A printed IPv4 address consists of digits and dots. -/
theorem Ipv4Addr.mem_display {ip : Ipv4Addr} {c : Char} (h : c ∈ ip.display.toList) :
    c.isAlphanum ∨ c = '.' := by
  rw [display, String.toList_ofList] at h
  rcases mem_intercalate h with h | ⟨x, hx, h⟩
  · exact Or.inr (List.mem_singleton.mp h)
  · obtain ⟨b, -, rfl⟩ := List.mem_map.mp hx
    exact Or.inl (isAlphanum_of_mem_toDigits (by omega) (by omega) _ h)

/-- The groups of a printed IPv6 address consist of letters, decimal digits and colons. -/
theorem mem_hexGroups {segs : List ℕ} {c : Char} (h : c ∈ hexGroups segs) :
    c.isAlphanum ∨ c = ':' := by
  rcases mem_intercalate h with h | ⟨x, hx, h⟩
  · exact Or.inr (List.mem_singleton.mp h)
  · obtain ⟨n, -, rfl⟩ := List.mem_map.mp hx
    exact Or.inl (isAlphanum_of_mem_toDigits (by omega) (by omega) _ h)

/-- A printed IPv6 address consists of hexadecimal digits, colons and dots. -/
theorem Ipv6Addr.mem_display {ip : Ipv6Addr} {c : Char} (h : c ∈ ip.display.toList) :
    c.isAlphanum ∨ c = ':' ∨ c = '.' := by
  rw [display] at h
  split at h
  · rw [String.toList_append, List.mem_append] at h
    rcases h with h | h
    · have hpre : ∀ d ∈ "::ffff:".toList, d.isAlphanum ∨ d = ':' := by simp
      rcases hpre c h with h | h
      · exact Or.inl h
      · exact Or.inr (Or.inl h)
    · rcases Ipv4Addr.mem_display h with h | h
      · exact Or.inl h
      · exact Or.inr (Or.inr h)
  · dsimp only at h
    split at h <;> rw [String.toList_ofList] at h
    · rw [List.mem_append, List.mem_append] at h
      rcases h with (h | h) | h
      · exact (mem_hexGroups h).imp_right Or.inl
      · simp at h
        exact Or.inr (Or.inl h)
      · exact (mem_hexGroups h).imp_right Or.inl
    · exact (mem_hexGroups h).imp_right Or.inl

/-- No printed address contains a closing bracket. -/
theorem IpAddr.bracket_notMem_display (ip : IpAddr) : ']' ∉ ip.display.toList := by
  intro h
  rcases ip with ip | ip
  · rcases Ipv4Addr.mem_display h with h | h <;> revert h <;> decide
  · rcases Ipv6Addr.mem_display h with h | h | h <;> revert h <;> decide

/-- A printed IPv4 address is not empty. -/
theorem Ipv4Addr.display_ne_nil (ip : Ipv4Addr) : ip.display.toList ≠ [] := by
  obtain ⟨⟨l, hl⟩⟩ := ip
  obtain ⟨a, l, rfl⟩ := List.exists_cons_of_length_pos (by omega : 0 < l.length)
  rw [display, String.toList_ofList]
  have hne : Nat.toDigits 10 a.toNat ≠ [] := Nat.toDigits_ne_nil
  obtain ⟨b, l, rfl⟩ := List.exists_cons_of_length_pos (by simp at hl; omega : 0 < l.length)
  simp [List.Vector.toList, List.intercalate_cons_cons, hne]

end Rust
