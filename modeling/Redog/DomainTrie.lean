import Redog.Rules
import Redog.Trie

/-!
# The domain trie

The trie of domains keeps data under the labels of a domain, the last label first, so that
a lookup walks from the top-level domain down and remembers the last data it passes. For
suffix entries that is the longest suffix that covers the host, which is the test the rule
DOMAIN-SUFFIX makes on each suffix by itself.

Exact entries are kept in the same trie, one step below their domain, under a label of
their own, `__exact__`. The lookup does not know that label: it never looks one step below
the host, and to it the label is one a host may have. So an exact entry is stored like the
suffix `__exact__.d` (`Insertion.stored`), and is found as that suffix and not as `d`.

## Main results

* `lookup_ofInsertions`: the lookup finds the longest stored name that covers the host.
* `lookup_insertSuffixes`: with suffix entries alone the trie refines the suffix rule.
* `lookup_exact_iff`: when the lookup treats exact entries as it should.
-/

namespace Redog

open Rust Trie

/-! ### The trie -/

/-- `DomainTrie`: a tree whose edges are the labels of domains, read from the last label of a domain
to its first. -/
structure DomainTrie where
  root : Node String String

/-- The marker of exact entries, which is a key below the labels of the domain. -/
def exactMarker : String := "__exact__"

namespace DomainTrie

/-- The labels of a domain, the last one first. -/
def labels (domain : String) : List String :=
  (split '.' domain).reverse

/-- `DomainTrie::new`: the root alone, so no domain has data. -/
def new : DomainTrie := ⟨.empty⟩

/-- `DomainTrie::insert_suffix`: the data goes to the node of the labels in lower case, in place of
what was there. -/
def insertSuffix [Crates] (trie : DomainTrie) (domain data : String) : DomainTrie :=
  ⟨trie.root.insert ((labels domain).map Crates.toLowercase) data⟩

/-- `DomainTrie::insert_exact`: the data goes one level further down, below the marker of exact
domains. -/
def insertExact [Crates] (trie : DomainTrie) (domain data : String) : DomainTrie :=
  ⟨trie.root.insert ((labels domain).map Crates.toLowercase ++ [exactMarker]) data⟩

/-- `DomainTrie::lookup`: the data of the deepest node with data on the way down the labels. It
never steps to the marker of exact domains. -/
def lookup (trie : DomainTrie) (domain : String) : Option String :=
  trie.root.walk ((labels domain).map toAsciiLowercase) none

/-- `DomainTrie::contains`: whether looking the domain up gives any data. -/
def contains (trie : DomainTrie) (domain : String) : Bool :=
  (trie.lookup domain).isSome

end DomainTrie

/-- A call that adds an entry to the trie, of one kind or the other. -/
inductive Insertion
  | suffix (domain data : String)
  | exact (domain data : String)
deriving DecidableEq

namespace Insertion

/-- The domain of the call, as it was written. -/
def domain : Insertion → String
  | suffix domain _ => domain
  | exact domain _ => domain

/-- The data of the call, which a lookup may then give. -/
def data : Insertion → String
  | suffix _ data => data
  | exact _ data => data

/-- Whether the call is `insert_suffix`. An exact entry has the marker as one more label. -/
def isSuffix : Insertion → Bool
  | suffix _ _ => true
  | exact _ _ => false

/-- Whether the call is `insert_exact` for the host, the case of letters aside. -/
def isExactFor (host : String) : Insertion → Bool
  | suffix _ _ => false
  | exact domain _ => eqIgnoreAsciiCase domain host

/-- Whether the call is `insert_exact` for another host. -/
def isForeign (host : String) (e : Insertion) : Bool :=
  !e.isSuffix && !e.isExactFor host

/-- The name an entry is found under: that of an exact entry has the marker as a label. -/
def stored : Insertion → String
  | suffix domain _ => domain
  | exact domain _ => exactMarker ++ "." ++ domain

end Insertion

namespace DomainTrie

/-- The trie after one more call of either kind. -/
def insert [Crates] (trie : DomainTrie) : Insertion → DomainTrie
  | .suffix domain data => trie.insertSuffix domain data
  | .exact domain data => trie.insertExact domain data

/-- The trie after a sequence of calls. -/
def ofInsertions [Crates] (entries : List Insertion) : DomainTrie :=
  entries.foldl insert new

/-- The trie after `insert_suffix` for each domain and its data. -/
def insertSuffixes [Crates] (entries : List (String × String)) : DomainTrie :=
  entries.foldl (fun trie e => trie.insertSuffix e.1 e.2) new

end DomainTrie

/-! ### Suffixes of hosts -/

/-- The host is the domain or lies under it, the case of letters aside. -/
def covers (domain host : String) : Bool :=
  let h := toAsciiLowercase host
  let s := toAsciiLowercase domain
  h == s || endsWith ("." ++ s) h

/-- A domain covers a host when, ignoring the case of ASCII letters, they are equal or the host ends
with a dot and the domain. -/
theorem covers_iff {s h : String} :
    covers s h ↔ (toAsciiLowercase s).toList = (toAsciiLowercase h).toList ∨
      '.' :: (toAsciiLowercase s).toList <:+ (toAsciiLowercase h).toList := by
  simp only [covers, endsWith, Bool.or_eq_true, beq_iff_eq, List.isSuffixOf_iff_suffix,
    String.toList_append, ← String.toList_inj]
  exact or_congr_left eq_comm

/-- The domain that covers a host is a suffix of it, ignoring the case of ASCII letters. -/
theorem suffix_of_covers {s h : String} (hs : covers s h) :
    (toAsciiLowercase s).toList <:+ (toAsciiLowercase h).toList := by
  rcases covers_iff.mp hs with heq | hsuf
  · rw [heq]
  · exact (List.suffix_cons _ _).trans hsuf

/-- Lowering ASCII letters does not change the length of a text. -/
theorem length_toAsciiLowercase (s : String) : (toAsciiLowercase s).length = s.length := by
  rw [← String.length_toList, toList_toAsciiLowercase, List.length_map, String.length_toList]

/-- Two domains of one length that cover a host are the same up to case. -/
theorem eqIgnoreAsciiCase_of_covers {s t h : String} (hs : covers s h) (ht : covers t h)
    (hlen : s.length = t.length) : eqIgnoreAsciiCase s t := by
  have hle : (toAsciiLowercase s).toList.length = (toAsciiLowercase t).toList.length := by
    rw [String.length_toList, String.length_toList, length_toAsciiLowercase,
      length_toAsciiLowercase, hlen]
  have hsuf := List.suffix_of_suffix_length_le (suffix_of_covers hs) (suffix_of_covers ht) hle.le
  rw [eqIgnoreAsciiCase, beq_iff_eq, ← String.toList_inj]
  exact hsuf.eq_of_length hle

/-- Domains that differ in the case of ASCII letters cover the same hosts. -/
theorem covers_congr {s t h : String} (hst : eqIgnoreAsciiCase s t) :
    covers s h = covers t h := by
  rw [eqIgnoreAsciiCase, beq_iff_eq] at hst
  rw [covers, covers, hst]

/-- Texts that differ in the case of ASCII letters have the same length. -/
theorem length_eq_of_eqIgnoreAsciiCase {s t : String} (hst : eqIgnoreAsciiCase s t) :
    s.length = t.length := by
  rw [eqIgnoreAsciiCase, beq_iff_eq] at hst
  rw [← length_toAsciiLowercase, hst, length_toAsciiLowercase]

namespace DomainTrie

/-! ### Paths -/

/-- The labels of a domain are its parts between dots, the last one first. -/
theorem labels_eq (s : String) :
    labels s = ((s.toList.splitOn '.').map String.ofList).reverse := rfl

/-- The labels of a host in lower case are those of the host in lower case. -/
theorem map_labels (s : String) :
    (labels s).map toAsciiLowercase = labels (toAsciiLowercase s) := by
  rw [labels_eq, labels_eq, toList_toAsciiLowercase, ← map_splitOn toLower_eq_dot_iff,
    List.map_reverse, List.map_map, List.map_map]
  congr 2
  funext piece
  rw [Function.comp_apply, Function.comp_apply, toAsciiLowercase, String.toList_ofList]

/-- The marker is the last label of the path of an exact entry. -/
theorem labels_marker (domain : String) :
    labels (toAsciiLowercase (exactMarker ++ "." ++ domain)) =
      labels (toAsciiLowercase domain) ++ [exactMarker] := by
  have hchars : (toAsciiLowercase (exactMarker ++ "." ++ domain)).toList =
      exactMarker.toList ++ '.' :: (toAsciiLowercase domain).toList := by
    simp [toAsciiLowercase_append, exactMarker]
  have hmarker : exactMarker.toList.splitOn '.' = [exactMarker.toList] := rfl
  rw [labels_eq, hchars, List.splitOn_append_cons_self, hmarker, List.singleton_append,
    List.map_cons, List.reverse_cons, String.ofList_toList, ← labels_eq]

/-- The labels of a domain in ASCII are in ASCII. -/
theorem isAscii_of_mem_labels {s label : String} (hs : IsAscii s) (h : label ∈ labels s) :
    IsAscii label := by
  obtain ⟨piece, hpiece, rfl⟩ := List.mem_map.mp (List.mem_reverse.mp h)
  intro c hc
  rw [String.toList_ofList] at hc
  exact hs c (mem_of_mem_splitOn hpiece hc)

/-- The path of a domain is an initial part of that of a text that ends with it, cut at a
dot. -/
theorem labels_isPrefix {s h : String} :
    labels s <+: labels h ↔ s.toList = h.toList ∨ '.' :: s.toList <:+ h.toList := by
  rw [← splitOn_suffix_iff, labels_eq, labels_eq, List.reverse_prefix]
  constructor
  · intro hsuf
    have hchars := hsuf.map String.toList
    simpa [List.map_map, Function.comp_def] using hchars
  · exact fun hsuf => hsuf.map String.ofList

/-- The path of a domain is an initial part of that of a host it covers. -/
theorem labels_isPrefix_iff {s h : String} :
    labels (toAsciiLowercase s) <+: labels (toAsciiLowercase h) ↔ covers s h := by
  rw [covers_iff, labels_isPrefix]

/-- The path an entry is written at, and its data. -/
def entryOf (e : Insertion) : List String × String :=
  (labels (toAsciiLowercase e.stored), e.data)

/-- The path an insertion is stored at: the labels of its domain in lower case. -/
theorem entryOf_fst (e : Insertion) : (entryOf e).1 = labels (toAsciiLowercase e.stored) := by
  rw [entryOf]

/-- The data an insertion is stored with. -/
theorem entryOf_snd (e : Insertion) : (entryOf e).2 = e.data := by
  rw [entryOf]

/-- No insertion is stored at the root, since even an empty domain has a label. -/
theorem entryOf_ne_nil (e : Insertion) : (entryOf e).1 ≠ [] := by
  simp [entryOf, labels_eq]

/-- The path of an insertion leads along the labels of a host exactly when its domain covers the
host. -/
theorem isPrefixOf_entryOf (e : Insertion) (host : String) :
    (entryOf e).1.isPrefixOf (labels (toAsciiLowercase host)) = covers e.stored host := by
  rw [Bool.eq_iff_iff, List.isPrefixOf_iff_prefix, entryOf_fst, labels_isPrefix_iff]

/-- The longer of two domains that cover a host has the longer path. -/
theorem length_labels_lt_iff {s t h : String} (hs : covers s h) (ht : covers t h) :
    (labels (toAsciiLowercase s)).length < (labels (toAsciiLowercase t)).length ↔
      s.length < t.length := by
  have hle : ∀ {s t : String}, covers s h → covers t h →
      (labels (toAsciiLowercase s)).length ≤ (labels (toAsciiLowercase t)).length →
      s.length ≤ t.length := by
    intro s t hs ht hlen
    have hpath := List.prefix_of_prefix_length_le (labels_isPrefix_iff.mpr hs)
      (labels_isPrefix_iff.mpr ht) hlen
    have hsuf := (suffix_of_covers (labels_isPrefix_iff.mp hpath)).length_le
    rwa [String.length_toList, String.length_toList, length_toAsciiLowercase,
      length_toAsciiLowercase] at hsuf
  constructor
  · intro hlt
    refine Nat.lt_of_le_of_ne (hle hs ht hlt.le) fun hlen => ?_
    have heq := eqIgnoreAsciiCase_of_covers hs ht hlen
    rw [eqIgnoreAsciiCase, beq_iff_eq] at heq
    exact absurd hlt (heq ▸ Nat.lt_irrefl _)
  · intro hlt
    by_contra hge
    exact absurd (hle ht hs (Nat.le_of_not_lt hge)) (Nat.not_le.mpr hlt)

/-! ### What a lookup finds -/

end DomainTrie

/-- What `str::to_lowercase` does to ASCII text: only `A` to `Z` change. -/
def Crates.LowercasesAscii [Crates] : Prop :=
  ∀ s, IsAscii s → Crates.toLowercase s = toAsciiLowercase s

namespace DomainTrie

section Lookup

variable [Crates]

/-- Labels in ASCII are lowered alike by the two functions that the code uses. -/
theorem map_toLowercase_labels (hlower : Crates.LowercasesAscii) {s : String} (hs : IsAscii s) :
    (labels s).map Crates.toLowercase = labels (toAsciiLowercase s) := by
  rw [← map_labels]
  exact List.map_congr_left fun label hlabel => hlower label (isAscii_of_mem_labels hs hlabel)

/-- Each call writes its data at the path of the name it stores. -/
theorem root_insert (hlower : Crates.LowercasesAscii) (trie : DomainTrie) {e : Insertion}
    (he : IsAscii e.domain) :
    (trie.insert e).root = trie.root.insert (entryOf e).1 (entryOf e).2 := by
  cases e with
  | suffix domain data =>
      have hdomain : IsAscii domain := he
      rw [insert, insertSuffix, map_toLowercase_labels hlower hdomain, entryOf_fst, entryOf_snd,
        Insertion.stored, Insertion.data]
  | exact domain data =>
      have hdomain : IsAscii domain := he
      rw [insert, insertExact, map_toLowercase_labels hlower hdomain, ← labels_marker,
        entryOf_fst, entryOf_snd, Insertion.stored, Insertion.data]

/-- The trie after a list of insertions is the general trie with their paths and data. -/
theorem root_foldl_insert (hlower : Crates.LowercasesAscii) {entries : List Insertion}
    (hentries : ∀ e ∈ entries, IsAscii e.domain) (trie : DomainTrie) :
    (entries.foldl insert trie).root = Node.insertAll (entries.map entryOf) trie.root := by
  induction entries generalizing trie with
  | nil => rfl
  | cons e entries ih =>
      rw [List.forall_mem_cons] at hentries
      rw [List.foldl_cons, ih hentries.2, root_insert hlower trie hentries.1, List.map_cons,
        Node.insertAll_cons]

/-- **What a lookup finds**: the data of the longest stored name that covers the host, the
last one when it was stored more than once. -/
theorem lookup_ofInsertions (hlower : Crates.LowercasesAscii) {entries : List Insertion}
    (hentries : ∀ e ∈ entries, IsAscii e.domain) (host : String) :
    (ofInsertions entries).lookup host =
      (best (fun e => covers e.stored host) (·.stored.length) entries).map Insertion.data := by
  have hne : ∀ e ∈ entries.map entryOf, e.1 ≠ [] := by
    intro e he
    obtain ⟨e, -, rfl⟩ := List.mem_map.mp he
    exact entryOf_ne_nil e
  have hroot : (ofInsertions entries).root = Node.insertAll (entries.map entryOf) .empty := by
    rw [ofInsertions, root_foldl_insert hlower hentries, new]
  have hbest : best (fun e => (entryOf e).1.isPrefixOf (labels (toAsciiLowercase host)))
      (fun e => (entryOf e).1.length) entries =
        best (fun e => covers e.stored host) (·.stored.length) entries := by
    refine best_congr (fun e _ => isPrefixOf_entryOf e host) fun e _ e' _ he he' => ?_
    rw [isPrefixOf_entryOf] at he he'
    rw [entryOf_fst, entryOf_fst, length_labels_lt_iff he he']
  have hdata : Prod.snd ∘ entryOf = Insertion.data := funext entryOf_snd
  rw [lookup, map_labels, hroot, Node.walk_insertAll _ hne, best_map, Option.map_map, hbest,
    hdata]

/-! ### Suffix entries -/

/-- `d` with the data `x` is the longest domain of the entries whose suffix rule matches,
and no later entry is for the same domain, the case of letters aside. -/
def LongestSuffix (entries : List (String × String)) (metadata : Metadata) (d x : String) : Prop :=
  ∃ pre post, entries = pre ++ (d, x) :: post ∧
    (Rule.domainSuffix ⟨d, x⟩).matches metadata ∧
    (∀ e ∈ entries, (Rule.domainSuffix ⟨e.1, e.2⟩).matches metadata →
      e.1.length ≤ d.length) ∧
    ∀ e ∈ post, ¬ eqIgnoreAsciiCase e.1 d

/-- On ASCII text the suffix rule tests whether its suffix covers the host. -/
theorem matches_domainSuffix (hlower : Crates.LowercasesAscii) {d h : String} (hd : IsAscii d)
    (hh : IsAscii h) (x : String) (metadata : Metadata) :
    (Rule.domainSuffix ⟨d, x⟩).matches { metadata with host := some h } = covers d h := by
  simp only [Rule.matches, Option.map_some, Option.getD_some, hlower d hd, hlower h hh, covers]

/-- A list of suffixes is a list of insertions. -/
theorem insertSuffixes_eq (entries : List (String × String)) :
    insertSuffixes entries = ofInsertions (entries.map fun e => .suffix e.1 e.2) := by
  rw [insertSuffixes, ofInsertions, List.foldl_map]
  rfl

/-- A lookup finds the best of the entries that cover the host: the longest one, and the latest
among those as long. -/
theorem lookup_insertSuffixes_eq (hlower : Crates.LowercasesAscii)
    {entries : List (String × String)} (hentries : ∀ e ∈ entries, IsAscii e.1) (host : String) :
    (insertSuffixes entries).lookup host =
      (best (fun e => covers e.1 host) (·.1.length) entries).map Prod.snd := by
  have hascii : ∀ e ∈ entries.map fun e => Insertion.suffix e.1 e.2, IsAscii e.domain := by
    intro e he
    obtain ⟨pair, hpair, rfl⟩ := List.mem_map.mp he
    exact hentries pair hpair
  rw [insertSuffixes_eq, lookup_ofInsertions hlower hascii, best_map, Option.map_map]
  rfl

/-- The best entry for a host is the longest suffix, as a rule for domain suffixes would match
it. -/
theorem isBest_iff_longestSuffix (hlower : Crates.LowercasesAscii)
    {entries : List (String × String)} (hentries : ∀ e ∈ entries, IsAscii e.1) {host : String}
    (hhost : IsAscii host) (metadata : Metadata) (d x : String) :
    IsBest (fun e => covers e.1 host) (·.1.length) entries (d, x) ↔
      LongestSuffix entries { metadata with host := some host } d x := by
  have hmatches : ∀ e ∈ entries, (Rule.domainSuffix ⟨e.1, e.2⟩).matches
      { metadata with host := some host } = covers e.1 host := fun e he =>
    matches_domainSuffix hlower (hentries e he) hhost e.2 metadata
  constructor
  · intro hbest
    have hle := hbest.size_le
    obtain ⟨pre, post, rfl, hcovers, -, hpost⟩ := hbest
    refine ⟨pre, post, rfl, ?_, fun e he hmatch => ?_, fun e he heq => ?_⟩
    · rwa [hmatches (d, x) (List.mem_append_right _ List.mem_cons_self)]
    · rw [hmatches e he] at hmatch
      exact hle e he hmatch
    · have hlt := hpost e he ((covers_congr heq).trans hcovers)
      exact absurd (length_eq_of_eqIgnoreAsciiCase heq) hlt.ne
  · rintro ⟨pre, post, hsplit, hmatch, hle, hpost⟩
    have hmem : (d, x) ∈ entries := hsplit ▸ List.mem_append_right _ List.mem_cons_self
    rw [hmatches (d, x) hmem] at hmatch
    have hle' : ∀ e ∈ entries, covers e.1 host → e.1.length ≤ d.length := fun e he hcovers =>
      hle e he (by rwa [hmatches e he])
    refine ⟨pre, post, hsplit, hmatch, fun e he hcovers => ?_, fun e he hcovers => ?_⟩
    · exact hle' e (hsplit ▸ List.mem_append_left _ he) hcovers
    · have he' : e ∈ entries := hsplit ▸ List.mem_append_right _ (List.mem_cons_of_mem _ he)
      refine Nat.lt_of_le_of_ne (hle' e he' hcovers) fun hlen => ?_
      exact hpost e he (eqIgnoreAsciiCase_of_covers hcovers hmatch hlen)

/-- **The trie refines the suffix rule.** After `insert_suffix` for ASCII domains the lookup
of an ASCII host finds nothing exactly when the suffix rule of none of them matches it, and
otherwise the data of the longest one that does, inserted last. -/
theorem lookup_insertSuffixes (hlower : Crates.LowercasesAscii)
    (entries : List (String × String)) (hentries : ∀ e ∈ entries, IsAscii e.1) (host : String)
    (hhost : IsAscii host) (metadata : Metadata) :
    ((insertSuffixes entries).lookup host = none ↔ ∀ e ∈ entries,
      ¬ (Rule.domainSuffix ⟨e.1, e.2⟩).matches { metadata with host := some host }) ∧
    ∀ x, (insertSuffixes entries).lookup host = some x ↔
      ∃ d, LongestSuffix entries { metadata with host := some host } d x := by
  rw [lookup_insertSuffixes_eq hlower hentries]
  constructor
  · rw [Option.map_eq_none_iff, best_eq_none_iff]
    refine forall₂_congr fun e he => ?_
    rw [matches_domainSuffix hlower (hentries e he) hhost]
  · intro x
    simp only [Option.map_eq_some_iff, best_eq_some_iff]
    constructor
    · rintro ⟨⟨d, x⟩, hbest, rfl⟩
      exact ⟨d, (isBest_iff_longestSuffix hlower hentries hhost metadata d x).mp hbest⟩
    · rintro ⟨d, hlongest⟩
      exact ⟨(d, x), (isBest_iff_longestSuffix hlower hentries hhost metadata d x).mpr hlongest,
        rfl⟩

/-- The trie contains the hosts some suffix rule matches. -/
theorem contains_insertSuffixes (hlower : Crates.LowercasesAscii)
    {entries : List (String × String)} (hentries : ∀ e ∈ entries, IsAscii e.1) {host : String}
    (hhost : IsAscii host) (metadata : Metadata) :
    (insertSuffixes entries).contains host ↔ ∃ e ∈ entries,
      (Rule.domainSuffix ⟨e.1, e.2⟩).matches { metadata with host := some host } := by
  rw [contains, lookup_insertSuffixes_eq hlower hentries, Option.isSome_map, ← not_iff_not,
    Bool.not_eq_true, Option.isSome_eq_false_iff, Option.isNone_iff_eq_none, best_eq_none_iff]
  push Not
  refine forall₂_congr fun e he => ?_
  rw [matches_domainSuffix hlower (hentries e he) hhost]

end Lookup

/-- The host `www.google.com` is found under `google.com`, through the suffix rule. -/
theorem longestSuffix_google :
    letI := ipv4Crates
    ∃ d, LongestSuffix [("google.com", "Proxy"), ("cn", "Direct")]
      { Metadata.new .tcp .httpConnect with host := some "www.google.com" } d "Proxy" := by
  let _ := ipv4Crates
  have hentries : ∀ e ∈ [("google.com", "Proxy"), ("cn", "Direct")], IsAscii e.1 := by
    simp [IsAscii]
  have hhost : IsAscii "www.google.com" := by simp [IsAscii]
  have hlookup : (insertSuffixes [("google.com", "Proxy"), ("cn", "Direct")]).lookup
      "www.google.com" = some "Proxy" := by
    decide +kernel
  exact ((lookup_insertSuffixes (fun _ _ => rfl) _ hentries _ hhost _).2 "Proxy").mp hlookup

/-! ### Exact entries -/

/-- The latest `insert_exact` for the host, whatever its case. -/
def latestExact (entries : List Insertion) (host : String) : Option Insertion :=
  entries.reverse.find? (·.isExactFor host)

/-- The `insert_suffix` with the longest domain that covers the host, the latest of them. -/
def longestSuffix (entries : List Insertion) (host : String) : Option Insertion :=
  best (fun e => e.isSuffix && covers e.domain host) (·.domain.length) entries

/-- What the lookup of a host should find: the data of the latest exact entry for the host,
or else of the longest suffix. -/
def expected (entries : List Insertion) (host : String) : Option String :=
  ((latestExact entries host).or (longestSuffix entries host)).map Insertion.data

/-- The exact entries agree with the longest suffix, both the latest one for the host and
the one, if any, whose stored name is the longest to cover the host. -/
structure ExactsAgree (entries : List Insertion) (host : String) : Prop where
  found : ∀ e, latestExact entries host = some e →
    (longestSuffix entries host).map Insertion.data = some e.data
  contained : ∀ e, IsBest (fun e => covers e.stored host) (·.stored.length) entries e →
    ¬ e.isSuffix → (longestSuffix entries host).map Insertion.data = some e.data

/-- The name an exact entry is stored under does not cover its own domain. -/
theorem not_covers_stored {e : Insertion} {host : String} (he : e.isExactFor host) :
    ¬ covers e.stored host := by
  cases e with
  | suffix domain data => exact absurd he Bool.false_ne_true
  | exact domain data =>
      intro hcovers
      have hle := (suffix_of_covers hcovers).length_le
      have hlen : domain.length = host.length := length_eq_of_eqIgnoreAsciiCase he
      rw [String.length_toList, String.length_toList, length_toAsciiLowercase,
        length_toAsciiLowercase, Insertion.stored, String.length_append, String.length_append,
        hlen] at hle
      have hmarker : 0 < exactMarker.length := by decide
      omega

/-- Without the exact entries for other hosts only suffixes cover the host. -/
theorem covers_and_not_isForeign (e : Insertion) (host : String) :
    (covers e.stored host && !e.isForeign host) = (e.isSuffix && covers e.domain host) := by
  cases e with
  | suffix domain data =>
      simp only [Insertion.isForeign, Insertion.isSuffix, Bool.not_true, Bool.false_and,
        Bool.not_false, Bool.and_true, Bool.true_and]
      rfl
  | exact domain data =>
      cases hexact : (Insertion.exact domain data).isExactFor host with
      | false => simp [Insertion.isForeign, Insertion.isSuffix, hexact]
      | true => simp [Insertion.isSuffix, not_covers_stored hexact]

/-- The longest suffix is the best entry when exact entries for other hosts are left out. -/
theorem longestSuffix_eq (entries : List Insertion) (host : String) :
    longestSuffix entries host = best (fun e => covers e.stored host && !e.isForeign host)
      (·.stored.length) entries := by
  refine best_congr (fun e _ => (covers_and_not_isForeign e host).symm) ?_
  intro e _ e' _ he he'
  have hstored : ∀ e : Insertion, (e.isSuffix && covers e.domain host) →
      e.domain = e.stored := by
    intro e he
    cases e with
    | suffix domain data => rfl
    | exact domain data => exact absurd he Bool.false_ne_true
  rw [hstored e he, hstored e' he']

/-- What the lookup finds without the exact entries for other hosts is the longest suffix.
It is what the lookup finds with them exactly when the best stored name is that of a suffix
or has the data of the longest suffix. -/
theorem map_data_longestSuffix_iff (entries : List Insertion) (host : String) :
    (longestSuffix entries host).map Insertion.data =
        (best (fun e => covers e.stored host) (·.stored.length) entries).map Insertion.data ↔
      ∀ e, IsBest (fun e => covers e.stored host) (·.stored.length) entries e →
        ¬ e.isSuffix → (longestSuffix entries host).map Insertion.data = some e.data := by
  constructor
  · intro heq e hbest _
    rw [heq, hbest.best_eq, Option.map_some]
  · intro hcontained
    cases hbest : best (fun e => covers e.stored host) (·.stored.length) entries with
    | none =>
        have hnone : longestSuffix entries host = none := by
          rw [longestSuffix_eq, best_eq_none_iff]
          intro e he hcovers
          exact best_eq_none_iff.mp hbest e he (Bool.and_eq_true_iff.mp hcovers).1
        rw [hnone]
    | some e =>
        have hisBest := isBest_of_best hbest
        by_cases hsuffix : e.isSuffix
        · have hkept : (covers e.stored host && !e.isForeign host) = true := by
            rw [hisBest.prop, Insertion.isForeign, hsuffix]
            rfl
          have hmono : IsBest (fun e => covers e.stored host && !e.isForeign host)
              (·.stored.length) entries e :=
            hisBest.mono (fun x hx => (Bool.and_eq_true_iff.mp hx).1) hkept
          rw [longestSuffix_eq, hmono.best_eq]
        · exact hcontained e hisBest hsuffix

/-- **When exact entries are treated as exact.** The lookup of a host finds what it should,
and what it finds does not change when the exact entries for other hosts are left out,
exactly when the exact entries agree with the longest suffix. -/
theorem lookup_exact_iff [Crates] (hlower : Crates.LowercasesAscii) (entries : List Insertion)
    (hentries : ∀ e ∈ entries, IsAscii e.domain) (host : String) :
    ((ofInsertions entries).lookup host = expected entries host ∧
        (ofInsertions (entries.filter (!·.isForeign host))).lookup host =
          (ofInsertions entries).lookup host) ↔
      ExactsAgree entries host := by
  have hkept : ∀ e ∈ entries.filter (!·.isForeign host), IsAscii e.domain := fun e he =>
    hentries e (List.mem_of_mem_filter he)
  rw [lookup_ofInsertions hlower hentries, lookup_ofInsertions hlower hkept, best_filter,
    ← longestSuffix_eq, map_data_longestSuffix_iff, expected]
  constructor
  · rintro ⟨hlookup, hcontained⟩
    refine ⟨fun e hexact => ?_, hcontained⟩
    rw [hexact, ← (map_data_longestSuffix_iff entries host).mpr hcontained] at hlookup
    exact hlookup
  · rintro ⟨hfound, hcontained⟩
    refine ⟨?_, hcontained⟩
    rw [← (map_data_longestSuffix_iff entries host).mpr hcontained]
    cases hexact : latestExact entries host with
    | none => rfl
    | some e => exact hfound e hexact

/-- An exact entry does no harm next to a suffix entry with the same data. -/
theorem exactsAgree_google :
    ExactsAgree [.exact "google.com" "Proxy", .suffix "google.com" "Proxy"] "google.com" := by
  let _ := ipv4Crates
  have hascii : ∀ e ∈ [Insertion.exact "google.com" "Proxy", .suffix "google.com" "Proxy"],
      IsAscii e.domain := by
    simp [Insertion.domain, IsAscii]
  exact (lookup_exact_iff (fun _ _ => rfl) _ hascii "google.com").mp (by decide +kernel)

/-- An exact entry is not found under its domain, but is under the marked one. -/
theorem lookup_exact_google :
    letI := ipv4Crates
    (ofInsertions [.exact "google.com" "Proxy"]).lookup "google.com" = none ∧
      expected [.exact "google.com" "Proxy"] "google.com" = some "Proxy" ∧
      (ofInsertions [.exact "google.com" "Proxy"]).lookup "__exact__.google.com" =
        some "Proxy" ∧
      expected [.exact "google.com" "Proxy"] "__exact__.google.com" = none := by
  decide +kernel

end DomainTrie

end Redog
