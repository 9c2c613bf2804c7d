import Redog.DomainTrie

/-!
# Letter case in the domain trie

The trie and the rule DOMAIN-SUFFIX both ignore the case of letters, each in its own way. The
rule turns the suffix and the host into Unicode lower case. The trie does so with the labels
it inserts, but turns those of a host it looks up into ASCII lower case only. A letter beyond
ASCII is then found when the host has it in lower case already, and not otherwise, even if
the very same text was inserted.

## Main results

* `contains_iff_matches_iff`: for which hosts the trie agrees with the rule.
-/

namespace Redog

open Rust Trie

/-- What `str::to_lowercase` does, the final form of a sigma aside: it replaces each character
by its lower case, which is a text of characters that are their own lower case. Of the ASCII
characters only `A` to `Z` change, and no other character has a dot in its lower case. -/
structure Crates.LowercasesChars [Crates] (lower : Char → List Char) : Prop where
  toLowercase_eq : ∀ s, Crates.toLowercase s = .ofList (s.toList.flatMap lower)
  lower_lower : ∀ c, ∀ d ∈ lower c, lower d = [d]
  lower_ascii : ∀ c : Char, c.toNat < 128 → lower c = [c.toLower]
  eq_dot : ∀ c, '.' ∈ lower c → c = '.'

namespace DomainTrie

variable [Crates]

/-! ### Paths in lower case -/

/-- `insert_suffix` for each domain writes at the labels of the domain in lower case. -/
theorem root_insertSuffixes (entries : List (String × String)) :
    (insertSuffixes entries).root = Node.insertAll
      (entries.map fun e => ((labels e.1).map Crates.toLowercase, e.2)) .empty := by
  have hfold : ∀ trie : DomainTrie,
      (entries.foldl (fun trie e => trie.insertSuffix e.1 e.2) trie).root = Node.insertAll
        (entries.map fun e => ((labels e.1).map Crates.toLowercase, e.2)) trie.root := by
    induction entries with
    | nil => exact fun _ => rfl
    | cons e entries ih =>
        intro trie
        rw [List.foldl_cons, ih, List.map_cons, Node.insertAll_cons]
        rfl
  exact hfold new

/-- The trie contains a host when the labels of a domain, in Unicode lower case, are the last
labels of the host in ASCII lower case. -/
theorem contains_insertSuffixes_iff (entries : List (String × String)) (host : String) :
    (insertSuffixes entries).contains host ↔ ∃ e ∈ entries,
      (labels e.1).map Crates.toLowercase <+: (labels host).map toAsciiLowercase := by
  have hne : ∀ e ∈ entries.map fun e => ((labels e.1).map Crates.toLowercase, e.2),
      e.1 ≠ [] := by
    intro e he
    obtain ⟨e, -, rfl⟩ := List.mem_map.mp he
    simp [labels_eq]
  rw [contains, lookup, root_insertSuffixes, Node.walk_insertAll _ hne, Option.isSome_map,
    ← not_iff_not, Bool.not_eq_true, Option.isSome_eq_false_iff, Option.isNone_iff_eq_none,
    best_eq_none_iff, List.forall_mem_map]
  push Not
  exact forall₂_congr fun e _ => not_congr List.isPrefixOf_iff_prefix

variable {lower : Char → List Char}

/-- Lowering a character that has been lowered as an ASCII one gives what lowering it at once
gives. -/
theorem lower_toLower (hlower : Crates.LowercasesChars lower) (c : Char) :
    lower c.toLower = lower c := by
  by_cases hascii : c.toNat < 128
  · have hc := hlower.lower_ascii c hascii
    rw [hc]
    exact hlower.lower_lower c c.toLower (by rw [hc]; exact List.mem_singleton_self _)
  · rcases toLower_cases c with ⟨-, hhi, -⟩ | hsame
    · omega
    · rw [hsame]

/-- The characters of a text in lower case are those that each character becomes. -/
theorem toList_toLowercase (hlower : Crates.LowercasesChars lower) (s : String) :
    (Crates.toLowercase s).toList = s.toList.flatMap lower := by
  rw [hlower.toLowercase_eq, String.toList_ofList]

/-- Turning a text into ASCII lower case does not change its lower case. -/
theorem toLowercase_toAsciiLowercase (hlower : Crates.LowercasesChars lower) (s : String) :
    Crates.toLowercase (toAsciiLowercase s) = Crates.toLowercase s := by
  rw [← String.toList_inj, toList_toLowercase hlower, toList_toLowercase hlower,
    toList_toAsciiLowercase, List.flatMap_map]
  exact List.flatMap_congr fun c _ => lower_toLower hlower c

/-- A text in lower case is its own lower case. -/
theorem toLowercase_toLowercase (hlower : Crates.LowercasesChars lower) (s : String) :
    Crates.toLowercase (Crates.toLowercase s) = Crates.toLowercase s := by
  have hfixed : ∀ c ∈ (Crates.toLowercase s).toList, lower c = [c] := by
    intro c hc
    rw [toList_toLowercase hlower] at hc
    obtain ⟨d, -, hd⟩ := List.mem_flatMap.mp hc
    exact hlower.lower_lower d c hd
  rw [← String.toList_inj, toList_toLowercase hlower, List.flatMap_congr hfixed,
    List.flatMap_singleton']

/-- The labels of a text in lower case are those of the text in lower case. -/
theorem map_toLowercase_labels_of_chars (hlower : Crates.LowercasesChars lower) (s : String) :
    (labels s).map Crates.toLowercase = labels (Crates.toLowercase s) := by
  have hdot : lower '.' = ['.'] := hlower.lower_ascii '.' (by decide)
  rw [labels_eq, labels_eq, toList_toLowercase hlower, ← flatMap_splitOn hdot hlower.eq_dot,
    List.map_reverse, List.map_map, List.map_map]
  congr 2
  funext piece
  rw [Function.comp_apply, Function.comp_apply, hlower.toLowercase_eq, String.toList_ofList]

/-- The rule matches a host when the labels of its suffix are the last labels of the host, both
in Unicode lower case. -/
theorem matches_domainSuffix_iff (hlower : Crates.LowercasesChars lower) (d x host : String)
    (metadata : Metadata) :
    (Rule.domainSuffix ⟨d, x⟩).matches { metadata with host := some host } ↔
      (labels d).map Crates.toLowercase <+: (labels host).map Crates.toLowercase := by
  rw [map_toLowercase_labels_of_chars hlower, map_toLowercase_labels_of_chars hlower,
    labels_isPrefix]
  simp only [Rule.matches, Option.map_some, Option.getD_some, endsWith, Bool.or_eq_true,
    beq_iff_eq, List.isSuffixOf_iff_suffix, String.toList_append, ← String.toList_inj]
  exact or_congr_left eq_comm

/-! ### The trie and the rule -/

/-- As many last labels of the host as the domain has are the same in Unicode and in ASCII
lower case. -/
def FoldsAlike (domain host : String) : Prop :=
  ∀ label ∈ (labels host).take (labels domain).length,
    Crates.toLowercase label = toAsciiLowercase label

instance (domain host : String) : Decidable (FoldsAlike domain host) :=
  inferInstanceAs (Decidable (∀ label ∈ _, _ = _))

/-- The trie finds a host under a domain exactly when the rule matches and the labels it
compares fold alike. -/
theorem isPrefix_iff_foldsAlike (hlower : Crates.LowercasesChars lower) (domain host : String) :
    (labels domain).map Crates.toLowercase <+: (labels host).map toAsciiLowercase ↔
      (labels domain).map Crates.toLowercase <+: (labels host).map Crates.toLowercase ∧
        FoldsAlike domain host := by
  rw [List.prefix_iff_eq_take, List.prefix_iff_eq_take, List.length_map, ← List.map_take,
    ← List.map_take, FoldsAlike]
  constructor
  · intro heq
    have halike : ∀ label ∈ (labels host).take (labels domain).length,
        Crates.toLowercase label = toAsciiLowercase label := by
      intro label hlabel
      have hmem := List.mem_map_of_mem (f := toAsciiLowercase) hlabel
      rw [← heq] at hmem
      obtain ⟨other, -, hother⟩ := List.mem_map.mp hmem
      rw [← toLowercase_toAsciiLowercase hlower label, ← hother,
        toLowercase_toLowercase hlower]
    exact ⟨heq.trans (List.map_congr_left halike).symm, halike⟩
  · rintro ⟨heq, halike⟩
    exact heq.trans (List.map_congr_left halike)

/-- **When the trie agrees with the rule.** After `insert_suffix` for any domains the trie
contains a host exactly if the suffix rule of one of them matches it, if and only if one of
the domains that match, when there are any, covers labels of the host that fold alike. -/
theorem contains_iff_matches_iff (hlower : Crates.LowercasesChars lower)
    (entries : List (String × String)) (host : String) (metadata : Metadata) :
    ((insertSuffixes entries).contains host ↔ ∃ e ∈ entries,
        (Rule.domainSuffix ⟨e.1, e.2⟩).matches { metadata with host := some host }) ↔
      ((∃ e ∈ entries,
          (Rule.domainSuffix ⟨e.1, e.2⟩).matches { metadata with host := some host }) →
        ∃ e ∈ entries,
          (Rule.domainSuffix ⟨e.1, e.2⟩).matches { metadata with host := some host } ∧
            FoldsAlike e.1 host) := by
  have hcontains : (insertSuffixes entries).contains host ↔ ∃ e ∈ entries,
      (Rule.domainSuffix ⟨e.1, e.2⟩).matches { metadata with host := some host } ∧
        FoldsAlike e.1 host := by
    simp only [contains_insertSuffixes_iff, isPrefix_iff_foldsAlike hlower,
      matches_domainSuffix_iff hlower]
  rw [hcontains]
  constructor
  · exact fun h => h.mpr
  · intro h
    refine ⟨?_, h⟩
    rintro ⟨e, he, hmatches, -⟩
    exact ⟨e, he, hmatches⟩

end DomainTrie

/-! ### A letter beyond ASCII -/

/-- Lower case for ASCII letters and `Ä`. -/
def umlautLower (c : Char) : List Char :=
  if c = 'Ä' then ['ä'] else [c.toLower]

/-- Crates whose `to_lowercase` also knows `Ä`, a letter that `to_ascii_lowercase` leaves as it
is. -/
@[reducible] def umlautCrates : Crates :=
  { ipv4Crates with toLowercase := fun s => .ofList (s.toList.flatMap umlautLower) }

/-- Lowering that knows one umlaut beside the ASCII letters works character by character. -/
theorem lowercasesChars_umlaut :
    letI := umlautCrates
    Crates.LowercasesChars umlautLower := by
  let _ := umlautCrates
  refine ⟨fun _ => rfl, fun c d hd => ?_, fun c hc => ?_, fun c hdot => ?_⟩
  · rw [umlautLower] at hd
    split_ifs at hd with hc
    · obtain rfl := List.mem_singleton.mp hd
      decide
    · obtain rfl := List.mem_singleton.mp hd
      rcases toLower_cases c with ⟨hlo, hhi, hlower⟩ | hsame
      · have hne : c.toLower ≠ 'Ä' := by
          intro h
          rw [h] at hlower
          have hnat : 196 = c.toNat + 32 := hlower
          omega
        rw [umlautLower, if_neg hne]
        rcases toLower_cases c.toLower with ⟨-, hhi', -⟩ | hsame'
        · omega
        · rw [hsame']
      · rw [hsame, umlautLower, if_neg hc, hsame]
  · have hne : c ≠ 'Ä' := by
      rintro rfl
      exact absurd hc (by decide)
    rw [umlautLower, if_neg hne]
  · rw [umlautLower] at hdot
    split_ifs at hdot with hc
    · exact absurd hdot (by decide)
    · exact (toLower_eq_dot_iff c).mp (List.mem_singleton.mp hdot).symm

namespace DomainTrie

/-- A host in lower case is found under a domain in upper case. -/
theorem contains_umlaut_lower :
    letI := umlautCrates
    (insertSuffixes [("ÄRZTE.de", "Proxy")]).contains "www.ärzte.de" ↔
      ∃ e ∈ [("ÄRZTE.de", "Proxy")], (Rule.domainSuffix ⟨e.1, e.2⟩).matches
        { Metadata.new .tcp .httpConnect with host := some "www.ärzte.de" } := by
  let _ := umlautCrates
  refine (contains_iff_matches_iff lowercasesChars_umlaut _ _ _).mpr fun _ => ?_
  exact ⟨_, List.mem_singleton_self _, by decide +kernel, by decide +kernel⟩

/-- A domain in upper case is not found as it was inserted. -/
theorem not_contains_umlaut :
    letI := umlautCrates
    (insertSuffixes [("ÄRZTE.de", "Proxy")]).contains "ÄRZTE.de" = false ∧
      (Rule.domainSuffix ⟨"ÄRZTE.de", "Proxy"⟩).matches
        { Metadata.new .tcp .httpConnect with host := some "ÄRZTE.de" } = true := by
  decide +kernel

end DomainTrie

end Redog
