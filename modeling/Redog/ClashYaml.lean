import Redog.ShareUriJs

/-!
# The YAML reader of the web frontend

When the backend cannot fetch a subscription, the page reads the nodes of a Clash configuration
itself, line by line. It knows the section `proxies` with its items, written over several lines
or each on one line in braces, and passes over everything else.

A line counts by what is on it and whether it is indented, so the reader is a machine over the
lines. The item it is reading is finished by the next one, by the end of the section or by the
end of the text, and it is dropped if no name has been read by then.

## Main results

* `Section.NamesKept.next`: a line never makes a node without a name.
* `parseClashYaml_named`: so every node that is read has a name.
* `parseClashYaml_items`: a section written over several lines is read item by item.
* `parseClashYaml_nodes`: the nodes that are written in a section are read back.
-/

namespace Redog.ClashYaml

open ShareUri

/-! ### Patterns -/

/-- `\w`: a letter, a digit or an underscore, of ASCII only. -/
def isWord (c : Char) : Bool :=
  let n := c.toNat
  (48 ≤ n && n ≤ 57) || (65 ≤ n && n ≤ 90) || n == 95 || (97 ≤ n && n ≤ 122)

/-- `[\w-]`: a character that a key may have behind its first one. -/
def isKeyChar (c : Char) : Bool := isWord c || c == '-'

/-- What `.` does not match: the two line ends of ASCII and the two of Unicode. -/
def isLineTerminator (c : Char) : Bool :=
  c == '\n' || c == '\r' || c == '\u2028' || c == '\u2029'

/-- `/^proxies\s*:/`: the line that opens the section. Whatever is behind the colon is not looked
at. -/
def isProxiesKey (s : List Char) : Bool :=
  "proxies".toList.isPrefixOf s && (skipSpace (s.drop 7)).head? == some ':'

/-- `/^(\w[\w-]*)\s*:\s*(.*)$/`: the key and the value of a line, without the white space around the
colon. -/
def keyValue (s : List Char) : Option (List Char × List Char) :=
  let key := s.takeWhile isKeyChar
  let rest := skipSpace (s.dropWhile isKeyChar)
  let value := skipSpace rest.tail
  if key.head?.any isWord ∧ rest.head? = some ':' ∧ value.all fun c => !isLineTerminator c then
    some (key, value)
  else none

/-- `/^-\s+(\w[\w-]*)\s*:\s*(.*)$/`: the key and the value of a line that starts a new node. -/
def newItem (s : List Char) : Option (List Char × List Char) :=
  if s.head? = some '-' ∧ s.tail.head?.any isJsWhitespace then keyValue (skipSpace s.tail) else none

/-- `/^-\s*\{(.+)\}\s*$/`, on a text that is trimmed. -/
def inlineItem (s : List Char) : Option (List Char) :=
  let braced := skipSpace s.tail
  let body := braced.tail.dropLast
  if s.head? = some '-' ∧ braced.head? = some '{' ∧ braced.tail.getLast? = some '}' ∧ body ≠ [] ∧
      body.all fun c => !isLineTerminator c then
    some body
  else none

/-! ### Items in braces -/

/-- What a value is replaced by: truth values and numbers stay as they are, any other text is put
between quotes. -/
def quoteValue (value : List Char) : List Char :=
  let v := trimmed value
  if v = "true".toList ∨ v = "false".toList ∨ (v ≠ [] ∧ v.all Char.isDigit) then ": ".toList ++ v
  else ": \"".toList ++ (v.flatMap fun c => if c = '"' then ['\\', '"'] else [c]) ++ ['"']

/-- `replace(/:\s*([^,}\s][^,}]*)/g, …)`: puts the values of an inline node between quotes. The fuel
is the length of the text. -/
def quoteValues : ℕ → List Char → List Char
  | 0, s => s
  | _, [] => []
  | fuel + 1, c :: s =>
      let value := skipSpace s
      if c = ':' ∧ value.head?.any fun d => d != ',' && d != '}' then
        quoteValue (value.takeWhile fun d => d != ',' && d != '}') ++
          quoteValues fuel (value.dropWhile fun d => d != ',' && d != '}')
      else c :: quoteValues fuel s

/-- `replace(/(\w[\w-]*)\s*:/g, '"$1":')`: puts the keys of an inline node between quotes. The fuel
is the length of the text. -/
def quoteKeys : ℕ → List Char → List Char
  | 0, s => s
  | _, [] => []
  | fuel + 1, c :: s =>
      let rest := skipSpace ((c :: s).dropWhile isKeyChar)
      if isWord c ∧ rest.head? = some ':' then
        '"' :: (c :: s).takeWhile isKeyChar ++ "\":".toList ++ quoteKeys fuel rest.tail
      else c :: quoteKeys fuel s

/-- The JSON text that is made of an item in braces. -/
def inlineJson (body : List Char) : String :=
  let text := '{' :: body ++ ['}']
  let text := quoteValues text.length text
  let text := quoteKeys text.length text
  .ofList (text.map fun c => if c = '\'' then '"' else c)

/-- A value in the JSON text. All values but numbers and booleans have been quoted. -/
inductive Scalar
  | null
  | bool (b : Bool)
  /-- A number, as JavaScript prints it. -/
  | number (text : String) (truthy : Bool) (hne : text ≠ "")
  | string (s : String)

namespace Scalar

/-- `String(value)`: the text of a value of JSON that is neither a list nor an object. -/
def text : Scalar → String
  | null => "null"
  | bool b => toString b
  | number text _ _ => text
  | string s => s

/-- Whether `||` keeps the value: neither `null` nor `false`, nor zero, nor the empty text. -/
def truthy : Scalar → Bool
  | null => false
  | bool b => b
  | number _ truthy _ => truthy
  | string s => s != ""

end Scalar

/-- `JSON.parse` on objects, of which the code relies only on the values it gives under their
keys. -/
class JsonParser where
  parse : String → Option (List (String × Scalar))

/-- The first of the fields that is there and true. -/
def firstOf (obj : List (String × Scalar)) (keys : List String) (default : String) : String :=
  ((((keys.filterMap fun key => obj.lookup key).filter Scalar.truthy).head?).map
    Scalar.text).getD default

/-- The node of an item in braces, with the defaults of its fields. -/
def yamlObjToNode (obj : List (String × Scalar)) : JsNode where
  name := firstOf obj ["name"] "unnamed"
  type := firstOf obj ["type"] "ss"
  server := firstOf obj ["server"] ""
  port := (parseInt (((obj.lookup "port").map Scalar.text).getD "undefined")).orDefault 0
  password := firstOf obj ["password", "uuid"] ""
  cipher := firstOf obj ["cipher", "method"] ""
  tls := match obj.lookup "tls" with
    | some (.bool b) => b
    | some (.string s) => s == "true"
    | _ => false

/-! ### Fields -/

/-- The quotes that are taken off a value. -/
def isQuote (c : Char) : Bool := c == '"' || c == '\''

/-- `val.replace(/^["']|["']$/g, '').trim()`: the value without a quote at its start and one at its
end, whether they belong together or not. -/
def unquote (val : List Char) : List Char :=
  let val := if val.head?.any isQuote then val.tail else val
  trimmed (if val.getLast?.any isQuote then val.dropLast else val)

/-- A field of the node that is being read. Keys without a meaning for nodes are passed over. -/
def setNodeField (node : JsNode) (key val : List Char) : JsNode :=
  let val := String.ofList (unquote val)
  match String.ofList key with
  | "name" => { node with name := val }
  | "type" => { node with type := val }
  | "server" => { node with server := val }
  | "port" => { node with port := (parseInt val).orDefault 0 }
  | "password" | "uuid" => { node with password := val }
  | "cipher" | "method" => { node with cipher := val }
  | "tls" => { node with tls := val == "true" }
  | _ => node

/-- A node of which nothing has been read. -/
def blankNode : JsNode := ⟨"", "ss", "", .int 0, "", "", false⟩

/-! ### Lines -/

/-- The variables of the loop over the lines: the nodes so far, whether the line is in the section,
and the node that is still open. -/
structure Section where
  nodes : List JsNode
  inProxies : Bool
  currentNode : Option JsNode

namespace Section

/-- `if (currentNode && currentNode.name) nodes.push(currentNode)`: an open node without a name is
dropped. -/
def pushed (s : Section) : List JsNode :=
  s.nodes ++ s.currentNode.toList.filter fun n => n.name ≠ ""

/-- One line: it opens the section, ends it, starts a node, is a node, adds a field to the current
node, or is passed over. -/
def next [JsonParser] (s : Section) (line : List Char) : Section :=
  let trimLine := trimmed line
  if isProxiesKey trimLine then { s with inProxies := true }
  else if s.inProxies ∧ (line.head?.any fun c => !isJsWhitespace c) ∧ trimLine.head? ≠ some '-' then
    { nodes := s.pushed
      inProxies := false
      currentNode := s.currentNode.filter fun n => n.name = "" }
  else if ¬ s.inProxies then s
  else
    match inlineItem trimLine with
    | some body =>
        let node := (JsonParser.parse (inlineJson body)).map yamlObjToNode
        { s with nodes := s.pushed ++ node.toList, currentNode := none }
    | none =>
        match newItem trimLine with
        | some (key, val) =>
            { s with nodes := s.pushed, currentNode := some (setNodeField blankNode key val) }
        | none =>
            match keyValue trimLine with
            | some (key, val) =>
                { s with currentNode := s.currentNode.map fun n => setNodeField n key val }
            | none => s

end Section

/-- The nodes of a configuration: one line after the other, and in the end the node that is still
open. -/
def parseClashYaml [JsonParser] (text : String) : List JsNode :=
  ((text.toList.splitOn '\n').foldl Section.next ⟨[], false, none⟩).pushed

/-! ### Names -/

/-- What `||` keeps has a text, so a field that is there never leaves a node with an empty one. -/
theorem Scalar.text_ne {value : Scalar} (h : value.truthy) : value.text ≠ "" := by
  cases value with
  | null => cases h
  | bool b =>
      obtain rfl : b = true := h
      decide
  | number text truthy hne => exact hne
  | string s => simpa [Scalar.truthy, Scalar.text] using h

/-- What is taken from the fields of an object has a text, as long as the default has one. -/
theorem firstOf_ne {obj : List (String × Scalar)} {keys : List String} {default : String}
    (hdefault : default ≠ "") : firstOf obj keys default ≠ "" := by
  rw [firstOf]
  rcases hfirst : ((keys.filterMap fun key => obj.lookup key).filter Scalar.truthy).head? with
    - | value
  · exact hdefault
  · have hmem := List.mem_of_mem_head? (Option.mem_def.mpr hfirst)
    exact Scalar.text_ne (List.mem_filter.mp hmem).2

namespace Section

/-- Every node that has been finished has a name. -/
def NamesKept (s : Section) : Prop := ∀ n ∈ s.nodes, n.name ≠ ""

/-- Finishing the node that is being read keeps the invariant, since it is dropped when it has no
name. -/
theorem NamesKept.pushed {s : Section} (h : s.NamesKept) : ∀ n ∈ s.pushed, n.name ≠ "" := by
  intro n hn
  rcases List.mem_append.mp hn with hn | hn
  · exact h n hn
  · simpa using (List.mem_filter.mp hn).2

/-- A line never makes a node without a name. -/
theorem NamesKept.next [JsonParser] {s : Section} (h : s.NamesKept) (line : List Char) :
    (s.next line).NamesKept := by
  rw [Section.next]
  split_ifs
  · exact h
  · exact h.pushed
  · split
    · rename_i body _
      intro n hn
      rcases List.mem_append.mp hn with hn | hn
      · exact h.pushed n hn
      · obtain ⟨obj, -, rfl⟩ := Option.map_eq_some_iff.mp (Option.mem_toList.mp hn)
        exact firstOf_ne (by decide)
    · split
      · exact h.pushed
      · split
        · exact h
        · exact h
  · exact h

end Section

/-- `key: value`, the line of one field of a node. -/
structure Entry where
  key : List Char
  value : List Char

/-- The key is a word, and the value is on one line, without whitespace around it. -/
structure Entry.Valid (entry : Entry) : Prop where
  key : entry.key.head?.any isWord
  keyChars : entry.key.all isKeyChar
  value : ∀ c ∈ entry.value, isLineTerminator c = false
  head : ∀ c ∈ entry.value.head?, isJsWhitespace c = false
  last : ∀ c ∈ entry.value.getLast?, isJsWhitespace c = false

/-- The text of an entry, with one space behind the colon. -/
def Entry.text (entry : Entry) : List Char := entry.key ++ ':' :: ' ' :: entry.value

/-- An item: its first entry behind a dash, the others below it, indented further. -/
structure Item where
  indent : ℕ
  first : Entry
  others : List Entry

/-- The lines of an item. The entries below the first are indented by two more spaces. -/
def Item.lines (item : Item) : List (List Char) :=
  (List.replicate item.indent ' ' ++ '-' :: ' ' :: item.first.text) ::
    item.others.map fun entry => List.replicate (item.indent + 2) ' ' ++ entry.text

/-- No entry below the first starts a section. -/
structure Item.Valid (item : Item) : Prop where
  first : item.first.Valid
  others : ∀ entry ∈ item.others, entry.Valid ∧ entry.key ≠ "proxies".toList

/-- The node of an item: its entries one after the other, set on a node that has none. -/
def Item.node (item : Item) : JsNode :=
  (item.first :: item.others).foldl (fun n entry => setNodeField n entry.key entry.value) blankNode

/-- No character of a word is whitespace to JavaScript. -/
theorem isJsWhitespace_of_isWord {c : Char} (h : isWord c) : isJsWhitespace c = false := by
  have hrange : 48 ≤ c.toNat ∧ c.toNat ≤ 122 := by
    simp only [isWord, Bool.or_eq_true, Bool.and_eq_true, decide_eq_true_eq, beq_iff_eq] at h
    omega
  have hfeff : c ≠ '\uFEFF' := by
    rintro rfl
    exact absurd hrange.2 (by decide)
  have hwhite : Rust.isWhitespace c = false := by
    simp only [Rust.isWhitespace, Bool.or_eq_false_iff, Bool.and_eq_false_iff,
      decide_eq_false_iff_not, beq_eq_false_iff_ne]
    omega
  rw [isJsWhitespace, hwhite, Bool.false_and, Bool.false_or]
  exact beq_eq_false_iff_ne.mpr hfeff

/-- No character of a key is whitespace to JavaScript. -/
theorem isJsWhitespace_of_isKeyChar {c : Char} (h : isKeyChar c) : isJsWhitespace c = false := by
  rcases (Bool.or_eq_true _ _).mp h with h | h
  · exact isJsWhitespace_of_isWord h
  · obtain rfl := beq_iff_eq.mp h
    decide

/-! ### Whitespace -/

/-- There is nothing to skip in front of a text that does not start with whitespace. -/
theorem skipSpace_of_head {s : List Char} (h : ∀ c ∈ s.head?, isJsWhitespace c = false) :
    skipSpace s = s := by
  cases s with
  | nil => rfl
  | cons c s => exact List.dropWhile_cons_of_neg (ne_true_of_eq_false (h c rfl))

/-- Whitespace in front of a text is skipped, whatever the text starts with. -/
theorem skipSpace_append (pre : List Char) (hpre : pre.all isJsWhitespace) (s : List Char) :
    skipSpace (pre ++ s) = skipSpace s := by
  rw [skipSpace, List.dropWhile_append_of_pos (List.all_eq_true.mp hpre), skipSpace]

/-- An indentation is made of spaces, so it is whitespace. -/
theorem all_isJsWhitespace_replicate (n : ℕ) : (List.replicate n ' ').all isJsWhitespace :=
  List.all_eq_true.mpr fun _ hc => List.eq_of_mem_replicate hc ▸ by decide

/-- There is nothing to take off a text that does not end with whitespace. -/
theorem rdropWhile_of_getLast {s : List Char} (h : ∀ c ∈ s.getLast?, isJsWhitespace c = false) :
    s.rdropWhile isJsWhitespace = s := by
  rw [List.rdropWhile_eq_self_iff]
  intro hne
  exact ne_true_of_eq_false (h _ (List.getLast?_eq_some_getLast hne))

/-- What is left of a line that ends with an entry: the space behind the colon goes when there is
no value. -/
theorem Entry.Valid.trimmed_line {entry : Entry} (h : entry.Valid) (pre mid : List Char)
    (hpre : pre.all isJsWhitespace) (hmid : ∀ c ∈ mid.head?, isJsWhitespace c = false) :
    ∃ rest, trimmed (pre ++ (mid ++ entry.text)) = mid ++ (entry.key ++ ':' :: rest) ∧
      skipSpace rest = entry.value := by
  obtain ⟨c, key, hkey⟩ : ∃ c key, entry.key = c :: key := by
    cases hkey : entry.key with
    | nil =>
        have hword := h.key
        rw [hkey] at hword
        cases hword
    | cons c key => exact ⟨c, key, rfl⟩
  have hfront : skipSpace (pre ++ (mid ++ entry.text)) = mid ++ entry.text := by
    rw [skipSpace_append pre hpre]
    refine skipSpace_of_head fun d hd => ?_
    cases mid with
    | nil =>
        rw [Entry.text, hkey] at hd
        obtain rfl := Option.some.inj hd
        exact isJsWhitespace_of_isKeyChar
          (List.all_eq_true.mp h.keyChars _ (hkey ▸ List.mem_cons_self))
    | cons e mid => exact hmid d hd
  rw [trimmed, hfront]
  rcases hvalue : entry.value with - | ⟨v, value⟩
  · have hsplit : mid ++ entry.text = (mid ++ (entry.key ++ [':'])) ++ [' '] := by
      simp [Entry.text, hvalue]
    have hcolon : ∀ d ∈ (mid ++ (entry.key ++ [':'])).getLast?, isJsWhitespace d = false := by
      intro d hd
      rw [← List.append_assoc, List.getLast?_concat] at hd
      obtain rfl := Option.some.inj hd
      decide
    refine ⟨[], ?_, rfl⟩
    rw [hsplit, List.rdropWhile_concat_pos _ _ _ (by decide), rdropWhile_of_getLast hcolon]
  · have hsplit : mid ++ entry.text = (mid ++ (entry.key ++ [':', ' '])) ++ (v :: value) := by
      simp [Entry.text, hvalue]
    have hlast : ∀ d ∈ (mid ++ entry.text).getLast?, isJsWhitespace d = false := by
      intro d hd
      rw [hsplit, List.getLast?_append_of_ne_nil _ (List.cons_ne_nil v value), ← hvalue] at hd
      exact h.last d hd
    refine ⟨' ' :: v :: value, ?_, ?_⟩
    · rw [rdropWhile_of_getLast hlast, hsplit]
      simp
    · rw [← hvalue]
      exact (skipSpace_append [' '] (by decide) entry.value).trans
        (skipSpace_of_head h.head)


/-! ### Reading entries -/

/-- A key has a first character, and this is one of a word. -/
theorem Entry.Valid.exists_cons {entry : Entry} (h : entry.Valid) :
    ∃ c key, entry.key = c :: key ∧ isWord c := by
  have hword := h.key
  cases hkey : entry.key with
  | nil =>
      rw [hkey] at hword
      cases hword
  | cons c key =>
      rw [hkey] at hword
      exact ⟨c, key, rfl, hword⟩

/-- A line that starts with a key starts with a character of a word. -/
theorem Entry.Valid.head_line {entry : Entry} (h : entry.Valid) (rest : List Char) :
    ∃ c, (entry.key ++ rest).head? = some c ∧ isWord c := by
  obtain ⟨c, key, hkey, hword⟩ := h.exists_cons
  exact ⟨c, by rw [hkey]; rfl, hword⟩

/-- There is nothing to skip in front of a key. -/
theorem Entry.Valid.skipSpace_line {entry : Entry} (h : entry.Valid) (rest : List Char) :
    skipSpace (entry.key ++ rest) = entry.key ++ rest := by
  obtain ⟨c, hc, hword⟩ := h.head_line rest
  refine skipSpace_of_head fun d hd => ?_
  rw [hc] at hd
  obtain rfl := Option.some.inj hd
  exact isJsWhitespace_of_isWord hword

/-- The characters of a key, up to the colon, are the key. -/
theorem takeWhile_key {key : List Char} (h : key.all isKeyChar) (rest : List Char) :
    (key ++ ':' :: rest).takeWhile isKeyChar = key := by
  rw [List.takeWhile_append_of_pos (List.all_eq_true.mp h),
    List.takeWhile_cons_of_neg (by decide), List.append_nil]

/-- Behind the characters of a key stands the colon. -/
theorem dropWhile_key {key : List Char} (h : key.all isKeyChar) (rest : List Char) :
    (key ++ ':' :: rest).dropWhile isKeyChar = ':' :: rest := by
  rw [List.dropWhile_append_of_pos (List.all_eq_true.mp h),
    List.dropWhile_cons_of_neg (by decide)]

/-- An entry is read back from its line, however many spaces stand behind the colon. -/
theorem Entry.Valid.keyValue_line {entry : Entry} (h : entry.Valid) {rest : List Char}
    (hrest : skipSpace rest = entry.value) :
    keyValue (entry.key ++ ':' :: rest) = some (entry.key, entry.value) := by
  have hcolon : skipSpace (':' :: rest) = ':' :: rest := skipSpace_of_head (by
    intro c hc
    obtain rfl := Option.some.inj hc
    decide)
  have hvalue : entry.value.all fun c => !isLineTerminator c := by
    rw [List.all_eq_true]
    intro c hc
    rw [h.value c hc]
    rfl
  rw [keyValue, takeWhile_key h.keyChars, dropWhile_key h.keyChars, hcolon]
  simp only [List.tail_cons, hrest]
  exact if_pos ⟨h.key, rfl, hvalue⟩

/-- Only the key `proxies` starts the section. -/
theorem Entry.Valid.isProxiesKey_line {entry : Entry} (h : entry.Valid)
    (hkey : entry.key ≠ "proxies".toList) (rest : List Char) :
    isProxiesKey (entry.key ++ ':' :: rest) = false := by
  rw [isProxiesKey, Bool.and_eq_false_iff, or_iff_not_imp_left, Bool.not_eq_false]
  intro hfront
  obtain ⟨t, ht⟩ := List.isPrefixOf_iff_prefix.mp hfront
  have htake : entry.key = "proxies".toList ++ t.takeWhile isKeyChar := by
    have hword : "proxies".toList.all isKeyChar := by decide
    rw [← takeWhile_key h.keyChars rest, ← ht,
      List.takeWhile_append_of_pos (List.all_eq_true.mp hword)]
  have hdrop : (entry.key ++ ':' :: rest).drop 7 = t := by
    rw [← ht]
    exact List.drop_left' rfl
  rw [hdrop]
  cases t with
  | nil => rfl
  | cons c t =>
      by_cases hc : isKeyChar c
      · -- a longer key goes on where the colon would be
        have hself : skipSpace (c :: t) = c :: t := skipSpace_of_head (by
          intro d hd
          obtain rfl := Option.some.inj hd
          exact isJsWhitespace_of_isKeyChar hc)
        rw [hself]
        refine beq_eq_false_iff_ne.mpr fun heq => ?_
        obtain rfl : c = ':' := Option.some.inj heq
        cases hc
      · rw [List.takeWhile_cons_of_neg hc, List.append_nil] at htake
        exact absurd htake hkey

/-! ### Reading items -/

namespace Section

/-- A line with a dash at its start is no key, so it cannot start the section. -/
theorem isProxiesKey_dash (s : List Char) : isProxiesKey ('-' :: s) = false := rfl

/-- The first line of an item finishes the one in front of it. -/
theorem next_first [JsonParser] {s : Section} (hs : s.inProxies) {item : Item}
    (h : item.first.Valid) :
    s.next (List.replicate item.indent ' ' ++ '-' :: ' ' :: item.first.text) =
      { s with
        nodes := s.pushed
        currentNode := some (setNodeField blankNode item.first.key item.first.value) } := by
  obtain ⟨rest, htrim, hrest⟩ := h.trimmed_line (List.replicate item.indent ' ') ['-', ' ']
    (all_isJsWhitespace_replicate _) (by
      intro c hc
      obtain rfl := Option.some.inj hc
      decide)
  simp only [List.cons_append, List.nil_append] at htrim
  have hbehind : skipSpace (' ' :: (item.first.key ++ ':' :: rest)) =
      item.first.key ++ ':' :: rest :=
    (skipSpace_append [' '] (by decide) _).trans (h.skipSpace_line _)
  have hinline : inlineItem ('-' :: ' ' :: (item.first.key ++ ':' :: rest)) = none := by
    obtain ⟨c, hc, hword⟩ := h.head_line (':' :: rest)
    rw [inlineItem, List.tail_cons, hbehind, hc]
    refine if_neg fun hbrace => ?_
    obtain rfl : c = '{' := Option.some.inj hbrace.2.1
    cases hword
  have hnew : newItem ('-' :: ' ' :: (item.first.key ++ ':' :: rest)) =
      some (item.first.key, item.first.value) := by
    rw [newItem, List.tail_cons, hbehind, h.keyValue_line hrest]
    exact if_pos ⟨rfl, (by decide : isJsWhitespace ' ')⟩
  rw [next, htrim, isProxiesKey_dash]
  simp only [Bool.false_eq_true, if_false, hs, List.head?_cons, ne_eq, not_true_eq_false,
    and_false, hinline, hnew]

/-- The other lines of an item set its fields. -/
theorem next_other [JsonParser] {s : Section} (hs : s.inProxies) {entry : Entry}
    (h : entry.Valid) (hkey : entry.key ≠ "proxies".toList) (indent : ℕ) :
    s.next (List.replicate (indent + 2) ' ' ++ entry.text) =
      { s with
        currentNode := s.currentNode.map fun n => setNodeField n entry.key entry.value } := by
  obtain ⟨rest, htrim, hrest⟩ := h.trimmed_line (List.replicate (indent + 2) ' ') []
    (all_isJsWhitespace_replicate _) (by simp)
  simp only [List.nil_append] at htrim
  obtain ⟨c, hc, hword⟩ := h.head_line (':' :: rest)
  have hdash : (entry.key ++ ':' :: rest).head? ≠ some '-' := by
    rw [hc]
    intro heq
    obtain rfl := Option.some.inj heq
    cases hword
  have hinline : inlineItem (entry.key ++ ':' :: rest) = none := if_neg fun hall => hdash hall.1
  have hnew : newItem (entry.key ++ ':' :: rest) = none := if_neg fun hall => hdash hall.1
  have hindented : (List.replicate (indent + 2) ' ' ++ entry.text).head? = some ' ' := rfl
  have hspace : isJsWhitespace ' ' := by decide
  rw [next, htrim, h.isProxiesKey_line hkey, hindented]
  simp only [Bool.false_eq_true, if_false, hs, Option.any_some, hspace, Bool.not_true, false_and,
    and_false, not_true_eq_false, hinline, hnew, h.keyValue_line hrest]

end Section

namespace Section

/-- The node that is being read is the item, and the ones in front of it are finished. -/
theorem foldl_item [JsonParser] {s : Section} (hs : s.inProxies) {item : Item} (h : item.Valid) :
    item.lines.foldl Section.next s =
      { s with nodes := s.pushed, currentNode := some item.node } := by
  have hothers : ∀ (entries : List Entry) (n : JsNode) (r : Section), r.inProxies →
      r.currentNode = some n →
      (∀ entry ∈ entries, entry.Valid ∧ entry.key ≠ "proxies".toList) →
      (entries.map fun entry => List.replicate (item.indent + 2) ' ' ++ entry.text).foldl
          Section.next r =
        { r with
          currentNode := some (entries.foldl (fun n entry =>
            setNodeField n entry.key entry.value) n) } := by
    intro entries
    induction entries with
    | nil =>
        intro n r _ hn _
        rw [List.map_nil, List.foldl_nil, List.foldl_nil, ← hn]
    | cons entry entries ih =>
        intro n r hr hn hvalid
        obtain ⟨hentry, hkey⟩ := hvalid entry List.mem_cons_self
        have hrest : ∀ entry ∈ entries, entry.Valid ∧ entry.key ≠ "proxies".toList :=
          fun entry hmem => hvalid entry (List.mem_cons_of_mem _ hmem)
        have hnext := ih (setNodeField n entry.key entry.value)
          { r with currentNode := some (setNodeField n entry.key entry.value) } hr rfl hrest
        rw [List.map_cons, List.foldl_cons, next_other hr hentry hkey, hn, Option.map_some, hnext,
          List.foldl_cons]
  have hbelow := hothers item.others (setNodeField blankNode item.first.key item.first.value)
    { s with
      nodes := s.pushed
      currentNode := some (setNodeField blankNode item.first.key item.first.value) }
    hs rfl h.others
  rw [Item.lines, List.foldl_cons, next_first hs h.first, hbelow, Item.node, List.foldl_cons]

/-- What is finished after a section is what was finished before it, and its items. -/
theorem foldl_items [JsonParser] {items : List Item} (hitems : ∀ item ∈ items, item.Valid) :
    ∀ {s : Section}, s.inProxies →
      ((items.flatMap Item.lines).foldl Section.next s).inProxies ∧
        ((items.flatMap Item.lines).foldl Section.next s).pushed =
          s.pushed ++ (items.map Item.node).filter fun n => n.name ≠ "" := by
  induction items with
  | nil => exact fun hs => ⟨hs, (List.append_nil _).symm⟩
  | cons item items ih =>
      intro s hs
      have hitem := foldl_item hs (hitems item List.mem_cons_self)
      obtain ⟨hin, hpushed⟩ := ih (fun item hmem => hitems item (List.mem_cons_of_mem _ hmem))
        (s := { s with nodes := s.pushed, currentNode := some item.node }) hs
      rw [List.flatMap_cons, List.foldl_append, hitem]
      refine ⟨hin, ?_⟩
      rw [hpushed, pushed, List.append_assoc, List.map_cons, Option.toList_some,
        ← List.filter_append, List.singleton_append]

/-- Outside of the section nothing but its key is read. -/
theorem foldl_outside [JsonParser] {s : Section} (hs : s.inProxies = false)
    {lines : List (List Char)} (h : ∀ line ∈ lines, isProxiesKey (trimmed line) = false) :
    lines.foldl Section.next s = s := by
  induction lines with
  | nil => rfl
  | cons line lines ih =>
      have hline : s.next line = s := by
        rw [next, h line List.mem_cons_self]
        simp only [Bool.false_eq_true, if_false, hs, false_and, not_false_eq_true, if_true]
      rw [List.foldl_cons, hline]
      exact ih fun line hmem => h line (List.mem_cons_of_mem _ hmem)

/-- A line that is not indented and no item. -/
def Closes (line : List Char) : Prop :=
  (line.head?.any fun c => !isJsWhitespace c) ∧ (trimmed line).head? ≠ some '-'

/-- A blank line changes nothing, wherever in the text it stands. -/
theorem next_blank [JsonParser] (s : Section) {line : List Char} (h : trimmed line = []) :
    s.next line = s := by
  have hhead : (line.head?.any fun c => !isJsWhitespace c) = false := by
    cases line with
    | nil => rfl
    | cons c line =>
        by_contra hc
        have hfront : skipSpace (c :: line) = c :: line := skipSpace_of_head (by
          intro d hd
          obtain rfl := Option.some.inj hd
          simpa using hc)
        rw [trimmed, hfront, List.rdropWhile_eq_nil_iff] at h
        simp [h c List.mem_cons_self] at hc
  have hkey : isProxiesKey [] = false := rfl
  have hinline : inlineItem [] = none := rfl
  have hnew : newItem [] = none := rfl
  have hvalue : keyValue [] = none := rfl
  rw [next, h, hhead, hkey, hinline, hnew, hvalue]
  simp

/-- What stands behind the section finishes its last item. -/
theorem foldl_after [JsonParser] {s : Section} (hs : s.inProxies) {lines : List (List Char)}
    (h : ∀ line ∈ lines, isProxiesKey (trimmed line) = false)
    (hcloses : ∀ line ∈ lines.find? fun line => trimmed line ≠ [], Closes line) :
    (lines.foldl Section.next s).pushed = s.pushed := by
  induction lines with
  | nil => rfl
  | cons line lines ih =>
      have hrest : ∀ line ∈ lines, isProxiesKey (trimmed line) = false :=
        fun line hmem => h line (List.mem_cons_of_mem _ hmem)
      by_cases hblank : trimmed line = []
      · rw [List.find?_cons_of_neg (by simpa using hblank)] at hcloses
        rw [List.foldl_cons, s.next_blank hblank]
        exact ih hrest hcloses
      rw [List.find?_cons_of_pos (by simpa using hblank)] at hcloses
      have hline : s.next line = ⟨s.pushed, false, s.currentNode.filter fun n => n.name = ""⟩ := by
        rw [next, h line List.mem_cons_self]
        obtain ⟨hhead, hdash⟩ := hcloses line rfl
        rw [if_neg Bool.false_ne_true, if_pos ⟨hs, hhead, hdash⟩]
      have hleft : (s.currentNode.filter fun n => n.name = "").toList.filter
          (fun n => n.name ≠ "") = [] := by
        cases s.currentNode with
        | none => rfl
        | some n => by_cases hn : n.name = "" <;> simp [Option.filter_some, hn]
      rw [List.foldl_cons, hline, foldl_outside rfl hrest, pushed, hleft, List.append_nil]

end Section

/-- A configuration: what stands in front of the section, its items, and what stands behind it. -/
def configText (before : List (List Char)) (items : List Item) (after : List (List Char)) :
    String :=
  .ofList (['\n'].intercalate
    (before ++ "proxies:".toList :: (items.flatMap Item.lines ++ after)))

/-- No line of a valid item has a line feed in it, so the lines can be joined and split again. -/
theorem Item.Valid.newline_notMem {item : Item} (h : item.Valid) :
    ∀ line ∈ item.lines, '\n' ∉ line := by
  have hentry : ∀ {entry : Entry}, entry.Valid → '\n' ∉ entry.text := by
    intro entry hentry hmem
    rw [Entry.text, List.mem_append, List.mem_cons, List.mem_cons] at hmem
    rcases hmem with hmem | hmem | hmem | hmem
    · exact absurd (List.all_eq_true.mp hentry.keyChars _ hmem) (by decide)
    · cases hmem
    · cases hmem
    · exact absurd (hentry.value _ hmem) (by decide)
  intro line hline hmem
  rcases List.mem_cons.mp hline with rfl | hline
  · rcases List.mem_append.mp hmem with hmem | hmem
    · exact absurd (List.eq_of_mem_replicate hmem) (by decide)
    · simp only [List.mem_cons] at hmem
      rcases hmem with hmem | hmem | hmem
      · cases hmem
      · cases hmem
      · exact hentry h.first hmem
  · obtain ⟨entry, hother, rfl⟩ := List.mem_map.mp hline
    rcases List.mem_append.mp hmem with hmem | hmem
    · exact absurd (List.eq_of_mem_replicate hmem) (by decide)
    · exact hentry (h.others entry hother).1 hmem

/-- The lines of a configuration are those before the section, the one that opens it, those of its
items, and those behind it. -/
theorem splitOn_configText {before after : List (List Char)} {items : List Item}
    (hitems : ∀ item ∈ items, item.Valid) (hlines : ∀ line ∈ before ++ after, '\n' ∉ line) :
    (configText before items after).toList.splitOn '\n' =
      before ++ "proxies:".toList :: (items.flatMap Item.lines ++ after) := by
  rw [configText, String.toList_ofList]
  refine List.splitOn_intercalate '\n' ?_ (by simp)
  intro line hline
  rcases List.mem_append.mp hline with hline | hline
  · exact hlines line (List.mem_append_left _ hline)
  rcases List.mem_cons.mp hline with rfl | hline
  · decide
  rcases List.mem_append.mp hline with hline | hline
  · obtain ⟨item, hitem, hline⟩ := List.mem_flatMap.mp hline
    exact (hitems item hitem).newline_notMem line hline
  · exact hlines line (List.mem_append_right _ hline)

/-- A section written over several lines is read item by item, whatever stands around it. -/
theorem parseClashYaml_items [JsonParser] {before after : List (List Char)} {items : List Item}
    (hitems : ∀ item ∈ items, item.Valid)
    (hlines : ∀ line ∈ before ++ after, '\n' ∉ line)
    (hkeys : ∀ line ∈ before ++ after, isProxiesKey (trimmed line) = false)
    (hcloses : ∀ line ∈ after.find? fun line => trimmed line ≠ [], Section.Closes line) :
    parseClashYaml (configText before items after) =
      (items.map Item.node).filter fun n => n.name ≠ "" := by
  have hbefore : before.foldl Section.next ⟨[], false, none⟩ = ⟨[], false, none⟩ :=
    Section.foldl_outside rfl fun line hline => hkeys line (List.mem_append_left _ hline)
  have hkey : Section.next ⟨[], false, none⟩ "proxies:".toList = ⟨[], true, none⟩ := rfl
  obtain ⟨hin, hpushed⟩ := Section.foldl_items hitems (s := ⟨[], true, none⟩) rfl
  rw [parseClashYaml, splitOn_configText hitems hlines, List.foldl_append, hbefore,
    List.foldl_cons, hkey, List.foldl_append, Section.foldl_after hin
      (fun line hline => hkeys line (List.mem_append_right _ hline)) hcloses, hpushed]
  rfl

/-! ### Printing nodes -/

/-- A text between double quotes, as it is written in a configuration. -/
def quoted (s : String) : List Char := '"' :: (s.toList ++ ['"'])

/-- The digits of a port, or a zero where the port is not a number of digits. -/
def portDigits : Number → List Char
  | .int n => n.toNat.repr.toList
  | _ => ['0']

/-- How a node is written in a configuration. -/
def nodeItem (indent : ℕ) (node : JsNode) : Item where
  indent := indent
  first := ⟨"name".toList, quoted node.name⟩
  others :=
    [⟨"type".toList, quoted node.type⟩, ⟨"server".toList, quoted node.server⟩,
      ⟨"port".toList, portDigits node.port⟩, ⟨"password".toList, quoted node.password⟩,
      ⟨"cipher".toList, quoted node.cipher⟩, ⟨"tls".toList, (toString node.tls).toList⟩]

/-- A text on one line, without whitespace around it. -/
structure Plain (s : String) : Prop where
  line : s.toList.any isLineTerminator = false
  trimmed : trimmed s.toList = s.toList

/-- A node that can be written: it has a name, its texts are plain, and its port is a number a
double can hold. -/
structure Printable (node : JsNode) : Prop where
  named : node.name ≠ ""
  texts : ∀ s ∈ [node.name, node.type, node.server, node.password, node.cipher], Plain s
  port : ∃ n : ℕ, n < 1 <<< 53 ∧ node.port = .int n

/-- The quotes are taken off again. The text between them may not have any of its own at an end. -/
theorem unquote_quoted {s : String} (h : Plain s) : unquote (quoted s) = s.toList := by
  have hhead : (quoted s).head?.any isQuote := rfl
  have hlast : (s.toList ++ ['"']).getLast?.any isQuote := by
    rw [List.getLast?_concat]
    rfl
  have htail : (quoted s).tail = s.toList ++ ['"'] := rfl
  rw [unquote, if_pos hhead, htail, if_pos hlast, List.dropLast_concat]
  exact h.trimmed

/-- A plain text between quotes is the value of a valid entry. -/
theorem Plain.quoted_valid {s : String} (h : Plain s) {key : List Char}
    (hkey : key.head?.any isWord) (hchars : key.all isKeyChar) :
    Entry.Valid ⟨key, quoted s⟩ where
  key := hkey
  keyChars := hchars
  value := by
    intro c hc
    rcases List.mem_cons.mp hc with rfl | hc
    · decide
    rcases List.mem_append.mp hc with hc | hc
    · exact eq_false_of_ne_true (List.any_eq_false.mp h.line c hc)
    · obtain rfl := List.mem_singleton.mp hc
      decide
  head := by
    intro c hc
    obtain rfl := Option.some.inj hc
    decide
  last := by
    intro c hc
    rw [quoted, ← List.cons_append, List.getLast?_concat] at hc
    obtain rfl := Option.some.inj hc
    decide

/-- A character of a word is not one that cannot be in a word. -/
theorem isWord_ne {c d : Char} (hc : isWord c) (hd : isWord d = false) : c ≠ d := by
  rintro rfl
  exact absurd hc (ne_true_of_eq_false hd)

/-- No character of a word is a quote. -/
theorem isQuote_of_isWord {c : Char} (h : isWord c) : isQuote c = false := by
  rw [isQuote, beq_eq_false_iff_ne.mpr (isWord_ne h rfl), beq_eq_false_iff_ne.mpr (isWord_ne h rfl)]
  rfl

/-- No character of a word ends a line. -/
theorem isLineTerminator_of_isWord {c : Char} (h : isWord c) : isLineTerminator c = false := by
  simp only [isLineTerminator, Bool.or_eq_false_iff, beq_eq_false_iff_ne]
  exact ⟨⟨⟨isWord_ne h rfl, isWord_ne h rfl⟩, isWord_ne h rfl⟩, isWord_ne h rfl⟩

/-- A word, quoted or not, is the value of a valid entry; it has nothing around it to be taken
off. -/
theorem word_valid {value : List Char} (h : ∀ c ∈ value, isWord c) {key : List Char}
    (hkey : key.head?.any isWord) (hchars : key.all isKeyChar) :
    Entry.Valid ⟨key, value⟩ where
  key := hkey
  keyChars := hchars
  value c hc := isLineTerminator_of_isWord (h c hc)
  head c hc := isJsWhitespace_of_isWord (h c (List.mem_of_mem_head? hc))
  last c hc := isJsWhitespace_of_isWord (h c (List.mem_of_getLast? hc))

/-- There is nothing to take off a word. -/
theorem unquote_word {value : List Char} (h : ∀ c ∈ value, isWord c) : unquote value = value := by
  have hhead : ¬ value.head?.any isQuote := by
    rw [Bool.not_eq_true, Option.any_eq_false]
    exact fun c hc => isQuote_of_isWord (h c (List.mem_of_mem_head? hc))
  have hlast : ¬ value.getLast?.any isQuote := by
    rw [Bool.not_eq_true, Option.any_eq_false]
    exact fun c hc => isQuote_of_isWord (h c (List.mem_of_getLast? hc))
  rw [unquote, if_neg hhead, if_neg hlast, trimmed,
    skipSpace_of_head fun c hc => isJsWhitespace_of_isWord (h c (List.mem_of_mem_head? hc)),
    rdropWhile_of_getLast fun c hc => isJsWhitespace_of_isWord (h c (List.mem_of_getLast? hc))]

/-- The digits of a number are a word. -/
theorem isWord_repr (n : ℕ) : ∀ c ∈ n.repr.toList, isWord c := by
  intro c hc
  have hdigit := Char.isDigit_iff_toNat.mp (Rust.isDigit_of_mem_repr hc)
  simp only [isWord, Bool.or_eq_true, Bool.and_eq_true, decide_eq_true_eq]
  exact .inl (.inl (.inl hdigit))

/-- The names of the two truth values are words. -/
theorem isWord_toString (b : Bool) : ∀ c ∈ (toString b).toList, isWord c := by
  rw [← List.all_eq_true]
  cases b <;> decide

/-- The digits of a port are read back. -/
theorem parseInt_repr {n : ℕ} (h : n < 1 <<< 53) : (parseInt n.repr).orDefault 0 = .int n := by
  have hparse : Rust.parseU64 n.repr = .ok n := Rust.parseUnsigned_repr (h.le.trans (by decide))
  have hround : roundToDouble n = n := if_pos h
  have hfinite : ¬ 1 <<< 1024 ≤ n := not_le.mpr (h.trans (by decide))
  rw [(parseInt_of_parseU64 hparse).1, Number.ofNat, hround, if_neg hfinite,
    if_neg Bool.false_ne_true]
  by_cases hzero : n = 0
  · rw [hzero]
    rfl
  · refine if_neg fun h => ?_
    rcases h with h | h
    · cases h
    · exact hzero (Int.ofNat.inj (Number.int.inj h))

/-- The item a node is written as is valid, at any indentation. -/
theorem Printable.item_valid {node : JsNode} (h : Printable node) (indent : ℕ) :
    (nodeItem indent node).Valid := by
  obtain ⟨n, -, hport⟩ := h.port
  have htexts := h.texts
  simp only [List.forall_mem_cons] at htexts
  obtain ⟨hname, htype, hserver, hpassword, hcipher, -⟩ := htexts
  refine ⟨hname.quoted_valid (by decide) (by decide), ?_⟩
  simp only [nodeItem, List.forall_mem_cons, hport, portDigits, Int.toNat_natCast]
  refine ⟨⟨htype.quoted_valid (by decide) (by decide), by decide⟩,
    ⟨hserver.quoted_valid (by decide) (by decide), by decide⟩,
    ⟨word_valid (isWord_repr n) (by decide) (by decide), by decide⟩,
    ⟨hpassword.quoted_valid (by decide) (by decide), by decide⟩,
    ⟨hcipher.quoted_valid (by decide) (by decide), by decide⟩,
    ⟨word_valid (isWord_toString node.tls) (by decide) (by decide), by decide⟩, by simp⟩

section Fields

variable (node : JsNode) (val : List Char)

/-- Reading the field with the name of a node. -/
theorem setNodeField_name :
    setNodeField node "name".toList val = { node with name := .ofList (unquote val) } := rfl

/-- Reading the field with the type of a node. -/
theorem setNodeField_type :
    setNodeField node "type".toList val = { node with type := .ofList (unquote val) } := rfl

/-- Reading the field with the server of a node. -/
theorem setNodeField_server :
    setNodeField node "server".toList val = { node with server := .ofList (unquote val) } := rfl

/-- Reading the port of a node, which becomes zero when it is no number. -/
theorem setNodeField_port :
    setNodeField node "port".toList val =
      { node with port := (parseInt (.ofList (unquote val))).orDefault 0 } := rfl

/-- Reading the field with the password of a node. -/
theorem setNodeField_password :
    setNodeField node "password".toList val =
      { node with password := .ofList (unquote val) } := rfl

/-- Reading the field with the cipher of a node. -/
theorem setNodeField_cipher :
    setNodeField node "cipher".toList val = { node with cipher := .ofList (unquote val) } := rfl

/-- Reading whether a node uses TLS, which only the word for truth means. -/
theorem setNodeField_tls :
    setNodeField node "tls".toList val =
      { node with tls := String.ofList (unquote val) == "true" } := rfl

end Fields

/-- The fields of a written node are read back. -/
theorem Printable.node_item {node : JsNode} (h : Printable node) (indent : ℕ) :
    (nodeItem indent node).node = node := by
  obtain ⟨n, hn, hport⟩ := h.port
  have htexts := h.texts
  simp only [List.forall_mem_cons] at htexts
  obtain ⟨hname, htype, hserver, hpassword, hcipher, -⟩ := htexts
  have htls : ((toString node.tls) == "true") = node.tls := by cases node.tls <;> rfl
  rw [Item.node, nodeItem, List.foldl_cons, setNodeField_name, List.foldl_cons, setNodeField_type,
    List.foldl_cons, setNodeField_server, List.foldl_cons, setNodeField_port, List.foldl_cons,
    setNodeField_password, List.foldl_cons, setNodeField_cipher, List.foldl_cons, setNodeField_tls,
    List.foldl_nil, unquote_quoted hname, unquote_quoted htype, unquote_quoted hserver,
    unquote_quoted hpassword, unquote_quoted hcipher, hport, portDigits, Int.toNat_natCast,
    unquote_word (isWord_repr n), unquote_word (isWord_toString node.tls)]
  simp only [String.ofList_toList, parseInt_repr hn, htls]
  rw [← hport]

/-- Every item of a list of printable nodes is valid. -/
theorem forall_item_valid {nodes : List JsNode} (hnodes : ∀ node ∈ nodes, Printable node)
    (indent : ℕ) : ∀ item ∈ nodes.map (nodeItem indent), item.Valid := by
  intro item hitem
  obtain ⟨node, hnode, rfl⟩ := List.mem_map.mp hitem
  exact (hnodes node hnode).item_valid indent

/-- Nodes that are written in a configuration are read back, whatever stands around them. -/
theorem parseClashYaml_nodes [JsonParser] {before after : List (List Char)} {nodes : List JsNode}
    (hnodes : ∀ node ∈ nodes, Printable node) (indent : ℕ)
    (hlines : ∀ line ∈ before ++ after, '\n' ∉ line)
    (hkeys : ∀ line ∈ before ++ after, isProxiesKey (trimmed line) = false)
    (hcloses : ∀ line ∈ after.find? fun line => trimmed line ≠ [], Section.Closes line) :
    parseClashYaml (configText before (nodes.map (nodeItem indent)) after) = nodes := by
  have hread : (nodes.map (nodeItem indent)).map Item.node = nodes := by
    rw [List.map_map]
    refine (List.map_congr_left fun node hnode => ?_).trans (List.map_id nodes)
    rw [Function.comp_apply, (hnodes node hnode).node_item indent, id]
  rw [parseClashYaml_items (forall_item_valid hnodes indent) hlines hkeys hcloses, hread,
    List.filter_eq_self]
  intro node hnode
  simpa using (hnodes node hnode).named

end Redog.ClashYaml
