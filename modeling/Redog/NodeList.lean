import Mathlib.Algebra.Order.Ring.Nat
import Redog.Text

/-!
# The node list of the desktop application

The list of nodes is written as one HTML string. The fields of a node come from subscriptions,
so they are escaped where they are inserted, with one exception: the type is a part of a class
name as it is.

How much markup a list has is measured by the characters that open a tag and those that delimit
an attribute value.

## Main results

* `count_row`: what the markup of a row consists of.
* `count_renderNodeList_iff`: when two lists of the same shape have the same markup.
-/

namespace Redog.NodeList

/-! ### The list -/

/-- The case mappings of JavaScript strings, as a parameter that stands for those of the engine. -/
class CaseMapping where
  toLowerCase : String → String
  toUpperCase : String → String

/-- A number in JavaScript: its text, and whether `||` keeps it. -/
structure JsNumber where
  text : String
  truthy : Bool
  plain : ∀ c ∈ text.toList, c.isAlphanum ∨ c ∈ ['+', '-', '.']

/-- The fields of a stored node that the list shows. -/
structure StoredNode where
  name : String
  type : String
  server : String
  port : JsNumber
  id : String

/-- `nodes` is missing until a subscription has been updated. -/
structure Subscription where
  name : String
  nodes : Option (List StoredNode)

/-- What the list is made from: the subscriptions with their nodes, and the nodes that were added by
hand. -/
structure Store where
  subscriptions : List Subscription
  manualNodes : List StoredNode

/-- An element of `allNodes`: the fields of a node with the list it comes from, and whether that is
a subscription. -/
structure ListedNode where
  name : String
  type : String
  server : String
  port : JsNumber
  source : String
  id : String
  fromSub : Bool

/-- The nodes that are listed: those of the subscriptions in their order, and then the manual
ones. -/
def allNodes (store : Store) : List ListedNode :=
  (store.subscriptions.flatMap fun s => (s.nodes.getD []).map fun n =>
    { name := n.name, type := n.type, server := n.server, port := n.port, source := s.name,
      id := n.id, fromSub := true }) ++
  store.manualNodes.map fun n =>
    { name := n.name, type := n.type, server := n.server, port := n.port, source := "手动添加",
      id := n.id, fromSub := false }

/-- What a character is replaced by. Five of them have a reference of their own. -/
def escapeChar (c : Char) : List Char :=
  if c = '&' then "&amp;".toList
  else if c = '<' then "&lt;".toList
  else if c = '>' then "&gt;".toList
  else if c = '"' then "&quot;".toList
  else if c = '\'' then "&#39;".toList
  else [c]

/-- The escaping of the page, character by character. -/
def escapeHtml (s : String) : String :=
  .ofList (s.toList.flatMap escapeChar)

/-- The button that deletes a manual node. -/
def deleteBtn (n : ListedNode) : String :=
  if n.fromSub then ""
  else "<button class=\"btn btn-sm btn-danger\" data-manual-delete=\"" ++ escapeHtml n.id ++
    "\">删除</button>"

/-- No character is escaped to something with an angle bracket or a quote in it. -/
theorem notMem_escapeChar {c : Char} (hc : c ∈ ['<', '"']) (d : Char) : c ∉ escapeChar d := by
  rw [escapeChar]
  rw [List.mem_pair] at hc
  split_ifs with hamp hlt hgt hquote happ
  · rcases hc with rfl | rfl <;> simp
  · rcases hc with rfl | rfl <;> simp
  · rcases hc with rfl | rfl <;> simp
  · rcases hc with rfl | rfl <;> simp
  · rcases hc with rfl | rfl <;> simp
  · rw [List.mem_singleton]
    rintro rfl
    exact hc.elim hlt hquote

/-- Escaped text has no angle bracket and no quote left in it, so it adds none to a row. -/
theorem count_escapeHtml {c : Char} (hc : c ∈ ['<', '"']) (s : String) :
    (escapeHtml s).toList.count c = 0 := by
  rw [escapeHtml, String.toList_ofList, List.count_eq_zero, List.mem_flatMap]
  rintro ⟨d, -, hd⟩
  exact notMem_escapeChar hc d hd

/-- Nor has the text of a number. -/
theorem count_portText {c : Char} (hc : c ∈ ['<', '"']) (port : JsNumber) :
    (if port.truthy then port.text else "").toList.count c = 0 := by
  rw [List.count_eq_zero]
  split_ifs
  · intro hmem
    have hplain := port.plain c hmem
    rw [List.mem_pair] at hc
    rcases hc with rfl | rfl
    · exact absurd hplain (by decide)
    · exact absurd hplain (by decide)
  · simp

section Render

variable [CaseMapping]

/-- The type as it is shown: the first letter in upper case, the others in lower case. -/
def typeName (n : ListedNode) : String :=
  CaseMapping.toLowerCase (if n.type = "" then "ss" else n.type)

/-- The row of a node. The class name is not escaped. -/
def row (n : ListedNode) : String :=
  "<div class=\"node-row\">" ++
    "<div class=\"node-info\">" ++
    "<div class=\"node-name\"><span class=\"node-tag " ++ ("tag-" ++ typeName n) ++ "\">" ++
      escapeHtml (CaseMapping.toUpperCase (typeName n)) ++ "</span>" ++ escapeHtml n.name ++
      "</div>" ++
    "<div class=\"node-detail\">" ++ escapeHtml n.server ++ ":" ++
      (if n.port.truthy then n.port.text else "") ++ " | 来源: " ++ escapeHtml n.source ++
      "</div>" ++
    "</div>" ++
    "<div class=\"node-actions\">" ++ deleteBtn n ++ "</div>" ++
    "</div>"

/-- The HTML of the list: a row for each node, or a hint that there is none. -/
def renderNodeList (store : Store) : String :=
  if allNodes store = [] then "<div class=\"empty-hint\">暂无节点</div>"
  else String.join ((allNodes store).map row)

/-! ### Markup -/

/-- A row without its fields, which is the markup that the code itself puts in. -/
def rowFrame (fromSub : Bool) : String :=
  "<div class=\"node-row\">" ++ "<div class=\"node-info\">" ++
    "<div class=\"node-name\"><span class=\"node-tag " ++ "tag-" ++ "\">" ++ "</span>" ++
    "</div>" ++
    "<div class=\"node-detail\">" ++ ":" ++ " | 来源: " ++ "</div>" ++ "</div>" ++
    "<div class=\"node-actions\">" ++
      (if fromSub then ""
      else "<button class=\"btn btn-sm btn-danger\" data-manual-delete=\"" ++ "\">删除</button>") ++
    "</div>" ++ "</div>"

/-- A row has the markup of its frame, and that of the type. -/
theorem count_row {c : Char} (hc : c ∈ ['<', '"']) (n : ListedNode) :
    (row n).toList.count c =
      (rowFrame n.fromSub).toList.count c + (typeName n).toList.count c := by
  have hescape := count_escapeHtml hc
  have hport := count_portText hc n.port
  -- the equations of these definitions are expensive, for their literals
  delta row rowFrame deleteBtn
  cases n.fromSub <;>
    simp only [String.toList_append, List.count_append, hescape, hport, if_true, if_false,
      Bool.false_eq_true, Nat.add_zero]
  · omega
  · omega

/-! ### Two lists -/

/-- The case mapping neither makes nor removes markup. -/
structure CaseMapping.KeepsMarkup : Prop where
  count_toLowerCase : ∀ c ∈ ['<', '"'], ∀ s : String,
    (CaseMapping.toLowerCase s).toList.count c = s.toList.count c

/-- As many nodes of subscriptions, and as many manual ones. -/
def SameShape (a b : Store) : Prop :=
  (a.subscriptions.flatMap fun s => s.nodes.getD []).length =
    (b.subscriptions.flatMap fun s => s.nodes.getD []).length ∧
  a.manualNodes.length = b.manualNodes.length

/-- How often a character occurs in the types of the nodes. -/
def typeMarkup (c : Char) (store : Store) : ℕ :=
  ((allNodes store).map fun n => n.type.toList.count c).sum

omit [CaseMapping] in
/-- The nodes of subscriptions come first and the manual ones behind them. -/
theorem map_fromSub_allNodes (store : Store) :
    (allNodes store).map ListedNode.fromSub =
      List.replicate (store.subscriptions.flatMap fun s => s.nodes.getD []).length true ++
        List.replicate store.manualNodes.length false := by
  have hsubscribed : ∀ subscriptions : List Subscription,
      (subscriptions.flatMap fun s => (s.nodes.getD []).map fun n =>
        ListedNode.mk n.name n.type n.server n.port s.name n.id true).map ListedNode.fromSub =
        List.replicate (subscriptions.flatMap fun s => s.nodes.getD []).length true := by
    intro subscriptions
    induction subscriptions with
    | nil => rfl
    | cons s subscriptions ih =>
        rw [List.flatMap_cons, List.flatMap_cons, List.map_append, ih, List.map_map,
          List.length_append, List.replicate_add]
        exact congrArg (· ++ _) List.map_const'
  rw [allNodes, List.map_append, hsubscribed, List.map_map]
  exact congrArg (_ ++ ·) List.map_const'

omit [CaseMapping] in
/-- In stores of the same shape the nodes come from the same places. -/
theorem SameShape.map_fromSub {a b : Store} (h : SameShape a b) :
    (allNodes a).map ListedNode.fromSub = (allNodes b).map ListedNode.fromSub := by
  rw [map_fromSub_allNodes, map_fromSub_allNodes, h.1, h.2]

/-- Changing the case of the type does not change how often it has a character of markup. -/
theorem count_typeName (hcase : CaseMapping.KeepsMarkup) {c : Char} (hc : c ∈ ['<', '"'])
    (n : ListedNode) : (typeName n).toList.count c = n.type.toList.count c := by
  rw [typeName, hcase.count_toLowerCase c hc]
  split_ifs with hempty
  · rw [hempty]
    rw [List.mem_pair] at hc
    rcases hc with rfl | rfl <;> simp
  · rfl

/-- How often a character of markup is in the list: what the frames of the rows have of it, and what
the types have. -/
theorem count_join_row (hcase : CaseMapping.KeepsMarkup) {c : Char} (hc : c ∈ ['<', '"'])
    (nodes : List ListedNode) :
    (String.join (nodes.map row)).toList.count c =
      ((nodes.map ListedNode.fromSub).map fun fromSub => (rowFrame fromSub).toList.count c).sum +
        (nodes.map fun n => n.type.toList.count c).sum := by
  induction nodes with
  | nil => simp
  | cons n nodes ih =>
      rw [List.map_cons, String.join_cons, String.toList_append, List.count_append, ih,
        count_row hc, count_typeName hcase hc, List.map_cons, List.map_cons, List.map_cons,
        List.sum_cons, List.sum_cons]
      omega

/-- The markup of two lists of the same shape differs by that of the types. -/
theorem count_renderNodeList (hcase : CaseMapping.KeepsMarkup) {c : Char} (hc : c ∈ ['<', '"'])
    {a b : Store} (h : SameShape a b) :
    (renderNodeList a).toList.count c = (renderNodeList b).toList.count c ↔
      typeMarkup c a = typeMarkup c b := by
  have hshape := h.map_fromSub
  have hempty : allNodes a = [] ↔ allNodes b = [] := by
    rw [← List.map_eq_nil_iff (f := ListedNode.fromSub), hshape, List.map_eq_nil_iff]
  rw [renderNodeList, renderNodeList]
  by_cases hnodes : allNodes a = []
  · rw [if_pos hnodes, if_pos (hempty.mp hnodes), typeMarkup, typeMarkup, hnodes,
      hempty.mp hnodes]
    exact iff_of_true rfl rfl
  · rw [if_neg hnodes, if_neg (mt hempty.mpr hnodes), count_join_row hcase hc,
      count_join_row hcase hc, hshape, Nat.add_left_cancel_iff]
    rfl

/-- **When two lists of the same shape have the same markup**: exactly when it is the same in the
types of their nodes. -/
theorem count_renderNodeList_iff (hcase : CaseMapping.KeepsMarkup) {a b : Store}
    (h : SameShape a b) :
    ((renderNodeList a).toList.count '<' = (renderNodeList b).toList.count '<' ∧
      (renderNodeList a).toList.count '"' = (renderNodeList b).toList.count '"') ↔
      typeMarkup '<' a = typeMarkup '<' b ∧ typeMarkup '"' a = typeMarkup '"' b :=
  and_congr (count_renderNodeList hcase (by simp) h) (count_renderNodeList hcase (by simp) h)

end Render

/-! ### A type that is no name -/

/-- The case mappings on ASCII, which agree with those of JavaScript there. -/
@[reducible] def asciiCase : CaseMapping where
  toLowerCase := Rust.toAsciiLowercase
  toUpperCase s := .ofList (s.toList.map Char.toUpper)

/-- Mapping ASCII letters alone keeps the characters of markup. -/
theorem asciiCase_keepsMarkup :
    letI := asciiCase
    CaseMapping.KeepsMarkup := by
  refine @CaseMapping.KeepsMarkup.mk asciiCase fun c hc s => ?_
  have hlt : c.toNat < 65 := by
    rw [List.mem_pair] at hc
    rcases hc with rfl | rfl <;> decide
  show (Rust.toAsciiLowercase s).toList.count c = s.toList.count c
  rw [Rust.toList_toAsciiLowercase, List.count_eq_countP, List.count_eq_countP, List.countP_map]
  refine List.countP_congr fun d _ => ?_
  rw [Function.comp_apply, beq_iff_eq, beq_iff_eq, Rust.toLower_eq_iff_of_lt hlt]

/-- One node of a subscription, with this type. -/
def sample (type : String) : Store :=
  let port : JsNumber := ⟨"443", true, by simp⟩
  ⟨[⟨"sub", some [⟨"node", type, "example.com", port, "1"⟩]⟩], []⟩

/-- Two stores with one node each, one of which has markup in its type. -/
theorem count_renderNodeList_iff_sample :
    letI := asciiCase
    SameShape (sample "Trojan") (sample "ss") ∧
    (((renderNodeList (sample "Trojan")).toList.count '<' =
        (renderNodeList (sample "ss")).toList.count '<' ∧
      (renderNodeList (sample "Trojan")).toList.count '"' =
        (renderNodeList (sample "ss")).toList.count '"') ↔
      typeMarkup '<' (sample "Trojan") = typeMarkup '<' (sample "ss") ∧
        typeMarkup '"' (sample "Trojan") = typeMarkup '"' (sample "ss")) := by
  let _ := asciiCase
  have hshape : SameShape (sample "Trojan") (sample "ss") := ⟨rfl, rfl⟩
  exact ⟨hshape, count_renderNodeList_iff asciiCase_keepsMarkup hshape⟩

/-- A type can end the class attribute and open a tag. -/
theorem not_count_renderNodeList_eq :
    letI := asciiCase
    ¬ ∀ a b, SameShape a b →
      (renderNodeList a).toList.count '<' = (renderNodeList b).toList.count '<' ∧
      (renderNodeList a).toList.count '"' = (renderNodeList b).toList.count '"' := by
  intro h
  let _ := asciiCase
  have hshape : SameShape (sample "ss\"><img src=x onerror=alert(1)>") (sample "ss") := ⟨rfl, rfl⟩
  have htypes := (count_renderNodeList asciiCase_keepsMarkup List.mem_cons_self hshape).mp
    (h _ _ hshape).1
  revert htypes
  decide

end Redog.NodeList
