import Mathlib.Logic.Function.Basic
import Redog.NodeList
import Redog.Run
import Redog.ShareUriJs

/-!
# The subscriptions and nodes of the desktop application

The page keeps the subscriptions and the nodes entered by hand, in memory and in the local
storage. A subscription is an object, and an update of it holds on to that object while it waits
for the answer. The buttons of a row know the subscription by its position at the time the row
was rendered. In between, subscriptions are added and deleted.

Nevertheless a button always finds the subscription that its row shows, an answer always goes to
the subscription whose URL was asked for, and what is stored is always what the page holds. The
reason is the same for all three: every change of the list that can move a subscription is
followed by rendering, and a new subscription is put at the end.

## Main results

* `Consistent.step`: what every step keeps; none throws.
* `exec_kept`: what is stored and shown after any run.
* `button_spec`: the buttons of a row act on the subscription it shows.
* `reply_spec`: an answer changes the subscription whose URL was asked for, wherever it is.
* `exec_deleted`: a deleted subscription does not come back.
* `exec_entered`: names, addresses and ports stay as the forms demand them.
-/

namespace Redog.NodeStore

open Function Run Rust NodeList

/-! ### The code -/

/-- A subscription, with what its row shows. -/
structure Subscription extends NodeList.Subscription where
  url : String
  interval : ℤ
  updatedAt : String

/-- `sub.nodes = nodes; sub.updatedAt = now`: the two fields that an update sets. -/
def Subscription.updated (sub : Subscription) (nodes : List StoredNode) (now : String) :
    Subscription :=
  { sub with nodes := some nodes, updatedAt := now }

/-- The entries of the local storage as `JSON.parse` reads them: `none` where it throws, `[]` for
an entry that is missing. -/
structure Storage where
  subscriptions : Option (List Subscription)
  manualNodes : Option (List StoredNode)

/-- An `updateSubscription` that waits for an answer. -/
structure Request where
  /-- The object it updates. -/
  sub : ℕ
  url : String
  /-- The backend has failed, and the page itself asks. -/
  direct : Bool

/-- The variables of the page, and the objects it has made so far. -/
structure Memory where
  objects : ℕ → Subscription
  allocated : ℕ
  /-- The list holds references. -/
  subscriptions : List ℕ
  manualNodes : List StoredNode

/-- The page: what its script has in memory, the storage of the browser, what the two tables were
rendered from, and the updates it waits for. -/
structure App extends Memory where
  localStorage : Storage
  /-- What the rows of the subscriptions were rendered from. -/
  subRows : List Subscription
  /-- What the rows of the nodes were rendered from, if they have been. -/
  nodeRows : Option (List ListedNode)
  requests : List Request

/-- An exception that no handler catches: a field of something that is not there is read. -/
inductive TypeError
  | undefined

/-- `loadLocalStorage`: both lists as they are stored. Where one of them cannot be read, both are
empty. -/
def loadLocalStorage (storage : Storage) : List Subscription × List StoredNode :=
  ((do return (← storage.subscriptions, ← storage.manualNodes)) : Option _).getD ([], [])

namespace Memory

/-- The list, with what the references refer to. -/
def contents (memory : Memory) : List Subscription := memory.subscriptions.map memory.objects

/-- What `renderNodeList` reads: the subscriptions without their rows, and the nodes that were added
by hand. -/
def store (memory : Memory) : Store where
  subscriptions := memory.contents.map Subscription.toSubscription
  manualNodes := memory.manualNodes

/-- `subscriptions.push`, with a new object: it gets an identity that no other object has had. -/
def push (memory : Memory) (sub : Subscription) : Memory :=
  { memory with
    objects := update memory.objects memory.allocated sub
    allocated := memory.allocated + 1
    subscriptions := memory.subscriptions ++ [memory.allocated] }

/-- `subscriptions.splice`: the subscription at the index goes, those behind it move up by one. -/
def splice (memory : Memory) (index : ℕ) : Memory :=
  { memory with subscriptions := memory.subscriptions.eraseIdx index }

/-- An update of an object, which reaches every list that the object is in. -/
def setNodes (memory : Memory) (r : ℕ) (nodes : List StoredNode) (now : String) : Memory :=
  { memory with objects := update memory.objects r ((memory.objects r).updated nodes now) }

/-- `manualNodes.push`: the node goes behind those that were added before it. -/
def pushNode (memory : Memory) (node : StoredNode) : Memory :=
  { memory with manualNodes := memory.manualNodes ++ [node] }

/-- `manualNodes.filter`, of the nodes with another identifier. -/
def filterNodes (memory : Memory) (id : String) : Memory :=
  { memory with manualNodes := memory.manualNodes.filter fun n => n.id ≠ id }

end Memory

namespace App

/-- The page when it has been loaded. -/
def load (storage : Storage) : App where
  objects r := (loadLocalStorage storage).1.getD r ⟨⟨"", none⟩, "", 0, ""⟩
  allocated := (loadLocalStorage storage).1.length
  subscriptions := .range (loadLocalStorage storage).1.length
  manualNodes := (loadLocalStorage storage).2
  localStorage := storage
  subRows := []
  nodeRows := none
  requests := []

/-- Both lists are stored under their keys. -/
def saveLocalStorage (app : App) : App :=
  { app with localStorage := ⟨some app.contents, some app.manualNodes⟩ }

/-- The rows of the subscriptions are rendered from the list as it is. -/
def renderSubscriptions (app : App) : App := { app with subRows := app.contents }

/-- The rows of the nodes are rendered from both lists as they are. -/
def renderNodeList (app : App) : App := { app with nodeRows := some (allNodes app.store) }

/-- The view of the nodes is opened, so both lists are rendered from what is in memory. -/
def loadNodes (app : App) : App := app.renderSubscriptions.renderNodeList

/-- `updateSubscription` up to its first `await`: the address is read now, and the object is
remembered. -/
def updateSubscription (app : App) (index : ℕ) : App :=
  match app.subscriptions[index]? with
  | none => app
  | some r => { app with requests := app.requests ++ [⟨r, (app.objects r).url, false⟩] }

/-- `updateSubscription` from an `await` on: `answer` is what the backend or the page itself has
read, if that went well. -/
def receive (app : App) (index : ℕ) (answer : Option (List StoredNode)) (now : String) : App :=
  match app.requests[index]? with
  | none => app
  | some request =>
      match answer with
      | some nodes =>
          let app := { app with
            toMemory := app.setNodes request.sub nodes now
            requests := app.requests.eraseIdx index }
          app.saveLocalStorage.loadNodes
      | none =>
          if request.direct then { app with requests := app.requests.eraseIdx index }
          else { app with
            requests := app.requests.set index
              ⟨request.sub, (app.objects request.sub).url, true⟩ }

/-- The subscription at the position is removed when the question is answered with yes. Behind the
end of the list the question cannot be put together. -/
def deleteSubscription (app : App) (index : ℕ) (confirmed : Bool) : Except TypeError App :=
  match app.subscriptions[index]? with
  | none => .error .undefined
  | some _ =>
      if confirmed then
        let app := { app with toMemory := app.splice index }
        return app.saveLocalStorage.loadNodes
      else return app

/-- The button that saves a subscription, with the texts of the form. -/
def saveSub (app : App) (name url : String) (interval : ℤ) : App :=
  let name := ShareUri.jsTrim name
  let url := ShareUri.jsTrim url
  if name = "" ∨ url = "" then app
  else if !startsWith "http://" url && !startsWith "https://" url then app
  else
    let app := { app with toMemory := app.push ⟨⟨name, some []⟩, url, interval, ""⟩ }
    app.saveLocalStorage.updateSubscription (app.subscriptions.length - 1)

end App

/-- The digits of a number are plain. -/
theorem plain_repr (n : ℕ) : ∀ c ∈ n.repr.toList, c.isAlphanum ∨ c ∈ ['+', '-', '.'] := by
  intro c hc
  rw [Nat.toList_repr] at hc
  exact .inl (isAlphanum_of_mem_toDigits (by omega) (by omega) n hc)

/-- A port that is a natural number, with the text JavaScript prints for it. It counts as false when
it is zero. -/
def portNumber (n : ℕ) : JsNumber := ⟨n.repr, n != 0, plain_repr n⟩

namespace App

/-- The button that saves a node entered by hand, with the texts of the form. -/
def saveNode (app : App) (name type server port id : String) : App :=
  let name := ShareUri.jsTrim name
  let server := ShareUri.jsTrim server
  if name = "" then app
  else if server = "" then app
  else
    match ShareUri.parseInt port with
    | .int n =>
        if 1 ≤ n ∧ n ≤ 65535 then
          let node := ⟨name, type, server, portNumber n.toNat, id⟩
          let app := { app with toMemory := app.pushNode node }
          app.saveLocalStorage.loadNodes
        else app
    -- `NaN || 0`, and an infinity, is no port
    | _ => app

/-- The button that deletes a node. Only the rows of nodes entered by hand have one. -/
def deleteNode (app : App) (row : ℕ) : App :=
  match (app.nodeRows.getD [])[row]? with
  | none => app
  | some n =>
      if n.fromSub then app
      else
        let app := { app with toMemory := app.filterNodes n.id }
        app.saveLocalStorage.renderNodeList

end App

/-- What can happen next on the page: a view is opened, a form is saved, a button of a row is
pressed, or an update gets its answer. -/
inductive Event
  /-- The page is loaded anew. -/
  | load
  /-- The view of the nodes is opened. -/
  | navigate
  | saveSub (name url : String) (interval : ℤ)
  | saveNode (name type server port id : String)
  /-- The buttons of a row. -/
  | updateButton (row : ℕ)
  | deleteButton (row : ℕ) (confirmed : Bool)
  | deleteNode (row : ℕ)
  /-- One of the updates gets its answer. -/
  | reply (request : ℕ) (answer : Option (List StoredNode)) (now : String)

/-- One step. A row that is not there has no buttons. -/
def step (app : App) : Event → Except TypeError App
  | .load => return App.load app.localStorage
  | .navigate => return app.loadNodes
  | .saveSub name url interval => return app.saveSub name url interval
  | .saveNode name type server port id => return app.saveNode name type server port id
  | .updateButton row =>
      return if row < app.subRows.length then app.updateSubscription row else app
  | .deleteButton row confirmed =>
      if row < app.subRows.length then app.deleteSubscription row confirmed else return app
  | .deleteNode row => return app.deleteNode row
  | .reply request answer now => return app.receive request answer now

/-! ### Objects -/

/-- An object that is not in the list does not show in it. -/
theorem map_update_of_notMem {α : Type} {r : ℕ} {refs : List ℕ} (h : r ∉ refs)
    (objects : ℕ → α) (value : α) :
    refs.map (update objects r value) = refs.map objects :=
  List.map_congr_left fun s hs => update_of_ne (by rintro rfl; exact h hs) _ _

/-- An object in the list changes there, and only there. -/
theorem map_update_of_getElem? {α : Type} {r i : ℕ} {refs : List ℕ} (hnodup : refs.Nodup)
    (hi : refs[i]? = some r) (objects : ℕ → α) (value : α) :
    refs.map (update objects r value) = (refs.map objects).set i value := by
  obtain ⟨hlt, rfl⟩ := List.getElem?_eq_some_iff.mp hi
  refine List.ext_getElem (by simp) fun j hj _ => ?_
  have hj : j < refs.length := by rwa [List.length_map] at hj
  rw [List.getElem_map, List.getElem_set]
  rcases eq_or_ne i j with rfl | hne
  · rw [update_self, if_pos rfl]
  · rw [if_neg hne, List.getElem_map, update_of_ne]
    exact fun heq => hne ((hnodup.getElem_inj_iff.mp heq).symm)

/-! ### What changes -/

/-- What the form of a subscription demands. -/
structure Subscription.Entered (sub : Subscription) : Prop where
  name : sub.name ≠ ""
  scheme : startsWith "http://" sub.url ∨ startsWith "https://" sub.url

/-- What the form of a node demands. -/
structure EnteredNode (node : StoredNode) : Prop where
  name : node.name ≠ ""
  server : node.server ≠ ""
  port : ∃ n, 1 ≤ n ∧ n ≤ 65535 ∧ node.port = portNumber n

/-- What a step can do to the variables, loading the page apart. -/
inductive Change (memory : Memory) : Memory → Prop
  | none : Change memory memory
  | push (sub : Subscription) (hsub : sub.Entered) (hnodes : sub.nodes = some []) :
      Change memory (memory.push sub)
  | splice (index : ℕ) : Change memory (memory.splice index)
  | setNodes (r : ℕ) (nodes : List StoredNode) (now : String) :
      Change memory (memory.setNodes r nodes now)
  | pushNode (node : StoredNode) (hnode : EnteredNode node) : Change memory (memory.pushNode node)
  | filterNodes (id : String) : Change memory (memory.filterNodes id)

namespace Memory

/-- The references are to objects that exist, each to one of its own. -/
structure Sound (memory : Memory) : Prop where
  nodup : memory.subscriptions.Nodup
  allocated : ∀ r ∈ memory.subscriptions, r < memory.allocated

/-- The variables hold what the forms demand. -/
structure Entered (memory : Memory) : Prop where
  subscriptions : ∀ r ∈ memory.subscriptions, (memory.objects r).Entered
  manualNodes : ∀ node ∈ memory.manualNodes, EnteredNode node

variable {memory memory' : Memory}

/-- The next object that is allocated is not in the list yet. -/
theorem Sound.notMem (h : memory.Sound) : memory.allocated ∉ memory.subscriptions :=
  fun hmem => (h.allocated _ hmem).false

/-- A subscription that is added is a new object, so the objects of the list stay different. -/
theorem Sound.push (h : memory.Sound) (sub : Subscription) : (memory.push sub).Sound where
  nodup := by
    refine List.nodup_append.mpr ⟨h.nodup, List.nodup_singleton _, ?_⟩
    rintro r hr s hs rfl
    exact (h.allocated r hr).ne (List.mem_singleton.mp hs)
  allocated r hr := by
    rcases List.mem_append.mp hr with hr | hr
    · exact (h.allocated r hr).trans (Nat.lt_succ_self _)
    · rw [List.mem_singleton.mp hr]
      exact Nat.lt_succ_self _

/-- The object that is added is the one that was given. -/
theorem objects_push_self (memory : Memory) (sub : Subscription) :
    (memory.push sub).objects memory.allocated = sub := update_self _ _ _

/-- Adding an object leaves the earlier ones as they are. -/
theorem objects_push_of_lt {r : ℕ} (hr : r < memory.allocated) (sub : Subscription) :
    (memory.push sub).objects r = memory.objects r := update_of_ne hr.ne _ _

/-- The list after an addition is the list before it with the new subscription at its end. -/
theorem contents_push (h : memory.Sound) (sub : Subscription) :
    (memory.push sub).contents = memory.contents ++ [sub] := by
  have hold : memory.subscriptions.map (memory.push sub).objects = memory.contents :=
    map_update_of_notMem h.notMem _ _
  calc (memory.push sub).contents
      = (memory.subscriptions ++ [memory.allocated]).map (memory.push sub).objects := rfl
    _ = memory.contents ++ [sub] := by rw [List.map_append, List.map_singleton, hold,
        objects_push_self]

/-- The list after a removal is the list before it without the entry at the position. -/
theorem contents_splice (memory : Memory) (index : ℕ) :
    (memory.splice index).contents = memory.contents.eraseIdx index := by
  rw [contents, contents, List.eraseIdx_map]
  rfl

/-- A subscription without nodes does not show in the list of nodes. -/
theorem allNodes_push (h : memory.Sound) {sub : Subscription} (hsub : sub.nodes = some []) :
    allNodes (memory.push sub).store = allNodes memory.store := by
  simp only [allNodes, store, contents_push h, List.map_append, List.map_singleton,
    List.flatMap_append, List.flatMap_singleton, hsub, Option.getD_some, List.map_nil,
    List.append_nil]
  rfl

/-- An update leaves the name and the URL as they are. -/
theorem objects_setNodes (memory : Memory) (r : ℕ) (nodes : List StoredNode) (now : String)
    (s : ℕ) :
    ((memory.setNodes r nodes now).objects s).name = (memory.objects s).name ∧
      ((memory.setNodes r nodes now).objects s).url = (memory.objects s).url := by
  rcases eq_or_ne s r with rfl | hne
  · have hobject : (memory.setNodes s nodes now).objects s = (memory.objects s).updated nodes now :=
      update_self _ _ _
    rw [hobject]
    exact ⟨rfl, rfl⟩
  · have hobject : (memory.setNodes r nodes now).objects s = memory.objects s :=
      update_of_ne hne _ _
    rw [hobject]
    exact ⟨rfl, rfl⟩

/-- Whatever a step does to the lists, the objects in them stay different and allocated. -/
theorem Sound.change (h : memory.Sound) (hchange : Change memory memory') : memory'.Sound := by
  cases hchange with
  | none => exact h
  | push sub hsub hnodes => exact h.push sub
  | splice index =>
      exact ⟨h.nodup.sublist (List.eraseIdx_sublist _ _),
        fun r hr => h.allocated r (List.mem_of_mem_eraseIdx hr)⟩
  | setNodes r nodes now => exact ⟨h.nodup, h.allocated⟩
  | pushNode node hnode => exact ⟨h.nodup, h.allocated⟩
  | filterNodes id => exact ⟨h.nodup, h.allocated⟩

/-- Whatever a step does to the lists, what is in them satisfies what the forms demand. -/
theorem Entered.change (h : memory.Entered) (hsound : memory.Sound)
    (hchange : Change memory memory') : memory'.Entered := by
  cases hchange with
  | none => exact h
  | push sub hsub hnodes =>
      refine ⟨fun r hr => ?_, h.manualNodes⟩
      rcases List.mem_append.mp hr with hr | hr
      · rw [objects_push_of_lt (hsound.allocated r hr)]
        exact h.subscriptions r hr
      · rw [List.mem_singleton.mp hr, objects_push_self]
        exact hsub
  | splice index =>
      exact ⟨fun r hr => h.subscriptions r (List.mem_of_mem_eraseIdx hr), h.manualNodes⟩
  | setNodes s nodes now =>
      refine ⟨fun r hr => ?_, h.manualNodes⟩
      obtain ⟨hname, hurl⟩ := memory.objects_setNodes s nodes now r
      obtain ⟨hname', hscheme⟩ := h.subscriptions r hr
      exact ⟨hname ▸ hname', hurl ▸ hscheme⟩
  | pushNode node hnode =>
      refine ⟨h.subscriptions, fun n hn => ?_⟩
      rcases List.mem_append.mp hn with hn | hn
      · exact h.manualNodes n hn
      · rw [List.mem_singleton.mp hn]
        exact hnode
  | filterNodes id =>
      exact ⟨h.subscriptions, fun n hn => h.manualNodes n (List.mem_of_mem_filter hn)⟩

end Memory

section

variable {memory memory' : Memory}

/-- An object that exists keeps its URL. -/
theorem Change.url_eq (hchange : Change memory memory') {r : ℕ} (hr : r < memory.allocated) :
    r < memory'.allocated ∧ (memory'.objects r).url = (memory.objects r).url := by
  cases hchange with
  | none => exact ⟨hr, rfl⟩
  | push sub hsub hnodes =>
      exact ⟨hr.trans (Nat.lt_succ_self _), by rw [Memory.objects_push_of_lt hr]⟩
  | splice index => exact ⟨hr, rfl⟩
  | setNodes s nodes now => exact ⟨hr, (memory.objects_setNodes s nodes now r).2⟩
  | pushNode node hnode => exact ⟨hr, rfl⟩
  | filterNodes id => exact ⟨hr, rfl⟩

/-- A reference that is no longer in the list does not come back. -/
theorem Change.notMem (hchange : Change memory memory') {r : ℕ} (hr : r < memory.allocated)
    (hnot : r ∉ memory.subscriptions) : r ∉ memory'.subscriptions := by
  cases hchange with
  | none => exact hnot
  | push sub hsub hnodes =>
      intro hmem
      rcases List.mem_append.mp hmem with hmem | hmem
      · exact hnot hmem
      · exact hr.ne (List.mem_singleton.mp hmem)
  | splice index => exact fun hmem => hnot (List.mem_of_mem_eraseIdx hmem)
  | setNodes s nodes now => exact hnot
  | pushNode node hnode => exact hnot
  | filterNodes id => exact hnot

end

namespace App

variable {app : App}

/-- Asking for an update sends a request and leaves the lists alone. -/
theorem updateSubscription_toMemory (app : App) (index : ℕ) :
    (app.updateSubscription index).toMemory = app.toMemory := by
  unfold updateSubscription
  split
  · rfl
  · rfl

/-- Saving the form of a subscription adds one subscription or does nothing. -/
theorem change_saveSub (app : App) (name url : String) (interval : ℤ) :
    Change app.toMemory (app.saveSub name url interval).toMemory := by
  simp only [saveSub]
  split_ifs with hempty hscheme
  · exact .none
  · exact .none
  · rw [updateSubscription_toMemory]
    refine .push _ ⟨(not_or.mp hempty).1, ?_⟩ rfl
    simpa [or_iff_not_imp_left] using hscheme

/-- Saving the form of a node adds one manual node or does nothing. -/
theorem change_saveNode (app : App) (name type server port id : String) :
    Change app.toMemory (app.saveNode name type server port id).toMemory := by
  simp only [saveNode]
  split_ifs with hname hserver
  · exact .none
  · exact .none
  · split
    · rename_i n _
      split_ifs with hport
      · exact .pushNode _ ⟨hname, hserver, n.toNat, by omega, by omega, rfl⟩
      · exact .none
    · exact .none

/-- Deleting a node removes one manual node or does nothing. -/
theorem change_deleteNode (app : App) (row : ℕ) :
    Change app.toMemory (app.deleteNode row).toMemory := by
  unfold deleteNode
  split
  · exact .none
  · split_ifs
    · exact .none
    · exact .filterNodes _

/-- An answer changes the object that it was asked for, or nothing when it has failed. -/
theorem change_receive (app : App) (index : ℕ) (answer : Option (List StoredNode))
    (now : String) : Change app.toMemory (app.receive index answer now).toMemory := by
  unfold receive
  split
  · exact .none
  · split
    · exact .setNodes _ _ _
    · split_ifs
      · exact .none
      · exact .none

/-- Deleting a subscription removes one from the list or does nothing. -/
theorem change_deleteSubscription {app app' : App} {index : ℕ} {confirmed : Bool}
    (h : app.deleteSubscription index confirmed = .ok app') :
    Change app.toMemory app'.toMemory := by
  unfold deleteSubscription at h
  split at h
  · cases h
  · cases confirmed with
    | true =>
        obtain rfl := Except.ok.inj h
        exact .splice index
    | false =>
        obtain rfl := Except.ok.inj h
        exact .none

end App

/-- What a step does to the variables. -/
theorem change_step {app app' : App} {event : Event} (hload : event ≠ .load)
    (h : step app event = .ok app') : Change app.toMemory app'.toMemory := by
  cases event with
  | load => exact absurd rfl hload
  | navigate =>
      obtain rfl := Except.ok.inj h
      exact .none
  | saveSub name url interval =>
      obtain rfl := Except.ok.inj h
      exact app.change_saveSub name url interval
  | saveNode name type server port id =>
      obtain rfl := Except.ok.inj h
      exact app.change_saveNode name type server port id
  | updateButton row =>
      obtain rfl := Except.ok.inj h
      split_ifs
      · exact app.updateSubscription_toMemory row ▸ .none
      · exact .none
  | deleteButton row confirmed =>
      simp only [step] at h
      split_ifs at h
      · exact App.change_deleteSubscription h
      · obtain rfl := Except.ok.inj h
        exact .none
  | deleteNode row =>
      obtain rfl := Except.ok.inj h
      exact app.change_deleteNode row
  | reply request answer now =>
      obtain rfl := Except.ok.inj h
      exact app.change_receive request answer now

/-! ### What every step keeps -/

namespace App

/-- What is stored is what the page holds, and what is shown is up to date. -/
structure Consistent (app : App) : Prop where
  sound : app.Sound
  requested : ∀ request ∈ app.requests,
    request.sub < app.allocated ∧ request.url = (app.objects request.sub).url
  stored : loadLocalStorage app.localStorage = (app.contents, app.manualNodes)
  /-- A subscription that has just been added may have no row yet. -/
  subRows : app.subRows <+: app.contents
  nodeRows : ∀ rows ∈ app.nodeRows, rows = allNodes app.store

variable {app : App}

/-- After loading, the list has what was stored. -/
theorem contents_load (storage : Storage) :
    (load storage).contents = (loadLocalStorage storage).1 := by
  refine List.ext_getElem (by simp [Memory.contents, load]) fun i hi hi' => ?_
  simp [Memory.contents, load, hi']

/-- After loading, rows and storage agree with the lists: nothing has been rendered yet. -/
theorem consistent_load (storage : Storage) : (load storage).Consistent where
  sound := ⟨List.nodup_range, fun _ => List.mem_range.mp⟩
  requested _ h := by cases h
  stored := by
    rw [contents_load]
    rfl
  subRows := List.nil_prefix
  nodeRows _ h := by cases h

/-- Rendering both lists makes the rows agree with them. -/
theorem Consistent.loadNodes (h : app.Consistent) : app.loadNodes.Consistent where
  sound := h.sound
  requested := h.requested
  stored := h.stored
  subRows := List.prefix_refl _
  nodeRows _ hrows := (Option.some.inj hrows).symm

/-- Whatever changes in memory, each update that is waited for still belongs to an object that is
there, and has its address. -/
theorem Consistent.requested_change (h : app.Consistent) {memory : Memory}
    (hchange : Change app.toMemory memory) {requests : List Request}
    (hrequests : requests ⊆ app.requests) : ∀ request ∈ requests,
      request.sub < memory.allocated ∧ request.url = (memory.objects request.sub).url := by
  intro request hrequest
  obtain ⟨hlt, hurl⟩ := h.requested request (hrequests hrequest)
  obtain ⟨hlt', hurl'⟩ := hchange.url_eq hlt
  exact ⟨hlt', hurl.trans hurl'.symm⟩

/-- Saving and rendering makes up for any change. -/
theorem Consistent.saveAndLoad (h : app.Consistent) {memory : Memory}
    (hchange : Change app.toMemory memory) {requests : List Request}
    (hrequests : requests ⊆ app.requests) :
    ({ app with toMemory := memory, requests := requests } :
      App).saveLocalStorage.loadNodes.Consistent where
  sound := h.sound.change hchange
  requested := h.requested_change hchange hrequests
  stored := rfl
  subRows := List.prefix_refl _
  nodeRows _ hrows := (Option.some.inj hrows).symm

/-- Asking for an update keeps rows and storage in agreement with the lists. -/
theorem Consistent.updateSubscription (h : app.Consistent) (index : ℕ) :
    (app.updateSubscription index).Consistent := by
  unfold App.updateSubscription
  split
  · exact h
  · rename_i r hr
    have hrequested : ∀ request ∈ app.requests ++ [⟨r, (app.objects r).url, false⟩],
        request.sub < app.allocated ∧ request.url = (app.objects request.sub).url := by
      rw [List.forall_mem_append, List.forall_mem_singleton]
      exact ⟨h.requested, h.sound.allocated r (List.mem_of_getElem? hr), rfl⟩
    exact ⟨h.sound, hrequested, h.stored, h.subRows, h.nodeRows⟩

/-- A new subscription needs no rendering: it comes last, and has no nodes. -/
theorem Consistent.push (h : app.Consistent) {sub : Subscription} (hsub : sub.Entered)
    (hnodes : sub.nodes = some []) :
    ({ app with toMemory := app.push sub } : App).saveLocalStorage.Consistent where
  sound := h.sound.push sub
  requested := h.requested_change (.push sub hsub hnodes) (List.Subset.refl _)
  stored := rfl
  subRows := by
    show app.subRows <+: (app.push sub).contents
    rw [Memory.contents_push h.sound]
    exact h.subRows.trans (List.prefix_append _ _)
  nodeRows rows hrows := by
    show rows = allNodes (app.push sub).store
    rw [Memory.allNodes_push h.sound hnodes]
    exact h.nodeRows rows hrows

/-- So does saving the form of a subscription. -/
theorem Consistent.saveSub (h : app.Consistent) (name url : String) (interval : ℤ) :
    (app.saveSub name url interval).Consistent := by
  simp only [App.saveSub]
  split_ifs with hempty hscheme
  · exact h
  · exact h
  · refine (h.push ⟨(not_or.mp hempty).1, ?_⟩ rfl).updateSubscription _
    simpa [or_iff_not_imp_left] using hscheme

/-- So does saving the form of a node. -/
theorem Consistent.saveNode (h : app.Consistent) (name type server port id : String) :
    (app.saveNode name type server port id).Consistent := by
  have hchange := app.change_saveNode name type server port id
  simp only [App.saveNode] at hchange ⊢
  split_ifs at hchange ⊢
  · exact h
  · exact h
  · split at hchange
    · split_ifs at hchange ⊢
      · exact h.saveAndLoad hchange (List.Subset.refl _)
      · exact h
    · exact h

/-- Deleting a node keeps the page consistent, as what is left is stored and rendered right
after. -/
theorem Consistent.deleteNode (h : app.Consistent) (row : ℕ) : (app.deleteNode row).Consistent := by
  unfold App.deleteNode
  split
  · exact h
  · split_ifs
    · exact h
    · exact ⟨⟨h.sound.nodup, h.sound.allocated⟩, h.requested, rfl, h.subRows,
        fun _ hrows => (Option.some.inj hrows).symm⟩

/-- So does an answer, also one that arrives after its subscription has been deleted. -/
theorem Consistent.receive (h : app.Consistent) (index : ℕ) (answer : Option (List StoredNode))
    (now : String) : (app.receive index answer now).Consistent := by
  unfold App.receive
  split
  · exact h
  · rename_i request hrequest
    obtain ⟨hlt, -⟩ := h.requested request (List.mem_of_getElem? hrequest)
    split
    · exact h.saveAndLoad (.setNodes _ _ _) (List.eraseIdx_subset)
    · split_ifs
      · exact ⟨h.sound, h.requested_change .none (List.eraseIdx_subset), h.stored, h.subRows,
          h.nodeRows⟩
      · refine ⟨h.sound, fun other hother => ?_, h.stored, h.subRows, h.nodeRows⟩
        rcases List.mem_or_eq_of_mem_set hother with hother | rfl
        · exact h.requested other hother
        · exact ⟨hlt, rfl⟩

/-- A row is that of the subscription at its position. -/
theorem Consistent.lt_length (h : app.Consistent) {row : ℕ} (hrow : row < app.subRows.length) :
    row < app.subscriptions.length := by
  have hlength := hrow.trans_le h.subRows.length_le
  rwa [Memory.contents, List.length_map] at hlength

/-- The delete button of a row that is there. -/
theorem Consistent.deleteButton (h : app.Consistent) {row : ℕ} (hrow : row < app.subRows.length) :
    NodeStore.step app (.deleteButton row true) =
      .ok ({ app with toMemory := app.splice row } : App).saveLocalStorage.loadNodes := by
  simp only [NodeStore.step, if_pos hrow, App.deleteSubscription,
    List.getElem?_eq_getElem (h.lt_length hrow)]
  rfl

/-- No step throws, and every step keeps what is stored and shown consistent. -/
theorem Consistent.step (h : app.Consistent) (event : Event) :
    ∃ app', NodeStore.step app event = .ok app' ∧ app'.Consistent := by
  cases event with
  | load => exact ⟨_, rfl, consistent_load _⟩
  | navigate => exact ⟨_, rfl, h.loadNodes⟩
  | saveSub name url interval => exact ⟨_, rfl, h.saveSub name url interval⟩
  | saveNode name type server port id => exact ⟨_, rfl, h.saveNode name type server port id⟩
  | updateButton row =>
      refine ⟨_, rfl, ?_⟩
      split_ifs
      · exact h.updateSubscription row
      · exact h
  | deleteButton row confirmed =>
      by_cases hrow : row < app.subRows.length
      · cases confirmed with
        | true =>
            exact ⟨_, h.deleteButton hrow, h.saveAndLoad (.splice row) (List.Subset.refl _)⟩
        | false =>
            refine ⟨app, ?_, h⟩
            simp only [NodeStore.step, if_pos hrow, App.deleteSubscription,
              List.getElem?_eq_getElem (h.lt_length hrow)]
            rfl
      · exact ⟨app, by rw [NodeStore.step, if_neg hrow]; rfl, h⟩
  | deleteNode row => exact ⟨_, rfl, h.deleteNode row⟩
  | reply request answer now => exact ⟨_, rfl, h.receive request answer now⟩

end App

/-- Every step keeps rows and storage in agreement with the lists. -/
theorem consistent_step {app app' : App} {event : Event} (h : app.Consistent)
    (hstep : step app event = .ok app') : app'.Consistent := by
  obtain ⟨t, ht, hconsistent⟩ := h.step event
  obtain rfl := Except.ok.inj (ht.symm.trans hstep)
  exact hconsistent

/-- After any run, rows and storage agree with the lists. -/
theorem consistent_exec {storage : Storage} {events : List Event} {app : App}
    (h : exec step (App.load storage) events = .ok app) : app.Consistent :=
  exec_keeps (fun _ _ _ _ => consistent_step) (App.consistent_load storage) h

/-- A subscription, as it has been entered. -/
def home : Subscription := ⟨⟨"home", some []⟩, "http://home/", 24, ""⟩

/-- The page after it has been entered. -/
def withHome : App :=
  ((App.load ⟨some [], some []⟩).saveSub " home" "http://home/" 24).loadNodes

/-- A run that adds one subscription, with whitespace around its name, and shows the lists. -/
theorem exec_withHome :
    exec step (App.load ⟨some [], some []⟩) [.saveSub " home" "http://home/" 24, .navigate] =
      .ok withHome := rfl

/-! ### Buttons -/

/-- An answer that brings nodes changes the object it was asked for. -/
theorem App.contents_receive {app : App} {index : ℕ} {request : Request}
    (h : app.requests[index]? = some request) (nodes : List StoredNode) (now : String) :
    (app.receive index (some nodes) now).contents = app.subscriptions.map
      (update app.objects request.sub ((app.objects request.sub).updated nodes now)) := by
  rw [App.receive, h]
  rfl

/-- The answer for a subscription is stored in that subscription, wherever it is in the list by
then, and the answer for one that is not in the list any more is dropped. -/
theorem reply_spec {storage : Storage} {events : List Event} {app : App}
    (h : exec step (App.load storage) events = .ok app) {index : ℕ} {request : Request}
    (hrequest : app.requests[index]? = some request) (nodes : List StoredNode) (now : String) :
    ∃ app', step app (.reply index (some nodes) now) = .ok app' ∧
      (request.sub ∉ app.subscriptions → app'.contents = app.contents) ∧
      ∀ i, app.subscriptions[i]? = some request.sub →
        ∃ sub, app.contents[i]? = some sub ∧ sub.url = request.url ∧
          app'.contents = app.contents.set i (sub.updated nodes now) := by
  have hconsistent := consistent_exec h
  obtain ⟨-, hurl⟩ := hconsistent.requested request (List.mem_of_getElem? hrequest)
  have hcontents := App.contents_receive hrequest nodes now
  refine ⟨app.receive index (some nodes) now, rfl, fun hnot => ?_, fun i hi => ?_⟩
  · rw [hcontents, map_update_of_notMem hnot]
    rfl
  · refine ⟨app.objects request.sub, ?_, hurl.symm, ?_⟩
    · rw [Memory.contents, List.getElem?_map, hi, Option.map_some]
    · rw [hcontents, map_update_of_getElem? hconsistent.sound.nodup hi]
      rfl

/-- An answer without nodes, for the only subscription of the page. -/
theorem reply_spec_home :
    ∃ app', step withHome (.reply 0 (some []) "noon") = .ok app' ∧
      (0 ∉ withHome.subscriptions → app'.contents = withHome.contents) ∧
      ∀ i, withHome.subscriptions[i]? = some 0 →
        ∃ sub, withHome.contents[i]? = some sub ∧ sub.url = "http://home/" ∧
          app'.contents = withHome.contents.set i (sub.updated [] "noon") := by
  have hrequest : withHome.requests[0]? = some ⟨0, "http://home/", false⟩ := rfl
  exact reply_spec exec_withHome hrequest [] "noon"

/-! ### Deleted subscriptions -/

/-- The object exists, but is not in the list. -/
def App.Deleted (r : ℕ) (app : App) : Prop :=
  r < app.allocated ∧ r ∉ app.subscriptions

/-- A step that does not load the page anew keeps a deleted subscription deleted. -/
theorem deleted_step {r : ℕ} {app app' : App} {event : Event} (hload : event ≠ .load)
    (h : app.Deleted r) (hstep : step app event = .ok app') : app'.Deleted r :=
  have hchange := change_step hload hstep
  ⟨(hchange.url_eq h.1).1, hchange.notMem h.1 h.2⟩

/-- As long as the page is not loaded anew, a subscription that has been deleted does not come
back, and an update of it that is still under way changes nothing that is kept. -/
theorem exec_deleted {storage : Storage} {before after : List Event} {app app' : App}
    (hbefore : exec step (App.load storage) before = .ok app) {row r : ℕ}
    (hrow : row < app.subRows.length) (hr : app.subscriptions[row]? = some r)
    (hload : ∀ event ∈ after, event ≠ .load)
    (hafter : exec step app (.deleteButton row true :: after) = .ok app') :
    r ∉ app'.subscriptions ∧
    ∀ (index : ℕ) (request : Request), app'.requests[index]? = some request → request.sub = r →
      ∀ nodes now, (app'.receive index (some nodes) now).contents = app'.contents := by
  have hconsistent := consistent_exec hbefore
  obtain ⟨erased, herased, hafter⟩ := exec_cons_eq_ok_iff.mp hafter
  have hnot : r ∉ app.subscriptions.eraseIdx row := by
    obtain ⟨hlt, rfl⟩ := List.getElem?_eq_some_iff.mp hr
    rw [← hconsistent.sound.nodup.erase_getElem row hlt]
    exact hconsistent.sound.nodup.not_mem_erase
  have hlt : r < app.allocated := hconsistent.sound.allocated r (List.mem_of_getElem? hr)
  have hstart : erased.Deleted r := by
    obtain rfl := Except.ok.inj ((hconsistent.deleteButton hrow).symm.trans herased)
    exact ⟨hlt, hnot⟩
  have hdeleted : app'.Deleted r :=
    exec_keeps (fun event hevent _ _ => deleted_step (hload event hevent)) hstart hafter
  refine ⟨hdeleted.2, ?_⟩
  rintro index request hrequest rfl nodes now
  rw [App.contents_receive hrequest, map_update_of_notMem hdeleted.2]
  rfl

/-- The only subscription of the page is deleted, and stays so when the view is opened again. -/
theorem exec_deleted_home :
    ∃ app', exec step withHome [.deleteButton 0 true, .navigate] = .ok app' ∧
      0 ∉ app'.subscriptions := by
  have hload : ∀ event ∈ [Event.navigate], event ≠ .load := by
    intro event hevent
    rw [List.mem_singleton.mp hevent]
    intro h
    cases h
  have hrow : 0 < withHome.subRows.length := Nat.zero_lt_one
  exact ⟨_, rfl, (exec_deleted exec_withHome hrow rfl hload rfl).1⟩

/-! ### What the forms demand -/

/-- What has been entered stays valid, also when it has been stored and loaded. -/
theorem exec_entered {storage : Storage} {events : List Event} {app : App}
    (hsubscriptions : ∀ sub ∈ (loadLocalStorage storage).1, sub.Entered)
    (hmanual : ∀ node ∈ (loadLocalStorage storage).2, EnteredNode node)
    (h : exec step (App.load storage) events = .ok app) :
    (∀ sub ∈ app.contents, sub.Entered) ∧ ∀ node ∈ app.manualNodes, EnteredNode node := by
  have hloaded : ∀ s : Storage, (∀ sub ∈ (loadLocalStorage s).1, sub.Entered) →
      (∀ node ∈ (loadLocalStorage s).2, EnteredNode node) → (App.load s).Entered := by
    intro s hsubs hnodes
    rw [← App.contents_load, Memory.contents, List.forall_mem_map] at hsubs
    exact ⟨hsubs, hnodes⟩
  have hstep : ∀ (event : Event) (s s' : App), s.Consistent ∧ s.Entered →
      step s event = .ok s' → s'.Consistent ∧ s'.Entered := by
    rintro event s s' ⟨hconsistent, hentered⟩ hstep
    refine ⟨consistent_step hconsistent hstep, ?_⟩
    by_cases hload : event = .load
    · subst hload
      obtain rfl := Except.ok.inj hstep
      refine hloaded _ ?_ ?_
      · rw [hconsistent.stored]
        exact List.forall_mem_map.mpr hentered.subscriptions
      · rw [hconsistent.stored]
        exact hentered.manualNodes
    · exact hentered.change hconsistent.sound (change_step hload hstep)
  have hkept := exec_keeps (fun event _ => hstep event)
    ⟨App.consistent_load storage, hloaded storage hsubscriptions hmanual⟩ h
  exact ⟨List.forall_mem_map.mpr hkept.2.subscriptions, hkept.2.manualNodes⟩

/-- A page with one valid subscription in its storage. -/
theorem exec_entered_home :
    (∀ sub ∈ (App.load ⟨some [home], some []⟩).loadNodes.contents, sub.Entered) ∧
      ∀ node ∈ (App.load ⟨some [home], some []⟩).loadNodes.manualNodes, EnteredNode node := by
  have hexec : exec step (App.load ⟨some [home], some []⟩) [.navigate] =
      .ok (App.load ⟨some [home], some []⟩).loadNodes := rfl
  refine exec_entered ?_ ?_ hexec
  · intro sub hsub
    obtain rfl := List.mem_singleton.mp hsub
    exact ⟨by decide, .inl rfl⟩
  · intro node hnode
    cases hnode

end Redog.NodeStore
