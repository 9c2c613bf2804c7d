import Mathlib.Data.List.Nodup
import Mathlib.Logic.Function.Basic
import Redog.ShellWords
import Redog.Text

/-!
# The system proxy of the desktop application

Turning the system proxy on or off is a sequence of external commands: `networksetup` on macOS,
`reg` on Windows. Each changes one setting of the system when it succeeds. On macOS the commands
are first run as they are. If one of them asks for administrator privileges, all of them are run
again by one shell script that `osascript` executes with these privileges, so the arguments pass
through a string literal of AppleScript and through the words of the shell.

The outcomes of the external commands are given. What the elevated script does is read off the
text that is handed to `osascript`.

## Main results

* `osascriptCommands_applescript`: the script runs the commands it was built from.
* `setSystemProxy_spec`: what a call leaves of the settings, whatever fails.
-/

namespace Redog.SystemProxy

open Rust

/-- The host of the proxy that the settings of the system are pointed at. -/
def proxyHost : String := "127.0.0.1"

/-- The port of the proxy, which the mixed listener of the daemon is on unless it is configured
otherwise. -/
def proxyPort : UInt16 := 7890

/-! ### External commands -/

/-- The settings of the system: for the words that name a setting, its value. -/
abbrev Settings := List String → List String

/-- The setting a command changes and the value it gives it. The first words name the setting:
`networksetup`, an option and a service, or `reg add`, a key and the name of a value. -/
def assignment (command : List String) : List String × List String :=
  command.splitAt (if command.head? = some "reg" then 5 else 3)

/-- The settings after a change: the setting it names has its new value, the others keep theirs. -/
def assign (settings : Settings) (change : List String × List String) : Settings :=
  Function.update settings change.1 change.2

/-- After a change the setting has the value that the change gives it. -/
@[simp] theorem assign_self (settings : Settings) (change : List String × List String) :
    assign settings change change.1 = change.2 := by
  rw [assign, Function.update_self]

/-- A change of one setting leaves every other setting as it was. -/
theorem assign_of_ne (settings : Settings) {change : List String × List String}
    {key : List String} (h : key ≠ change.1) : assign settings change key = settings key := by
  rw [assign, Function.update_of_ne h]

/-- What `Command::output` returns: the program was not started at all, ended well, or ended with a
code. -/
inductive Exit
  /-- The program cannot be started, with the text of the error. -/
  | notStarted (error : String)
  | success
  /-- The exit code, `none` after a signal, and what was written. -/
  | failed (code : Option ℤ) (stdout stderr : String)

/-- What becomes of a script that asks for administrator privileges. -/
inductive Elevation
  | notStarted (error : String)
  /-- The user does not grant them. -/
  | refused (stderr : String)
  /-- They are granted; `ok i` says whether the command number `i` succeeds. -/
  | granted (ok : ℕ → Bool) (stderr : String)

/-- The outcomes of the external commands of a call. -/
structure Outcomes where
  /-- The output of `route -n get default`. -/
  route : Except String String
  /-- The output of `networksetup -listallhardwareports`. -/
  hardwarePorts : Except String String
  /-- The commands of a batch, in the order they are run. -/
  networksetup : ℕ → Exit
  osascript : Elevation
  /-- The `reg` commands, in the order they are run. -/
  reg : ℕ → Exit

/-- Code that fails with a text. What it has done to the settings stays when it fails. -/
abbrev Sys := EStateM String Settings

/-- A result without effects, as a step that touches no settings: its error is the error of the
step. -/
def liftExcept {α : Type} : Except String α → Sys α
  | .ok a => return a
  | .error e => throw e

/-! ### The script of `run_networksetup_batch` -/

/-- An argument between single quotes; one inside it ends the quotes, is escaped, and opens them
again. -/
def quoteArg (arg : String) : String :=
  "'" ++ replace '\'' "'\\''" arg ++ "'"

/-- A call of `networksetup` as a line for the shell, each of its arguments in quotes. -/
def shellLine (args : List String) : String :=
  "networksetup " ++ " ".intercalate (args.map quoteArg)

/-- The calls as one line for the shell, each one run only when those before it have succeeded. -/
def shellScript (commands : List (List String)) : String :=
  " && ".intercalate (commands.map shellLine)

/-- The text for `osascript`: the shell script as a literal, with backslashes and double quotes
escaped. -/
def applescript (commands : List (List String)) : String :=
  "do shell script \"" ++ replace '"' "\\\"" (replace '\\' "\\\\" (shellScript commands)) ++
    "\" with administrator privileges"

/-- What may follow the literal of the script. -/
def privileges : List Char := " with administrator privileges".toList

/-- The shell script that `osascript` runs for a text: what the literal behind `do shell script`
stands for. -/
def osascriptScript (text : String) : Option (List Char) :=
  (stripPrefix "do shell script \"" text).bind fun rest =>
    match AppleScript.readLiteral false rest.toList with
    | some (script, rest) => if rest = privileges then some script else none
    | none => none

/-- The commands of this script: what AppleScript hands to the shell, and how the shell splits it
into words. -/
def osascriptCommands (text : String) : Option (List (List String)) := do
  let script ← osascriptScript text
  let commands ← Shell.readCommands script
  return commands.map fun words => words.map .ofList

/-- The code quotes an argument as the grammar of shell words does. -/
theorem toList_quoteArg (arg : String) : (quoteArg arg).toList = Shell.quote arg.toList := by
  rw [quoteArg, String.toList_append, String.toList_append, toList_replace]
  rfl

/-- A line for the shell is the command `networksetup` with the arguments as quoted words. -/
theorem toList_shellLine (args : List String) :
    (shellLine args).toList =
      Shell.command "networksetup".toList (args.map String.toList) := by
  have hquote : String.toList ∘ quoteArg = Shell.quote ∘ String.toList := funext toList_quoteArg
  rw [shellLine, String.toList_append, String.toList_intercalate, List.map_map, hquote,
    Shell.command, List.map_map]
  rfl

/-- The whole text is the script of these commands in the grammar of the shell. -/
theorem toList_shellScript (commands : List (List String)) :
    (shellScript commands).toList =
      Shell.script ((commands.map (List.map String.toList)).map
        (Shell.command "networksetup".toList)) := by
  have hline : String.toList ∘ shellLine =
      Shell.command "networksetup".toList ∘ List.map String.toList := funext toList_shellLine
  rw [shellScript, String.toList_intercalate, List.map_map, hline, Shell.script, List.map_map]
  rfl

/-- The two replacements escape the characters that are special in a literal, each once. -/
theorem toList_escape (s : String) :
    (replace '"' "\\\"" (replace '\\' "\\\\" s)).toList =
      s.toList.flatMap AppleScript.escapeChar := by
  rw [toList_replace, toList_replace, List.flatMap_assoc]
  refine List.flatMap_congr fun c _ => ?_
  rw [AppleScript.escapeChar]
  by_cases hbackslash : c = '\\'
  · subst hbackslash
    rfl
  by_cases hquote : c = '"'
  · subst hquote
    rfl
  rw [if_neg hbackslash, if_neg (not_or.mpr ⟨hquote, hbackslash⟩), List.flatMap_singleton,
    if_neg hquote]

/-- The shell reads the commands back from the script word for word, whatever the arguments
contain. -/
theorem readCommands_shellScript {commands : List (List String)} (h : commands ≠ []) :
    Shell.readCommands (shellScript commands).toList =
      some ((commands.map (List.map String.toList)).map ("networksetup".toList :: ·)) := by
  have hname : ∀ c ∈ "networksetup".toList, Shell.isPlain c := by
    simp [Shell.isPlain]
  rw [toList_shellScript]
  refine Shell.readCommands_script ?_ hname (mt List.map_eq_nil_iff.mp h)
  exact List.cons_ne_nil _ _

/-- The text given to `osascript` stands for the script. -/
theorem osascriptScript_applescript (commands : List (List String)) :
    osascriptScript (applescript commands) = some (shellScript commands).toList := by
  set escaped := replace '"' "\\\"" (replace '\\' "\\\\" (shellScript commands)) with hescaped
  have htext : applescript commands =
      "do shell script \"" ++ (escaped ++ "\" with administrator privileges") :=
    String.append_assoc
  have htail : "\" with administrator privileges".toList = '"' :: privileges := rfl
  have hliteral : AppleScript.readLiteral false
      (escaped ++ "\" with administrator privileges").toList =
      some ((shellScript commands).toList, privileges) := by
    rw [String.toList_append, hescaped, toList_escape, htail, AppleScript.readLiteral_escape]
  rw [osascriptScript, htext, stripPrefix_append, Option.bind_some, hliteral]
  exact if_pos rfl

/-- What `osascript` runs for a batch of commands is that batch, each behind `networksetup`. -/
theorem osascriptCommands_of_ne_nil {commands : List (List String)} (h : commands ≠ []) :
    osascriptCommands (applescript commands) = some (commands.map ("networksetup" :: ·)) := by
  have hwords : ∀ args : List String,
      ("networksetup".toList :: args.map String.toList).map String.ofList =
        "networksetup" :: args := by
    intro args
    simp
  rw [osascriptCommands, osascriptScript_applescript]
  simp only [Option.bind_eq_bind, Option.bind_some, readCommands_shellScript h]
  rw [List.map_map, List.map_map]
  exact congrArg some (List.map_congr_left fun args _ => hwords args)

/-- **Elevated commands are quoted faithfully.** Whatever the arguments are, the literal given
to `osascript` stands for the script, and the words of the script are the commands, one after
the other, with exactly these arguments. -/
theorem osascriptCommands_applescript (commands : List (List String)) (h : commands ≠ []) :
    osascriptScript (applescript commands) = some (shellScript commands).toList ∧
      osascriptCommands (applescript commands) = some (commands.map ("networksetup" :: ·)) :=
  ⟨osascriptScript_applescript commands, osascriptCommands_of_ne_nil h⟩

/-- A service whose name tries to end the quotes, the literal and the command. -/
theorem osascriptCommands_applescript_quotes :
    [["-setwebproxystate", "'; \"\\ && rm '", "on"]] ≠ [] ∧
      osascriptCommands (applescript [["-setwebproxystate", "'; \"\\ && rm '", "on"]]) =
        some [["networksetup", "-setwebproxystate", "'; \"\\ && rm '", "on"]] :=
  ⟨List.cons_ne_nil _ _, (osascriptCommands_applescript _ (List.cons_ne_nil _ _)).2⟩

/-! ### Running a batch on macOS -/

/-- The error for a command that fails for another reason. -/
def failureText (args : List String) (code : Option ℤ) (stdout stderr : String) : String :=
  let detail := if (trim stderr).isEmpty then stdout else stderr
  "networksetup " ++ args.head?.getD "" ++ " 失败 (exit " ++ toString (code.getD (-1)) ++ "): " ++
    trim detail

/-- The first pass over the commands: whether elevation is needed, or an error. `exits i` is the
outcome of the command number `i` of those left. -/
def tryCommands (exits : ℕ → Exit) : List (List String) → Sys Bool
  | [] => return false
  | args :: rest =>
      match exits 0 with
      | .notStarted e => throw ("networksetup 启动失败: " ++ e)
      | .success => do
          modify fun settings => assign settings (assignment ("networksetup" :: args))
          tryCommands (fun i => exits (i + 1)) rest
      | .failed code stdout stderr =>
          if contains "admin privileges" stderr || code == some 14 then return true
          else throw (failureText args code stdout stderr)

/-- The commands of the elevated script, up to the first one that fails: whether all of them
succeed. -/
def runScript (ok : ℕ → Bool) : List (List String) → Sys Bool
  | [] => return true
  | command :: rest =>
      if ok 0 then do
        modify fun settings => assign settings (assignment command)
        runScript (fun i => ok (i + 1)) rest
      else return false

/-- The error for what `osascript` writes when it fails. -/
def elevationError (stderr : String) : String :=
  if contains "User canceled" stderr || contains "-128" stderr then "用户取消了授权"
  else "提权执行失败: " ++ trim stderr

/-- The elevated part of `run_networksetup_batch`: the script is run when the privileges are
granted, and it stops at its first failure. -/
def runOsascript (elevation : Elevation) (text : String) : Sys Unit :=
  match elevation with
  | .notStarted e => throw ("osascript 启动失败: " ++ e)
  | .refused stderr => throw (elevationError stderr)
  | .granted ok stderr =>
      match osascriptCommands text with
      -- a text that is no script fails before it runs a command
      | none => throw (elevationError stderr)
      | some commands => do
          if ← runScript ok commands then return () else throw (elevationError stderr)

/-- `run_networksetup_batch`: the commands are tried plainly first, and all of them again with
privileges when one asks for them. -/
def runNetworksetupBatch (outcomes : Outcomes) (commands : List (List String)) : Sys Unit := do
  if ← tryCommands outcomes.networksetup commands then
    runOsascript outcomes.osascript (applescript commands)

/-- The loop of `active_network_service`, with the service whose lines are being read. -/
def findService (iface : String) : String → List String → Option String
  | _, [] => none
  | current, line :: rest =>
      let current := (stripPrefix "Hardware Port: " line).getD current
      match stripPrefix "Device: " line with
      | some dev => if trim dev = iface then some current else findService iface current rest
      | none => findService iface current rest

/-- `active_network_service`: the service of the interface of the default route, or Wi-Fi when there
is none. -/
def activeNetworkService (outcomes : Outcomes) : Except String String := do
  let route ← outcomes.route.mapError ("route 命令失败: " ++ ·)
  let iface := ((lines route).find? (contains "interface:")).bind fun line =>
    ((split ':' line)[1]?).map trim
  match iface with
  | none => return "Wi-Fi"
  | some iface =>
      let ports ← outcomes.hardwarePorts
      return (findService iface "" (lines ports)).getD "Wi-Fi"

/-- The commands that turn the proxy of a service on. -/
def enableCommands (service : String) : List (List String) :=
  let port := Nat.repr proxyPort.toNat
  [["-setwebproxy", service, proxyHost, port],
    ["-setsecurewebproxy", service, proxyHost, port],
    ["-setsocksfirewallproxy", service, proxyHost, port],
    ["-setwebproxystate", service, "on"],
    ["-setsecurewebproxystate", service, "on"],
    ["-setsocksfirewallproxystate", service, "on"]]

/-- The commands that turn the three proxies of a service off, and leave their addresses. -/
def disableCommands (service : String) : List (List String) :=
  [["-setwebproxystate", service, "off"],
    ["-setsecurewebproxystate", service, "off"],
    ["-setsocksfirewallproxystate", service, "off"]]

/-! ### The registry of Windows -/

/-- The key of the registry that holds the proxy of the current user. -/
def internetSettings : String :=
  "HKCU\\Software\\Microsoft\\Windows\\CurrentVersion\\Internet Settings"

/-- The arguments of `reg` that set one value under the key, without asking. -/
def regAdd (name kind value : String) : List String :=
  ["add", internetSettings, "/v", name, "/t", kind, "/d", value, "/f"]

/-- A call of `reg`: it changes its setting when it succeeds, and otherwise its error is passed
on. -/
def runReg (exit : Exit) (args : List String) : Sys Unit :=
  match exit with
  | .notStarted e => throw e
  | .success => modify fun settings => assign settings (assignment ("reg" :: args))
  | .failed _ _ stderr => throw stderr

/-! ### The three platforms -/

/-- The platforms the code is compiled for: macOS, Windows, and those it does not support. -/
inductive Platform
  | macos
  | windows
  | other
deriving DecidableEq

/-- `enable_proxy`. On Windows the other programs are told of the change at the end; this
changes no setting, and its outcome is not looked at. -/
def enableProxy (outcomes : Outcomes) : Platform → Sys Unit
  | .macos => do
      let service ← liftExcept (activeNetworkService outcomes)
      runNetworksetupBatch outcomes (enableCommands service)
  | .windows => do
      runReg (outcomes.reg 0) (regAdd "ProxyEnable" "REG_DWORD" "1")
      runReg (outcomes.reg 1)
        (regAdd "ProxyServer" "REG_SZ" (proxyHost ++ ":" ++ Nat.repr proxyPort.toNat))
  | .other => throw "unsupported platform"

/-- `disable_proxy`: the proxies of the active service are turned off, or the one of the
registry. -/
def disableProxy (outcomes : Outcomes) : Platform → Sys Unit
  | .macos => do
      let service ← liftExcept (activeNetworkService outcomes)
      runNetworksetupBatch outcomes (disableCommands service)
  | .windows => runReg (outcomes.reg 0) (regAdd "ProxyEnable" "REG_DWORD" "0")
  | .other => throw "unsupported platform"

/-- Turning the proxy on or off, without the flag that remembers it. -/
def setProxy (platform : Platform) (outcomes : Outcomes) (enable : Bool) : Sys Unit :=
  if enable then enableProxy outcomes platform else disableProxy outcomes platform

/-- The settings of the system, and `SYS_PROXY_ENABLED`. -/
structure State where
  settings : Settings
  enabled : Bool

/-- `set_system_proxy`: the flag is set only when the change of the settings has succeeded. -/
def setSystemProxy (platform : Platform) (outcomes : Outcomes) (enable : Bool) (state : State) :
    EStateM.Result String State Unit :=
  match setProxy platform outcomes enable state.settings with
  | .ok () settings => .ok () { settings, enabled := enable }
  | .error e settings => .error e { state with settings }

/-- `toggle_system_proxy`: the proxy is set to the opposite of what the flag says. -/
def toggleSystemProxy (platform : Platform) (outcomes : Outcomes) (state : State) :
    EStateM.Result String State Unit :=
  setSystemProxy platform outcomes (!state.enabled) state

/-! ### Changes of settings -/

/-- Each of the changes is made in `s'`, and nothing else is changed in `s`. -/
def Changed (changes : List (List String × List String)) (s s' : Settings) : Prop :=
  (∀ change ∈ changes, s' change.1 = change.2) ∧ ∀ key ∉ changes.map Prod.fst, s' key = s key

/-- The changes and the settings before determine the settings after, because nothing else is
changed. -/
theorem Changed.unique {changes : List (List String × List String)} {s s₁ s₂ : Settings}
    (h₁ : Changed changes s s₁) (h₂ : Changed changes s s₂) : s₁ = s₂ := by
  funext key
  by_cases hkey : key ∈ changes.map Prod.fst
  · obtain ⟨change, hchange, rfl⟩ := List.mem_map.mp hkey
    rw [h₁.1 change hchange, h₂.1 change hchange]
  · rw [h₁.2 key hkey, h₂.2 key hkey]

/-- Changes of distinct settings are all made. -/
theorem changed_foldl {changes : List (List String × List String)}
    (h : (changes.map Prod.fst).Nodup) (s : Settings) :
    Changed changes s (changes.foldl assign s) := by
  induction changes generalizing s with
  | nil =>
      refine ⟨fun change hchange => ?_, fun key _ => rfl⟩
      cases hchange
  | cons change changes ih =>
      obtain ⟨hnotMem, h⟩ := List.nodup_cons.mp h
      obtain ⟨hmade, hsame⟩ := ih h (assign s change)
      constructor
      · intro c hc
        rcases List.mem_cons.mp hc with rfl | hc
        · exact (hsame c.1 hnotMem).trans (assign_self s c)
        · exact hmade c hc
      · intro key hkey
        obtain ⟨hne, hkey⟩ := not_or.mp (mt List.mem_cons.mpr hkey)
        exact (hsame key hkey).trans (assign_of_ne s hne)

/-- Changes that are made again after some of them have been made. -/
theorem foldl_assign_take_take {changes : List (List String × List String)}
    (h : (changes.map Prod.fst).Nodup) (j m : ℕ) (s : Settings) :
    (changes.take m).foldl assign ((changes.take j).foldl assign s) =
      (changes.take (max j m)).foldl assign s := by
  have hnodup : ∀ k, ((changes.take k).map Prod.fst).Nodup := fun k =>
    h.sublist ((List.take_sublist k changes).map Prod.fst)
  obtain ⟨hfirst, hfirstSame⟩ := changed_foldl (hnodup j) s
  obtain ⟨hagain, hagainSame⟩ := changed_foldl (hnodup m) ((changes.take j).foldl assign s)
  refine Changed.unique ⟨fun change hchange => ?_, fun key hkey => ?_⟩
    (changed_foldl (hnodup (max j m)) s)
  · by_cases hkey : change.1 ∈ (changes.take m).map Prod.fst
    · obtain ⟨c, hc, heq⟩ := List.mem_map.mp hkey
      obtain rfl : c = change := List.inj_on_of_nodup_map h (List.mem_of_mem_take hc)
        (List.mem_of_mem_take hchange) heq
      exact hagain c hc
    · have hlt : m ≤ j := by
        by_contra hlt
        rw [max_eq_right (Nat.le_of_not_le hlt)] at hchange
        exact hkey (List.mem_map_of_mem hchange)
      rw [max_eq_left hlt] at hchange
      rw [hagainSame change.1 hkey, hfirst change hchange]
  · have hsub : ∀ k ≤ max j m, key ∉ (changes.take k).map Prod.fst := fun k hk hmem =>
      hkey (((List.take_sublist_take_left hk).map Prod.fst).subset hmem)
    rw [hagainSame key (hsub m (le_max_right j m)), hfirstSame key (hsub j (le_max_left j m))]

/-! ### What a batch leaves -/

/-- How many of the first `n` positions come before the first that does not meet `p`. -/
def leading (p : ℕ → Bool) : ℕ → ℕ
  | 0 => 0
  | n + 1 => if p 0 then leading (fun i => p (i + 1)) n + 1 else 0

/-- At most all of the positions come before the first that fails. -/
theorem leading_le (p : ℕ → Bool) (n : ℕ) : leading p n ≤ n := by
  induction n generalizing p with
  | zero => exact le_rfl
  | succ n ih =>
      rw [leading]
      split_ifs
      · exact Nat.succ_le_succ (ih _)
      · exact Nat.zero_le _

/-- The program ran and reported success; a program that did not start reports nothing. -/
def Exit.isSuccess : Exit → Bool
  | .success => true
  | _ => false

/-- The command asks for administrator privileges: its error output says so, or it ended with the
code 14. -/
def Exit.asksElevation : Exit → Bool
  | .failed code _ stderr => contains "admin privileges" stderr || code == some 14
  | _ => false

/-- The changes `networksetup` makes when it is run with each of these arguments. -/
def changes (commands : List (List String)) : List (List String × List String) :=
  commands.map fun args => assignment ("networksetup" :: args)

/-- The first pass stops behind the commands that succeed at its start. -/
theorem tryCommands_cases (exits : ℕ → Exit) (commands : List (List String)) (s : Settings) :
    let k := leading (fun i => (exits i).isSuccess) commands.length
    let s' := ((changes commands).take k).foldl assign s
    (k = commands.length ∧ tryCommands exits commands s = .ok false s') ∨
    (k < commands.length ∧ (exits k).asksElevation ∧ tryCommands exits commands s = .ok true s') ∨
    (k < commands.length ∧ (exits k).asksElevation = false ∧
      ∃ e, tryCommands exits commands s = .error e s') := by
  induction commands generalizing exits s with
  | nil => exact .inl ⟨rfl, rfl⟩
  | cons args rest ih =>
      cases hexit : exits 0 with
      | notStarted e =>
          have hk : leading (fun i => (exits i).isSuccess) (rest.length + 1) = 0 := by
            rw [leading, hexit]
            rfl
          simp only [List.length_cons, hk]
          refine .inr (.inr ⟨Nat.succ_pos _, by rw [hexit]; rfl, "networksetup 启动失败: " ++ e, ?_⟩)
          rw [tryCommands, hexit]
          rfl
      | failed code stdout stderr =>
          have hk : leading (fun i => (exits i).isSuccess) (rest.length + 1) = 0 := by
            rw [leading, hexit]
            rfl
          simp only [List.length_cons, hk]
          cases hasks : contains "admin privileges" stderr || code == some 14 with
          | true =>
              refine .inr (.inl ⟨Nat.succ_pos _, by rw [hexit]; exact hasks, ?_⟩)
              rw [tryCommands, hexit]
              exact congrFun (if_pos hasks) s
          | false =>
              refine .inr (.inr ⟨Nat.succ_pos _, by rw [hexit]; exact hasks,
                failureText args code stdout stderr, ?_⟩)
              rw [tryCommands, hexit]
              exact congrFun (if_neg (ne_true_of_eq_false hasks)) s
      | success =>
          have hk : leading (fun i => (exits i).isSuccess) (rest.length + 1) =
              leading (fun i => (exits (i + 1)).isSuccess) rest.length + 1 := by
            rw [leading, hexit]
            rfl
          have hstep : tryCommands exits (args :: rest) s =
              tryCommands (fun i => exits (i + 1)) rest
                (assign s (assignment ("networksetup" :: args))) := by
            rw [tryCommands, hexit]
            rfl
          simp only [List.length_cons, hk, hstep, Nat.add_right_cancel_iff,
            Nat.add_lt_add_iff_right]
          exact ih (fun i => exits (i + 1)) (assign s (assignment ("networksetup" :: args)))

/-- The elevated script too makes the settings of the commands up to the first that fails. -/
theorem runScript_eq (ok : ℕ → Bool) (commands : List (List String)) (s : Settings) :
    runScript ok commands s = .ok (decide (leading ok commands.length = commands.length))
      (((commands.map assignment).take (leading ok commands.length)).foldl assign s) := by
  induction commands generalizing ok s with
  | nil => rfl
  | cons command rest ih =>
      rw [runScript, List.length_cons, leading]
      cases hok : ok 0 with
      | false => rfl
      | true =>
          have hstep := ih (fun i => ok (i + 1)) (assign s (assignment command))
          simp only [if_pos, Nat.add_right_cancel_iff]
          exact hstep

/-- How many of `n` commands of the elevated script succeed. -/
def Elevation.made (elevation : Elevation) (n : ℕ) : ℕ :=
  match elevation with
  | .granted ok _ => leading ok n
  | .notStarted _ | .refused _ => 0

/-- How many of `n` changes a call makes: those of the commands in front of the first one that
fails, or of the first one that fails in the elevated script, if it gets further. -/
def made (platform : Platform) (outcomes : Outcomes) (n : ℕ) : ℕ :=
  match platform with
  | .macos =>
      let first := leading (fun i => (outcomes.networksetup i).isSuccess) n
      if (outcomes.networksetup first).asksElevation then max first (outcomes.osascript.made n)
      else first
  | .windows => leading (fun i => (outcomes.reg i).isSuccess) n
  | .other => 0

/-- A run of code that is to make some changes has made the first `k` of them. It succeeds
only when these are all, and fails only when there are more, or when there are none. -/
def Performed (changes : List (List String × List String)) (k : ℕ) (s : Settings) :
    EStateM.Result String Settings Unit → Prop
  | .ok () s' => changes.length ≤ k ∧ s' = changes.foldl assign s
  | .error _ s' => (k < changes.length ∨ changes = []) ∧ s' = (changes.take k).foldl assign s

/-- Changes that are made again after the first `j` have been made. -/
theorem Performed.again {changes : List (List String × List String)}
    (hkeys : (changes.map Prod.fst).Nodup) {j m : ℕ} (hj : j < changes.length) {s : Settings}
    {result : EStateM.Result String Settings Unit}
    (h : Performed changes m ((changes.take j).foldl assign s) result) :
    Performed changes (max j m) s result := by
  rcases result with ⟨⟨⟩, s'⟩ | ⟨e, s'⟩
  · obtain ⟨hm, rfl⟩ := h
    refine ⟨hm.trans (le_max_right j m), ?_⟩
    have hagain := foldl_assign_take_take hkeys j changes.length s
    rwa [max_eq_right hj.le, List.take_length] at hagain
  · obtain ⟨hm | rfl, rfl⟩ := h
    · exact ⟨.inl (max_lt hj hm), foldl_assign_take_take hkeys j m s⟩
    · cases hj

/-- The elevated script performs the changes up to its first failure, and all of them exactly when
it succeeds. -/
theorem runOsascript_performed (elevation : Elevation) {commands : List (List String)}
    (h : commands ≠ []) (s : Settings) :
    Performed (changes commands) (elevation.made commands.length) s
      (runOsascript elevation (applescript commands) s) := by
  have hlength : (changes commands).length = commands.length := List.length_map _
  have hpos : 0 < (changes commands).length := hlength ▸ List.length_pos_iff.mpr h
  cases elevation with
  | notStarted e => exact ⟨.inl hpos, rfl⟩
  | refused stderr => exact ⟨.inl hpos, rfl⟩
  | granted ok stderr =>
      have hchanges : (commands.map ("networksetup" :: ·)).map assignment = changes commands :=
        List.map_map
      have hscript := runScript_eq ok (commands.map ("networksetup" :: ·)) s
      rw [List.length_map, hchanges] at hscript
      have hrun : runOsascript (.granted ok stderr) (applescript commands) s =
          if leading ok commands.length = commands.length then
            .ok () (((changes commands).take (leading ok commands.length)).foldl assign s)
          else .error (elevationError stderr)
            (((changes commands).take (leading ok commands.length)).foldl assign s) := by
        simp only [runOsascript, osascriptCommands_of_ne_nil h]
        show EStateM.bind (runScript ok _) _ s = _
        rw [EStateM.bind, hscript]
        by_cases hall : leading ok commands.length = commands.length
        · rw [if_pos hall, decide_eq_true hall]
          rfl
        · rw [if_neg hall, decide_eq_false hall]
          rfl
      show Performed (changes commands) (leading ok commands.length) s _
      rw [hrun]
      split_ifs with hall
      · refine ⟨(hlength.trans hall.symm).le, ?_⟩
        rw [hall, ← hlength, List.take_length]
      · exact ⟨.inl ((lt_of_le_of_ne (leading_le ok _) hall).trans_eq hlength.symm), rfl⟩

/-- A batch makes as many changes as one of its two passes, whichever gets further. -/
theorem runNetworksetupBatch_performed (outcomes : Outcomes) {commands : List (List String)}
    (hne : commands ≠ []) (hkeys : ((changes commands).map Prod.fst).Nodup) (s : Settings) :
    Performed (changes commands) (made .macos outcomes commands.length) s
      (runNetworksetupBatch outcomes commands s) := by
  have hlength : (changes commands).length = commands.length := List.length_map _
  set k := leading (fun i => (outcomes.networksetup i).isSuccess) commands.length with hk
  set s' := ((changes commands).take k).foldl assign s with hs'
  have hbatch : runNetworksetupBatch outcomes commands s =
      match tryCommands outcomes.networksetup commands s with
      | .ok true s' => runOsascript outcomes.osascript (applescript commands) s'
      | .ok false s' => .ok () s'
      | .error e s' => .error e s' := by
    show EStateM.bind (tryCommands outcomes.networksetup commands) _ s = _
    rw [EStateM.bind]
    rcases tryCommands outcomes.networksetup commands s with ⟨- | -, _⟩ | ⟨_, _⟩ <;> rfl
  obtain ⟨hall, htry⟩ | ⟨hlt, hasks, htry⟩ | ⟨hlt, hasks, e, htry⟩ :=
    tryCommands_cases outcomes.networksetup commands s
  · rw [hbatch, htry]
    have hmade : commands.length ≤ made .macos outcomes commands.length := by
      rw [made, ← hk]
      split_ifs
      · exact hall.ge.trans (le_max_left k _)
      · exact hall.ge
    refine ⟨hlength.le.trans hmade, ?_⟩
    rw [hall, ← hlength, List.take_length]
  · rw [hbatch, htry, made, ← hk, if_pos hasks]
    exact (runOsascript_performed outcomes.osascript hne s').again hkeys (hlt.trans_eq hlength.symm)
  · rw [hbatch, htry, made, ← hk, if_neg (ne_true_of_eq_false hasks)]
    exact ⟨.inl (hlt.trans_eq hlength.symm), rfl⟩

/-! ### What a call leaves -/

/-- The changes that are asked for. Without a network service there are none to make. -/
def requested (platform : Platform) (outcomes : Outcomes) (enable : Bool) :
    List (List String × List String) :=
  match platform with
  | .macos =>
      match activeNetworkService outcomes with
      | .ok service => changes (if enable then enableCommands service else disableCommands service)
      | .error _ => []
  | .windows =>
      let key name := ["reg", "add", internetSettings, "/v", name]
      if enable then
        [(key "ProxyEnable", ["/t", "REG_DWORD", "/d", "1", "/f"]),
          (key "ProxyServer", ["/t", "REG_SZ", "/d", "127.0.0.1:7890", "/f"])]
      else [(key "ProxyEnable", ["/t", "REG_DWORD", "/d", "0", "/f"])]
  | .other => []

/-- No setting is changed twice by what is requested, so no command undoes an earlier one. -/
theorem requested_nodup (platform : Platform) (outcomes : Outcomes) (enable : Bool) :
    ((requested platform outcomes enable).map Prod.fst).Nodup := by
  cases platform with
  | other => exact List.nodup_nil
  | windows => cases enable <;> simp [requested]
  | macos =>
      rw [requested]
      cases activeNetworkService outcomes with
      | error e => exact List.nodup_nil
      | ok service =>
          cases enable <;>
            simp [changes, enableCommands, disableCommands, assignment]

/-- One `reg` command either makes its setting and succeeds, or changes nothing and reports an
error. -/
theorem runReg_cases (exit : Exit) (args : List String) (s : Settings) :
    (exit.isSuccess ∧ runReg exit args s = .ok () (assign s (assignment ("reg" :: args)))) ∨
    (exit.isSuccess = false ∧ ∃ e, runReg exit args s = .error e s) := by
  cases exit with
  | success => exact .inl ⟨rfl, rfl⟩
  | notStarted e => exact .inr ⟨rfl, e, rfl⟩
  | failed code stdout stderr => exact .inr ⟨rfl, stderr, rfl⟩

/-- On macOS the call fails without the active service, and else runs one batch for it. -/
theorem setProxy_macos (outcomes : Outcomes) (enable : Bool) (s : Settings) :
    setProxy .macos outcomes enable s =
      match activeNetworkService outcomes with
      | .ok service => runNetworksetupBatch outcomes
          (if enable then enableCommands service else disableCommands service) s
      | .error e => .error e s := by
  cases enable <;> rcases h : activeNetworkService outcomes with e | service <;>
    simp only [setProxy, enableProxy, disableProxy, h] <;> rfl

/-- On Windows the changes up to the first failed `reg` are made. The cases are the calls that are
looked at. -/
theorem setProxy_windows_performed (outcomes : Outcomes) (enable : Bool) (s : Settings) :
    let todo := requested .windows outcomes enable
    Performed todo (made .windows outcomes todo.length) s
      (setProxy .windows outcomes enable s) := by
  have hfirst : ∀ n, made .windows outcomes (n + 1) = if (outcomes.reg 0).isSuccess then
      leading (fun i => (outcomes.reg (i + 1)).isSuccess) n + 1 else 0 := fun n => rfl
  cases enable with
  | false =>
      have hset : setProxy .windows outcomes false s =
          runReg (outcomes.reg 0) (regAdd "ProxyEnable" "REG_DWORD" "0") s := rfl
      intro todo
      have hmade : made .windows outcomes todo.length = made .windows outcomes (0 + 1) := rfl
      rw [hset, hmade, hfirst]
      rcases runReg_cases (outcomes.reg 0) (regAdd "ProxyEnable" "REG_DWORD" "0") s with
        ⟨hok, hrun⟩ | ⟨hfail, e, hrun⟩
      · rw [hrun, if_pos hok]
        exact ⟨le_rfl, rfl⟩
      · rw [hrun, if_neg (ne_true_of_eq_false hfail)]
        exact ⟨.inl Nat.one_pos, rfl⟩
  | true =>
      have hset : setProxy .windows outcomes true s =
          EStateM.bind (runReg (outcomes.reg 0) (regAdd "ProxyEnable" "REG_DWORD" "1"))
            (fun _ => runReg (outcomes.reg 1)
              (regAdd "ProxyServer" "REG_SZ" (proxyHost ++ ":" ++ Nat.repr proxyPort.toNat))) s :=
        rfl
      intro todo
      have hmade : made .windows outcomes todo.length = made .windows outcomes (1 + 1) := rfl
      rw [hset, EStateM.bind, hmade, hfirst]
      rcases runReg_cases (outcomes.reg 0) (regAdd "ProxyEnable" "REG_DWORD" "1") s with
        ⟨hok, hrun⟩ | ⟨hfail, e, hrun⟩
      · rw [hrun, if_pos hok, leading]
        simp only
        rcases runReg_cases (outcomes.reg 1)
            (regAdd "ProxyServer" "REG_SZ" (proxyHost ++ ":" ++ Nat.repr proxyPort.toNat))
            (assign s (assignment ("reg" :: regAdd "ProxyEnable" "REG_DWORD" "1"))) with
          ⟨hok', hrun'⟩ | ⟨hfail', e', hrun'⟩
        · rw [if_pos hok', hrun']
          exact ⟨le_rfl, rfl⟩
        · rw [if_neg (ne_true_of_eq_false hfail'), hrun']
          exact ⟨.inl Nat.one_lt_two, rfl⟩
      · rw [hrun, if_neg (ne_true_of_eq_false hfail)]
        exact ⟨.inl Nat.two_pos, rfl⟩

/-- On every platform the changes up to the first failure are made, and an error is returned for the
rest. -/
theorem setProxy_performed (platform : Platform) (outcomes : Outcomes) (enable : Bool)
    (s : Settings) :
    let todo := requested platform outcomes enable
    Performed todo (made platform outcomes todo.length) s
      (setProxy platform outcomes enable s) := by
  cases platform with
  | windows => exact setProxy_windows_performed outcomes enable s
  | other => cases enable <;> exact ⟨.inr rfl, rfl⟩
  | macos =>
      have hnodup := requested_nodup .macos outcomes enable
      simp only [setProxy_macos, requested] at hnodup ⊢
      cases hservice : activeNetworkService outcomes with
      | error e => exact ⟨.inr rfl, congrArg (List.foldl assign s) List.take_nil.symm⟩
      | ok service =>
          simp only [hservice] at hnodup
          have hne : (if enable then enableCommands service else disableCommands service) ≠ [] := by
            cases enable <;> exact List.cons_ne_nil _ _
          have hbatch := runNetworksetupBatch_performed outcomes hne hnodup s
          have hlength : (changes (if enable then enableCommands service else
              disableCommands service)).length =
              (if enable then enableCommands service else disableCommands service).length :=
            List.length_map _
          rw [← hlength] at hbatch
          exact hbatch

/-- After a failed toggle the next one asks for the same again. -/
theorem toggleSystemProxy_again {platform : Platform} {outcomes : Outcomes} {state state' : State}
    {e : String} (h : toggleSystemProxy platform outcomes state = .error e state')
    (outcomes' : Outcomes) :
    toggleSystemProxy platform outcomes' state' =
      setSystemProxy platform outcomes' (!state.enabled) state' := by
  have henabled : state'.enabled = state.enabled := by
    rw [toggleSystemProxy, setSystemProxy] at h
    split at h
    · cases h
    · cases h
      rfl
  rw [toggleSystemProxy, henabled]

/-- **What a call leaves.** A call that succeeds has made all the changes that are asked for and
stores the request. One that fails keeps the flag and has made the first of them, up to where the
commands stopped, but not all, and no other setting is changed. -/
theorem setSystemProxy_spec (platform : Platform) (outcomes : Outcomes) (enable : Bool)
    (state : State) :
    let todo := requested platform outcomes enable
    match setSystemProxy platform outcomes enable state with
    | .ok () state' => state'.enabled = enable ∧ Changed todo state.settings state'.settings
    | .error _ state' =>
        let k := made platform outcomes todo.length
        state'.enabled = state.enabled ∧ (k < todo.length ∨ todo = []) ∧
          Changed (todo.take k) state.settings state'.settings := by
  have hnodup := requested_nodup platform outcomes enable
  have hperformed := setProxy_performed platform outcomes enable state.settings
  rw [setSystemProxy]
  generalize setProxy platform outcomes enable state.settings = result at hperformed ⊢
  rcases result with ⟨⟨⟩, s'⟩ | ⟨e, s'⟩
  · obtain ⟨-, rfl⟩ := hperformed
    exact ⟨rfl, changed_foldl hnodup state.settings⟩
  · obtain ⟨hk, rfl⟩ := hperformed
    exact ⟨rfl, hk, changed_foldl (hnodup.sublist ((List.take_sublist _ _).map Prod.fst))
      state.settings⟩

/-- A failed call can leave the settings changed: on Windows the proxy is turned on before its
address is set. -/
theorem not_setSystemProxy_unchanged :
    ¬ ∀ platform outcomes enable state,
      match setSystemProxy platform outcomes enable state with
      | .ok () state' => state'.enabled = enable ∧
          Changed (requested platform outcomes enable) state.settings state'.settings
      | .error _ state' => state' = state := by
  intro h
  let outcomes : Outcomes :=
    { route := .error "", hardwarePorts := .error "", networksetup := fun _ => .success,
      osascript := .notStarted "",
      reg := fun i => if i = 0 then .success else .failed (some 1) "" "Access is denied." }
  have hsame := h .windows outcomes true { settings := fun _ => [], enabled := false }
  have hsettings := congrArg State.settings hsame
  have hvalue := congrFun hsettings ["reg", "add", internetSettings, "/v", "ProxyEnable"]
  revert hvalue
  decide

end Redog.SystemProxy
