import Mathlib.Data.List.Infix

/-!
# Reading quoted text

Two readers that a command given as text passes through. A string literal of AppleScript is
enclosed in double quotes, and a backslash in it protects a double quote or a backslash. A
POSIX shell cuts a line into words and operators: single quotes protect every character between
them, a backslash outside of them the one that follows, and a list of simple commands is joined
by `&&`.

Both readers refuse what they do not know. A line with an unquoted character that means
something to the shell is no list of simple commands here, so a line that is read runs the
commands it is read as and nothing else.

## Main results

* `AppleScript.readLiteral_escape`: an escaped text is read back from its literal.
* `Shell.tokenize_quote`: a quoted word is read back as one word.
* `Shell.readCommands_script`: a list of quoted commands is read back as these commands.
-/

namespace AppleScript

/-- The text of a string literal and what follows its closing quote, read from behind the
opening one, or from behind a backslash. -/
def readLiteral : Bool → List Char → Option (List Char × List Char)
  | _, [] => none
  | false, c :: rest =>
      if c = '"' then some ([], rest)
      else if c = '\\' then readLiteral true rest
      else (readLiteral false rest).map fun (text, rest) => (c :: text, rest)
  | true, c :: rest =>
      if c = '"' ∨ c = '\\' then
        (readLiteral false rest).map fun (text, rest) => (c :: text, rest)
      else none

/-- How a character is written in a literal. -/
def escapeChar (c : Char) : List Char :=
  if c = '"' ∨ c = '\\' then ['\\', c] else [c]

/-- An escaped text is read back from its literal. -/
theorem readLiteral_escape (text rest : List Char) :
    readLiteral false (text.flatMap escapeChar ++ '"' :: rest) = some (text, rest) := by
  induction text with
  | nil =>
      rw [List.flatMap_nil, List.nil_append, readLiteral, if_pos rfl]
  | cons c text ih =>
      rw [List.flatMap_cons, escapeChar]
      split_ifs with hc
      · have hbackslash :
            readLiteral false ('\\' :: c :: (text.flatMap escapeChar ++ '"' :: rest)) =
              readLiteral true (c :: (text.flatMap escapeChar ++ '"' :: rest)) := by
          rw [readLiteral, if_neg (by decide), if_pos rfl]
        rw [List.cons_append, List.cons_append, List.cons_append, List.cons_append,
          List.nil_append, hbackslash, readLiteral, if_pos hc, ih, Option.map_some]
      · obtain ⟨hquote, hbackslash⟩ := not_or.mp hc
        rw [List.singleton_append, List.cons_append, readLiteral, if_neg hquote,
          if_neg hbackslash, ih, Option.map_some]

end AppleScript

namespace Shell

/-- A token of a command line: a word, its quotes taken off, or the mark between two commands. -/
inductive Token
  | word (text : List Char)
  /-- `&&` -/
  | and
deriving DecidableEq

/-- Where a line is being read, with what has been read of the token that is open. -/
inductive Mode
  /-- Between two tokens. -/
  | blank
  /-- In a word that starts with this text. -/
  | word (text : List Char)
  /-- Between single quotes in a word. -/
  | quoted (text : List Char)
  /-- Behind a backslash in a word. -/
  | escaped (text : List Char)
  /-- Behind the first character of `&&`. -/
  | ampersand

/-- The character stands for itself outside of quotes. -/
def isPlain (c : Char) : Bool :=
  c.isAlphanum || c == '-' || c == '_' || c == '.' || c == '/' || c == ':'

/-- A character of a word outside of quotes. -/
def wordChar (text : List Char) (c : Char) : Option Mode :=
  if c = '\'' then some (.quoted text)
  else if c = '\\' then some (.escaped text)
  else if isPlain c then some (.word (text ++ [c]))
  else none

/-- What the next character does: the token it ends, and where the line is read on. -/
def readChar : Mode → Char → Option (List Token × Mode)
  | .blank, c =>
      if c = ' ' then some ([], .blank)
      else if c = '&' then some ([], .ampersand)
      else (wordChar [] c).map ([], ·)
  | .word text, c =>
      if c = ' ' then some ([.word text], .blank)
      else if c = '&' then some ([.word text], .ampersand)
      else (wordChar text c).map ([], ·)
  | .quoted text, c =>
      if c = '\'' then some ([], .word text) else some ([], .quoted (text ++ [c]))
  | .escaped text, c => if c = '\n' then none else some ([], .word (text ++ [c]))
  | .ampersand, c => if c = '&' then some ([.and], .blank) else none

/-- The tokens of the rest of a line. -/
def tokenize : Mode → List Char → Option (List Token)
  | .blank, [] => some []
  | .word text, [] => some [.word text]
  | .quoted _, [] | .escaped _, [] | .ampersand, [] => none
  | mode, c :: rest => do
      let (done, mode) ← readChar mode c
      let tokens ← tokenize mode rest
      return done ++ tokens

/-- The word of a token, none for the mark between two commands. -/
def Token.text? : Token → Option (List Char)
  | .word text => some text
  | .and => none

/-- The simple commands of a list joined by `&&`, each by its words. None of them is empty. -/
def readCommands (line : List Char) : Option (List (List (List Char))) := do
  let tokens ← tokenize .blank line
  let commands := tokens.splitOn .and
  if [] ∈ commands then none else return commands.map (List.filterMap Token.text?)

/-! ### Quoted words -/

/-- How a character is written between single quotes: a single quote ends them, is protected
by a backslash, and opens them again. -/
def quoteChar (c : Char) : List Char :=
  if c = '\'' then ['\'', '\\', '\'', '\''] else [c]

/-- A word in single quotes, those in the word itself escaped. -/
def quote (word : List Char) : List Char :=
  '\'' :: (word.flatMap quoteChar ++ ['\''])

/-- Reading a character in front puts the tokens it ends before those of the rest. -/
theorem tokenize_cons {mode mode' : Mode} {c : Char} {done : List Token}
    (h : readChar mode c = some (done, mode')) (rest : List Char) :
    tokenize mode (c :: rest) = (tokenize mode' rest).map (done ++ ·) := by
  have hread : tokenize mode (c :: rest) =
      (readChar mode c).bind fun (done, mode) =>
        (tokenize mode rest).bind fun tokens => some (done ++ tokens) := by
    cases mode <;> rfl
  rw [hread, h, Option.bind_some, Option.map_eq_bind]
  rfl

/-- A character that ends no token only changes the mode the rest is read in. -/
theorem tokenize_cons_nil {mode mode' : Mode} {c : Char}
    (h : readChar mode c = some ([], mode')) (rest : List Char) :
    tokenize mode (c :: rest) = tokenize mode' rest := by
  rw [tokenize_cons h]
  exact Option.map_id_apply

/-- Between quotes the protected word is read back as the word itself, by induction on its
characters. -/
theorem tokenize_quoted (word text rest : List Char) :
    tokenize (.quoted text) (word.flatMap quoteChar ++ '\'' :: rest) =
      tokenize (.word (text ++ word)) rest := by
  induction word generalizing text with
  | nil =>
      have hend : readChar (.quoted text) '\'' = some ([], .word text) := rfl
      rw [List.flatMap_nil, List.nil_append, tokenize_cons_nil hend, List.append_nil]
  | cons c word ih =>
      rw [List.flatMap_cons, quoteChar]
      split_ifs with hc
      · subst hc
        have hend : readChar (.quoted text) '\'' = some ([], .word text) := rfl
        have hbackslash : readChar (.word text) '\\' = some ([], .escaped text) := rfl
        have hquote : readChar (.escaped text) '\'' = some ([], .word (text ++ ['\''])) := rfl
        have hopen : readChar (.word (text ++ ['\''])) '\'' =
            some ([], .quoted (text ++ ['\''])) := rfl
        rw [List.cons_append, List.cons_append, List.cons_append, List.cons_append,
          List.cons_append, List.cons_append, List.cons_append, List.cons_append,
          List.nil_append, tokenize_cons_nil hend, tokenize_cons_nil hbackslash,
          tokenize_cons_nil hquote, tokenize_cons_nil hopen, ih, List.append_assoc,
          List.singleton_append]
      · have hread : readChar (.quoted text) c = some ([], .quoted (text ++ [c])) := by
          rw [readChar, if_neg hc]
        rw [List.singleton_append, List.cons_append, tokenize_cons_nil hread, ih,
          List.append_assoc, List.singleton_append]

/-- A quoted word is read back as one word. -/
theorem tokenize_quote (word rest : List Char) :
    tokenize .blank (quote word ++ rest) = tokenize (.word word) rest := by
  have hopen : readChar .blank '\'' = some ([], .quoted []) := rfl
  rw [quote, List.cons_append, tokenize_cons_nil hopen, List.append_assoc, List.singleton_append,
    tokenize_quoted, List.nil_append]

/-! ### Lists of commands -/

/-- A command by its name and its quoted arguments. -/
def command (name : List Char) (args : List (List Char)) : List Char :=
  name ++ ' ' :: [' '].intercalate (args.map quote)

/-- Commands joined by `&&` with a space on either side, so each runs only after the one before it
has succeeded. -/
def script (commands : List (List Char)) : List Char :=
  [' ', '&', '&', ' '].intercalate commands

/-- A plain character continues a word: it neither opens a quote nor protects what follows. -/
theorem wordChar_of_isPlain {c : Char} (h : isPlain c) (text : List Char) :
    wordChar text c = some (.word (text ++ [c])) := by
  have hquote : c ≠ '\'' := by
    rintro rfl
    exact absurd h (by decide)
  have hbackslash : c ≠ '\\' := by
    rintro rfl
    exact absurd h (by decide)
  rw [wordChar, if_neg hquote, if_neg hbackslash, if_pos h]

/-- A plain character that starts or continues a word. -/
theorem readChar_of_isPlain {c : Char} (h : isPlain c) :
    readChar .blank c = some ([], .word [c]) ∧
      ∀ text, readChar (.word text) c = some ([], .word (text ++ [c])) := by
  have hblank : c ≠ ' ' := by
    rintro rfl
    exact absurd h (by decide)
  have hand : c ≠ '&' := by
    rintro rfl
    exact absurd h (by decide)
  constructor
  · rw [readChar, if_neg hblank, if_neg hand, wordChar_of_isPlain h]
    rfl
  · intro text
    rw [readChar, if_neg hblank, if_neg hand, wordChar_of_isPlain h]
    rfl

/-- A word of plain characters is added to the word being read, one character after another. -/
theorem tokenize_plain {word : List Char} (hword : ∀ c ∈ word, isPlain c) (text rest : List Char) :
    tokenize (.word text) (word ++ rest) = tokenize (.word (text ++ word)) rest := by
  induction word generalizing text with
  | nil => rw [List.nil_append, List.append_nil]
  | cons c word ih =>
      obtain ⟨hc, hword⟩ := List.forall_mem_cons.mp hword
      rw [List.cons_append, tokenize_cons_nil ((readChar_of_isPlain hc).2 text), ih hword,
        List.append_assoc, List.singleton_append]

/-- The text ends a word: it is empty or starts with a blank. -/
def Ends (rest : List Char) : Prop := ∀ c ∈ rest.head?, c = ' '

/-- At the end of a word the word becomes a token, and reading goes on at a blank. -/
theorem tokenize_word_of_ends {rest : List Char} (h : Ends rest) (word : List Char) :
    tokenize (.word word) rest = (tokenize .blank rest).map (.word word :: ·) := by
  rcases rest with - | ⟨c, rest⟩
  · rfl
  · obtain rfl : c = ' ' := h c rfl
    have hend : readChar (.word word) ' ' = some ([.word word], .blank) := rfl
    have hblank : readChar .blank ' ' = some ([], .blank) := rfl
    rw [tokenize_cons hend, tokenize_cons_nil hblank]
    rfl

/-- Quoted words between blanks are read back as these words. -/
theorem tokenize_args (args : List (List Char)) {rest : List Char} (h : Ends rest) :
    tokenize .blank ([' '].intercalate (args.map quote) ++ rest) =
      (tokenize .blank rest).map (args.map Token.word ++ ·) := by
  induction args with
  | nil => exact Option.map_id_apply.symm
  | cons arg args ih =>
      rcases args with - | ⟨next, args⟩
      · rw [List.map_singleton, List.intercalate_singleton, tokenize_quote,
          tokenize_word_of_ends h]
        rfl
      · have hends : Ends (' ' :: ([' '].intercalate ((next :: args).map quote) ++ rest)) :=
          fun c hc => (Option.some.inj hc).symm
        have hblank : readChar .blank ' ' = some ([], .blank) := rfl
        rw [List.map_cons, List.map_cons, List.intercalate_cons_cons, ← List.map_cons,
          List.append_assoc, List.append_assoc, List.singleton_append, tokenize_quote,
          tokenize_word_of_ends hends, tokenize_cons_nil hblank, ih, Option.map_map]
        rfl

/-- The tokens of a command, its name and its arguments. -/
def words (name : List Char) (args : List (List Char)) : List Token :=
  (name :: args).map .word

/-- A command gives its name and its arguments as words, and the reading goes on behind them. -/
theorem tokenize_command {name : List Char} (hne : name ≠ []) (hname : ∀ c ∈ name, isPlain c)
    (args : List (List Char)) {rest : List Char} (h : Ends rest) :
    tokenize .blank (command name args ++ rest) =
      (tokenize .blank rest).map (words name args ++ ·) := by
  obtain ⟨c, name, rfl⟩ := List.exists_cons_of_ne_nil hne
  obtain ⟨hc, hname⟩ := List.forall_mem_cons.mp hname
  have hends : Ends (' ' :: ([' '].intercalate (args.map quote) ++ rest)) :=
    fun d hd => (Option.some.inj hd).symm
  have hblank : readChar .blank ' ' = some ([], .blank) := rfl
  rw [command, List.append_assoc, List.cons_append, List.cons_append,
    tokenize_cons_nil (readChar_of_isPlain hc).1, tokenize_plain hname,
    tokenize_word_of_ends hends, tokenize_cons_nil hblank, tokenize_args args h,
    Option.map_map]
  rfl

/-- The tokens of a list of commands are those of the commands, with `&&` between them. -/
theorem tokenize_script {name : List Char} (hne : name ≠ []) (hname : ∀ c ∈ name, isPlain c)
    (commands : List (List (List Char))) :
    tokenize .blank (script (commands.map (command name))) =
      some ([Token.and].intercalate (commands.map (words name))) := by
  have hnil : Ends [] := fun c hc => absurd hc (Option.not_mem_none c)
  induction commands with
  | nil => rfl
  | cons args commands ih =>
      rcases commands with - | ⟨next, commands⟩
      · rw [List.map_singleton, List.map_singleton, script, List.intercalate_singleton,
          List.intercalate_singleton, ← List.append_nil (command name args),
          tokenize_command hne hname args hnil]
        exact congrArg some (List.append_nil _)
      · have hends : Ends (' ' :: '&' :: '&' :: ' ' ::
            script ((next :: commands).map (command name))) :=
          fun c hc => (Option.some.inj hc).symm
        have hblank : readChar .blank ' ' = some ([], .blank) := rfl
        have hfirst : readChar .blank '&' = some ([], .ampersand) := rfl
        have hsecond : readChar .ampersand '&' = some ([.and], .blank) := rfl
        have hsplit : script ((args :: next :: commands).map (command name)) =
            command name args ++ ' ' :: '&' :: '&' :: ' ' ::
              script ((next :: commands).map (command name)) := by
          rw [script, List.map_cons, List.map_cons, List.intercalate_cons_cons,
            ← List.map_cons, List.append_assoc]
          rfl
        have hjoin : [Token.and].intercalate ((args :: next :: commands).map (words name)) =
            words name args ++ [.and] ++
              [Token.and].intercalate ((next :: commands).map (words name)) :=
          List.intercalate_cons_cons
        rw [hsplit, tokenize_command hne hname args hends, tokenize_cons_nil hblank,
          tokenize_cons_nil hfirst, tokenize_cons hsecond, tokenize_cons_nil hblank, ih, hjoin,
          List.append_assoc]
        rfl

/-- A list of quoted commands is read back as these commands. -/
theorem readCommands_script {name : List Char} (hne : name ≠ [])
    (hname : ∀ c ∈ name, isPlain c) {commands : List (List (List Char))}
    (hcommands : commands ≠ []) :
    readCommands (script (commands.map (command name))) =
      some (commands.map (name :: ·)) := by
  have hwords : ∀ line ∈ commands.map (words name), Token.and ∉ line := by
    intro line hline hmem
    obtain ⟨args, -, rfl⟩ := List.mem_map.mp hline
    obtain ⟨word, -, heq⟩ := List.mem_map.mp hmem
    cases heq
  have hsplit : ([Token.and].intercalate (commands.map (words name))).splitOn .and =
      commands.map (words name) :=
    List.splitOn_intercalate _ hwords (List.map_eq_nil_iff.not.mpr hcommands)
  have hnonempty : [] ∉ commands.map (words name) := by
    intro hmem
    obtain ⟨args, -, heq⟩ := List.mem_map.mp hmem
    cases heq
  have htext : ∀ args, (words name args).filterMap Token.text? = name :: args := by
    intro args
    rw [words, List.filterMap_map]
    exact List.filterMap_some
  rw [readCommands, tokenize_script hne hname]
  show (if [] ∈ ([Token.and].intercalate (commands.map (words name))).splitOn .and then none
    else some _) = _
  rw [hsplit, if_neg hnonempty, List.map_map]
  exact congrArg some (List.map_congr_left fun args _ => htext args)

end Shell
