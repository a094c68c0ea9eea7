import ViewBinding.Text.Split

/-!
# Arguments

The words after the program's name. They are read from left to right; the first word that cannot be
accepted ends the reading, and so does a request for help.

An option may have its value in the next word. Such a value is settled only when the next known
option is met or the words end, so an unknown word in between is what is reported.
-/

namespace ViewBinding

/-- What `generate` is asked to do. -/
structure GenerateOptions where
  root : Option String := none
  modelRoot : Option String := none
  outputRoot : Option String := none
  verbose : Bool := false
  strict : Bool := false
  dryRun : Bool := false
  deriving DecidableEq, Repr

/-- A command with its options. -/
inductive Command where
  | generate (options : GenerateOptions)
  | init
  deriving DecidableEq, Repr

/-- Are remarks wanted? -/
def Command.verbose : Command → Bool
  | generate options => options.verbose
  | init => false

/-- What help is asked for. -/
inductive HelpTopic where
  | program
  | generate
  | init
  | help
  deriving DecidableEq, Repr

/-- Why a word is not accepted. -/
inductive UsageFault where
  | unknownCommand
  | unknownArgument
  | invalidValue
  | repeated
  | unwantedValue
  deriving DecidableEq, Repr

/-- Why the reading of words ended early. -/
inductive Halt where
  | help (topic : HelpTopic)
  | version
  | refused (fault : UsageFault)
  deriving DecidableEq, Repr

namespace Arguments

/-- The kinds of words. -/
inductive Word where
  /-- Two dashes alone: no option follows. -/
  | ending
  /-- An option by its name, with the value written after an equals sign. -/
  | long (name : String) (value : Option String)
  /-- Options of one letter each. -/
  | short (first : Char) (others : List Char)
  | plain (text : String)
  deriving DecidableEq, Repr

/-- Tell the kinds of words apart. A dash alone is a plain word. -/
def Word.ofText (s : String) : Word :=
  match s.toList with
  | ['-', '-'] => .ending
  | '-' :: '-' :: rest =>
    let name := String.ofList (rest.takeWhile (· ≠ '='))
    match rest.dropWhile (· ≠ '=') with
    | [] => .long name none
    | _ :: value => .long name (some (String.ofList value))
  | '-' :: c :: rest => .short c rest
  | _ => .plain s

/-- The options that take a value. -/
inductive Setting where
  | root
  | modelRoot
  | outputRoot
  deriving DecidableEq, Repr

/-- The options that take none. -/
inductive Flag where
  | verbose
  | strict
  | dryRun
  deriving DecidableEq, Repr

/-- The setting with a name. -/
def setting? : String → Option Setting
  | "root" => some .root
  | "model-root" => some .modelRoot
  | "output-root" => some .outputRoot
  | _ => none

/-- The flag with a name. -/
def flag? : String → Option Flag
  | "verbose" => some .verbose
  | "strict" => some .strict
  | "dry-run" => some .dryRun
  | _ => none

/-- The value of a setting so far. -/
def Setting.get (o : GenerateOptions) : Setting → Option String
  | root => o.root
  | modelRoot => o.modelRoot
  | outputRoot => o.outputRoot

/-- Give a setting its value. -/
def Setting.set (o : GenerateOptions) (value : String) : Setting → GenerateOptions
  | root => { o with root := some value }
  | modelRoot => { o with modelRoot := some value }
  | outputRoot => { o with outputRoot := some value }

/-- Is a flag raised? -/
def Flag.get (o : GenerateOptions) : Flag → Bool
  | verbose => o.verbose
  | strict => o.strict
  | dryRun => o.dryRun

/-- Raise a flag. -/
def Flag.raise (o : GenerateOptions) : Flag → GenerateOptions
  | verbose => { o with verbose := true }
  | strict => { o with strict := true }
  | dryRun => { o with dryRun := true }

/-- The options read so far, and a setting that is not settled, with its value if that was read. -/
structure Progress where
  options : GenerateOptions := {}
  pending : Option (Setting × Option String) := none
  deriving DecidableEq, Repr

namespace Progress

/-- Give a setting its value: once only, and not an empty one. -/
def assign (o : GenerateOptions) (s : Setting) (value : String) :
    Except Halt GenerateOptions :=
  if (s.get o).isSome then .error (.refused .repeated)
  else if value.isEmpty then .error (.refused .invalidValue)
  else .ok (s.set o value)

/-- Settle the pending setting. -/
def settle (p : Progress) : Except Halt GenerateOptions :=
  match p.pending with
  | none => .ok p.options
  | some (_, none) => .error (.refused .invalidValue)
  | some (s, some value) => assign p.options s value

/-- Meet a flag. -/
def meetFlag (p : Progress) (f : Flag) : Except Halt Progress := do
  let o ← p.settle
  if f.get o then .error (.refused .repeated) else pure ⟨f.raise o, none⟩

/-- Meet a setting, with its value if that stands in the same word. -/
def meetSetting (p : Progress) (s : Setting) (value : Option String) : Except Halt Progress := do
  let o ← p.settle
  match value with
  | some v => pure ⟨← assign o s v, none⟩
  | none => pure ⟨o, some (s, none)⟩

/-- Meet the request for help. -/
def meetHelp (p : Progress) : Except Halt Progress := do
  let _ ← p.settle
  .error (.help .generate)

/-- Meet options of one letter each. -/
def meetLetters (p : Progress) : List Char → Except Halt Progress
  | [] => .ok p
  | 'v' :: rest => do (← p.meetFlag .verbose).meetLetters rest
  | 'h' :: _ => p.meetHelp
  | _ :: _ => .error (.refused .unknownArgument)

/-- Meet an option by its name. -/
def meetLong (p : Progress) (name : String) (value : Option String) : Except Halt Progress :=
  match setting? name, flag? name, value with
  | some s, _, value => p.meetSetting s value
  | none, some f, none => p.meetFlag f
  | none, some _, some _ => .error (.refused .unwantedValue)
  | none, none, value =>
    if name ≠ "help" then .error (.refused .unknownArgument)
    else if value.isSome then .error (.refused .unwantedValue)
    else p.meetHelp

/-- Read the words of `generate`; `ended` says that two dashes were met. -/
def readAll (p : Progress) (ended : Bool) : List String → Except Halt GenerateOptions
  | [] => p.settle
  | s :: rest =>
    if ended then .error (.refused .unknownArgument)
    else
      match Word.ofText s, p.pending with
      | .ending, _ => p.readAll true rest
      | .long name value, _ => do (← p.meetLong name value).readAll false rest
      | .short c cs, _ => do (← p.meetLetters (c :: cs)).readAll false rest
      | .plain text, some (setting, none) =>
        ({ p with pending := some (setting, some text) } : Progress).readAll false rest
      | .plain _, _ => .error (.refused .unknownArgument)

end Progress

/-- How the reading ends at a letter where only help, and perhaps the version, can be asked for. -/
def letterHalt (topic : HelpTopic) (versioned : Bool) (letter : Char) : Halt :=
  if letter = 'h' then .help topic
  else if letter = 'V' && versioned then .version
  else .refused .unknownArgument

/-- How the reading ends at an option's name where only help, and perhaps the version, can be asked
for. Neither takes a value. -/
def nameHalt (topic : HelpTopic) (versioned : Bool) (name : String) (value : Option String) :
    Halt :=
  if name = "help" || name = "version" && versioned then
    if value.isSome then .refused .unwantedValue
    else if name = "help" then .help topic
    else .version
  else .refused .unknownArgument

/-- Read the words of `init`, which has no options but help. -/
def readInit : List String → Except Halt Unit
  | [] => .ok ()
  | s :: rest =>
    match Word.ofText s with
    | .ending => if rest.isEmpty then .ok () else .error (.refused .unknownArgument)
    | .long name value => .error (nameHalt .init false name value)
    | .short c _ => .error (letterHalt .init false c)
    | .plain _ => .error (.refused .unknownArgument)

/-- The help that is asked for by the words after `help`. -/
def readHelp : List String → Halt
  | [] => .help .program
  | ["generate"] => .help .generate
  | ["init"] => .help .init
  | ["help"] => .help .help
  | _ => .refused .unknownCommand

/-- The words that name commands. -/
def commandNames : List String := ["generate", "init", "help"]

/-- Read all words: the command, if one is named. -/
def read : List String → Except Halt (Option Command)
  | [] => .ok none
  | s :: rest =>
    match Word.ofText s with
    | .ending =>
      match rest with
      | [] => .ok none
      | word :: _ =>
        .error (.refused (if word ∈ commandNames then .unknownArgument else .unknownCommand))
    | .long name value => .error (nameHalt .program true name value)
    | .short c _ => .error (letterHalt .program true c)
    | .plain "generate" => do pure (some (.generate (← ({} : Progress).readAll false rest)))
    | .plain "init" => do readInit rest; pure (some .init)
    | .plain "help" => .error (readHelp rest)
    | .plain _ => .error (.refused .unknownCommand)

end Arguments

end ViewBinding
