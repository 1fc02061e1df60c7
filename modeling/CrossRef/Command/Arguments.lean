import CrossRef.Command
import CrossRef.Text.Fragment

namespace CrossRef

inductive Usage
  | helpWanted
  | versionWanted
  | commandMissing
  | commandUnknown
  | argumentUnknown
  | valueUnwanted
  | valueInvalid
  | repeated
  deriving DecidableEq, Repr

def Usage.exitCode : Usage → Nat
  | helpWanted | versionWanted => 0
  | _ => 2

def versionText : String := "modcheck 0.1.0\n"

def usageText : String :=
  String.join
    ["Usage: modcheck <COMMAND>\n\n",
     "Commands:\n",
     "  variables     Check country, state and global flags and event targets\n",
     "  scripted-loc  Check scripted localisation definitions and references\n",
     "  all           Run every checker and summarize\n",
     "  init          Write a config file from the built-in template\n"]

inductive Flag
  | staged
  | strict
  | noColor
  | force
  deriving DecidableEq, Repr

inductive Setting
  | path
  | config
  | output
  deriving DecidableEq, Repr

namespace Flag

def name : Flag → String
  | staged => "staged"
  | strict => "strict"
  | noColor => "no-color"
  | force => "force"

end Flag

namespace Setting

def name : Setting → String
  | path => "path"
  | config => "config"
  | output => "output"

end Setting

inductive Verb
  | check (checker : Checker)
  | all
  | init
  deriving DecidableEq, Repr

namespace Verb

def every : List Verb := Checker.all.map check ++ [all, init]

def name : Verb → String
  | check checker => checker.name
  | all => "all"
  | init => "init"

def ofName? (s : String) : Option Verb := every.find? (·.name == s)

def flags : Verb → List Flag
  | check _ | all => [.staged, .strict, .noColor]
  | init => [.force]

def settings : Verb → List Setting
  | check _ => [.path, .config, .output]
  | all => [.path, .config]
  | init => [.output]

end Verb

inductive Argument
  | divider
  | long (name : String) (value : Option String)
  | short (letter : Char) (rest : List Char)
  | word (text : String)
  deriving DecidableEq, Repr

def Argument.ofText (text : String) : Argument :=
  match text.toList with
  | ['-', '-'] => .divider
  | '-' :: '-' :: rest =>
    let name := rest.takeWhile (· != '=')
    .long (String.ofList name) ((rest.drop name.length).tail?.map String.ofList)
  | '-' :: letter :: rest => .short letter rest
  | _ => .word text

-- The value of an option is entered when the next option or the end shows that it is complete. So an
-- argument that is not known is reported before anything that is wrong with the option in front of it.
structure Given where
  flags : List Flag := []
  settings : List (Setting × String) := []
  -- The setting that is not entered yet, and its value if that has been read.
  pending : Option (Setting × Option String) := none
  divided : Bool := false
  deriving DecidableEq, Repr

namespace Given

def value? (given : Given) (setting : Setting) : Option String := given.settings.lookup setting

def enter (given : Given) (setting : Setting) (value : String) : Except Usage Given :=
  if (given.value? setting).isSome then .error .repeated
  else if value = "" then .error .valueInvalid
  else .ok { given with settings := (setting, value) :: given.settings }

def settle (given : Given) : Except Usage Given :=
  match given.pending with
  | none => .ok given
  | some (_, none) => .error .valueInvalid
  | some (setting, some value) => { given with pending := none }.enter setting value

def addFlag (given : Given) (flag : Flag) : Except Usage Given := do
  let given ← given.settle
  if flag ∈ given.flags then .error .repeated
  else .ok { given with flags := flag :: given.flags }

def addSetting (given : Given) (setting : Setting) (value : Option String) : Except Usage Given := do
  let given ← given.settle
  match value with
  | some value => given.enter setting value
  | none => .ok { given with pending := some (setting, none) }

def askHelp (given : Given) : Except Usage Given := do
  let _ ← given.settle
  .error .helpWanted

def addLong (given : Given) (verb : Verb) (name : String) (value : Option String) :
    Except Usage Given :=
  match verb.settings.find? (·.name == name) with
  | some setting => given.addSetting setting value
  | none =>
    match verb.flags.find? (·.name == name) with
    | some flag => if value.isSome then .error .valueUnwanted else given.addFlag flag
    | none =>
      if name = "help" then if value.isSome then .error .valueUnwanted else given.askHelp
      else .error .argumentUnknown

-- A value may follow directly or after an equals sign.
def addShort (given : Given) (verb : Verb) (letter : Char) (rest : List Char) : Except Usage Given :=
  if letter = 'h' then given.askHelp
  else if letter = 'o' ∧ .output ∈ verb.settings then
    given.addSetting .output <|
      match rest with
      | [] => none
      | '=' :: value => some (String.ofList value)
      | value => some (String.ofList value)
  else .error .argumentUnknown

-- A word can only be the value of the setting in front of it.
def addWord (given : Given) (text : String) : Except Usage Given :=
  match given.pending with
  | some (setting, none) => .ok { given with pending := some (setting, some text) }
  | _ => .error .argumentUnknown

def add (verb : Verb) (given : Given) (text : String) : Except Usage Given :=
  if given.divided then .error .argumentUnknown
  else
    match Argument.ofText text with
    | .divider => .ok { given with divided := true }
    | .long name value => given.addLong verb name value
    | .short letter rest => given.addShort verb letter rest
    | .word text => given.addWord text

def ofArguments (verb : Verb) (arguments : List String) : Except Usage Given := do
  (← arguments.foldlM (add verb) {}).settle

def path? (given : Given) (setting : Setting) : Option Path := (given.value? setting).map Path.ofString

def checkOptions (given : Given) : CheckOptions :=
  { path := (given.path? .path).getD (Path.ofString ".")
    staged := .staged ∈ given.flags
    strict := .strict ∈ given.flags
    noColor := .noColor ∈ given.flags
    config := given.path? .config }

def command (given : Given) : Verb → Command
  | .check checker => .check checker given.checkOptions (given.path? .output)
  | .all => .checkAll given.checkOptions
  | .init => .init ((given.path? .output).getD (Path.ofString "modcheck.yaml")) (.force ∈ given.flags)

end Given

namespace Command

def helpWord : String := "help"

def helpOn : List String → Usage
  | [] => .helpWanted
  | [word] => if word = helpWord ∨ (Verb.ofName? word).isSome then .helpWanted else .commandUnknown
  | _ => .commandUnknown

def afterDivider : List String → Usage
  | [] => .commandMissing
  | word :: _ =>
    if word = helpWord ∨ (Verb.ofName? word).isSome then .argumentUnknown else .commandUnknown

def optionFirst (asks : Option Usage) (value : Bool) : Usage :=
  match asks with
  | some usage => if value then .valueUnwanted else usage
  | none => .argumentUnknown

def longAsks? (name : String) : Option Usage :=
  if name = "help" then some .helpWanted else if name = "version" then some .versionWanted else none

def shortAsks? (letter : Char) : Option Usage :=
  if letter = 'h' then some .helpWanted else if letter = 'V' then some .versionWanted else none

def ofArguments : List String → Except Usage Command
  | [] => .error .commandMissing
  | first :: rest =>
    match Argument.ofText first with
    | .divider => .error (afterDivider rest)
    | .long name value => .error (optionFirst (longAsks? name) value.isSome)
    | .short letter _ => .error (optionFirst (shortAsks? letter) false)
    | .word word =>
      if word = helpWord then .error (helpOn rest)
      else
        match Verb.ofName? word with
        | some verb => (Given.ofArguments verb rest).map (·.command verb)
        | none => .error .commandUnknown

end Command

end CrossRef
