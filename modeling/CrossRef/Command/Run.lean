import CrossRef.Command.Arguments
import CrossRef.Config.Reader
import CrossRef.Config.Template
import CrossRef.Report.Render
import CrossRef.Validation

namespace CrossRef

open Text

structure Session where
  tree : FileTree
  repo? : Option Repository := none
  tempDir : Path
  color : Bool := false

inductive Ending
  | exit (code : Nat)
  | fatal (message : String)
  deriving DecidableEq, Repr

def Ending.exitCode : Ending → Nat
  | exit code => code
  | fatal _ => 2

structure Outcome where
  ending : Ending
  out : String := ""
  err : String := ""
  tree : FileTree

def errorText (message : String) : String := "Error: " ++ message

def Outcome.errors (outcome : Outcome) : String :=
  match outcome.ending with
  | .exit _ => outcome.err
  | .fatal message => outcome.err ++ errorText message ++ "\n"

def modRoot (tree : FileTree) (p : Path) : Except Failure Path :=
  if !tree.isThere p then .error (.missingPath p)
  else if !tree.isDir p then .error (.notADirectory p)
  else (tree.canonical p).mapError fun _ => .missingPath p

def configAdvice : String :=
  "Fix or remove the config file (" ++ String.intercalate " or " Config.fileNames ++ ") in the mod root\n"

def Session.prepare (session : Session) (options : CheckOptions) : Except String (Path × Config) :=
  match modRoot session.tree options.path with
  | .error failure => .error (errorText failure.message ++ "\n")
  | .ok root =>
    match Config.load session.tree root options.config with
    | .ok (config, _) => .ok (root, config)
    | .error failure =>
      .error (errorText failure.message ++ "\n" ++ if options.config.isNone then configAdvice else "")

structure CheckRun where
  out : String
  tree : FileTree
  -- Whether there are defects, or the message with which the command breaks off.
  issues : Except String Bool

def checkExit (strict issues : Bool) : Nat := if strict && issues then 1 else 0

def FileTree.writeReport (tree : FileTree) (output : Option Path) (text : String) :
    Except String FileTree :=
  match output with
  | none => .ok tree
  | some p =>
    (tree.write p (Utf8.encode text)).mapError fun _ => "failed to write report to " ++ p.toString

namespace Session

def renderOptions (session : Session) (options : CheckOptions) (root : Path) (output : Option Path) :
    RenderOptions :=
  { root := root.toString
    staged := options.staged
    outputFile := output.map (·.toString)
    color := session.color && !options.noColor }

def runChecker (session : Session) (options : CheckOptions) (root : Path) (config : Config)
    (checker : Checker) (output : Option Path) : CheckRun :=
  match validate checker config session.tree session.repo? root options.staged with
  | .ok report =>
    let shown := session.renderOptions options root output
    match session.tree.writeReport output (report.render shown.plain) with
    | .ok tree => { out := report.render shown, tree, issues := .ok report.hasIssues }
    | .error message => { out := report.render shown, tree := session.tree, issues := .error message }
  | .error .nothingStaged =>
    { out := "No staged files to validate for " ++ checker.name ++ ".\n"
      tree := session.tree
      issues := .ok false }
  | .error failure => { out := "", tree := session.tree, issues := .error failure.message }

def check (session : Session) (checker : Checker) (options : CheckOptions) (output : Option Path) :
    Outcome :=
  match session.prepare options with
  | .error err => { ending := .exit 2, err, tree := session.tree }
  | .ok (root, config) =>
    let run := session.runChecker options root config checker output
    { out := run.out
      tree := run.tree
      ending :=
        match run.issues with
        | .ok issues => .exit (checkExit options.strict issues)
        | .error message => .fatal message }

def reportPath (session : Session) (checker : Checker) : Path :=
  session.tempDir.join (Path.ofString ("modcheck-" ++ checker.name ++ ".txt"))

structure CheckRuns where
  out : String
  tree : FileTree
  failed : Except String (List Checker)

-- Each checker runs on the files that the ones before it left behind.
def runCheckers (session : Session) (options : CheckOptions) (root : Path) (config : Config) :
    List Checker → FileTree → CheckRuns
  | [], tree => { out := "", tree, failed := .ok [] }
  | checker :: rest, tree =>
    let run := { session with tree }.runChecker options root config checker (session.reportPath checker)
    match run.issues with
    | .error message => { out := run.out, tree := run.tree, failed := .error message }
    | .ok issues =>
      let later := session.runCheckers options root config rest run.tree
      { out := run.out ++ "\n" ++ later.out
        tree := later.tree
        failed := later.failed.map fun failed => if issues then checker :: failed else failed }

def padded (width : Nat) (text : String) : String :=
  text ++ String.ofList (List.replicate (width - text.length) ' ')

def verdictLine (failed : List Checker) : List Span :=
  if failed.isEmpty then Report.styledLine .ok "✓ All validations passed"
  else
    Report.styledLine .error ("✗ Issues found by: " ++ String.intercalate ", " (failed.map (·.name)))

def reportLines (session : Session) (failed : List Checker) : List (List Span) :=
  if failed.isEmpty then []
  else
    [Report.plainLine "", Report.plainLine "Reports:"] ++ failed.map fun checker =>
      Report.plainLine ("  " ++ padded 14 checker.name ++ " " ++ (session.reportPath checker).toString)

def summary (session : Session) (options : CheckOptions) (failed : List Checker) : String :=
  showLines (session.color && !options.noColor) <|
    [Report.ruleLine '=', Report.plainLine "SUMMARY", Report.ruleLine '=', verdictLine failed] ++
      session.reportLines failed

def checkAll (session : Session) (options : CheckOptions) : Outcome :=
  match session.prepare options with
  | .error err => { ending := .exit 2, err, tree := session.tree }
  | .ok (root, config) =>
    let runs := session.runCheckers options root config Checker.all session.tree
    match runs.failed with
    | .error message => { ending := .fatal message, out := runs.out, tree := runs.tree }
    | .ok failed =>
      { ending := .exit (checkExit options.strict !failed.isEmpty)
        out := runs.out ++ session.summary options failed
        tree := runs.tree }

def withParent (tree : FileTree) (p : Path) : Except Fault FileTree :=
  match p.parent? with
  | some parent =>
    if parent.bytes = [] ∨ parent.same (Path.ofString ".") then .ok tree else tree.makeDirs parent
  | none => .ok tree

def createdText (p : Path) : String :=
  "Created " ++ p.toString ++ "\n\nNext steps:\n  1. Edit " ++ p.toString ++
    " to tune the allow-lists for your mod\n  2. Run: modcheck all --config " ++ p.toString ++ "\n"

def init (session : Session) (output : Path) (force : Bool) : Outcome :=
  if session.tree.isThere output && !force then
    { ending := .exit 2
      err := errorText ("file already exists: " ++ output.toString) ++
        "\nRemove it, use --force, or use --output to choose another path\n"
      tree := session.tree }
  else
    match withParent session.tree output with
    | .error fault =>
      { ending := .exit 2
        err := errorText ("failed to create directory: " ++ fault.message) ++ "\n"
        tree := session.tree }
    | .ok tree =>
      match tree.write output (Utf8.encode Config.template) with
      | .error fault =>
        { ending := .exit 2
          err := errorText ("failed to write config: " ++ fault.message) ++ "\n"
          tree }
      | .ok tree => { ending := .exit 0, out := createdText output, tree }

def run (session : Session) : Command → Outcome
  | .check checker options output => session.check checker options output
  | .checkAll options => session.checkAll options
  | .init output force => session.init output force

def runArguments (session : Session) (arguments : List String) : Except Usage Outcome :=
  (Command.ofArguments arguments).map session.run

end Session

end CrossRef
