import CrossRef.Report
import CrossRef.Report.Style

namespace CrossRef

structure RenderOptions where
  root : String := ""
  staged : Bool := false
  outputFile : Option String := none
  color : Bool := false
  deriving DecidableEq, Repr

def RenderOptions.plain (options : RenderOptions) : RenderOptions := { options with color := false }

namespace Report

def plainLine (text : String) : List Span := [{ text }]

def styledLine (style : Style) (text : String) : List Span := [{ text, style? := some style }]

def ruleLine (c : Char) : List Span := plainLine (String.ofList (List.replicate 80 c))

def checkingText (kind : Kind) : Category → String
  | .clearedNotSet => "Checking cleared " ++ kind.label ++ " that are never " ++ kind.setVerb ++ "..."
  | .missingDefinition => "Checking missing " ++ kind.label ++ " (used but not " ++ kind.setVerb ++ ")..."
  | .unusedDefinition => "Checking unused " ++ kind.label ++ " (" ++ kind.setVerb ++ " but not used)..."

def foundText (kind : Kind) : Category → String
  | .clearedNotSet =>
    "Cleared " ++ kind.label ++ " that are never " ++ kind.setVerb ++ " were encountered."
  | .missingDefinition =>
    "Missing " ++ kind.label ++ " were encountered - they are used but never " ++ kind.setVerb ++ "."
  | .unusedDefinition =>
    "Unused " ++ kind.label ++ " were encountered - they are " ++ kind.setVerb ++ " but never used."

def cleanText (kind : Kind) : Category → String
  | .clearedNotSet => "✓ No issues found with cleared " ++ kind.label
  | .missingDefinition => "✓ No issues found with missing " ++ kind.label
  | .unusedDefinition => "✓ No issues found with unused " ++ kind.label

def countText (count : Nat) : String :=
  if count = 1 then "1 issue found" else Nat.repr count ++ " issues found"

def defectLines (defect : Defect) : List (List Span) :=
  defect.locations.map fun location =>
    [{ text := "  " }, { text := location.site, style? := some .location },
     { text := " - " ++ defect.name }]

def findingLines (kind : Kind) (category : Category) (defects : List Defect) : List (List Span) :=
  if defects.isEmpty then [styledLine .ok (cleanText kind category)]
  else
    styledLine .error (foundText kind category) :: defects.flatMap defectLines ++
      [styledLine .error (countText defects.length)]

def sectionLines (defects : KindDefects) (category : Category) : List (List Span) :=
  [plainLine "", ruleLine '=', styledLine .heading (checkingText defects.kind category), ruleLine '='] ++
    findingLines defects.kind category (defects.inCategory category)

def kindLines (defects : KindDefects) : List (List Span) :=
  defects.categories.flatMap (sectionLines defects)

def filesText (report : Report) : String :=
  "Files scanned: " ++ Nat.repr report.scanned ++
    if 0 < report.skipped then " (" ++ Nat.repr report.skipped ++ " skipped)" else ""

def headerLines (report : Report) (options : RenderOptions) : List (List Span) :=
  [ruleLine '#', styledLine .title ("MOD " ++ report.checker.title), ruleLine '#',
   plainLine ("Mod path: " ++ options.root)] ++
  (if options.staged then [styledLine .heading "Mode: Git staged files only"] else []) ++
  (match options.outputFile with
    | some file => [plainLine ("Output file: " ++ file)]
    | none => []) ++
  [plainLine report.filesText]

def footerLines (issues : Nat) : List (List Span) :=
  [plainLine "", ruleLine '#',
   if issues = 0 then styledLine .ok "✓ VALIDATION COMPLETE - NO ISSUES FOUND"
   else styledLine .error ("✗ VALIDATION COMPLETE - " ++ Nat.repr issues ++ " TOTAL ISSUES FOUND"),
   ruleLine '#']

def lines (report : Report) (options : RenderOptions) : List (List Span) :=
  report.headerLines options ++ report.kinds.flatMap kindLines ++ footerLines report.issueCount

def render (report : Report) (options : RenderOptions) : String :=
  showLines options.color (report.lines options)

end Report

end CrossRef
