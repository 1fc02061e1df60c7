import CrossRef.Text.Fragment

namespace CrossRef

open Text

inductive Style
  | title
  | heading
  | error
  | location
  | ok
  deriving DecidableEq, Repr

namespace Style

def code : Style → List Char
  | title => ['\x1b', '[', '1', 'm']
  | heading => ['\x1b', '[', '3', '6', 'm']
  | error => ['\x1b', '[', '3', '1', 'm']
  | location => ['\x1b', '[', '3', '3', 'm']
  | ok => ['\x1b', '[', '3', '2', 'm']

def reset : List Char := ['\x1b', '[', '0', 'm']

-- The text with the style started again after each reset code in it.
def restarted (style : Style) : List Char → List Char
  | '\x1b' :: '[' :: '0' :: 'm' :: rest => reset ++ style.code ++ restarted style rest
  | c :: rest => c :: restarted style rest
  | [] => []

def paint (style : Style) (text : String) : String :=
  String.ofList (style.code ++ style.restarted text.toList ++ reset)

end Style

structure Span where
  text : String
  style? : Option Style := none
  deriving DecidableEq, Repr

def Span.shown (color : Bool) (span : Span) : String :=
  match span.style? with
  | some style => if color then style.paint span.text else span.text
  | none => span.text

def showLines (color : Bool) (lines : List (List Span)) : String :=
  String.join (lines.map fun line => String.join (line.map (·.shown color)) ++ "\n")

end CrossRef
