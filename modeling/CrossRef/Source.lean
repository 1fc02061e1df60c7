import CrossRef.Text.Fragment

namespace CrossRef

open Text

inductive FileClass
  | script
  | interface
  | localisation
  deriving DecidableEq, Repr

namespace FileClass

def ofExtension? (ext : String) : Option FileClass :=
  if ext = "txt" then some script
  else if ext = "gui" then some interface
  else if ext = "yml" then some localisation
  else none

-- What follows the last dot of the path decides.
def ofPath? (path : String) : Option FileClass :=
  (afterLast? '.' path.toList).bind fun ext => ofExtension? (String.ofList ext)

def hasComments : FileClass → Bool
  | localisation => false
  | _ => true

end FileClass

def uncommentedFrom (inQuotes : Bool) : List Char → List Char
  | [] => []
  | c :: rest =>
    if c = '"' then c :: uncommentedFrom (!inQuotes) rest
    else if c = '#' ∧ inQuotes = false then []
    else c :: uncommentedFrom inQuotes rest

def uncommented (line : List Char) : List Char := uncommentedFrom false line

def FileClass.significant (cls : FileClass) (line : List Char) : List Char :=
  if cls.hasComments then uncommented line else line

end CrossRef
