namespace Sidebar.Toml

def isControl (c : Char) : Bool := (c.toNat < 0x20 && c != '\t') || c.toNat == 0x7F

def isSpace (c : Char) : Bool := c == ' ' || c == '\t'

def dropSpaces (cs : List Char) : List Char := cs.dropWhile isSpace

def dropNewline? : List Char → Option (List Char)
  | '\n' :: cs => some cs
  | '\r' :: '\n' :: cs => some cs
  | _ => none

def dropComment : List Char → List Char
  | '#' :: cs => cs.dropWhile fun c => !isControl c
  | cs => cs

def dropLineEnd? (cs : List Char) : Option (List Char) :=
  match dropComment (dropSpaces cs) with
  | [] => some []
  | cs => dropNewline? cs

def dropBlank : List Char → List Char
  | '\n' :: cs => dropBlank cs
  | '\r' :: '\n' :: cs => dropBlank cs
  | ' ' :: cs => dropBlank cs
  | '\t' :: cs => dropBlank cs
  | cs => cs

/-- Passes over spaces, line ends and comments; `inComment` tells whether a comment is open. -/
def dropGap (inComment : Bool) : List Char → List Char
  | [] => []
  | '\n' :: cs => dropGap false cs
  | '\r' :: '\n' :: cs => dropGap false cs
  | c :: cs =>
    if inComment then if isControl c then c :: cs else dropGap true cs
    else if c = '#' then dropGap true cs
    else if isSpace c then dropGap false cs
    else c :: cs

end Sidebar.Toml
