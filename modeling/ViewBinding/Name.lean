import ViewBinding.Text.Characters

/-!
# Names

Spelling rules for the names that end up in generated sources: identifiers, qualified names
(identifiers joined by single dots) and declared types. A class without a package is named by its
identifier alone.
-/

namespace ViewBinding.Name

open ViewBinding.Text

/-- A character that an identifier may begin with. -/
def isStart (c : Char) : Bool := isLetter c || c == '_' || c == '$'

/-- A character that an identifier may go on with. -/
def isPart (c : Char) : Bool := isStart c || isNumber c

/-- A character that a declared type may go on with: names, type arguments, wildcards, arrays. -/
def isTypePart (c : Char) : Bool := isPart c || ".<>?,&[] ".toList.contains c

/-- A starting character followed by characters that all satisfy `part`. -/
def startsAndGoesOn (part : Char → Bool) : List Char → Bool
  | [] => false
  | c :: rest => isStart c && rest.all part

/-- Is the text an identifier? -/
def isIdentifier (s : String) : Bool := startsAndGoesOn isPart s.toList

/-- Scan a dotted name; `fresh` says that the next character has to begin a segment. -/
def scanDotted (fresh : Bool) : List Char → Bool
  | [] => !fresh
  | c :: rest =>
    if fresh then isStart c && scanDotted false rest
    else if c = '.' then scanDotted true rest
    else isPart c && scanDotted false rest

/-- Is the text one identifier, or several joined by single dots? -/
def isQualified (s : String) : Bool := scanDotted true s.toList

/-- Is the text built like a declared type, with no space at its end? -/
def isDeclaredType (s : String) : Bool :=
  startsAndGoesOn isTypePart s.toList && s.toList.getLast? != some ' '

/-- The full name of a class in a package; the unnamed package leaves the name bare. -/
def qualify (package simpleName : String) : String :=
  if package.isEmpty then simpleName else package ++ "." ++ simpleName

end ViewBinding.Name
