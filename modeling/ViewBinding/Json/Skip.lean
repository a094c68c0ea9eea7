import ViewBinding.Json.Text

/-!
# Skipping

A value that nobody wants is read for its form only: numbers may have any size, and surrogates need
not be paired.
-/

namespace ViewBinding.Json.Reader

/-- Skip an exponent after its letter. -/
def skipExponent : Reader Unit := do
  advance
  match ← next? with
  | some '+' | some '-' => advance
  | _ => pure ()
  if (← takeWhile Char.isDigit).isEmpty then failNext .invalidNumber

/-- Skip an exponent if there is one. -/
def skipExponent? : Reader Unit := do
  match ← next? with
  | some 'e' | some 'E' => skipExponent
  | _ => pure ()

/-- Skip a number after its sign. -/
def skipNumeral : Reader Unit := do
  match ← next? with
  | some '0' => do
    advance
    match ← next? with
    | some c => if c.isDigit then failNext .invalidNumber
    | none => pure ()
  | _ => if (← takeWhile Char.isDigit).isEmpty then failNext .invalidNumber
  match ← next? with
  | some '.' => do
    advance
    if (← takeWhile Char.isDigit).isEmpty then failNext .invalidNumber
    skipExponent?
  | _ => skipExponent?

/-- Skip an escape after its backslash. -/
def skipEscape : Reader Unit := do
  match ← next? with
  | none => fail (.ended .text)
  | some 'u' => do
    advance
    let _ ← hexQuad
  | some c => if (escapeLetter? c).isSome then advance else failNext .invalidEscape

/-- Skip the characters up to the closing quote; `fuel` bounds their number. -/
def skipTextChars : Nat → Reader Unit
  | 0 => fail (.ended .text)
  | fuel + 1 => do
    match ← next? with
    | none => fail (.ended .text)
    | some '"' => advance
    | some '\\' => do
      advance
      skipEscape
      skipTextChars fuel
    | some c =>
      if isControl c then fail .controlCharacter
      else do
        advance
        skipTextChars fuel

/-- Skip a text after its opening quote. -/
def skipText : Reader Unit := do skipTextChars ((← remaining) + 1)

mutual

/-- Skip a value. -/
def skipValueWithin : Nat → Reader Unit
  | 0 => failNext (.ended .value)
  | fuel + 1 => do
    match ← skipBlank with
    | none => failNext (.ended .value)
    | some 'n' => do advance; word "ull".toList
    | some 't' => do advance; word "rue".toList
    | some 'f' => do advance; word "alse".toList
    | some '"' => do advance; skipText
    | some '[' => do
      advance
      match ← skipBlank with
      | none => failNext (.ended .list)
      | some ']' => advance
      | some _ => skipItems fuel
    | some '\x7b' => do
      advance
      match ← skipBlank with
      | none => failNext (.ended .object)
      | some '\x7d' => advance
      | some _ => skipMembers fuel
    | some '-' => do advance; skipNumeral
    | some c => if c.isDigit then skipNumeral else failNext .expectedValue

/-- Skip the items of a list, of which there is at least one, and its end. -/
def skipItems : Nat → Reader Unit
  | 0 => failNext (.ended .list)
  | fuel + 1 => do
    skipValueWithin fuel
    match ← skipBlank with
    | none => failNext (.ended .list)
    | some ']' => advance
    | some ',' => do advance; skipItems fuel
    | some _ => failNext .expectedListEnd

/-- Skip the members of an object, of which there is at least one, and its end. -/
def skipMembers : Nat → Reader Unit
  | 0 => failNext (.ended .object)
  | fuel + 1 => do
    match ← skipBlank with
    | none => failNext (.ended .object)
    | some '"' => do advance; skipText
    | some _ => failNext .keyNotText
    colon
    skipValueWithin fuel
    match ← skipBlank with
    | none => failNext (.ended .object)
    | some '\x7d' => advance
    | some ',' => do advance; skipMembers fuel
    | some _ => failNext .expectedObjectEnd

end

/-- Skip a value of any kind. Every step takes a character, or ends, so the bound is never met. -/
def skipValue : Reader Unit := do skipValueWithin (2 * (← remaining) + 2)

end ViewBinding.Json.Reader
