import ViewBinding.Json.Reader

/-!
# Texts

A text stands between double quotes. Control characters have to be escaped, and a character beyond
the basic plane may be escaped as a pair of surrogates.
-/

namespace ViewBinding.Json

/-- The character that an escape letter other than `u` stands for. -/
def escapeLetter? : Char → Option Char
  | '"' => some '"'
  | '\\' => some '\\'
  | '/' => some '/'
  | 'b' => some '\x08'
  | 'f' => some '\x0c'
  | 'n' => some '\n'
  | 'r' => some '\r'
  | 't' => some '\t'
  | _ => none

/-- The value of a hexadecimal digit. -/
def hexValue? (c : Char) : Option Nat :=
  if '0' ≤ c ∧ c ≤ '9' then some (c.toNat - '0'.toNat)
  else if 'a' ≤ c ∧ c ≤ 'f' then some (c.toNat - 'a'.toNat + 10)
  else if 'A' ≤ c ∧ c ≤ 'F' then some (c.toNat - 'A'.toNat + 10)
  else none

/-- The value of four hexadecimal digits. -/
def hexQuad? : List Char → Option Nat
  | [a, b, c, d] => do
    pure ((← hexValue? a) * 4096 + (← hexValue? b) * 256 + (← hexValue? c) * 16 + (← hexValue? d))
  | _ => none

/-- A control character, which may not stand in a text as itself. -/
def isControl (c : Char) : Bool := c.toNat < 0x20

/-- The number of bytes of a list of characters. -/
def byteLength (cs : List Char) : Nat := (String.ofList cs).utf8ByteSize

namespace Reader

/-- Read the four digits of a hexadecimal escape. -/
def hexQuad : Reader Nat := do
  let c : Cursor ← get
  let quad := c.rest.take 4
  if byteLength quad < 4 then failAt (.ended .text) (c.offset + byteLength c.rest)
  else
    match hexQuad? quad with
    | some n => do set (⟨c.rest.drop 4, c.offset + 4⟩ : Cursor); pure n
    | none => failAt .invalidEscape (c.offset + 4)

/-- Read one expected character inside a pair of surrogates. -/
def surrogateGlue (expected : Char) : Reader Unit := do
  match ← next? with
  | none => fail (.ended .text)
  | some c => if c = expected then advance else failNext .unfinishedSurrogate

/-- Read a hexadecimal escape after its letter; a leading surrogate needs a trailing one. -/
def unicodeEscape : Reader Char := do
  let n ← hexQuad
  if 0xDC00 ≤ n ∧ n ≤ 0xDFFF then fail .loneSurrogate
  else if 0xD800 ≤ n ∧ n ≤ 0xDBFF then do
    surrogateGlue '\\'
    surrogateGlue 'u'
    let m ← hexQuad
    if 0xDC00 ≤ m ∧ m ≤ 0xDFFF then
      pure (Char.ofNat (0x10000 + (n - 0xD800) * 0x400 + (m - 0xDC00)))
    else fail .loneSurrogate
  else pure (Char.ofNat n)

/-- Read an escape after its backslash. -/
def escape : Reader Char := do
  match ← next? with
  | none => fail (.ended .text)
  | some 'u' => do advance; unicodeEscape
  | some c =>
    match escapeLetter? c with
    | some x => do advance; pure x
    | none => failNext .invalidEscape

/-- Read the characters up to the closing quote; `fuel` bounds their number. -/
def textChars : Nat → Reader (List Char)
  | 0 => fail (.ended .text)
  | fuel + 1 => do
    match ← next? with
    | none => fail (.ended .text)
    | some '"' => do advance; pure []
    | some '\\' => do
      advance
      let x ← escape
      pure (x :: (← textChars fuel))
    | some c =>
      if isControl c then failNext .controlCharacter
      else do
        advance
        pure (c :: (← textChars fuel))

/-- Read a text after its opening quote. -/
def textBody : Reader String := do
  pure (String.ofList (← textChars ((← remaining) + 1)))

end Reader

end ViewBinding.Json
