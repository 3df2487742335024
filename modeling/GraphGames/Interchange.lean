import GraphGames.Error
import GraphGames.Game.Player

/-!
# Handles and tags as JSON

A handle is exchanged as an unsigned 64-bit integer, and a value of an enumeration as its tag: a
string, or an object whose only member has the tag as its name and `null` as its value.

* `JsonText.index?`, `JsonText.tag?`: reading an integer or a tag, with blanks around it;
* `JsonText.ofIndex`, `JsonText.ofTag`: writing them;
* `Exchanged`: the types that are exchanged, with `ofJson?` and `toJson`.
-/

namespace GraphGames

namespace JsonText

/-- The blanks of JSON. -/
def isBlank (c : Char) : Bool := c == ' ' || c == '\t' || c == '\n' || c == '\r'

/-- A text without the blanks in front. -/
def skipBlanks (cs : List Char) : List Char := cs.dropWhile isBlank

/-- The text after a given start, if it has that start. -/
def after? : (start cs : List Char) → Option (List Char)
  | [], cs => some cs
  | s :: start, c :: cs => if s = c then after? start cs else none
  | _ :: _, [] => none

/-- The value of a hexadecimal digit. -/
def hexDigit? (c : Char) : Option Nat :=
  if '0' ≤ c ∧ c ≤ '9' then some (c.toNat - '0'.toNat)
  else if 'a' ≤ c ∧ c ≤ 'f' then some (c.toNat - 'a'.toNat + 10)
  else if 'A' ≤ c ∧ c ≤ 'F' then some (c.toNat - 'A'.toNat + 10)
  else none

/-- The character with a code of four hexadecimal digits. Halves of a surrogate pair have none. -/
def codePoint? (a b c d : Char) : Option Char := do
  let code := ((← hexDigit? a) * 16 + (← hexDigit? b)) * 256 + (← hexDigit? c) * 16 + (← hexDigit? d)
  if 0xd800 ≤ code ∧ code < 0xe000 then none else some (Char.ofNat code)

/-- The character that follows a backslash in a string. -/
def simpleEscape? (c : Char) : Option Char :=
  match c with
  | '"' => some '"'
  | '\\' => some '\\'
  | '/' => some '/'
  | 'b' => some '\x08'
  | 'f' => some '\x0c'
  | 'n' => some '\n'
  | 'r' => some '\r'
  | 't' => some '\t'
  | _ => none

/-- The content of a string after its opening quote, and what follows the closing one. -/
def stringTail? : List Char → Option (List Char × List Char)
  | [] => none
  | '"' :: rest => some ([], rest)
  | '\\' :: 'u' :: a :: b :: c :: d :: rest => do
    let first ← codePoint? a b c d
    let (content, rest) ← stringTail? rest
    return (first :: content, rest)
  | '\\' :: e :: rest => do
    let first ← simpleEscape? e
    let (content, rest) ← stringTail? rest
    return (first :: content, rest)
  | c :: rest =>
    if c.toNat < 0x20 ∨ c = '\\' then none
    else do
      let (content, rest) ← stringTail? rest
      return (c :: content, rest)

/-- The content of a string, after blanks, and what follows it. -/
def string? (cs : List Char) : Option (List Char × List Char) := do
  stringTail? (← after? ['"'] (skipBlanks cs))

/-- A tag in an object, after its opening brace, and what follows the object. -/
def member? (cs : List Char) : Option (List Char × List Char) := do
  let (tag, rest) ← string? cs
  let rest ← after? [':'] (skipBlanks rest)
  let rest ← after? ['n', 'u', 'l', 'l'] (skipBlanks rest)
  let rest ← after? ['\x7d'] (skipBlanks rest)
  return (tag, rest)

/-- The tag in a text. -/
def tag? (text : String) : Option String := do
  let (tag, rest) ← match skipBlanks text.toList with
    | '\x7b' :: rest => member? rest
    | cs => string? cs
  if (skipBlanks rest).isEmpty then some (String.ofList tag) else none

/-- The unsigned 64-bit integer in a text: digits without a leading zero. -/
def index? (text : String) : Option Nat :=
  let digits := (skipBlanks text.toList).takeWhile Char.isDigit
  let rest := (skipBlanks text.toList).dropWhile Char.isDigit
  let value := digits.foldl (fun n c => 10 * n + (c.toNat - '0'.toNat)) 0
  if (skipBlanks rest).isEmpty ∧ digits ≠ [] ∧ (digits.head? = some '0' → digits.length = 1) ∧
      value < UInt64.size then some value
  else none

/-- An integer as JSON. -/
def ofIndex (n : Nat) : String := toString n

/-- A tag as JSON; tags need no escapes. -/
def ofTag (tag : String) : String := s!"\"{tag}\""

/-- The member of a list whose tag is in a text. -/
def ofTag? {α : Type} (all : List α) (label : α → String) (text : String) : Option α := do
  let tag ← tag? text
  all.find? fun a => label a == tag

end JsonText

/-- A type whose values are exchanged as JSON. -/
class Exchanged (α : Type) where
  ofJson? : String → Option α
  toJson : α → String

/-- The tag of a scope. -/
def Scope.label : Scope → String
  | vertex => "Vertex"
  | edge => "Edge"
  | graph => "Graph"

/-- The tag of a kind of game. -/
def GameKind.label : GameKind → String
  | concurrent => "Concurrent"
  | turnBased => "TurnBased"

instance : Exchanged VertexId where
  ofJson? text := (JsonText.index? text).map VertexId.mk
  toJson v := JsonText.ofIndex v.index

instance : Exchanged EdgeId where
  ofJson? text := (JsonText.index? text).map EdgeId.mk
  toJson e := JsonText.ofIndex e.index

instance : Exchanged Scope where
  ofJson? := JsonText.ofTag? [.vertex, .edge, .graph] Scope.label
  toJson s := JsonText.ofTag s.label

instance : Exchanged ValueType where
  ofJson? := JsonText.ofTag? ValueType.all ValueType.label
  toJson t := JsonText.ofTag t.label

instance : Exchanged Player where
  ofJson? := JsonText.ofTag? [.one, .two] Player.label
  toJson p := JsonText.ofTag p.label

instance : Exchanged GameKind where
  ofJson? := JsonText.ofTag? [.concurrent, .turnBased] GameKind.label
  toJson k := JsonText.ofTag k.label

/-- Reading a text and writing it again. -/
def normalizeJson? (α : Type) [Exchanged α] (text : String) : Option String :=
  (Exchanged.ofJson? text : Option α).map Exchanged.toJson

example : normalizeJson? ValueType " \"Bo\\u006fl\"\n" = some "\"Bool\"" := by cbv
example : normalizeJson? EdgeId "01" = none := by cbv
example : normalizeJson? EdgeId "-0" = none := by cbv

end GraphGames
