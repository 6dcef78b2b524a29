import AnnotationWeaver.Text.Digits

/-!
Strings of TOML. Basic strings have escapes and literal strings have none; both come on one line or
on several. A string on several lines drops a line break at its very start, reads every line break as
a line feed, and may hold one or two quotes in a row, also before its closing ones.
-/
namespace AnnotationWeaver.Toml

def isBlank (c : Char) : Bool := c = ' ' || c = '\t'

def skipBlanks (s : List Char) : List Char := s.dropWhile isBlank

/-- A character that may stand in a comment: no control character but the tab. -/
def isText (c : Char) : Bool := c = '\t' || (0x20 ≤ c.toNat && c.toNat ≠ 0x7F)

/-- The character with a number, if there is one. -/
def scalarOf? (n : Nat) : Option Char := if h : n.isValidChar then some (Char.ofNatAux n h) else none

/-- One character after a backslash, and the text after it. -/
def readEscape : List Char → Option (Char × List Char)
  | 'b' :: rest => some (Char.ofNat 8, rest)
  | 't' :: rest => some ('\t', rest)
  | 'n' :: rest => some ('\n', rest)
  | 'f' :: rest => some (Char.ofNat 12, rest)
  | 'r' :: rest => some ('\r', rest)
  | '"' :: rest => some ('"', rest)
  | '\\' :: rest => some ('\\', rest)
  | 'u' :: rest => (Text.ofHex? (rest.take 4)).bind fun n =>
    if 4 ≤ rest.length then (scalarOf? n).map (·, rest.drop 4) else none
  | 'U' :: rest => (Text.ofHex? (rest.take 8)).bind fun n =>
    if 8 ≤ rest.length then (scalarOf? n).map (·, rest.drop 8) else none
  | _ => none

/-- The text after a line break at the front. -/
def afterBreak? : List Char → Option (List Char)
  | '\n' :: rest => some rest
  | '\r' :: '\n' :: rest => some rest
  | _ => none

/-- A basic string on one line, after its opening quote. -/
def readBasic : (fuel : Nat) → List Char → Option (List Char × List Char)
  | 0, _ => none
  | _ + 1, '"' :: rest => some ([], rest)
  | fuel + 1, '\\' :: rest => do
    let (c, rest) ← readEscape rest
    let (cs, rest) ← readBasic fuel rest
    return (c :: cs, rest)
  | fuel + 1, c :: rest =>
    if isText c then (readBasic fuel rest).map fun (cs, rest) => (c :: cs, rest) else none
  | _ + 1, [] => none

/-- A literal string on one line, after its opening quote. -/
def readLiteral : List Char → Option (List Char × List Char)
  | '\'' :: rest => some ([], rest)
  | c :: rest => if isText c then (readLiteral rest).map fun (cs, rest) => (c :: cs, rest) else none
  | [] => none

/-- The quotes that still belong to a string after three of them, and the text after those. -/
def closing (quote : Char) : List Char → List Char × List Char
  | a :: b :: rest =>
    if a = quote then if b = quote then ([a, b], rest) else ([a], b :: rest) else ([], a :: b :: rest)
  | [a] => if a = quote then ([a], []) else ([], [a])
  | [] => ([], [])

/-- The text after blanks and line breaks. -/
def skipGap : List Char → List Char
  | ' ' :: rest => skipGap rest
  | '\t' :: rest => skipGap rest
  | '\n' :: rest => skipGap rest
  | '\r' :: '\n' :: rest => skipGap rest
  | s => s

/-- A string on several lines; with escapes, a backslash at the end of a line joins the lines. -/
def readLines (quote : Char) (escapes : Bool) : (fuel : Nat) → List Char → Option (List Char × List Char)
  | 0, _ => none
  | fuel + 1, s =>
    match s with
    | [] => none
    | c :: rest =>
      if [quote, quote, quote].isPrefixOf s then some (closing quote (s.drop 3))
      else if escapes ∧ c = '\\' then
        if (afterBreak? (skipBlanks rest)).isSome then readLines quote escapes fuel (skipGap rest)
        else do
          let (c, rest) ← readEscape rest
          let (cs, rest) ← readLines quote escapes fuel rest
          return (c :: cs, rest)
      else
        match afterBreak? s with
        | some rest => (readLines quote escapes fuel rest).map fun (cs, rest) => ('\n' :: cs, rest)
        | none =>
          if isText c then (readLines quote escapes fuel rest).map fun (cs, rest) => (c :: cs, rest) else none

/-- A string that starts with a quote, on one line or on several. -/
def readQuoted (s : List Char) : Option (List Char × List Char) :=
  match s with
  | '"' :: '"' :: '"' :: rest => readLines '"' true (s.length + 1) ((afterBreak? rest).getD rest)
  | '\'' :: '\'' :: '\'' :: rest => readLines '\'' false (s.length + 1) ((afterBreak? rest).getD rest)
  | '"' :: rest => readBasic (s.length + 1) rest
  | '\'' :: rest => readLiteral rest
  | _ => none

/-- A string that a key may be: on one line. -/
def readQuotedKey (s : List Char) : Option (List Char × List Char) :=
  match s with
  | '"' :: rest => readBasic (s.length + 1) rest
  | '\'' :: rest => readLiteral rest
  | _ => none

end AnnotationWeaver.Toml
