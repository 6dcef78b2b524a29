import AnnotationWeaver.Toml.Basic
import AnnotationWeaver.Toml.Quoted
import AnnotationWeaver.Toml.Scalar

/-!
Reading TOML text, version 1.0. A document is read line by line: headers choose the table that the
keys after them belong to. Arrays may span lines, inline tables may not, and both together may be
nested 79 deep.
-/
namespace AnnotationWeaver.Toml

def isBareKey (c : Char) : Bool := c.isAlphanum || c = '-' || c = '_'

/-- One name of a key. -/
def readName (s : List Char) : Option (String × List Char) :=
  match s with
  | '"' :: _ | '\'' :: _ => (readQuotedKey s).map fun (name, rest) => (String.ofList name, rest)
  | _ =>
    let name := s.takeWhile isBareKey
    if name.isEmpty then none else some (String.ofList name, s.drop name.length)

/-- How many containers may be nested, and how many names a key may have. -/
def nestingLimit : Nat := 79

/-- A key: names with points between them, and blanks around each. -/
def readKey : (names : Nat) → List Char → Option (List String × List Char)
  | 0, _ => none
  | names + 1, s => do
    let (name, rest) ← readName (skipBlanks s)
    match skipBlanks rest with
    | '.' :: rest => do
      let (path, rest) ← readKey names rest
      return (name :: path, rest)
    | rest => return ([name], rest)

/-- The text after blanks, line breaks and comments. -/
def skipLines : (inComment : Bool) → List Char → List Char
  | _, '\n' :: rest => skipLines false rest
  | _, '\r' :: '\n' :: rest => skipLines false rest
  | true, c :: rest => if isText c then skipLines true rest else c :: rest
  | false, '#' :: rest => skipLines true rest
  | false, c :: rest => if isBlank c then skipLines false rest else c :: rest
  | _, [] => []

/-- A character of a number, a date or a truth value. -/
def isScalarChar (c : Char) : Bool :=
  c.isAlphanum || c = '+' || c = '-' || c = '_' || c = '.' || c = ':'

/-- A number, a date or a truth value. -/
def readScalar (s : List Char) : Option (Toml × List Char) :=
  let word := s.takeWhile isScalarChar
  let rest := s.drop word.length
  if word = "true".toList then some (.boolean true, rest)
  else if word = "false".toList then some (.boolean false, rest)
  else if isDateAlone word then
    match rest with
    | ' ' :: rest =>
      let time := rest.takeWhile isScalarChar
      if time.isEmpty then some (.scalar, ' ' :: rest)
      else if isTimeWithOffset time then some (.scalar, rest.drop time.length)
      else none
    | rest => some (.scalar, rest)
  else if isScalar word then some (.scalar, rest)
  else none

/-- The path of a key before its last name, and that name. -/
def splitPath (key : List String) : List String × String := (key.dropLast, key.getLastD "")

mutual

/-- The value at the front of the text; `depth` containers may still be opened. -/
def readValue (fuel depth : Nat) (s : List Char) : Option (Toml × List Char) :=
  match fuel with
  | 0 => none
  | fuel + 1 =>
    match s with
    | '"' :: _ | '\'' :: _ => (readQuoted s).map fun (text, rest) => (.string (String.ofList text), rest)
    | '[' :: rest =>
      if depth = 0 then none
      else (readElements fuel (depth - 1) rest).map fun (elements, rest) => (.array elements, rest)
    | '\x7b' :: rest =>
      if depth = 0 then none
      else
        match skipBlanks rest with
        | '\x7d' :: rest => some (.table .inlined [], rest)
        | rest => readPairs fuel (depth - 1) (.table .inlined []) rest
    | _ => readScalar s
termination_by structural fuel

/-- The elements of an array up to its closing bracket; the last may be followed by a comma. -/
def readElements (fuel depth : Nat) (s : List Char) : Option (List Toml × List Char) :=
  match fuel with
  | 0 => none
  | fuel + 1 =>
    match skipLines false s with
    | ']' :: rest => some ([], rest)
    | s =>
      match readValue fuel depth s with
      | none => none
      | some (value, rest) =>
        match skipLines false rest with
        | ']' :: rest => some ([value], rest)
        | ',' :: rest => (readElements fuel depth rest).map fun (values, rest) => (value :: values, rest)
        | _ => none
termination_by structural fuel

/-- The members of an inline table that has some, up to its closing brace. -/
def readPairs (fuel depth : Nat) (table : Toml) (s : List Char) : Option (Toml × List Char) :=
  match fuel with
  | 0 => none
  | fuel + 1 =>
    match readKey nestingLimit s with
    | some (key, '=' :: rest) =>
      match readValue fuel depth (skipBlanks rest) with
      | none => none
      | some (value, rest) =>
        match Toml.insert (splitPath key).1 (splitPath key).2 value table with
        | none => none
        | some table =>
          match skipBlanks rest with
          | '\x7d' :: rest => some (table, rest)
          | ',' :: rest => readPairs fuel depth table rest
          | _ => none
    | _ => none
termination_by structural fuel

end

/-- What is left after the end of a line, which may hold a comment. -/
def endLine (s : List Char) : Option (List Char) :=
  let rest := match skipBlanks s with
    | '#' :: comment => comment.dropWhile isText
    | rest => rest
  match rest with
  | [] => some []
  | _ => afterBreak? rest

/-- A document that is read so far, and the path of the header that it is under. -/
structure Draft where
  header : List String
  document : Toml

namespace Draft

/-- The document with one more value under the current header. -/
def insert (d : Draft) (key : List String) (value : Toml) : Option Draft := do
  let (path, name) := splitPath key
  let document ← descend false (Toml.insert path name value) d.header d.document
  return { d with document }

/-- The document under another header. -/
def under (d : Draft) (array : Bool) (key : List String) : Option Draft := do
  let (path, name) := splitPath key
  let document ← if array then openElement? path name d.document else open? path name d.document
  return ⟨key, document⟩

/-- Reads one line that holds something: a header, or a key with its value. -/
def line (fuel : Nat) (d : Draft) : List Char → Option (Draft × List Char)
  | '[' :: '[' :: s => do
    match ← readKey nestingLimit s with
    | (key, ']' :: ']' :: rest) => return (← d.under true key, rest)
    | _ => none
  | '[' :: s => do
    match ← readKey nestingLimit s with
    | (key, ']' :: rest) => return (← d.under false key, rest)
    | _ => none
  | s => do
    match ← readKey nestingLimit s with
    | (key, '=' :: rest) => do
      let (value, rest) ← readValue fuel nestingLimit (skipBlanks rest)
      return (← d.insert key value, rest)
    | _ => none

/-- Reads all lines. -/
def lines : (fuel : Nat) → Draft → List Char → Option Draft
  | 0, _, _ => none
  | fuel + 1, d, s =>
    match skipBlanks s with
    | [] => some d
    | '#' :: rest => (endLine ('#' :: rest)).bind (lines fuel d)
    | s =>
      match afterBreak? s with
      | some rest => lines fuel d rest
      | none =>
        match d.line (2 * s.length + 2) s with
        | some (d, rest) => (endLine rest).bind (lines fuel d)
        | none => none

end Draft

/-- The members of a document; a byte order mark at its start is dropped. -/
def read? (text : String) : Option (List (String × Toml)) :=
  let s := match text.toList with
    | '\uFEFF' :: rest => rest
    | s => s
  match Draft.lines (s.length + 1) ⟨[], .empty⟩ s with
  | some ⟨_, .table _ members⟩ => some members
  | _ => none

end AnnotationWeaver.Toml
