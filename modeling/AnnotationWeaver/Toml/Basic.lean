import AnnotationWeaver.Assoc

/-!
TOML documents as trees of tables. A table remembers how it came to be, since that decides what may be
added to it: a table with a header is given once, a table that a dotted key made takes more dotted
keys, and an inline table is closed. `insert` adds a value under a dotted key; `open?` and
`openElement?` start the table of a header.
-/
namespace AnnotationWeaver

/-- How a table came to be. -/
inductive TableKind where
  /-- Written between braces. -/
  | inlined
  /-- Named by a header, or the whole document. -/
  | headed
  /-- Passed through by a header. -/
  | implied
  /-- Passed through by a dotted key. -/
  | dotted
  deriving DecidableEq, Repr

/-- A member of a document; numbers and dates are not told apart. -/
inductive Toml where
  | string (s : String)
  | boolean (b : Bool)
  | scalar
  | array (elements : List Toml)
  | table (kind : TableKind) (members : List (String × Toml))
  /-- An array of tables, one for each header. -/
  | tables (elements : List Toml)

namespace Toml

/-- The document without members. -/
def empty : Toml := .table .headed []

/-- The kind of table that a path makes where there is none. -/
def madeBy (byKey : Bool) : TableKind := if byKey then .dotted else .implied

/-- Whether a path may pass through a table: a header passes through all but inline ones, a dotted key
    only through those that no header named. -/
def passes (byKey : Bool) : TableKind → Bool
  | .inlined => false
  | .headed => !byKey
  | .implied | .dotted => true

/-- Changes the table at the end of a path, making the tables that are missing; an array of tables
    stands for its last one. -/
def descend (byKey : Bool) (change : Toml → Option Toml) : (path : List String) → Toml → Option Toml
  | [], t => change t
  | name :: path, .table kind members =>
    let child := match (Assoc.find? name members).getD (.table (madeBy byKey) []) with
      | .table kind members =>
        if passes byKey kind then descend byKey change path (.table kind members) else none
      | .tables elements =>
        (elements.getLast?.bind (descend byKey change path)).map fun last =>
          .tables (elements.dropLast ++ [last])
      | _ => none
    child.map fun t => .table kind (Assoc.set name t members)
  | _ :: _, _ => none

/-- Adds a value to a table that a path led to; tables that dotted keys did not make take no dotted
    keys, and no name is given twice. -/
def addMember (byKey : Bool) (name : String) (value : Toml) : Toml → Option Toml
  | .table kind members =>
    if (kind == .dotted) == byKey && (Assoc.find? name members).isNone then
      some (.table kind (members ++ [(name, value)]))
    else none
  | _ => none

/-- Adds a value under a dotted key, given as the path before its last name and that name. -/
def insert (path : List String) (name : String) (value : Toml) (t : Toml) : Option Toml :=
  descend true (addMember (!path.isEmpty) name value) path t

/-- Starts the table of a header. -/
def open? (path : List String) (name : String) (t : Toml) : Option Toml :=
  descend false
    (fun
      | .table kind members =>
        match Assoc.find? name members with
        | none => some (.table kind (members ++ [(name, .table .headed [])]))
        | some (.table .implied inside) => some (.table kind (Assoc.set name (.table .headed inside) members))
        | some _ => none
      | _ => none)
    path t

/-- Starts one more table of an array of tables. -/
def openElement? (path : List String) (name : String) (t : Toml) : Option Toml :=
  descend false
    (fun
      | .table kind members =>
        match Assoc.find? name members with
        | none => some (.table kind (members ++ [(name, .tables [.table .headed []])]))
        | some (.tables elements) =>
          some (.table kind (Assoc.set name (.tables (elements ++ [.table .headed []])) members))
        | some _ => none
      | _ => none)
    path t

end Toml

end AnnotationWeaver
