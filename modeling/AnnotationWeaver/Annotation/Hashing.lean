import AnnotationWeaver.Annotation.Basic

/-!
What a hasher takes in of types, values and annotations, item by item. Each choice between kinds goes in as its number,
each sequence after its length, and a floating-point value as its bits. The members of an annotation go in by
name, at every depth, so that their order does not tell annotations apart that are the same.
-/
namespace AnnotationWeaver

/-- One item that a hasher takes in. -/
inductive HashItem where
  | choice (number : Nat)
  | length (n : Nat)
  | uint8 (n : UInt8)
  | int8 (n : Int8)
  | int16 (n : Int16)
  | int32 (n : Int32)
  | int64 (n : Int64)
  | uint32 (n : UInt32)
  | uint64 (n : UInt64)
  | text (s : String)
  deriving DecidableEq, Repr

def ValueKind.hashItem (kind : ValueKind) : HashItem := .choice (all.idxOf kind)

def Primitive.hashItem (kind : Primitive) : HashItem := .choice (all.idxOf kind)

mutual

def Ty.hashItems (t : Ty) : List HashItem :=
  match t with
  | .void => [.choice 0]
  | .primitive kind => [.choice 1, kind.hashItem]
  | .named name => [.choice 2, .text name.text]
  | .array component => .choice 3 :: component.hashItems
  | .parameterized raw arguments =>
    .choice 4 :: .text raw.text :: .length arguments.length :: Ty.allHashItems arguments
termination_by structural t

def Ty.allHashItems (ts : List Ty) : List HashItem :=
  match ts with
  | [] => []
  | t :: rest => t.hashItems ++ Ty.allHashItems rest
termination_by structural ts

end

/-- What goes in of members, each name before its value, in the order of the names. -/
def membersByName (entries : List (String × List HashItem)) : List HashItem :=
  (entries.mergeSort fun x y => decide (x.1 ≤ y.1)).flatMap fun entry => .text entry.1 :: entry.2

mutual

def Value.hashItems (v : Value) : List HashItem :=
  match v with
  | .boolean b => [ValueKind.boolean.hashItem, .uint8 (if b then 1 else 0)]
  | .byte n => [ValueKind.byte.hashItem, .int8 n]
  | .short n => [ValueKind.short.hashItem, .int16 n]
  | .int n => [ValueKind.int.hashItem, .int32 n]
  | .long n => [ValueKind.long.hashItem, .int64 n]
  | .float x => [ValueKind.float.hashItem, .uint32 x.bits]
  | .double x => [ValueKind.double.hashItem, .uint64 x.bits]
  | .char c => [ValueKind.char.hashItem, .uint32 c.val]
  | .string s => [ValueKind.string.hashItem, .text s]
  | .enumConstant type constant => [ValueKind.enumConstant.hashItem, .text type.text, .text constant]
  | .classLiteral type => ValueKind.classLiteral.hashItem :: type.hashItems
  | .nested a => ValueKind.nested.hashItem :: a.hashItems
  | .array component elements =>
    ValueKind.array.hashItem :: component.hashItem :: .length elements.length :: Value.allHashItems elements
termination_by structural v

def Value.allHashItems (vs : List Value) : List HashItem :=
  match vs with
  | [] => []
  | v :: rest => v.hashItems ++ Value.allHashItems rest
termination_by structural vs

def Annotation.hashItems (a : Annotation) : List HashItem :=
  match a with
  | ⟨type, members⟩ => .text type.text :: .length members.length :: membersByName (Member.hashEntries members)
termination_by structural a

/-- The name of each member with what goes in of its value. -/
def Member.hashEntries (ms : List Member) : List (String × List HashItem) :=
  match ms with
  | [] => []
  | m :: rest => m.hashEntry :: Member.hashEntries rest
termination_by structural ms

def Member.hashEntry (m : Member) : String × List HashItem :=
  match m with
  | ⟨name, value⟩ => (name, value.hashItems)
termination_by structural m

end

end AnnotationWeaver
