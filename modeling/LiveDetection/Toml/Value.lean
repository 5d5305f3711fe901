import LiveDetection.Data.OrderedMap

/-!
# TOML values

The tree of a document. Arrays and tables remember how they came about, because that
decides whether later lines of the document may add to them.
-/

namespace LiveDetection.Toml

/-- A number with a point or a power of ten. -/
inductive Real where
  | decimal (negative : Bool) (digits : List Nat) (exponent : Int)
  | infinite (negative : Bool)
  | undefined
deriving DecidableEq, Repr

/-- How an array came about. -/
inductive ArrayOrigin where
  /-- It was written out as a value. -/
  | literal
  /-- It collects the tables of repeated headers. -/
  | headers
deriving DecidableEq, Repr

/-- How a table came about. -/
inductive TableOrigin where
  /-- It has a header of its own, or is the document. -/
  | header
  /-- It stands in the path of a header. -/
  | implied
  /-- It stands in the path of a dotted key. -/
  | dotted
  /-- It was written out as a value. -/
  | inline
deriving DecidableEq, Repr

/-- A value of a document. -/
inductive Value where
  | text (value : String)
  | integer (value : Int)
  | real (value : Real)
  | boolean (value : Bool)
  /-- A date, a time or both, in normal spelling. -/
  | moment (spelling : String)
  | array (origin : ArrayOrigin) (elements : List Value)
  /-- A table, with its entries in key order. -/
  | table (origin : TableOrigin) (entries : List (String × Value))
deriving Inhabited

/-- The content of a table. -/
structure Table where
  origin : TableOrigin
  entries : List (String × Value)

namespace Table

/-- The table as a value. -/
def toValue (t : Table) : Value := .table t.origin t.entries

/-- The value under a key. -/
def get? (t : Table) (key : String) : Option Value := t.entries.lookup key

/-- The table with a value under a key. -/
def set (t : Table) (key : String) (value : Value) : Table :=
  { t with entries := OrderedMap.place key value t.entries }

/-- The document before its first line. -/
def emptyDocument : Table := ⟨.header, []⟩

/-- The inline table before its first entry. -/
def emptyInline : Table := ⟨.inline, []⟩

/-- Change the table that a path leads to. Tables that are missing on the way come into being
with the origin `missing`. A path leads through the last table of an array of headers, and
never into an inline table; the path of a dotted key does not lead into a table with a header
of its own either. -/
def descend (missing : TableOrigin) (change : Table → Option Table) :
    List String → Table → Option Table
  | [], t => change t
  | key :: path, t =>
    match t.get? key with
    | none => (descend missing change path ⟨missing, []⟩).map fun child => t.set key child.toValue
    | some (.table origin entries) =>
      if origin = .inline ∨ (missing = .dotted ∧ origin = .header) then none
      else
        (descend missing change path ⟨origin, entries⟩).map fun child => t.set key child.toValue
    | some (.array .headers elements) =>
      match elements.getLast? with
      | some (.table origin entries) =>
        (descend missing change path ⟨origin, entries⟩).map fun child =>
          t.set key (.array .headers (elements.dropLast ++ [child.toValue]))
      | _ => none
    | some _ => none

/-- Put a value under a key that is still free. -/
def addFree (key : String) (value : Value) (t : Table) : Option Table :=
  match t.get? key with
  | none => some (t.set key value)
  | some _ => none

/-- Put a value under a dotted key. All but the last part of the key have to lead to a table
that came about by dotted keys. -/
def addEntry (path : List String) (value : Value) (t : Table) : Option Table :=
  match path.getLast? with
  | none => none
  | some key =>
    descend .dotted
      (fun parent =>
        if path.length = 1 ∨ parent.origin = .dotted then parent.addFree key value else none)
      path.dropLast t

/-- Open the table of a header. Only a table that was implied so far can be opened again. -/
def openHeader (path : List String) (t : Table) : Option Table :=
  match path.getLast? with
  | none => none
  | some key =>
    descend .implied
      (fun parent =>
        match parent.get? key with
        | none => some (parent.set key (.table .header []))
        | some (.table .implied entries) => some (parent.set key (.table .header entries))
        | some _ => none)
      path.dropLast t

/-- Open one more table of a repeated header. -/
def openElement (path : List String) (t : Table) : Option Table :=
  match path.getLast? with
  | none => none
  | some key =>
    descend .implied
      (fun parent =>
        match parent.get? key with
        | none => some (parent.set key (.array .headers [.table .header []]))
        | some (.array .headers elements) =>
          some (parent.set key (.array .headers (elements ++ [.table .header []])))
        | some _ => none)
      path.dropLast t

end Table

/-- A line of a document that says something. -/
inductive Statement where
  /-- The header of a table. -/
  | header (path : List String)
  /-- The header of one more table of an array. -/
  | element (path : List String)
  /-- A key with its value, in the table of the last header. -/
  | entry (path : List String) (value : Value)

/-- The document so far, and the table to which entries go. -/
structure Draft where
  root : Table := .emptyDocument
  current : List String := []

/-- The document with one more statement, if the statement is allowed there. -/
def Draft.extend (d : Draft) : Statement → Option Draft
  | .header path => (d.root.openHeader path).map fun root => ⟨root, path⟩
  | .element path => (d.root.openElement path).map fun root => ⟨root, path⟩
  | .entry path value =>
    (Table.descend .implied (Table.addEntry path value) d.current d.root).map fun root =>
      { d with root := root }

/-- The document that statements make up. -/
def Table.ofStatements? (statements : List Statement) : Option Table :=
  (statements.foldlM Draft.extend {}).map (·.root)

end LiveDetection.Toml
