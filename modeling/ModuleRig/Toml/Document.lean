import ModuleRig.Toml.Reader

/-!
# TOML documents

The statements of a file, put together into one table. Every table is begun once: by a line of its
own, by a value, or by fields that name it on their lines. A list of tables grows by each line that
begins one more.
-/

namespace ModuleRig.Toml

abbrev Fields := List (String × Value)

/-- What stands under a top-level key. -/
inductive Entry where
  | value (v : Value)
  /-- A table whose fields name it on their own lines. -/
  | dotted (fields : Fields)
  /-- A table with a line of its own. -/
  | table (fields : Fields)
  /-- A list of tables, the newest first. -/
  | tables (newest : Fields) (older : List Fields)

/-- Where the next field goes. -/
inductive Cursor where
  | top
  | inside (name : String)
deriving DecidableEq

structure Document where
  entries : List (String × Entry)
  cursor : Cursor

namespace Document

def empty : Document := ⟨[], .top⟩

/-- Changes the entry under a key, or adds one. -/
def update (name : String) (f : Option Entry → Option Entry) :
    List (String × Entry) → Option (List (String × Entry))
  | [] => (f none).map fun entry => [(name, entry)]
  | (key, entry) :: rest =>
    if key = name then (f (some entry)).map fun entry => (key, entry) :: rest
    else (update name f rest).map ((key, entry) :: ·)

def addField (key : String) (value : Value) (fields : Fields) : Option Fields :=
  if fields.any (·.1 = key) then none else some (fields ++ [(key, value)])

/-- A table may begin where nothing stands. -/
def beginTable : Option Entry → Option Entry
  | none => some (.table [])
  | some _ => none

def beginElement : Option Entry → Option Entry
  | none => some (.tables [] [])
  | some (.tables newest older) => some (.tables [] (newest :: older))
  | some _ => none

def addTop (value : Value) : Option Entry → Option Entry
  | none => some (.value value)
  | some _ => none

def addDotted (key : String) (value : Value) : Option Entry → Option Entry
  | none => some (.dotted [(key, value)])
  | some (.dotted fields) => (addField key value fields).map .dotted
  | some _ => none

/-- Adds a field to the table that was begun last under its name. -/
def addInside (key : String) (value : Value) : Option Entry → Option Entry
  | some (.table fields) => (addField key value fields).map .table
  | some (.tables newest older) => (addField key value newest).map (.tables · older)
  | _ => none

/-- Changes the entry under a key, and leaves the cursor where it is given. -/
def change (d : Document) (name : String) (cursor : Cursor) (f : Option Entry → Option Entry) :
    Option Document :=
  (update name f d.entries).map fun entries => ⟨entries, cursor⟩

def apply (d : Document) : Statement → Option Document
  | .table name => d.change name (.inside name) beginTable
  | .element name => d.change name (.inside name) beginElement
  | .field key value =>
    match d.cursor with
    | .top => d.change key .top (addTop value)
    | .inside name => d.change name d.cursor (addInside key value)
  | .dotted name key value =>
    match d.cursor with
    | .top => d.change name .top (addDotted key value)
    | .inside _ => none

def applyAll (d : Document) : List Statement → Option Document
  | [] => some d
  | s :: rest => (d.apply s).bind (applyAll · rest)

def entryValue : Entry → Value
  | .value v => v
  | .dotted fields => .table fields
  | .table fields => .table fields
  | .tables newest older => .list ((newest :: older).reverse.map .table)

def fields (d : Document) : Fields :=
  d.entries.map fun (key, entry) => (key, entryValue entry)

end Document

/-- The fields of a file, none if it is not well-formed. -/
def read? (text : String) : Option Fields := do
  return (← Document.empty.applyAll (← statements? text)).fields

end ModuleRig.Toml
