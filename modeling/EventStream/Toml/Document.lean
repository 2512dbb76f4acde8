import EventStream.Toml.Error

/-
# Building the tables of a settings file

A settings file mentions its tables piece by piece: a header opens a table, a dotted key reaches
into tables below it, and a header in double brackets adds a table to a list. What was defined once
must not be defined again, and which definitions are left open is recorded beside the tables:

* a list or table written as a value is *closed*, together with everything below it;
* a table that a header or a dotted key has made is *named*, and no header may name it again; the
  names that dotted keys make count from the next header on.
-/

namespace EventStream.Toml

/-- The keys that lead from the root to a place. -/
abbrev Path := List Text

/-- The tables read so far, and what must not be defined again. -/
structure Document where
  root : Table := []
  closed : List Path := []
  named : List Path := []
  /-- Names made by dotted keys since the last header. -/
  pending : List Path := []

mutual

/-- Change the table at a path inside a value; a list stands for its last item. -/
def modifyValueAt (f : Table → Option Table) (path : Path) (bound : Nat) (v : Value) :
    Option Value :=
  match bound with
  | 0 => none
  | bound + 1 =>
    match v with
    | .table t => (tableModifyAt f path bound t).map .table
    | .list items =>
      match items.getLast? with
      | none => none
      | some (.table t) =>
        (tableModifyAt f path bound t).map fun t => .list (items.dropLast ++ [.table t])
      | some _ => none
    | _ => none

/-- Change the table at a path; tables that are missing on the way are made. -/
def tableModifyAt (f : Table → Option Table) (path : Path) (bound : Nat) (t : Table) :
    Option Table :=
  match bound with
  | 0 => none
  | bound + 1 =>
    match path with
    | [] => f t
    | key :: rest =>
      let inner := (t.get? key).getD (.table [])
      (modifyValueAt f rest bound inner).map fun v => t.set key v

end

namespace Document

/-- Change the table at a path of the document. -/
def modifyAt (d : Document) (path : Path) (f : Table → Option Table) : Except Error Document :=
  match tableModifyAt f path (2 * path.length + 2) d.root with
  | some root => .ok { d with root }
  | none => .error .malformed

/-- Whether a place lies in something closed. -/
def isClosed (d : Document) (path : Path) : Bool := d.closed.any (·.isPrefixOf path)

/-- Whether a place has been named. -/
def isNamed (d : Document) (path : Path) : Bool := d.named.contains path

/-- At a header the names that dotted keys made begin to count. -/
def settle (d : Document) : Document := { d with named := d.named ++ d.pending, pending := [] }

/-- Open the table of a header. -/
def openTable (d : Document) (path : Path) : Except Error Document :=
  let d := d.settle
  if d.isNamed path || d.isClosed path then .error .malformed
  else { d with named := path :: d.named }.modifyAt path some

/-- Add a table to the list of a header in double brackets. What was said about the place and
everything below it concerned the table before and is forgotten. -/
def openItem (d : Document) (path : Path) : Except Error Document :=
  let d := d.settle
  if d.isClosed path then .error .malformed
  else
    let d := { d with
      closed := d.closed.filter (!path.isPrefixOf ·)
      named := path :: d.named.filter (!path.isPrefixOf ·) }
    match path.getLast? with
    | none => .error .malformed
    | some last =>
      d.modifyAt path.dropLast fun t =>
        match t.get? last with
        | none => some (t.set last (.list [.table []]))
        | some (.list items) => some (t.set last (.list (items ++ [.table []])))
        | some _ => none

/-- The names on the way to the last of several keys, from the table of a header on. -/
def namesBetween (header key : Path) : List Path :=
  (List.range (key.length - 1)).map fun i => header ++ key.take (i + 1)

/-- Set a key below the table of a header. -/
def define (d : Document) (header key : Path) (value : Value) : Except Error Document :=
  let between := namesBetween header key
  match key.getLast? with
  | none => .error .malformed
  | some last =>
    let parent := header ++ key.dropLast
    if between.any d.isNamed || d.isClosed parent then .error .malformed
    else
      let closed := match value with
        | .table _ | .list _ => (header ++ key) :: d.closed
        | _ => d.closed
      { d with closed, pending := between ++ d.pending }.modifyAt parent fun t =>
        if t.has last then none else some (t.set last value)

end Document

/-- Set a key below an inline table, where lists are not entered. -/
def insertInline (value : Value) : Path → Table → Option Table
  | [], _ => none
  | [key], t => if t.has key then none else some (t.set key value)
  | key :: rest, t =>
    match t.get? key with
    | none => (insertInline value rest []).map fun inner => t.set key (.table inner)
    | some (.table inner) => (insertInline value rest inner).map fun inner => t.set key (.table inner)
    | some _ => none

end EventStream.Toml
