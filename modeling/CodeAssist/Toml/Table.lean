import CodeAssist.Json.Value

/-!
# TOML tables under construction

A document fills tables in three ways: a header opens a table, a dotted key creates the tables on
its way, and a double header appends a table to an array. No table may be opened twice, and a table
that was opened in one way may not be filled in another; the marks of a table keep these apart. A
table that only lies on the way to a header's table is not opened yet: either a header or a dotted
key may still do so.
-/

namespace CodeAssist.Toml

open CodeAssist.Json (Value)

/-! ### Entries -/

/-- How a table came to be. -/
inductive Origin where
  /-- Opened by a header, or the root. -/
  | header
  /-- Created on the way to a header's table. -/
  | headerPath
  /-- Created or used by a dotted key. -/
  | dottedKey
deriving DecidableEq, Repr

/-- What stands under a key. -/
inductive Entry where
  /-- A finished value. -/
  | value (v : Value)
  | table (origin : Origin) (members : List (String × Entry))
  /-- Tables appended by double headers, the last one first. -/
  | tables (last : List (String × Entry)) (earlier : List (List (String × Entry)))
deriving Inhabited

/-- Members of a table. -/
abbrev Members := List (String × Entry)

namespace Members

/-! ### Changes -/

/-- Changes what stands under a key, where `change` allows it; none stands for nothing. -/
def alter (change : Option Entry → Option Entry) (key : String) : Members → Option Members
  | [] => (change none).map fun entry => [(key, entry)]
  | (other, entry) :: rest =>
    if other = key then (change (some entry)).map fun entry => (key, entry) :: rest
    else (alter change key rest).map ((other, entry) :: ·)

/-- Changes the table at the end of a header's path, where the tables on the way are created as
needed. -/
def atHeader (change : Members → Option Members) : List String → Members → Option Members
  | [], members => change members
  | key :: path, members =>
    members.alter (fun
      | none => (atHeader change path []).map (.table .headerPath)
      | some (.table origin inner) => (atHeader change path inner).map (.table origin)
      -- A path through an array of tables leads through the last one.
      | some (.tables last earlier) => (atHeader change path last).map (.tables · earlier)
      | some (.value _) => none) key

/-- Changes the table at the end of a dotted key's path. No table on the path may have been opened
by a header, and from now on none may be. -/
def atDottedKey (change : Members → Option Members) : List String → Members → Option Members
  | [], members => change members
  | key :: path, members =>
    members.alter (fun
      | none => (atDottedKey change path []).map (.table .dottedKey)
      | some (.table origin inner) =>
        if origin = .header then none
        else (atDottedKey change path inner).map (.table .dottedKey)
      | some (.tables last earlier) =>
        -- The last table of an array is open already.
        if path.isEmpty then none else (atDottedKey change path last).map (.tables · earlier)
      | some (.value _) => none) key

/-! ### Keys and headers -/

/-- Adds a value under a key that is still free. -/
def add (key : String) (v : Value) (members : Members) : Option Members :=
  members.alter (fun
    | none => some (.value v)
    | some _ => none) key

/-- Adds a value under a dotted key. -/
def addDotted (path : List String) (key : String) (v : Value) (members : Members) :
    Option Members :=
  members.atDottedKey (add key v) path

/-- Opens a table that no header has opened before. -/
def openTable (path : List String) (key : String) (members : Members) : Option Members :=
  members.atHeader (alter (fun
    | none => some (.table .header [])
    -- A table on the way to another header may be opened later, once.
    | some (.table .headerPath inner) => some (.table .header inner)
    | some _ => none) key) path

/-- Appends a table to an array of tables. -/
def appendTable (path : List String) (key : String) (members : Members) : Option Members :=
  members.atHeader (alter (fun
    | none => some (.tables [] [])
    | some (.tables last earlier) => some (.tables [] (last :: earlier))
    | some _ => none) key) path

end Members

/-! ### Finished tables -/

mutual
/-- The value of an entry. -/
def Entry.finish : Entry → Value
  | .value v => v
  | .table _ members => .object (finishMembers members)
  | .tables last earlier =>
    .array ((finishTables earlier).reverse ++ [.object (finishMembers last)])

/-- The values of the members of a table. -/
def finishMembers : List (String × Entry) → List (String × Value)
  | [] => []
  | (key, entry) :: rest => (key, entry.finish) :: finishMembers rest

/-- The values of some tables. -/
def finishTables : List (List (String × Entry)) → List Value
  | [] => []
  | members :: rest => .object (finishMembers members) :: finishTables rest
end

end CodeAssist.Toml
