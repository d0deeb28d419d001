import CodeAssist.FilePath

/-!
# A file system as a value

Names below a working directory, and around it as far as they were put there. A name stands for a
directory, or for a numbered node that is a file, a device or a symbolic link; a file with several
names is one node under all of them. Operations that can fail answer none, or say how far they got;
what a failed operation did before it failed is the caller's to keep.

Every directory on the way to a place must exist before the place can be named, as `..` leads back
only from a directory. Symbolic links on the way are followed. The directories above the working
directory and the root are there, but nothing is known of what stands in them. In particular no name
leads from them back to the working directory.

Whatever else an operation can fail of, such as a missing permission or a full disk, is given with
the file system (`Obstacles`).
-/

namespace CodeAssist

/-! ### What stands where -/

/-- What a file holds. -/
inductive Content where
  | text (s : String)
  /-- Bytes that are no text. -/
  | bytes (data : ByteArray)

namespace Content

/-- What a file with some bytes holds. -/
def ofBytes (data : ByteArray) : Content :=
  match String.fromUTF8? data with
  | some s => text s
  | none => bytes data

/-- The bytes of a content. -/
def toBytes : Content → ByteArray
  | text s => s.toUTF8
  | bytes data => data

/-- The number of bytes of a content. -/
def size : Content → Nat
  | text s => s.utf8ByteSize
  | bytes data => data.size

/-- The first bytes of a content, which may end inside a character. -/
def firstBytes (content : Content) (count : Nat) : Content :=
  ofBytes (content.toBytes.extract 0 count)

end Content

/-- What stands behind a name that is not a directory's. -/
inductive FileNode where
  | file (content : Content)
  /-- A device, which forgets what is written to it and always reads the same. -/
  | device (content : Content)
  /-- A symbolic link, with the path that it leads to. -/
  | link (target : String)

namespace FileNode

/-- A node after a content was written to it. -/
def holding (content : Content) : FileNode → FileNode
  | file _ => file content
  | device old => device old
  | link target => link target

/-- The path that a symbolic link leads to. -/
def target? : FileNode → Option String
  | link target => some target
  | file _ | device _ => none

end FileNode

/-- What a name stands for. -/
inductive FileEntry where
  /-- A directory, whose entries have places of their own. -/
  | directory
  | node (id : Nat)
deriving DecidableEq, Repr

/-- A directory that is always there. -/
inductive Base where
  /-- The directory some levels above the working directory, which lies no level above itself. -/
  | above (levels : Nat)
  | root
deriving DecidableEq, Repr

/-- A place: the names that lead to it from a directory that is always there. -/
structure Location where
  base : Base
  names : List String
deriving DecidableEq, Repr

namespace Location

/-- The working directory. -/
def working : Location := ⟨.above 0, []⟩

/-- The place under a name in a directory. -/
def child (location : Location) (name : String) : Location :=
  { location with names := location.names ++ [name] }

/-- The directory that a place lies in. The root lies in itself. -/
def parent (location : Location) : Location :=
  match location.names, location.base with
  | [], .above levels => ⟨.above (levels + 1), []⟩
  | [], .root => location
  | names, _ => { location with names := names.dropLast }

end Location

/-! ### What can stand in the way -/

/-- A request that may be refused. -/
inductive Request where
  | enter (directory : Location)
  | makeDirectory (place : Location)
  | makeFile (place : Location)
  | openToWrite (id : Nat)
  | read (id : Nat)
  | rename (source target : Location)
deriving DecidableEq, Repr

/-- What operations can fail of, besides the names that they are given. -/
structure Obstacles where
  /-- Requests that are refused, such as for want of a permission. -/
  refuses : Request → Bool
  /-- How many bytes of a content a node takes up, where it does not take all. -/
  room : Nat → Option Nat

/-- Nothing is refused, and every content is taken up. -/
def Obstacles.none : Obstacles := ⟨fun _ => false, fun _ => .none⟩

/-- What stands at the places of which something is known. -/
structure FileSystem where
  entries : List (Location × FileEntry)
  /-- The nodes, by their numbers. Those that no name stands for are of no account. -/
  nodes : Nat → FileNode
  obstacles : Obstacles

namespace FileSystem

/-- Nothing but the working directory, and nothing in the way. -/
def empty : FileSystem := ⟨[], fun _ => .file (.text ""), .none⟩

variable (fs : FileSystem)

/-! ### Entries -/

/-- What the name at a place stands for. -/
def lookup (location : Location) : Option FileEntry :=
  if location.names = [] then some .directory else fs.entries.lookup location

/-- Whether a directory stands at a place. -/
def isDirectory (location : Location) : Bool :=
  fs.lookup location = some .directory

/-- What the symbolic link at a place leads to, if one stands there. -/
def linkAt? (location : Location) : Option String :=
  match fs.lookup location with
  | some (.node id) => (fs.nodes id).target?
  | _ => none

/-- Lets the name at a place stand for something. -/
def set (location : Location) (entry : FileEntry) : FileSystem :=
  { fs with
    entries := (location, entry) :: fs.entries.filter fun other => other.1 ≠ location }

/-- Clears a place. -/
def remove (location : Location) : FileSystem :=
  { fs with entries := fs.entries.filter fun other => other.1 ≠ location }

/-- Exchanges a node. -/
def setNode (id : Nat) (node : FileNode) : FileSystem :=
  { fs with nodes := fun other => if other = id then node else fs.nodes other }

/-- A number greater than that of any node with a name. -/
def freshId : Nat :=
  fs.entries.foldr (fun other bound =>
    match other.2 with
    | .directory => bound
    | .node id => max (id + 1) bound) 0

/-! ### Paths -/

/-- Whether a path can only name a directory, because of how it ends. -/
def namesDirectory (path : String) : Bool :=
  match path.toList.reverse with
  | '/' :: _ => true
  | '.' :: '/' :: _ => true
  | _ => false

/-- The steps that a path takes: the pieces that stand for components and, where the path can only
name a directory, one that stays there. -/
def stepsOf (path : String) : List String :=
  ((FilePath.Parts.ofPath path).pieces.filter fun piece => !FilePath.isSilent piece).map
    String.ofList ++ if namesDirectory path then ["."] else []

/-- Where the first step of a path starts that is found in a directory. -/
def startOf (directory : Location) (path : String) : Location :=
  if (FilePath.Parts.ofPath path).opening = ['/'] then ⟨.root, []⟩ else directory

/-- Whether a text can be the name of a file. -/
def isName (name : String) : Bool := name.utf8ByteSize ≤ 255

/-- Whether a text can be a path. -/
def isPath (path : String) : Bool :=
  path.utf8ByteSize < 4096 && !path.toList.contains '\x00'

/-- How far steps lead before a symbolic link has to be followed. -/
inductive Reach where
  | place (location : Location)
  /-- Up to a link in a directory, with the steps that come behind it. -/
  | link (directory : Location) (target : String) (rest : List String)
  | nowhere

/-- How far steps lead from a place. All places on the way must be directories that may be entered.
A link at the last step is the place itself, unless it is to be followed. -/
def advance (follow : Bool) (start : Location) : List String → Reach
  | [] => .place start
  | step :: steps =>
    if !fs.isDirectory start || fs.obstacles.refuses (.enter start) then .nowhere
    else if step = "." then advance follow start steps
    else if step = ".." then advance follow start.parent steps
    else if !isName step then .nowhere
    else
      match fs.linkAt? (start.child step) with
      | none => advance follow (start.child step) steps
      | some target =>
        if steps.isEmpty && !follow then .place (start.child step)
        else .link start target steps

/-- The place to which steps lead from a place by no more than a number of links. -/
def walk (follow : Bool) : (links : Nat) → Location → List String → Option Location
  | 0, start, steps =>
    match fs.advance follow start steps with
    | .place location => some location
    | .link .. | .nowhere => none
  | links + 1, start, steps =>
    match fs.advance follow start steps with
    | .place location => some location
    | .link directory target rest =>
      -- The steps of the link come before those behind it.
      walk follow links (startOf directory target) (stepsOf target ++ rest)
    | .nowhere => none

/-- How many links may be followed on one way. -/
def maxLinks : Nat := 40

/-- The place that a path names, where something may stand or not. The empty path names none. -/
def locate (follow : Bool) (path : String) : Option Location :=
  if path ≠ "" && isPath path then
    fs.walk follow maxLinks (startOf .working path) (stepsOf path)
  else none

/-- What stands at a path, links followed. -/
def find? (path : String) : Option FileEntry := do
  fs.lookup (← fs.locate true path)

/-! ### Reading -/

/-- Whether something stands at a path. -/
def exists? (path : String) : Bool :=
  (fs.find? path).isSome

/-- The text of the file at a path. -/
def readText? (path : String) : Option String :=
  match fs.find? path with
  | some (.node id) =>
    if fs.obstacles.refuses (.read id) then none
    else match fs.nodes id with
      | .file (.text s) | .device (.text s) => some s
      | _ => none
  | _ => none

/-! ### Making directories -/

/-- Makes the directory to which steps lead, unless it is there. -/
def ensureDirectory? (start : Location) (steps : List String) : Option FileSystem :=
  if (fs.walk true maxLinks start steps).any fs.isDirectory then some fs
  else do
    let place ← fs.walk false maxLinks start steps
    if fs.lookup place = none && !fs.obstacles.refuses (.makeDirectory place) then
      some (fs.set place .directory)
    else none

/-- Makes the directories to which steps lead, one after the other, behind those that are done. The
answer is the file system as far as that went, and whether it went to the end. -/
def createAlong (fs : FileSystem) (start : Location) (done : List String) :
    List String → FileSystem × Bool
  | [] => (fs, true)
  | step :: steps =>
    -- What was made before a failure stays.
    match fs.ensureDirectory? start (done ++ [step]) with
    | none => (fs, false)
    | some made => createAlong made start (done ++ [step]) steps

/-- Makes the directory at a path and those that it lies in. The empty path needs none. -/
def createDirectories (path : String) : FileSystem × Bool :=
  if isPath path then createAlong fs (startOf .working path) [] (stepsOf path) else (fs, false)

/-! ### Writing -/

/-- Opens the file at a path to write it anew. The answer is the file system, where the file is
empty now, and its node. -/
def openToWrite? (path : String) : Option (FileSystem × Nat) := do
  let place ← fs.locate true path
  match fs.lookup place with
  | some .directory => none
  | some (.node id) =>
    if fs.obstacles.refuses (.openToWrite id) then none
    else some (fs.setNode id ((fs.nodes id).holding (.text "")), id)
  | none =>
    if fs.obstacles.refuses (.makeFile place) then none
    else some ((fs.set place (.node fs.freshId)).setNode fs.freshId (.file (.text "")), fs.freshId)

/-- Writes a content to a node that was opened, as far as it is taken up. The answer says whether it
was to the end. -/
def fill (id : Nat) (content : Content) : FileSystem × Bool :=
  let whole := (fs.setNode id ((fs.nodes id).holding content), true)
  match fs.obstacles.room id with
  | none => whole
  | some room =>
    if content.size ≤ room then whole
    else (fs.setNode id ((fs.nodes id).holding (content.firstBytes room)), false)

/-- Writes a file, whose directory must exist. The file is emptied first, and stays as it is then
where not all is taken up. -/
def write (path : String) (content : Content) : FileSystem × Bool :=
  match fs.openToWrite? path with
  | none => (fs, false)
  | some (opened, id) => opened.fill id content

/-- Moves what is no directory to a place where no directory stands. Neither path is followed where
it is a link itself. A file that is moved to a name of its own stays under both. -/
def rename? (path target : String) : Option FileSystem := do
  let source ← fs.locate false path
  let destination ← fs.locate false target
  let moved (id : Nat) :=
    if fs.obstacles.refuses (.rename source destination) then none
    else some ((fs.remove source).set destination (.node id))
  match fs.lookup source, fs.lookup destination with
  | some (.node id), some (.node other) => if id = other then some fs else moved id
  | some (.node id), none => moved id
  | _, _ => none

/-! ### Listing -/

/-- The paths of all that stands below the working directory, in ascending order, where those of
directories end in a separator. -/
def listing : List String :=
  let inside := fs.entries.filter fun other => other.1.base = Location.working.base
  (inside.map fun (location, entry) =>
    "/".intercalate location.names ++
      match entry with
      | .directory => "/"
      | .node _ => "").mergeSort fun a b => a ≤ b

end FileSystem

end CodeAssist
