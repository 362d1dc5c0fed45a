import ClusterScaler.Files.Path

/-!
# File trees

A directory tree as a value: files with their bytes, symbolic links with their targets, and
directories with their entries in the order of their names. A `FileStore` is such a tree from the
root on, taken apart at the working directory, which is therefore always there. Looking a path up
follows links as an operating system does and fails with the same errors.
-/

set_option autoImplicit false

namespace ClusterScaler

/-- A file, a symbolic link or a directory. -/
inductive FileTree where
  | file (content : ByteArray)
  | link (target : String)
  | dir (entries : List (String × FileTree))
  deriving Inhabited

/-- Why a file operation failed. -/
inductive FileError where
  | notFound
  | notADirectory
  | isADirectory
  | tooManyLinks
  | notUtf8
  /-- A path that no file can have, because it holds a NUL. -/
  | nulInPath
  deriving DecidableEq, Repr, Inhabited

/-- The message of the operating system for a failure. -/
def FileError.message : FileError → String
  | .notFound => "No such file or directory (os error 2)"
  | .notADirectory => "Not a directory (os error 20)"
  | .isADirectory => "Is a directory (os error 21)"
  | .tooManyLinks => "Too many levels of symbolic links (os error 40)"
  | .notUtf8 => "stream did not contain valid UTF-8"
  | .nulInPath => "file name contained an unexpected NUL byte"

namespace FileTree

/-- The entries of a directory. -/
abbrev Entries := List (String × FileTree)

/-- Put an entry into a directory, keeping the order of names. -/
def putEntry (name : String) (t : FileTree) : Entries → Entries
  | [] => [(name, t)]
  | (n, u) :: rest =>
    if name < n then (name, t) :: (n, u) :: rest
    else if name == n then (name, t) :: rest
    else (n, u) :: putEntry name t rest

/-- The entry of a name. -/
def child? (es : Entries) (name : String) : Option FileTree :=
  (es.find? (·.1 == name)).map (·.2)

/-- The directory entries after putting a tree at a path of names; directories that are missing on
the way are made, and whatever else stands in the way is replaced. -/
def putAt (t : FileTree) : List String → Entries → Entries
  | [], es => es
  | [name], es => putEntry name t es
  | name :: path, es =>
    let inner := match child? es name with
      | some (.dir inner) => inner
      | _ => []
    putEntry name (.dir (putAt t path inner)) es

/-- The directory entries without the entry at a path of names. -/
def removeAt : List String → Entries → Entries
  | [], es => es
  | [name], es => es.filter (·.1 != name)
  | name :: path, es =>
    match child? es name with
    | some (.dir inner) => putEntry name (.dir (removeAt path inner)) es
    | _ => es

end FileTree

/-- A directory above the working directory: the name under which it holds the next one on the way
there, and its other entries. -/
structure FileStore.Ancestor where
  name : String
  others : FileTree.Entries := []

/-- A file system with its working directory. -/
structure FileStore where
  /-- The entries of the working directory. -/
  entries : FileTree.Entries
  /-- The directories above it, from the root on. Without any it is the root itself. -/
  above : List FileStore.Ancestor
  deriving Inhabited

/-- Where a path leads: the names from the root to it, and what stands there. -/
structure FilePlace where
  names : List String
  tree : Option FileTree

namespace FileStore

/-- A working directory with nothing beside it in the root directory. -/
def ofEntries (entries : FileTree.Entries) : FileStore := ⟨entries, [{ name := "work" }]⟩

/-- A store without files. -/
def empty : FileStore := ofEntries []

/-- The names from the root to the working directory. -/
def home (s : FileStore) : List String := s.above.map (·.name)

/-- The entries of a directory, given those of the working directory and the directories from this
one on that lead there. -/
def entriesAt (entries : FileTree.Entries) : List Ancestor → FileTree.Entries
  | [] => entries
  | a :: below => FileTree.putEntry a.name (.dir (entriesAt entries below)) a.others

/-- The entries of the root directory. -/
def root (s : FileStore) : FileTree.Entries := entriesAt s.entries s.above

/-- One directory on the way to a path, with its name and entries; the root has an empty name. -/
structure Frame where
  name : String
  entries : FileTree.Entries

/-- A position during a lookup: the directories from the current one up to the root. -/
structure Cursor where
  frames : List Frame

/-- The directories from the working directory up to the root, given one of them with those above
it. -/
def framesFrom (entries : FileTree.Entries) (name : String) (outer : List Frame) :
    List Ancestor → List Frame
  | [] => ⟨name, entries⟩ :: outer
  | a :: below => framesFrom entries a.name (⟨name, entriesAt entries (a :: below)⟩ :: outer) below

/-- The position at the working directory. -/
def cursor (s : FileStore) : Cursor := ⟨framesFrom s.entries "" [] s.above⟩

/-- The position at the root directory. -/
def Cursor.top (c : Cursor) : Cursor := ⟨c.frames.getLast?.toList⟩

/-- The names from the root to the current directory. -/
def Cursor.names (c : Cursor) : List String := (c.frames.map (·.name)).dropLast.reverse

/-- The entries of the current directory. -/
def Cursor.entries (c : Cursor) : FileTree.Entries := (c.frames.head?.map (·.entries)).getD []

/-- The parent directory. That of the root directory is the root directory itself. -/
def Cursor.up (c : Cursor) : Cursor :=
  match c.frames with
  | _ :: f :: rest => ⟨f :: rest⟩
  | _ => c

/-- Follow the parts of a path from a position. `links` bounds the links that may be followed; a
link in last place is followed only if `follow`. -/
def walk (follow : Bool) (links : Nat) (c : Cursor) : List String → Except FileError FilePlace
  | [] => .ok ⟨c.names, some (.dir c.entries)⟩
  | part :: rest =>
    if part.isEmpty || part == "." then walk follow links c rest
    else if part == ".." then walk follow links c.up rest
    else
      match FileTree.child? c.entries part with
      | none =>
        if rest.all (·.isEmpty) then .ok ⟨c.names ++ [part], none⟩
        else .error .notFound
      | some (.dir es) =>
        walk follow links ⟨⟨part, es⟩ :: c.frames⟩ rest
      | some (.file content) =>
        if rest.isEmpty then .ok ⟨c.names ++ [part], some (.file content)⟩
        else .error .notADirectory
      | some (.link target) =>
        if rest.isEmpty && !follow then .ok ⟨c.names ++ [part], some (.link target)⟩
        else
          match links with
          | links + 1 =>
            if target.isEmpty then .error .notFound
            else
              walk follow links (if Path.isAbsolute target then c.top else c)
                (Path.pieces target ++ rest)
          | 0 => .error .tooManyLinks
termination_by parts => (links, parts.length)

/-- The most links that one lookup follows. -/
def maxLinks : Nat := 40

/-- Where a path leads. A place that does not exist but whose directory does is a place without a
tree. -/
def locate (s : FileStore) (follow : Bool) (p : String) : Except FileError FilePlace :=
  if p.isEmpty then .error .notFound
  else if p.toList.contains '\x00' then .error .nulInPath
  else
    walk follow maxLinks (if Path.isAbsolute p then s.cursor.top else s.cursor)
      (Path.pieces p)

/-- What a path leads to, links followed. -/
def get (s : FileStore) (p : String) : Except FileError FileTree := do
  match (← s.locate true p).tree with
  | some t => .ok t
  | none => .error .notFound

/-- Whether a path leads anywhere. -/
def «exists» (s : FileStore) (p : String) : Bool := (s.get p).isOk

/-- Whether a path leads to a directory. -/
def isDir (s : FileStore) (p : String) : Bool :=
  match s.get p with
  | .ok (.dir _) => true
  | _ => false

/-- The bytes of a file. -/
def read (s : FileStore) (p : String) : Except FileError ByteArray := do
  match ← s.get p with
  | .file content => .ok content
  | .dir _ => .error .isADirectory
  | .link _ => .error .notFound

/-- The store with a tree at a place below the working directory. -/
def put (s : FileStore) (names : List String) (t : FileTree) : FileStore :=
  { s with entries := FileTree.putAt t names s.entries }

/-- Change what stands at a place, given by the names from the root to it. The change is made in the
last directory on the way to the working directory that leads to the place, and is told the names that
are left from there. The directories on that way stay. -/
def change (f : List String → FileTree.Entries → FileTree.Entries) (names : List String)
    (s : FileStore) : FileStore :=
  go s.above names
where
  /-- Go on from a directory above the working directory, or from this one itself. -/
  go : List Ancestor → List String → FileStore
    | [], names => ⟨f names s.entries, []⟩
    | above, [] => ⟨s.entries, above⟩
    | a :: below, name :: names =>
      if name = a.name then
        let inner := go below names
        { inner with above := a :: inner.above }
      else ⟨s.entries, { a with others := f (name :: names) a.others } :: below⟩

/-- Replace the content of a file or make it. Its directory has to exist. -/
def write (s : FileStore) (p : String) (content : ByteArray) : Except FileError FileStore := do
  let place ← s.locate true p
  match place.tree with
  | some (.dir _) => .error .isADirectory
  | _ =>
    if p.endsWith "/" then .error .isADirectory
    else .ok (s.change (FileTree.putAt (.file content)) place.names)

/-- Move a file over another path, replacing what stands there unless it is a directory. -/
def rename (s : FileStore) (oldPath newPath : String) : Except FileError FileStore := do
  let source ← s.locate false oldPath
  let target ← s.locate false newPath
  match source.tree with
  | none => .error .notFound
  | some t =>
    match target.tree with
    | some (.dir _) => .error .isADirectory
    | _ =>
      if newPath.endsWith "/" then .error .notADirectory
      else if source.names == target.names then .ok s
      else .ok ((s.change FileTree.removeAt source.names).change (FileTree.putAt t) target.names)

end FileStore

end ClusterScaler
