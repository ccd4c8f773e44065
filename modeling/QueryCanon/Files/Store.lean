/-
A store: the files below a working directory.

Names are resolved one part at a time, as a file system without links does it.  What
lies outside the working directory is not known: a name leads there only to the root
and to the directories above the working directory.
-/
import QueryCanon.Files.Basic

namespace QueryCanon

/-- What a file holds: a text, or bytes that are no UTF-8. -/
inductive Contents where
  | text (text : String)
  | binary (bytes : List UInt8)
deriving DecidableEq

inductive Entry where
  | file (contents : Contents)
  | directory
deriving DecidableEq

/-- The names that lead to an entry from the working directory. -/
abbrev Path := List String

/-- The entries below a working directory, and the standard input. -/
structure Store where
  entries : List (Path × Entry)
  input : Contents

namespace Store

/-- The longest name of one entry, in bytes. -/
def longestName : Nat := 255

/-- The longest name of a file with its directories, in bytes. -/
def longestPath : Nat := 4095

/-- The entry at `path`.  A directory need not be listed if something in it is. -/
def find? (s : Store) (path : Path) : Option Entry :=
  if path.isEmpty then some .directory
  else
    match s.entries.lookup path with
    | some entry => some entry
    | none =>
      if s.entries.any fun e => path.isPrefixOf e.1 then some .directory else none

/-- Goes on from `place`, which is `none` outside the working directory. -/
def walk (s : Store) (place : Option Path) : List String → Except FileFault (Option Path)
  | [] => .ok place
  | part :: more =>
    match place with
    | none =>
      if part.isEmpty || part == "." || part == ".." then s.walk none more
      else .error (if part.utf8ByteSize > longestName then .nameTooLong else .notFound)
    | some path =>
      match s.find? path with
      | none => .error .notFound
      | some (.file _) => .error .notDirectory
      | some .directory =>
        if part.isEmpty || part == "." then s.walk (some path) more
        else if part == ".." then
          s.walk (if path.isEmpty then none else some path.dropLast) more
        else if part.utf8ByteSize > longestName then .error .nameTooLong
        else s.walk (some (path ++ [part])) more

/-- The parts of a name between its slashes. -/
def parts (name : String) : List String :=
  (name.toList.splitOn '/').map String.ofList

/-- The place that `name` leads to. -/
def resolve (s : Store) (name : String) : Except FileFault (Option Path) :=
  if name.toList.contains '\x00' then .error .nulInName
  else if name.isEmpty then .error .notFound
  else if name.utf8ByteSize > longestPath then .error .nameTooLong
  else s.walk (if name.toList.head? == some '/' then none else some []) (parts name)

/-- The text that contents are, if they are a text. -/
def Contents.text? : Contents → Except FileFault String
  | .text text => .ok text
  | .binary _ => .error .notUtf8

/-- The text of the file `name`. -/
def read (s : Store) (name : String) : Except FileFault String := do
  match ← s.resolve name with
  | none => .error .isDirectory
  | some path =>
    match s.find? path with
    | none => .error .notFound
    | some .directory => .error .isDirectory
    | some (.file contents) => Contents.text? contents

/-- The entries with the one at `path` replaced or, if there is none, added. -/
def put (path : Path) (entry : Entry) : List (Path × Entry) → List (Path × Entry)
  | [] => [(path, entry)]
  | (p, old) :: more => if p = path then (p, entry) :: more else (p, old) :: put path entry more

/-- The store in which the file `name` holds `text`. -/
def write (s : Store) (name text : String) : Except FileFault Store := do
  match ← s.resolve name with
  | none => .error .isDirectory
  | some path =>
    match s.find? path with
    | some .directory => .error .isDirectory
    | _ => .ok { s with entries := put path (.file (.text text)) s.entries }

/-- Reading and writing the files of a store. -/
def files : Files (StateM Store) where
  read name := do return (← get).read name
  write name text := do
    match (← get).write name text with
    | .ok s =>
      set s
      return .ok ()
    | .error fault => return .error fault
  readInput := do return Contents.text? (← get).input

end Store
end QueryCanon
