import TableScript.Files.Basic
import TableScript.Text.Basic

/-!
# Snapshots of a file system

The files of a system, by the parts of their absolute paths, and the working
directory.  Reading follows a path part by part: it may pass only through
directories that are there, and the last part must be a file.
-/

namespace TableScript

/-- The files of a system, of which one that is no text has no content, its empty
directories, and its working directory. -/
structure Snapshot where
  workplace : List String
  directories : List (List String)
  files : List (List String × Option String)
deriving Inhabited

namespace Snapshot

/-- The parts of a path that lead somewhere else. -/
def parts (path : String) : List String :=
  (Text.split '/' path).filter fun part => part != "" && part != "."

def origin (workplace : List String) (path : String) : List String :=
  if path.toList.head? = some '/' then [] else workplace

def ofPaths (workplace : String) (directories : List String)
    (files : List (String × Option String)) : Snapshot :=
  let place (path : String) := origin (parts workplace) path ++ parts path
  ⟨parts workplace, directories.map place, files.map fun file => (place file.1, file.2)⟩

/-- Whether the parts lead to a directory: to the working directory, to one that is
listed, to one that holds a file, or to one above these. -/
def isDirectory (snapshot : Snapshot) (parts : List String) : Bool :=
  parts.isPrefixOf snapshot.workplace ||
    snapshot.directories.any (parts.isPrefixOf ·) ||
    snapshot.files.any fun file => parts.isPrefixOf file.1 && file.1 != parts

def content (snapshot : Snapshot) (parts : List String) : Except FileFault String :=
  match snapshot.files.lookup parts with
  | some (some text) => .ok text
  | some none => .error .notText
  | none => if snapshot.isDirectory parts then .error .isADirectory else .error .notFound

/-- Follow the rest of a path from a directory.  The directory above the root is
the root. -/
def follow (snapshot : Snapshot) (directory : List String) :
    List String → Except FileFault String
  | [] => snapshot.content directory
  | part :: rest =>
      if part = "" || part = "." then follow snapshot directory rest
      else if part = ".." then follow snapshot directory.dropLast rest
      else
        match FileFault.ofPart? part with
        | some fault => .error fault
        | none =>
            let inside := directory ++ [part]
            if snapshot.isDirectory inside then follow snapshot inside rest
            else if rest.isEmpty then snapshot.content inside
            else if (snapshot.files.lookup inside).isSome then .error .notADirectory
            else .error .notFound

def read (snapshot : Snapshot) (path : String) : Except FileFault String :=
  match FileFault.ofPath? path with
  | some fault => .error fault
  | none => snapshot.follow (origin snapshot.workplace path) (Text.split '/' path)

end Snapshot

end TableScript
