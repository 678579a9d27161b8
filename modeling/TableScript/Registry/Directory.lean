import TableScript.Files.Basic
import TableScript.Registry.Memory

/-!
# Tables in a directory

A repository may be a directory.  Its table `space:name:version` is the file
`space/name/version.json` below it, a JSON array of records.  The URL of such a
repository is its path, with or without `file://` in front; a relative path
starts from the base of the connector.
-/

namespace TableScript

namespace Table

/-- The table in a file, from the answer to the question for its text. -/
def ofFile (path : String) : Except FileFault String → Except FetchError Table
  | .error fault => .error (.unreadable path fault)
  | .ok text =>
      match Json.parse? text with
      | none => .error (.invalidJson path)
      | some value =>
          match ofJson value with
          | .ok table => .ok table
          | .error error => .error (.invalidTable path error)

end Table

/-- Directories of tables below a base, and the way to read their files. -/
structure Directory where
  base : String
  read : String → Except FileFault String

namespace Directory

/-- The parts of a URL before and after its first `://`. -/
def splitScheme : List Char → Option (List Char × List Char)
  | [] => none
  | ':' :: '/' :: '/' :: rest => some ([], rest)
  | c :: rest => (splitScheme rest).map fun parts => (c :: parts.1, parts.2)

def rootOf (base url : String) : Except FetchError String :=
  match splitScheme url.toList with
  | none => .ok (FilePath.join base url)
  | some (scheme, path) =>
      if scheme = "file".toList then .ok (FilePath.join base (String.ofList path))
      else .error (.unsupportedScheme (String.ofList scheme))

def tablePath (root : String) (reference : Reference) : String :=
  FilePath.join (FilePath.join (FilePath.join root reference.space) reference.name)
    (reference.version ++ ".json")

/-- The directories as a connector.  The client of a repository is the path of its
directory. -/
def connector (directory : Directory) : Connector String where
  connect := fun _ url => rootOf directory.base url
  tables := fun _ root reference =>
    let path := tablePath root reference
    Table.ofFile path (directory.read path)
  events := fun root reference => [.readingTable (tablePath root reference)]

end Directory

end TableScript
