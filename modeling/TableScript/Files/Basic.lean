import TableScript.Text.Basic

/-!
# Files

Paths are texts whose parts are separated by slashes.  Nothing is looked up: a
path is joined and cut as a text, and some paths are refused by their text alone,
whatever files there are.  A computation that reads files either is done or asks for the
text of a file and goes on with the answer; it is run against anything that answers: the
file system, or a snapshot.
-/

namespace TableScript

/-! ## Faults -/

inductive FileFault where
  | notFound
  | notADirectory
  | isADirectory
  | nameTooLong
  /-- the path holds a null character, which no file system takes -/
  | nullInPath
  | notText
  /-- any other refusal of the system, in its own words -/
  | refused (message : String)
deriving DecidableEq, Repr

namespace FileFault

def message : FileFault → String
  | notFound => "No such file or directory (os error 2)"
  | notADirectory => "Not a directory (os error 20)"
  | isADirectory => "Is a directory (os error 21)"
  | nameTooLong => "File name too long (os error 36)"
  | nullInPath => "file name contained an unexpected NUL byte"
  | notText => "stream did not contain valid UTF-8"
  | refused message => message

/-- The fault of a path that is refused whatever files there are: one with a null
character, one of 4096 bytes or more, or an empty one. -/
def ofPath? (path : String) : Option FileFault :=
  if path.toList.contains '\x00' then some .nullInPath
  else if 4096 ≤ path.utf8ByteSize then some .nameTooLong
  else if path.isEmpty then some .notFound
  else none

/-- The fault of a part of a path that no directory can hold, having more than 255
bytes. -/
def ofPart? (part : String) : Option FileFault :=
  if 255 < part.utf8ByteSize then some .nameTooLong else none

end FileFault

/-! ## Paths -/

namespace FilePath

/-- A path inside another one.  An absolute path stands alone. -/
def join (base path : String) : String :=
  if path.toList.head? = some '/' then path
  else if base.isEmpty || base.toList.getLast? = some '/' then base ++ path
  else base ++ "/" ++ path

def isNamed (part : String) : Bool := part != "" && part != "."

/-- A path in two: the slash or point that it begins with, if it does, and the
parts behind. -/
def split (path : String) : Option String × List String :=
  match Text.split '/' path with
  | [] => (none, [])
  | [only] => if only = "." then (some ".", []) else (none, [only])
  | first :: rest =>
      if first = "" then (some "/", rest)
      else if first = "." then (some ".", rest)
      else (none, first :: rest)

/-- Parts up to the last one that names something, in reverse. -/
def namedReversed (parts : List String) : List String :=
  parts.reverse.dropWhile fun part => !isNamed part

def assemble : Option String → List String → String
  | none, parts => Text.joined "/" parts
  | some start, [] => start
  | some start, parts => if start = "/" then "/" ++ Text.joined "/" parts
      else start ++ "/" ++ Text.joined "/" parts

def parent? (path : String) : Option String :=
  let (start, parts) := split path
  match namedReversed parts with
  | _ :: outer => some (assemble start (namedReversed outer.reverse).reverse)
  | [] => if start = some "." then some "" else none

/-- The last part of a path that names something other than the directory
above. -/
def fileName? (path : String) : Option String :=
  match namedReversed (split path).2 with
  | last :: _ => if last = ".." then none else some last
  | [] => none

/-- What follows the last point of a file name; a name whose only point is its
first character has no extension. -/
def extension? (path : String) : Option String := do
  let name ← fileName? path
  match (Text.split '.' name).reverse with
  | _ :: [] => none
  | _ :: "" :: [] => none
  | last :: _ => some last
  | [] => none

end FilePath

/-! ## Computations -/

inductive Reading (α : Type) where
  | done (value : α)
  | ask (path : String) (next : Except FileFault String → Reading α)

namespace Reading

variable {α β : Type}

def andThen (reading : Reading α) (next : α → Reading β) : Reading β :=
  match reading with
  | done value => next value
  | ask path resume => ask path fun answer => (resume answer).andThen next

@[simp] theorem andThen_done (reading : Reading α) : reading.andThen done = reading := by
  induction reading with
  | done value => rfl
  | ask path resume ih => simp only [andThen, ih]

theorem andThen_assoc {δ : Type} (reading : Reading α) (next : α → Reading β)
    (last : β → Reading δ) :
    (reading.andThen next).andThen last =
      reading.andThen fun value => (next value).andThen last := by
  induction reading with
  | done value => rfl
  | ask path resume ih => simp only [andThen, ih]

instance : Monad Reading where
  pure := done
  bind := andThen

def file (path : String) : Reading (Except FileFault String) := ask path done

def files : List String → Reading (List (String × Except FileFault String))
  | [] => done []
  | path :: rest => do
      let answer ← file path
      let others ← files rest
      return (path, answer) :: others

/-- The value of a computation whose questions are answered by `read`. -/
def run (read : String → Except FileFault String) : Reading α → α
  | done value => value
  | ask path next => (next (read path)).run read

/-- Running a computation in two parts hands the value of the first to the second. -/
@[simp] theorem run_andThen (read : String → Except FileFault String) (reading : Reading α)
    (next : α → Reading β) :
    (reading.andThen next).run read = (next (reading.run read)).run read := by
  induction reading with
  | done value => rfl
  | ask path resume ih => simp only [andThen, run, ih]

end Reading

end TableScript
