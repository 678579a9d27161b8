/-!
# Commands

What a command line asks for.  Its words are flags, options with a value, and
files; behind the word `--` all words are files.  The flag `-v`, or `--verbose`, may
stand once before the word for the command and once behind it; without a word for
a command the command is `repl`.
-/

namespace TableScript

inductive Command where
  /-- write the document of a file as JSON -/
  | parse (file : String)
  /-- write the document of a file as a listing -/
  | unparse (file : String)
  /-- execute the rule of a file, with the tables that another file binds to names -/
  | run (file : String) (bindings : Option String)
  /-- answer each line of the input with the fragment that it contributes -/
  | repl
deriving DecidableEq, Repr

/-- A command and whether it tells everything that happens. -/
structure Invocation where
  command : Command
  verbose : Bool
deriving DecidableEq, Repr

namespace Invocation

def usage : String :=
  "usage: tablescript [-v] [parse FILE | unparse FILE | run FILE [--bindings FILE] | repl]"

inductive Word where
  /-- the flag for telling everything -/
  | verbose
  /-- the option for bindings, with a value in the same word or without one -/
  | bindings (value : Option String)
  /-- the word behind which all words are files -/
  | filesOnly
  | file (name : String)
  | unknown
deriving DecidableEq, Repr

/-- A word by its long name and the value behind an equals sign.  A flag does not
care for a value, and more equals signs count as one. -/
def Word.ofLong (name : List Char) (value : Option (List Char)) : Word :=
  if name = "verbose".toList then .verbose
  else if name = "bindings".toList then
    .bindings (value.map fun value => String.ofList (value.dropWhile (· = '=')))
  else .unknown

/-- Read a word.  Long names begin with two hyphens or more; a hyphen alone is the
name of a file. -/
def Word.read (word : String) : Word :=
  match word.toList with
  | ['-'] => .file word
  | ['-', '-'] => .filesOnly
  | ['-', 'v'] => .verbose
  | '-' :: '-' :: name =>
      let name := name.dropWhile (· = '-')
      match name.dropWhile (· ≠ '=') with
      | [] => .ofLong name none
      | _ :: value => .ofLong (name.takeWhile (· ≠ '=')) (some value)
  | '-' :: _ => .unknown
  | _ => .file word

/-- What the words behind the word for a command give. -/
structure Details where
  files : List String
  /-- the option for bindings, if it is given, and its value, if that is given -/
  bindings : Option (Option String)
  verbose : Bool
deriving DecidableEq, Repr

/-- Read the words behind the word for a command.  The value of an option is in the
same word, or is the next one, which then is `awaited`; where a flag comes instead,
the option has no value. -/
def details? (awaited : Bool) (details : Details) : List String → Option Details
  | [] => if awaited then none else some details
  | word :: rest =>
      match Word.read word with
      | .file name =>
          if awaited then details? false { details with bindings := some (some name) } rest
          else details? false { details with files := details.files ++ [name] } rest
      | .verbose =>
          if details.verbose then none else details? false { details with verbose := true } rest
      | .bindings value =>
          if details.bindings.isSome then none
          else details? value.isNone { details with bindings := some value } rest
      | .filesOnly =>
          if awaited then none
          else some { details with files := details.files ++ rest }
      | .unknown => none

def command? (word : String) (details : Details) : Option Command :=
  match word, details.files, details.bindings with
  | "parse", [file], none => some (.parse file)
  | "unparse", [file], none => some (.unparse file)
  | "run", [file], bindings => some (.run file bindings.join)
  | "repl", [], none => some .repl
  | _, _, _ => none

/-- Read a command line from the word for the command on, or from the flag before
it. -/
def ofWords? (verbose : Bool) : List String → Option Invocation
  | [] => some ⟨.repl, verbose⟩
  | word :: rest =>
      match Word.read word with
      | .verbose => if verbose then none else ofWords? true rest
      | .filesOnly => if rest.isEmpty then some ⟨.repl, verbose⟩ else none
      | .file name => do
          let details ← details? false ⟨[], none, false⟩ rest
          return ⟨← command? name details, verbose || details.verbose⟩
      | _ => none

def ofArguments? (arguments : List String) : Option Invocation := ofWords? false arguments

end Invocation

end TableScript
