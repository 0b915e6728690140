/-!
# Reading files

`Files` is what can be read at each path.  `Files.ofTree` reads from a list of nodes: a path that
leads to a directory, or through something that is none, or nowhere, has its own error.
-/

namespace PingWatch

/-- Why a file cannot be read as text. -/
inductive ReadError
  | missing
  | isDirectory
  | notDirectory
  /-- The bytes are no UTF-8 text. -/
  | notText
  | other (reason : String)
deriving DecidableEq

def ReadError.message : ReadError → String
  | missing => "No such file or directory (os error 2)"
  | isDirectory => "Is a directory (os error 21)"
  | notDirectory => "Not a directory (os error 20)"
  | notText => "stream did not contain valid UTF-8"
  | other reason => reason

/-- What can be read at each path. -/
structure Files where
  read : String → Except ReadError String

/-- The path of `name` in the directory `base`; an absolute name stands for itself. -/
def joinPath (base name : String) : String :=
  if name.startsWith "/" || base.isEmpty then name
  else if base.endsWith "/" then base ++ name
  else base ++ "/" ++ name

/-- A file with its bytes, or a directory. -/
inductive Node
  | file (bytes : ByteArray)
  | directory

namespace Files

/-- The names that a path goes through; empty ones and the directory itself do not count. -/
def steps (path : String) : List String :=
  (path.splitOn "/").filter fun s => s ≠ "" ∧ s ≠ "."

/-- The node at a path. -/
def nodeAt (nodes : List (String × Node)) (path : List String) : Option Node :=
  (nodes.find? fun (q, _) => steps q = path).map (·.2)

def isFile (nodes : List (String × Node)) (path : List String) : Bool :=
  match nodeAt nodes path with
  | some (.file _) => true
  | _ => false

/-- What can be read in a tree with the given nodes. -/
def ofTree (nodes : List (String × Node)) : Files where
  read path :=
    let path := steps path
    match nodeAt nodes path with
    | some (.file bytes) =>
      match String.fromUTF8? bytes with
      | some text => .ok text
      | none => .error .notText
    | some .directory => .error .isDirectory
    | none =>
      if (List.range path.length).any fun n => isFile nodes (path.take n) then
        .error .notDirectory
      else if nodes.any fun (q, _) => path.isPrefixOf (steps q) then .error .isDirectory
      else .error .missing

end Files

end PingWatch
