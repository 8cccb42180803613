namespace TalAnalysis.CommandLine

inductive AccessError
  | notFound
  | notDirectory
  | isDirectory
  | nameTooLong
  | notText
  | other (description : String)
deriving DecidableEq, Repr, Inhabited

def AccessError.message : AccessError → String
  | .notFound => "No such file or directory (os error 2)"
  | .notDirectory => "Not a directory (os error 20)"
  | .isDirectory => "Is a directory (os error 21)"
  | .nameTooLong => "File name too long (os error 36)"
  | .notText => "stream did not contain valid UTF-8"
  | .other description => description

inductive Node
  | directory
  | file (size : Nat) (bytes : Thunk ByteArray)

structure Disk where
  entries : List (List String × Node) := []

namespace Disk

def maxNameLength : Nat := 255

def maxPathLength : Nat := 4095

/-- What lies at a place below the working directory. Whatever has something below it is a
directory. -/
def nodeAt? (disk : Disk) (place : List String) : Option Node :=
  if place.isEmpty then some .directory
  else
    match disk.entries.find? fun entry => entry.1 == place with
    | some entry => some entry.2
    | none =>
      if disk.entries.any fun entry => place.isPrefixOf entry.1 then some .directory else none

/-- What lies at the end of a path that starts at a place. There is no place outside the working
directory. -/
def follow (disk : Disk) (place? : Option (List String)) : List String → Except AccessError Node
  | [] =>
    match place? with
    | none => .ok .directory
    | some place =>
      match disk.nodeAt? place with
      | some node => .ok node
      | none => .error .notFound
  | name :: rest =>
    match place?.elim (some .directory) disk.nodeAt? with
    | none => .error .notFound
    | some (.file ..) => .error .notDirectory
    | some .directory =>
      if name = "" ∨ name = "." then disk.follow place? rest
      else if name = ".." then
        let above? := place?.bind fun place => if place.isEmpty then none else some place.dropLast
        disk.follow above? rest
      else if maxNameLength < name.utf8ByteSize then .error .nameTooLong
      else
        match place? with
        | none => .error .notFound
        | some place => disk.follow (some (place ++ [name])) rest

def find (disk : Disk) (path : String) : Except AccessError Node :=
  if maxPathLength < path.utf8ByteSize then .error .nameTooLong
  else disk.follow (if path.startsWith "/" then none else some []) (path.splitOn "/")

end Disk
end TalAnalysis.CommandLine
