namespace CacheCoherence

inductive FileFault
  | missing
  | notFolder
  | isFolder
  | nameTooLong
  | notText
  | other (description : String) (number : Nat)
  deriving DecidableEq, Repr

namespace FileFault

def ofNumber (description : String) : Nat → FileFault
  | 2 => missing
  | 20 => notFolder
  | 21 => isFolder
  | 36 => nameTooLong
  | number => other description number

def message : FileFault → String
  | missing => "No such file or directory (os error 2)"
  | notFolder => "Not a directory (os error 20)"
  | isFolder => "Is a directory (os error 21)"
  | nameTooLong => "File name too long (os error 36)"
  | notText => "stream did not contain valid UTF-8"
  | other description number => description ++ " (os error " ++ toString number ++ ")"

end FileFault

abbrev FileReader := String → Except FileFault String

/-- Files and the folder that relative paths begin in, each by the names that lead to it from the
root. A folder is there if the working folder or a file is inside it. -/
structure Host where
  workingFolder : List String
  files : List (List String × String)
  deriving DecidableEq, Repr

namespace Host

def nameLimit : Nat := 255

def pathLimit : Nat := 4095

def ofFiles (files : List (String × String)) : Host :=
  let workingFolder := ["tmp", "work"]
  { workingFolder
    files := (["dev", "null"], "") ::
      files.map fun (name, text) => (workingFolder ++ name.splitOn "/", text) }

def file? (h : Host) (place : List String) : Option String := h.files.lookup place

def isFolder (h : Host) (place : List String) : Bool :=
  place.isPrefixOf h.workingFolder ||
    h.files.any fun (file, _) => place.isPrefixOf file && place != file

def holds (h : Host) (place : List String) : Bool := h.isFolder place || (h.file? place).isSome

def walk (h : Host) : List String → List String → Except FileFault (List String)
  | place, [] => .ok place
  | place, name :: rest =>
    if !h.isFolder place then .error .notFolder
    else if name = "" ∨ name = "." then walk h place rest
    else if name = ".." then walk h place.dropLast rest
    else if nameLimit < name.utf8ByteSize then .error .nameTooLong
    else if h.holds (place ++ [name]) then walk h (place ++ [name]) rest
    else .error .missing

def read (h : Host) : FileReader := fun path =>
  if path.isEmpty then .error .missing
  else if pathLimit < path.utf8ByteSize then .error .nameTooLong
  else
    match h.walk (if path.startsWith "/" then [] else h.workingFolder) (path.splitOn "/") with
    | .error fault => .error fault
    | .ok place =>
      match h.file? place with
      | some text => .ok text
      | none => .error .isFolder

end Host
end CacheCoherence
