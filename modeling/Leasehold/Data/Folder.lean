/-!
# Folders

* `Folder`: the files of the working directory.
* `Folder.content?`: the content of a file.
* `Folder.Obstacle`: what keeps a folder from being made.
-/

namespace Leasehold

/-- The files of the working directory by relative path, and others by absolute path. -/
structure Folder where
  files : List (String × String)
  deriving Repr, DecidableEq

namespace Folder

/-- The parts of a path; a part that stays where it is does not count. -/
def parts (path : String) : List String :=
  (path.splitOn "/").filter fun part => part != "" && part != "."

/-- Whether a path leads out of the working directory. -/
def isAbsolute (path : String) : Bool := path.startsWith "/"

/-- The plain form of a path. -/
def normal (path : String) : String :=
  (if isAbsolute path then "/" else "") ++ "/".intercalate (parts path)

/-- Whether two paths are the same. -/
def samePath (a b : String) : Bool := isAbsolute a == isAbsolute b && parts a == parts b

/-- The content of a file. -/
def content? (folder : Folder) (path : String) : Option String :=
  (folder.files.find? fun file => samePath file.1 path).map Prod.snd

/-- Whether a path leads to the folder or to a folder within it. -/
def hasDirectory (folder : Folder) (path : List String) : Bool :=
  path.isEmpty || folder.files.any fun file =>
    path.isPrefixOf (parts file.1) && path.length < (parts file.1).length

/-- What keeps a folder from being made: a file in its place, or on the way to it. -/
inductive Obstacle where
  | file
  | fileAbove
  deriving Repr, DecidableEq

/-- The text of an obstacle. -/
def Obstacle.message : Obstacle → String
  | file => "File exists (os error 17)"
  | fileAbove => "Not a directory (os error 20)"

/-- What keeps a folder at a path from being made. -/
def obstacle? (folder : Folder) (path : String) : Option Obstacle :=
  if isAbsolute path then none
  else if (folder.content? path).isSome then some .file
  else if folder.files.any fun file => (parts file.1).isPrefixOf (parts path) then
    some .fileAbove
  else none

end Folder

end Leasehold
