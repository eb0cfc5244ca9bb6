import RouteDocs.Text.Quoted

/-!
# `RouteDocs.Fault`: failures that are nobody's report

Most failures are reports: they name a tag, a settings file or a route, and are worded
for the author. A few inputs break an operation in a way that nothing reports. These are
the faults, told apart by what went wrong. A fault of the file storage also has a wording,
since loaders put it into their reports.
-/

set_option autoImplicit false

namespace RouteDocs

/-- What the file storage refuses. -/
inductive StorageProblem where
  /-- There is nothing at the path. -/
  | notFound
  /-- There is something at the path already. -/
  | occupied
  /-- A part of the path before the last is not a directory. -/
  | notDirectory
  /-- There is a directory at the path. -/
  | isDirectory
  /-- The path, or a name on it, is longer than the storage takes. -/
  | tooLong
deriving DecidableEq, Repr

/-- The number and wording of a storage problem. -/
def StorageProblem.wording : StorageProblem → Text
  | .notFound => "[Errno 2] No such file or directory"
  | .occupied => "[Errno 17] File exists"
  | .notDirectory => "[Errno 20] Not a directory"
  | .isDirectory => "[Errno 21] Is a directory"
  | .tooLong => "[Errno 36] File name too long"

/-- A storage problem at a path. -/
structure StorageFault where
  /-- What was refused. -/
  problem : StorageProblem
  /-- Where. -/
  path : Text
deriving DecidableEq, Repr

/-- The storage fault as a report shows it. -/
def StorageFault.message (f : StorageFault) : Text :=
  f.problem.wording ++ ": " ++ Text.quote f.path

/-- A failure that no report words. -/
inductive Fault where
  /-- A text or number denotes nothing of the wanted kind. -/
  | badValue
  /-- A value is of a kind the operation does not take. -/
  | wrongKind
  /-- A value has no such part. -/
  | noSuchPart
  /-- There is no element at the position. -/
  | outOfBounds
  /-- Bytes are not UTF-8. -/
  | undecodable
  /-- A text with a surrogate has no UTF-8 form. -/
  | unencodable
  /-- There is nothing under the key. -/
  | missingKey
  /-- A number is too large for its purpose. -/
  | tooLarge
  /-- A value contains itself, or is nested too deeply. -/
  | endless
  /-- The file storage refused. -/
  | storage (fault : StorageFault)
deriving DecidableEq, Repr

end RouteDocs
