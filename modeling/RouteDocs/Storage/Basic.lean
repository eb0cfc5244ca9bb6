import RouteDocs.Entries
import RouteDocs.Storage.Path
import RouteDocs.Text.Lines

/-!
# `RouteDocs.Storage`: where files are

A run reads its inputs from a file storage and writes one file to it. `Storage` names the
four things that are asked of it, so that a run is the same whether the files are on a
disk or in memory.

A refusal is a fault that carries the problem and the path; a path that cannot be asked
for is a fault of another kind.
-/

set_option autoImplicit false

namespace RouteDocs

/-- Computations that can use a file storage. -/
class Storage (m : Type → Type) where
  /-- Whether a path text, taken as it is written, leads to a file or directory. -/
  has : Text → m (Except Fault Bool)
  /-- The content of a file. -/
  read : Path → m (Except Fault (List UInt8))
  /-- Makes a directory and those above it. Directories that are there stay. -/
  makeDirectories : Path → m (Except Fault Unit)
  /-- Writes a file, in place of one that is there. -/
  write : Path → List UInt8 → m (Except Fault Unit)

/-- The text of a file's bytes: UTF-8, with line ends of every platform as line feeds. -/
def textOfBytes? (bytes : List UInt8) : Option Text := (Text.ofUtf8? bytes).map Text.normalizeLineEnds

end RouteDocs
