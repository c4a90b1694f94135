import BusBench.FileTree
import BusBench.ReportText

namespace BusBench

/-- Coverage with the files that it is written to at the end. -/
structure CoverageFile where
  coverage : Coverage := {}
  files : FileTree := {}
  deriving Repr

namespace CoverageFile

/-- Writes the coverage text; the files stay as they are if that fails. -/
def write (path : Path) (c : CoverageFile) : Except Fault Unit × CoverageFile :=
  match c.files.write path (.text c.coverage.text) with
  | .ok files => (.ok (), { c with files })
  | .error e => (.error e, c)

/-- Coverage that ends up in a file. -/
def sink (path : Path) : CoverageSink CoverageFile where
  sample _ p c := { c with coverage := c.coverage.sample p }
  write := write path

end CoverageFile

end BusBench
