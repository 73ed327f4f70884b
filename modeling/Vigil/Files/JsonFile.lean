import Vigil.Files.Resolve
import Vigil.Json.Writer
import Vigil.Text.Utf8
/-! Writing a JSON file so that it is either the old one or the whole new one: a sibling is
written first and then moved to its place. -/
namespace Vigil.Files

/-- What was made or written before a failure stays. -/
def writeJson (t : Tree) (path : String) (v : Json.Value) : Attempt :=
  let sibling := Path.withExtension path "json.tmp"
  (((t.ensureDirs ((Path.names path).reverse.drop 1)).next
    (·.writeAt sibling (Utf8.encode (Json.pretty v))))).next (·.moveFile sibling path)

end Vigil.Files
