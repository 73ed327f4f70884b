import Vigil.Record.Basic
import Vigil.Time.Rfc3339
import Vigil.Yaml.Writer
/-! A record as the YAML mapping of its five fields. -/
namespace Vigil.Record

def lineOf (key : String) (value : List Char) : List Char := key.toList ++ ':' :: ' ' :: value

def nullLine : List Char := ['n', 'u', 'l', 'l', '\n']

def toYaml (r : Record) : String :=
  let number (n : Nat) := Text.decimal n ++ ['\n']
  String.ofList <|
    lineOf "version" ((r.version.map fun v => number v.toNat).getD nullLine) ++
    lineOf "host" (Yaml.valueText r.host.toList) ++
    lineOf "port" (number r.port.toNat) ++
    lineOf "pid" (number r.pid.toNat) ++
    lineOf "started_at"
      ((r.startedAt.map fun t => Rfc3339.writeZulu t ++ ['\n']).getD nullLine)

end Vigil.Record
