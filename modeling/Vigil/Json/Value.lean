/-! JSON values. -/
namespace Vigil.Json

/-- Numbers are integers. `verbatim` keeps the text of anything else that is well formed: a
number that is no integer, a string or an object whose text has an unpaired surrogate. -/
inductive Value where
  | null
  | bool (b : Bool)
  | int (n : Int)
  | str (s : String)
  | verbatim (text : String)
  | arr (items : List Value)
  | obj (fields : List (String × Value))
deriving Repr, Inhabited

/-- Puts a field among fields whose keys ascend; a key that is there already gets the new
value. -/
def putField {α : Type} (key : String) (value : α) : List (String × α) → List (String × α)
  | [] => [(key, value)]
  | (k, v) :: rest =>
    if key < k then (key, value) :: (k, v) :: rest
    else if key = k then (key, value) :: rest
    else (k, v) :: putField key value rest

/-- The fields by ascending key, each key with the last value given for it. -/
def sortFields {α : Type} (fields : List (String × α)) : List (String × α) :=
  fields.foldl (fun done f => putField f.1 f.2 done) []

end Vigil.Json
