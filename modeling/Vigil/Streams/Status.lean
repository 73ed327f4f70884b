/-! How a call to the daemon came out: a code and a text. -/
namespace Vigil

inductive StatusCode where
  | ok | cancelled | unknown | invalidArgument | deadlineExceeded | notFound | alreadyExists
  | permissionDenied | resourceExhausted | failedPrecondition | aborted | outOfRange
  | unimplemented | internal | unavailable | dataLoss | unauthenticated
deriving DecidableEq, Repr

namespace StatusCode

def all : List StatusCode := [ok, cancelled, unknown, invalidArgument, deadlineExceeded, notFound,
  alreadyExists, permissionDenied, resourceExhausted, failedPrecondition, aborted, outOfRange,
  unimplemented, internal, unavailable, dataLoss, unauthenticated]

def name : StatusCode → String
  | ok => "Ok"
  | cancelled => "Cancelled"
  | unknown => "Unknown"
  | invalidArgument => "InvalidArgument"
  | deadlineExceeded => "DeadlineExceeded"
  | notFound => "NotFound"
  | alreadyExists => "AlreadyExists"
  | permissionDenied => "PermissionDenied"
  | resourceExhausted => "ResourceExhausted"
  | failedPrecondition => "FailedPrecondition"
  | aborted => "Aborted"
  | outOfRange => "OutOfRange"
  | unimplemented => "Unimplemented"
  | internal => "Internal"
  | unavailable => "Unavailable"
  | dataLoss => "DataLoss"
  | unauthenticated => "Unauthenticated"

def ofName? (s : String) : Option StatusCode := all.find? fun c => c.name == s

end StatusCode

structure Status where
  code : StatusCode
  message : String
deriving DecidableEq, Repr

end Vigil
