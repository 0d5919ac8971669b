import Mathlib.Data.List.Basic

set_option autoImplicit false

/- What the message formats share. -/
namespace Mif.Remote.Serialization

/- The names of `Detail::Tag`. -/
namespace Tag

def uuid : String := "uuid"
def type : String := "type"
def request : String := "request"
def response : String := "response"
def inst : String := "instance"
def interface : String := "interface"
def method : String := "method"
def param : String := "prm"
def exception : String := "exception"
def hasException : String := "has_exception"

end Tag

/-- What a `std::exception_ptr` refers to. -/
inductive Exception
  | standard (what : String)
  | unknown
  deriving DecidableEq, Repr

def Exception.message : Exception → String
  | .standard what => what
  | .unknown => "Unknown exception."

end Mif.Remote.Serialization
