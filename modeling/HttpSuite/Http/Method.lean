import HttpSuite.Text.Blank

/-!
# Request methods
-/

namespace HttpSuite

inductive Method where
  | get
  | post
  | put
  | delete
  | patch
  | head
  | options
  | trace
  | connect
deriving DecidableEq

namespace Method

def all : List Method := [get, post, put, delete, patch, head, options, trace, connect]

def name : Method → String
  | get => "GET"
  | post => "POST"
  | put => "PUT"
  | delete => "DELETE"
  | patch => "PATCH"
  | head => "HEAD"
  | options => "OPTIONS"
  | trace => "TRACE"
  | connect => "CONNECT"

/-- A text as the name of a method: without blanks around it and in capitals. -/
def normalize (text : String) : String := upper (trimmed text)

/-- The method of a name in any letter case, blanks around it aside. -/
def ofText? (text : String) : Option Method := all.find? fun m => m.name == normalize text

/-- The text for a name that is no method. -/
def unsupported (text : String) : String := "Unsupported HTTP method: " ++ normalize text

end Method

end HttpSuite
