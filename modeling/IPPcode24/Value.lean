import IPPcode24.Binary64.Shortest

/-!
# Values

The values of the language, with the content of a variable that is declared but
not yet assigned as a value of its own.
-/

namespace IPPcode24

/-- The five types that values and literals have. -/
inductive Kind where
  | int
  | bool
  | string
  | float
  | nil
deriving DecidableEq

namespace Kind

def all : List Kind := [int, bool, string, float, nil]

def name : Kind → String
  | int => "int"
  | bool => "bool"
  | string => "string"
  | float => "float"
  | nil => "nil"

def ofName? (name : Text) : Option Kind := all.find? fun kind => kind.name.toList == name

end Kind

/-- What a variable holds. Floats are equal when their bits are. -/
inductive Value where
  | int (n : Int64)
  | bool (b : Bool)
  | string (text : Text)
  | float (x : Binary64)
  | nil
  | uninitialized
deriving DecidableEq

namespace Value

/-- The type of a value; a variable without a value counts as nil. -/
def kind : Value → Kind
  | int _ => .int
  | bool _ => .bool
  | string _ => .string
  | float _ => .float
  | nil => .nil
  | uninitialized => .nil

/-- Whether the value is the nil literal; a variable without a value is not. -/
def isNil (value : Value) : Bool := value = nil

/-- The text of a value. Nil and the missing value have none. -/
def text : Value → Text
  | int n => Text.ofInt n.toInt
  | bool true => "true".toList
  | bool false => "false".toList
  | string text => text
  | float x => x.text
  | nil => []
  | uninitialized => []

end Value

end IPPcode24
