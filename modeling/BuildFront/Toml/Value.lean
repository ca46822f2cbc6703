/-!
The values of TOML documents.
-/

namespace BuildFront.Toml

inductive Value where
  | text (s : String)
  | integer (n : Int)
  /-- A number with a fraction or an exponent, or one of the special ones, as written. -/
  | float (literal : String)
  | boolean (b : Bool)
  /-- A date, a time, or both, in canonical spelling. -/
  | dateTime (canonical : String)
  | array (items : List Value)
  | table (members : List (String × Value))

namespace Value

/-- The first member of a name. -/
def member? (members : List (String × Value)) (name : String) : Option Value :=
  (members.find? (fun m => m.1 == name)).map (·.2)

end Value
end BuildFront.Toml
