import BuildFront.Toml.Value

/-!
The tables of a document while it is being read. How a table came to be decides who may still add to
it: one opened by a header takes no dotted keys from elsewhere and no second header, one that only
lies on the way to another may still get its header, and one made by dotted keys takes further
dotted keys but no header.
-/

namespace BuildFront.Toml

inductive Origin where
  | header
  | implied
  | dotted
  deriving DecidableEq

inductive Node where
  | leaf (v : Value)
  | table (origin : Origin) (members : List (String × Node))
  /-- The elements of an array of tables, the newest last. -/
  | tables (elements : List Node)

abbrev Members := List (String × Node)

namespace Members

def find? (ms : Members) (key : String) : Option Node :=
  (List.find? (fun m => m.1 == key) ms).map (·.2)

def put (key : String) (node : Node) : Members → Members
  | [] => [(key, node)]
  | m :: rest => if m.1 = key then (key, node) :: rest else m :: put key node rest

/-- Change the table that a path leads to, making those on the way that are missing. A path leads
into the newest element of an array of tables. A path of dotted keys may not pass through a table
that a header opened. -/
def change (dotted : Bool) (f : Origin → Members → Option (Origin × Members)) :
    List String → Origin → Members → Option (Origin × Members)
  | [], origin, ms => f origin ms
  | key :: path, origin, ms =>
    match find? ms key with
    | none => do
      let (o, inner) ← change dotted f path (if dotted then .dotted else .implied) []
      return (origin, put key (.table o inner) ms)
    | some (.leaf _) => none
    | some (.table o inner) =>
      if dotted ∧ o = .header then none
      else do
        let (o, inner) ← change dotted f path o inner
        return (origin, put key (.table o inner) ms)
    | some (.tables elements) =>
      match elements.reverse with
      | .table o inner :: older => do
        let (o, inner) ← change dotted f path o inner
        return (origin, put key (.tables (older.reverse ++ [.table o inner])) ms)
      | _ => none

/-- Add a value under a key. A key with dots has to end in a table that dots made, and one without
has to stand in a table that they did not make. -/
def addValue (path : List String) (key : String) (v : Value) (origin : Origin) (ms : Members) :
    Option (Origin × Members) :=
  change true (fun o inner =>
    if (o == .dotted) == path.isEmpty then none
    else if (find? inner key).isSome then none
    else some (o, inner ++ [(key, .leaf v)])) path origin ms

def openTable (key : String) (origin : Origin) (ms : Members) : Option (Origin × Members) :=
  match find? ms key with
  | none => some (origin, ms ++ [(key, .table .header [])])
  | some (.table .implied inner) => some (origin, put key (.table .header inner) ms)
  | some _ => none

def openElement (key : String) (origin : Origin) (ms : Members) : Option (Origin × Members) :=
  match find? ms key with
  | none => some (origin, ms ++ [(key, .tables [.table .header []])])
  | some (.tables elements) =>
    some (origin, put key (.tables (elements ++ [.table .header []])) ms)
  | some _ => none

end Members

mutual

def Node.toValue : Node → Value
  | .leaf v => v
  | .table _ ms => .table (Node.membersToValues ms)
  | .tables elements => .array (Node.listToValues elements)

def Node.membersToValues : List (String × Node) → List (String × Value)
  | [] => []
  | (key, node) :: rest => (key, node.toValue) :: Node.membersToValues rest

def Node.listToValues : List Node → List Value
  | [] => []
  | node :: rest => node.toValue :: Node.listToValues rest

end

end BuildFront.Toml
