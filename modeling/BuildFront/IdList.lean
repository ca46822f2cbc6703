import BuildFront.Json
import BuildFront.Text.Blank

/-!
Lists of identifiers written with commas. Reading one trims every item, leaves out the blank ones,
and keeps the first of equal ones; nothing left is an error, so a list read has at least one item.
-/

namespace BuildFront

structure EmptyList where
  input : String
  deriving DecidableEq

namespace EmptyList

def message (e : EmptyList) : String :=
  "list is empty after trimming: `" ++ e.input ++ "`"

def code : String := "cs2kit::resolve::empty_list"

def help : String :=
  "Supply at least one comma-separated identifier, or omit the option to use its default"

end EmptyList

/-- Why a JSON value is no list of identifiers. -/
inductive ListFault where
  | notTexts
  | empty (e : EmptyList)
  deriving DecidableEq

structure IdList where
  items : List String
  deriving DecidableEq

namespace IdList

/-- The trimmed items of a text, blank ones left out. -/
def itemsOf (s : String) : List String :=
  ((s.toList.splitOn ',').map Text.trim).filterMap
    (fun cs => if cs.isEmpty then none else some (String.ofList cs))

def parse (s : String) : Except EmptyList IdList :=
  match (itemsOf s).eraseDups with
  | [] => .error ⟨s⟩
  | item :: rest => .ok ⟨item :: rest⟩

/-- Read several texts as one list. -/
def ofTexts (texts : List String) : Except EmptyList IdList :=
  parse (",".intercalate texts)

def display (l : IdList) : String :=
  ",".intercalate l.items

def contains (l : IdList) (item : String) : Bool :=
  l.items.contains item

def size (l : IdList) : Nat :=
  l.items.length

def isEmpty (l : IdList) : Bool :=
  l.items.isEmpty

def toJson (l : IdList) : Json :=
  .arr (l.items.map .str)

/-- Read a JSON array of texts. -/
def ofJson : Json → Except ListFault IdList
  | .arr items =>
    match items.mapM Json.text? with
    | some texts => (ofTexts texts).mapError .empty
    | none => .error .notTexts
  | _ => .error .notTexts

end IdList
end BuildFront
