import BuildFront.Surroundings.Tool.Program

/-!
Options of programs: letters after a dash, some of which take a value, and long names for them after
two dashes. Options may stand anywhere before `--`.
-/

namespace BuildFront.Tool

structure OptionTable where
  plain : String
  valued : String
  long : List (String × Char)

structure Given where
  options : List (Char × Octets)
  operands : List Octets

namespace Given

def has (g : Given) (c : Char) : Bool :=
  g.options.any (·.1 == c)

def value? (g : Given) (c : Char) : Option Octets :=
  (g.options.reverse.find? (·.1 == c)).map (·.2)

def values (g : Given) (c : Char) : List Octets :=
  (g.options.filter (·.1 == c)).map (·.2)

end Given

namespace OptionTable

/-- The options in the letters after a dash, and whether the last of them takes the next
argument. -/
def letters (t : OptionTable) : List Char → Except Octets (List (Char × Octets) × Option Char)
  | [] => .ok ([], none)
  | c :: cs =>
    if t.valued.toList.contains c then
      if cs.isEmpty then .ok ([], some c) else .ok ([(c, String.ofList cs)], none)
    else if t.plain.toList.contains c then
      (t.letters cs).map (fun r => ((c, "") :: r.1, r.2))
    else .error ("invalid option -- '" ++ c.toString ++ "'")

def split (t : OptionTable) : List Octets → Except Octets Given
  | [] => .ok ⟨[], []⟩
  | arg :: rest => do
    match arg.toList with
    | ['-', '-'] => return ⟨[], rest⟩
    | '-' :: '-' :: cs =>
      let name := String.ofList (cs.takeWhile (· != '='))
      match t.long.filter (fun e => name.isPrefixOf e.1) with
      | [] => throw ("unrecognized option '" ++ arg ++ "'")
      | e :: _ =>
        let c := ((t.long.lookup name).getD e.2)
        if !t.valued.toList.contains c then
          let g ← t.split rest
          return { g with options := (c, "") :: g.options }
        else match cs.dropWhile (· != '=') with
          | _ :: value =>
            let g ← t.split rest
            return { g with options := (c, String.ofList value) :: g.options }
          | [] =>
            match rest with
            | value :: rest =>
              let g ← t.split rest
              return { g with options := (c, value) :: g.options }
            | [] => throw ("option '" ++ arg ++ "' requires an argument")
    | '-' :: c :: cs =>
      let (options, awaiting) ← t.letters (c :: cs)
      match awaiting, rest with
      | none, rest =>
        let g ← t.split rest
        return { g with options := options ++ g.options }
      | some c, value :: rest =>
        let g ← t.split rest
        return { g with options := options ++ (c, value) :: g.options }
      | some c, [] => throw ("option requires an argument -- '" ++ c.toString ++ "'")
    | _ =>
      let g ← t.split rest
      return { g with operands := arg :: g.operands }
  termination_by args => args.length

/-- The options and operands of a program, which complains and ends if they are not understood. -/
def read (t : OptionTable) (code : Nat) (args : List Octets) : Program Given := do
  match t.split args with
  | .ok g => return g
  | .error text =>
    Program.warn text
    let name := (← MonadReader.read).name
    Program.write 2 (Octets.toBytes ("Try '" ++ name ++ " --help' for more information.\n"))
    Program.exit code

end OptionTable
end BuildFront.Tool
