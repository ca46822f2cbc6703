import BuildFront.Surroundings.CharSet
import BuildFront.Surroundings.Tool.Lines
import BuildFront.Surroundings.Tool.Wording

/-!
Programs that count, exchange characters, and treat lines as rows of a table.
-/

namespace BuildFront.Tool

open Program

def counts (data : Bytes) : List (Char × Nat) :=
  let runs := data.splitBy (fun a b => 0x20 < a && 0x20 < b)
  let words := runs.countP (fun run => run.any (0x20 < ·))
  let widths := (linesOf data).1.map List.length
  [('l', data.count lineFeed), ('w', words), ('m', data.length), ('c', data.length),
   ('L', widths.foldl max 0)]

def wc : Program Unit := do
  let g ← OptionTable.read
    ⟨"lwmcL", "", [("lines", 'l'), ("words", 'w'), ("chars", 'm'), ("bytes", 'c'),
      ("max-line-length", 'L')]⟩ 1 (← read).args
  let asked (c : Char) : Bool :=
    if g.options.isEmpty then c == 'l' || c == 'w' || c == 'c' else g.has c
  let names := if g.operands.isEmpty then ["-"] else g.operands
  let columns := ['l', 'w', 'm', 'c', 'L'].filter asked
  let parts ← names.mapM (fun name => do
    match ← contents name with
    | .ok data => return (name, some data)
    | .error words =>
      fault 1 (nameAndWords name words)
      return (name, if words == "Is a directory" then some [] else none))
  let sizes := parts.filterMap (·.2)
  let isOpen := names.any (fun name =>
    name == "-" && !g.operands.contains "/dev/stdin") && !(← read).rewinds
  let directory := (parts.any (fun p => p.2 == some [])) && g.operands.length == 1
  let width :=
    if names.length == 1 && columns.length == 1 then 1
    else if isOpen || directory then 7
    else (toString (sizes.foldl (fun n d => n + d.length) 0)).length
  let row (values : List (Char × Nat)) (name : Octets) : Program Unit :=
    print (" ".intercalate (columns.map (fun c => padded width ((values.lookup c).getD 0))) ++
      (if name.isEmpty then "" else " " ++ name) ++ "\n")
  parts.forM (fun p => do
    match p.2 with
    | some data => row (counts data) (if g.operands.isEmpty then "" else p.1)
    | none => pure ())
  if 1 < names.length then
    let all := sizes.map counts
    row (['l', 'w', 'm', 'c', 'L'].map (fun c =>
      let values := all.map (fun v => (v.lookup c).getD 0)
      (c, if c == 'L' then values.foldl max 0 else values.foldl (· + ·) 0))) "total"

/-- The characters of a set and what is done to repeat one of them: ranges, kinds and escapes
written out. `n` bounds the number of steps; `room` is how many a repetition without number has to
fill. -/
def writtenOut (room : Nat) : Nat → List Char → Except Octets (List Char)
  | 0, _ | _, [] => .ok []
  | n + 1, cs =>
    let one (cs : List Char) : Option (Char × List Char) :=
      match cs with
      | [] => none
      | '\\' :: rest =>
        match escapeAtFront? ⟨false, false, false⟩ rest with
        | some (some c, taken) => some (c, rest.drop taken)
        | _ =>
          match rest with
          | e :: more => some (e, more)
          | [] => some ('\\', [])
      | c :: rest => some (c, rest)
    let kind : Option (List Char × List Char) :=
      match cs with
      | '[' :: ':' :: rest =>
        let name := rest.takeWhile (· != ':')
        match rest.drop name.length with
        | ':' :: ']' :: more => some ((CharRange.kind (String.ofList name)).members, more)
        | _ => none
      | '[' :: c :: '*' :: rest =>
        let digits := rest.takeWhile Char.isDigit
        match rest.drop digits.length with
        | ']' :: more =>
          let times := (String.ofList digits).toNat?.getD 0
          some (List.replicate (if times = 0 then room else times) c, more)
        | _ => none
      | _ => none
    match kind with
    | some (members, rest) => (writtenOut room n rest).map (members ++ ·)
    | none =>
      match one cs with
      | none => .ok []
      | some (low, '-' :: rest) =>
        match one rest with
        | none => .ok [low, '-']
        | some (high, rest) =>
          if high < low then
            .error ("range-endpoints of '" ++ String.ofList [low, '-', high] ++
              "' are in reverse collating sequence order")
          else (writtenOut room n rest).map ((CharRange.between low high).members ++ ·)
      | some (c, rest) => (writtenOut room n rest).map (c :: ·)

def squeezed (set : UInt8 → Bool) : Option UInt8 → Bytes → Bytes
  | _, [] => []
  | before, b :: rest =>
    if before == some b && set b then squeezed set before rest else b :: squeezed set (some b) rest

def tr : Program Unit := do
  let g ← OptionTable.read
    ⟨"cCdst", "", [("complement", 'c'), ("delete", 'd'), ("squeeze-repeats", 's'),
      ("truncate-set1", 't')]⟩ 1 (← read).args
  let hint (text : Octets) : Program Unit := do
    write 2 (Octets.toBytes (text ++
      "Try '" ++ (← read).name ++ " --help' for more information.\n"))
    exit 1
  let set (room : Nat) (s : Octets) : Program Bytes := do
    match writtenOut room (s.length + 1) s.toList with
    | .ok cs => return Octets.toBytes (String.ofList cs)
    | .error text => fail 1 text
  let inverse := g.has 'c' || g.has 'C'
  let inFirst (source : Bytes) (b : UInt8) : Bool := source.contains b != inverse
  let deletes := g.has 'd'
  let squeezes := g.has 's'
  match g.operands with
  | [] => do
    warn "missing operand"
    hint ""
  | [first] =>
    let source ← set 0 first
    if deletes && !squeezes then write 1 ((← takeInput).filter (fun b => !inFirst source b))
    else if squeezes && !deletes then write 1 (squeezed (inFirst source) none (← takeInput))
    else
      warn ("missing operand after '" ++ first ++ "'")
      hint (if deletes then "Two strings must be given when both deleting and squeezing repeats.\n"
        else "Two strings must be given when translating.\n")
  | [first, second] =>
    if deletes && !squeezes then
      warn ("extra operand '" ++ second ++ "'")
      hint "Only one string may be given when deleting without squeezing repeats.\n"
    else
      let given ← set 0 first
      let source := if inverse then
          ((List.range 256).map UInt8.ofNat).filter (fun b => !given.contains b)
        else given
      let target ← set source.length second
      let data ← takeInput
      if deletes then
        write 1 (squeezed target.contains none (data.filter (fun b => !source.contains b)))
      else
        let source := if g.has 't' then source.take target.length else source
        let swap (b : UInt8) : UInt8 :=
          match (source.reverse.idxOf? b).map (source.length - 1 - ·) with
          | none => b
          | some i => (target[i]?).getD (target.getLast?.getD b)
        let swapped := data.map swap
        write 1 (if squeezes then squeezed target.contains none swapped else swapped)
  | _ :: _ :: third :: _ => do
    warn ("extra operand '" ++ third ++ "'")
    hint ""

/-- Numbers that are meant by ranges between commas: each with its first and its last number. -/
def columnRanges (s : Octets) : Option (List (Nat × Option Nat)) :=
  (s.splitOn ",").mapM (fun part =>
    match part.splitOn "-" with
    | [n] => n.toNat?.map (fun n => (n, some n))
    | [low, high] =>
      if low.isEmpty && high.isEmpty then none
      else do
        let low ← if low.isEmpty then some 1 else low.toNat?
        let high ← if high.isEmpty then some none else high.toNat?.map some
        return (low, high)
    | _ => none)

def cut : Program Unit := do
  let g ← OptionTable.read
    ⟨"sn", "bcfdO", [("bytes", 'b'), ("characters", 'c'), ("fields", 'f'), ("delimiter", 'd'),
      ("only-delimited", 's'), ("output-delimiter", 'O'), ("complement", 'n')]⟩ 1 (← read).args
  let misuse (text : Octets) : Program Unit := do
    warn text
    write 2 (Octets.toBytes ("Try '" ++ (← read).name ++ " --help' for more information.\n"))
    exit 1
  let lists := g.options.filter (fun o => o.1 == 'b' || o.1 == 'c' || o.1 == 'f')
  match lists with
  | [] => misuse "you must specify a list of bytes, characters, or fields"
  | [(kind, text)] =>
    let delimiter := (g.value? 'd').getD "\t"
    match columnRanges text with
    | none => misuse ("invalid " ++ (if kind == 'f' then "field" else "byte/character") ++ " range")
    | some ranges =>
      if delimiter.length != 1 then misuse "the delimiter must be a single character"
      else if ranges.any (·.1 == 0) then
        misuse (if kind == 'f' then "fields are numbered from 1"
          else "byte/character positions are numbered from 1")
      else if ranges.any (fun r => r.2.any (· < r.1)) then misuse "invalid decreasing range"
      else
        let wanted (i : Nat) : Bool :=
          ranges.any (fun r => r.1 ≤ i + 1 && r.2.all (i + 1 ≤ ·)) != g.has 'n'
        let pick {α : Type} (items : List α) : List α :=
          (items.zipIdx.filter (fun e => wanted e.2)).map (·.1)
        let mark := Octets.toBytes delimiter
        let joint := ((g.value? 'O').map Octets.toBytes).getD mark
        let data ← gather 1 nameAndWords g.operands
        let cutLine (line : Bytes) : Option Bytes :=
          if kind != 'f' then some (pick line)
          else
            let fields := line.splitOn (mark.headD 0)
            if fields.length ≤ 1 then (if g.has 's' then none else some line)
            else some (joint.intercalate (pick fields))
        write 1 (ofLines ((linesOf data).1.filterMap cutLine))
  | _ => misuse "only one list may be specified"

def leadingNumber (bs : Bytes) : Int :=
  let cs := (Octets.ofBytes bs).toList.dropWhile (fun c => c == ' ' || c == '\t')
  let (negative, cs) := match cs with
    | '-' :: rest => (true, rest)
    | cs => (false, cs)
  let n := (String.ofList (cs.takeWhile Char.isDigit)).toNat?.getD 0
  if negative then -(n : Int) else (n : Int)

structure SortKey where
  first : Nat
  last : Option Nat
  letters : List Char

def SortKey.ofText (s : Octets) : SortKey :=
  let position (s : Octets) : Nat × List Char :=
    let digits := s.toList.takeWhile Char.isDigit
    ((String.ofList digits).toNat?.getD 1,
      (s.toList.drop digits.length).filter (fun c => c.isAlpha))
  match s.splitOn "," with
  | [a] => ⟨(position a).1, none, (position a).2⟩
  | a :: b :: _ => ⟨(position a).1, some (position b).1, (position a).2 ++ (position b).2⟩
  | [] => ⟨1, none, []⟩

/-- The fields of a line: between separators, or each with the blanks before it. -/
def sortFields (separator : Option UInt8) (line : Bytes) : List Bytes :=
  match separator with
  | some c => (line.splitOn c).zipIdx.map (fun e => if e.2 = 0 then e.1 else c :: e.1)
  | none =>
    let isBlank (b : UInt8) : Bool := b == 0x20 || b == 0x09
    line.splitBy (fun a b => isBlank a || !isBlank b)

def SortKey.part (k : SortKey) (separator : Option UInt8) (line : Bytes) : Bytes :=
  let fields := (sortFields separator line).drop (k.first - 1)
  let part := (match k.last with
    | some n => fields.take (n + 1 - k.first)
    | none => fields).flatten
  if separator.isSome && 1 < k.first then part.drop 1 else part

def compareBy (letters : List Char) (a b : Bytes) : Ordering :=
  let isBlank (c : UInt8) : Bool := c == 0x20 || c == 0x09
  let trim (s : Bytes) : Bytes := if letters.contains 'b' then s.dropWhile isBlank else s
  let fold (s : Bytes) : Bytes :=
    if letters.contains 'f' then s.map (fun c => if 0x61 ≤ c && c ≤ 0x7A then c - 0x20 else c)
    else s
  let shown (s : Bytes) : Bytes :=
    if letters.contains 'd' then s.filter (fun c => isBlank c || (Char.ofNat c.toNat).isAlphanum)
    else s
  let order := if letters.contains 'n' || letters.contains 'g' then
      compare (leadingNumber a) (leadingNumber b)
    else compare (shown (fold (trim a))) (shown (fold (trim b)))
  if letters.contains 'r' then order.swap else order

def sort : Program Unit := do
  let g ← OptionTable.read
    ⟨"rnufbdgsczm", "kto", [("reverse", 'r'), ("numeric-sort", 'n'), ("unique", 'u'),
      ("ignore-case", 'f'), ("key", 'k'), ("field-separator", 't'), ("output", 'o'),
      ("check", 'c'), ("stable", 's')]⟩ 2 (← read).args
  let whole := ['r', 'n', 'f', 'b', 'd', 'g'].filter g.has
  let separator := (g.value? 't').bind (fun s => (Octets.toBytes s).head?)
  let keys := (g.values 'k').map SortKey.ofText
  let ordered (a b : Bytes) : Ordering :=
    if keys.isEmpty then compareBy whole a b
    else (keys.map (fun k =>
      compareBy (if k.letters.isEmpty then whole else k.letters) (k.part separator a)
        (k.part separator b))).foldl Ordering.then .eq
  let full (a b : Bytes) : Ordering :=
    if g.has 'u' || g.has 's' then ordered a b
    else (ordered a b).then (if g.has 'r' then (compare a b).swap else compare a b)
  let data ← (if g.operands.isEmpty then ["-"] else g.operands).mapM (fun name => do
    match ← contents name with
    | .ok data => return data
    | .error words => fail 2 ("cannot read: " ++ name ++ ": " ++ words))
  let lines := data.flatMap (fun d => (linesOf d).1)
  if g.has 'c' then
    let pairs := lines.zip (lines.drop 1)
    match pairs.zipIdx.find? (fun e =>
        let o := full e.1.1 e.1.2
        o == .gt || (g.has 'u' && o == .eq)) with
    | some ((_, line), i) =>
      fail 1 (g.operands.headD "-" ++ ":" ++ toString (i + 2) ++ ": disorder: " ++
        Octets.ofBytes line)
    | none => exit 0
  else
    let sorted := lines.mergeSort (fun a b => full a b != .gt)
    let kept := if g.has 'u' then
        (sorted.splitBy (fun a b => ordered a b == .eq)).filterMap List.head?
      else sorted
    match g.value? 'o' with
    | none => write 1 (ofLines kept)
    | some name =>
      match ← writeFile false name (ofLines kept) with
      | none => pure ()
      | some words => fail 2 ("open failed: " ++ name ++ ": " ++ words)

def uniq : Program Unit := do
  let g ← OptionTable.read
    ⟨"cdui", "fsw", [("count", 'c'), ("repeated", 'd'), ("unique", 'u'), ("ignore-case", 'i')]⟩
    1 (← read).args
  let data ← gather 1 nameAndWords (g.operands.take 1)
  let folded (line : Bytes) : Octets :=
    if g.has 'i' then (Octets.ofBytes line).toLower else Octets.ofBytes line
  let runs := (linesOf data).1.splitBy (fun a b => folded a == folded b)
  let kept := runs.filter (fun run =>
    (!g.has 'd' || 1 < run.length) && (!g.has 'u' || run.length == 1))
  let text := ofLines (kept.map (fun run =>
    (if g.has 'c' then Octets.toBytes (padded 7 run.length ++ " ") else []) ++ run.headD []))
  match g.operands with
  | [_, name] =>
    match ← writeFile false name text with
    | none => pure ()
    | some words => fail 1 (nameAndWords name words)
  | _ => write 1 text

def paste : Program Unit := do
  let g ← OptionTable.read ⟨"s", "d", [("serial", 's'), ("delimiters", 'd')]⟩ 1 (← read).args
  let given := (g.value? 'd').getD "\t"
  let marks := Octets.toBytes (unescaped ⟨false, false, false⟩ given).1
  let mark (i : Nat) : Bytes := (marks[i % max 1 marks.length]?).toList
  let names := if g.operands.isEmpty then ["-"] else g.operands
  let join (lines : List Bytes) : Bytes :=
    lines.zipIdx.flatMap (fun e => (if e.2 = 0 then [] else mark (e.2 - 1)) ++ e.1)
  let inputs := names.countP (· == "-")
  let input := (linesOf (← takeInput)).1
  let columns ← names.zipIdx.mapM (fun e => do
    if e.1 == "-" then
      let rank := (names.take e.2).countP (· == "-")
      if g.has 's' then return if rank = 0 then input else []
      else return (input.zipIdx.filter (fun l => l.2 % inputs == rank)).map (·.1)
    else
      match ← contents e.1 with
      | .ok data => return (linesOf data).1
      | .error words => fail 1 (nameAndWords e.1 words))
  if g.has 's' then write 1 (ofLines (columns.map join))
  else
    let height := (columns.map List.length).foldl max 0
    let rows := (List.range height).map (fun i => columns.map (fun column => column[i]?.getD []))
    write 1 (ofLines (rows.map join))

end BuildFront.Tool
