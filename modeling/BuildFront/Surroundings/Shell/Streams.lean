import BuildFront.Surroundings.Shell.Session

/-!
Opening files for the streams of a shell, and leading streams to each other.
-/

namespace BuildFront.Shell.Session

def openFault (verb absent : String) (name : Octets) (fault : FileFault) : Octets :=
  "cannot " ++ verb ++ " " ++ name ++ ": " ++ (match fault with
    | .os .noEntry | .os .notDirectory => absent
    | .os e => e.words
    | other => other.message)

def lead (s : Session) (stream : Nat) (c : Channel) : Session :=
  let (s, i) := s.openChannel c
  s.withStream stream i

def share (s : Session) (stream other : Nat) : Except Octets Session :=
  match s.channelOf? other with
  | some i => .ok (s.withStream stream i)
  | none => .error (toString other ++ ": Bad file descriptor")

def openRead (s : Session) (stream : Nat) (name : Octets) : Except Octets Session :=
  let fault := openFault "open" "No such file" name
  match s.world.files.find s.cwd name.toPath true with
  | .error e => .error (fault e)
  | .ok ⟨place, entry⟩ =>
    match entry with
    | none => .error (fault (.os .noEntry))
    | some (.device (.stream n)) =>
      (s.share stream n).mapError (fun _ => fault (.os .noEntry))
    | some (.file _ _) => .ok (s.lead stream (.file place 0 false))
    | some _ => .ok (s.lead stream .nowhere)

/-- Open a file for writing, emptied unless what is there is wanted. -/
def openWrite (s : Session) (stream : Nat) (opening : Opening) (name : Octets) :
    Except Octets Session :=
  let fault := openFault "create" "Directory nonexistent" name
  let keeps := opening == .append || opening == .readWrite
  match s.world.files.find s.cwd name.toPath true with
  | .error e => .error (fault e)
  | .ok ⟨place, entry⟩ =>
    match entry with
    | some .directory => .error (fault (.os .isDirectory))
    | some (.device (.stream n)) =>
      (s.share stream n).mapError (fun _ => fault (.os .noEntry))
    | some (.file data executable) =>
      if opening == .write && s.hasOption 'C' then
        .error (fault (.os .fileExists))
      else
        let data := if keeps then data else []
        .ok ((s.withFiles (s.world.files.put place (.file data executable))).lead stream
          (.file place 0 (opening == .append)))
    | none =>
      .ok ((s.withFiles (s.world.files.put place (.file [] false))).lead stream
        (.file place 0 (opening == .append)))
    | some _ => .ok (s.lead stream .nowhere)

def openFile (s : Session) (stream : Nat) (opening : Opening) (name : Octets) :
    Except Octets Session :=
  if opening == .read then s.openRead stream name else s.openWrite stream opening name

inductive Source where
  | closed
  | stream (number : Nat)

/-- The source of a name: a digit, or a dash for none. -/
def Source.ofText? (name : Octets) : Option Source :=
  match name.toList with
  | ['-'] => some .closed
  | [c] => if c.isDigit then some (.stream (c.toNat - '0'.toNat)) else none
  | _ => none

def copyStream (s : Session) (stream : Nat) : Source → Except Octets Session
  | .closed => .ok (s.closeStream stream)
  | .stream n => s.share stream n

def restoreStreams (s before : Session) (streams : List Nat) : Session :=
  { s with streams := before.streams.filter (fun e => streams.contains e.1) ++
      s.streams.filter (fun e => !streams.contains e.1) }

end BuildFront.Shell.Session
