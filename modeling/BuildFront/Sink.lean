import BuildFront.Text.Utf8

/-!
Something that is written to, such as standard output. It takes bytes in order until it has no more
room.
-/

namespace BuildFront

structure Sink where
  written : Bytes
  /-- The number of bytes that still fit, if there is a bound. -/
  room : Option Nat
  /-- Whether flushing succeeds. -/
  flushes : Bool

namespace Sink

def unbounded : Sink :=
  ⟨[], none, true⟩

def bounded (room : Nat) : Sink :=
  ⟨[], some room, true⟩

/-- Write some bytes, as many as fit, and tell whether all did. -/
def put (s : Sink) (bs : Bytes) : Sink × Bool :=
  match s.room with
  | none => ({ s with written := s.written ++ bs }, true)
  | some room =>
    ({ s with written := s.written ++ bs.take room, room := some (room - bs.length) },
      bs.length ≤ room)

end Sink
end BuildFront
