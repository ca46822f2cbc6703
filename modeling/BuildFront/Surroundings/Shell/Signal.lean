/-!
The signals: their numbers, their names, and what is said of a program that one of them has ended.
-/

namespace BuildFront.Shell.Signal

/-- The names by their numbers. A trap goes by the first of them at the end of a shell. -/
def named : List (Nat × String) :=
  [(0, "EXIT"), (1, "HUP"), (2, "INT"), (3, "QUIT"), (4, "ILL"), (5, "TRAP"), (6, "ABRT"),
   (7, "BUS"), (8, "FPE"), (9, "KILL"), (10, "USR1"), (11, "SEGV"), (12, "USR2"), (13, "PIPE"),
   (14, "ALRM"), (15, "TERM"), (17, "CHLD"), (18, "CONT"), (19, "STOP"), (20, "TSTP"),
   (21, "TTIN"), (22, "TTOU"), (23, "URG"), (24, "XCPU"), (25, "XFSZ"), (26, "VTALRM"),
   (27, "PROF"), (28, "WINCH"), (29, "IO"), (30, "PWR"), (31, "SYS")]

def limit : Nat := 65

def firstRealTime : Nat := 34

/-- The name of a signal. Those for programs' own use are counted from both ends. -/
def nameOf (n : Nat) : String :=
  match named.lookup n with
  | some name => name
  | none =>
    if n < firstRealTime then toString n
    else if n = firstRealTime then "RTMIN"
    else if n < firstRealTime + 16 then "RTMIN+" ++ toString (n - firstRealTime)
    else if n + 1 < limit then "RTMAX-" ++ toString (limit - 1 - n)
    else "RTMAX"

/-- The signal of a number or of a name, in letters of any case. Signals below `least` are not
meant. -/
def ofText? (least : Nat) (s : String) : Option Nat :=
  if !s.isEmpty && s.toList.all Char.isDigit then s.toNat?.filter (· < limit)
  else (List.range limit).find? (fun n => least ≤ n && (nameOf n).toUpper == s.toUpper)

def description? (n : Nat) : Option String :=
  match n with
  | 1 => some "Hangup"
  | 2 => none
  | 3 => some "Quit"
  | 4 => some "Illegal instruction"
  | 5 => some "Trace/breakpoint trap"
  | 6 => some "Aborted"
  | 7 => some "Bus error"
  | 8 => some "Floating point exception"
  | 9 => some "Killed"
  | 10 => some "User defined signal 1"
  | 11 => some "Segmentation fault"
  | 12 => some "User defined signal 2"
  | 13 => none
  | 14 => some "Alarm clock"
  | 15 => some "Terminated"
  | 16 => some "Stack fault"
  | 24 => some "CPU time limit exceeded"
  | 25 => some "File size limit exceeded"
  | 26 => some "Virtual timer expired"
  | 27 => some "Profiling timer expired"
  | 29 => some "I/O possible"
  | 30 => some "Power failure"
  | 31 => some "Bad system call"
  | n =>
    if n < firstRealTime then some ("Unknown signal " ++ toString n)
    else some ("Real-time signal " ++ toString (n - firstRealTime))

def isHarmless (n : Nat) : Bool :=
  [0, 17, 18, 19, 20, 21, 22, 23, 28].contains n

def isCertain (n : Nat) : Bool :=
  n == 9 || n == 19

end BuildFront.Shell.Signal
