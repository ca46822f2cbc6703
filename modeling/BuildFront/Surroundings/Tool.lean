import BuildFront.Surroundings.Tool.Condition
import BuildFront.Surroundings.Tool.Dump
import BuildFront.Surroundings.Tool.Edit
import BuildFront.Surroundings.Tool.Search
import BuildFront.Surroundings.Tool.Starter

/-!
The programs of a system, by their names.
-/

namespace BuildFront.Tool

def plain : List (String × Program Unit) :=
  [("true", pure ()), ("false", Program.exit 1), ("sleep", sleep), ("echo", echo),
   ("printf", printf .alone), ("test", test false), ("[", test true), ("pwd", pwd), ("cat", cat),
   ("head", head), ("tail", tail), ("tac", tac), ("rev", rev), ("tee", tee), ("wc", wc), ("tr", tr),
   ("cut", cut), ("sort", sort), ("uniq", uniq), ("paste", paste), ("grep", grep), ("sed", sed),
   ("seq", seq), ("expr", expr), ("basename", basename), ("dirname", dirname), ("od", od),
   ("base64", base64), ("sha256sum", sha256sum), ("cmp", cmp), ("diff", diff),
   ("dd", dd), ("truncate", truncate), ("touch", touch), ("mkdir", mkdir),
   ("rm", rm), ("rmdir", rmdir), ("cp", cp), ("mv", mv), ("ln", ln), ("chmod", chmod),
   ("readlink", readlink), ("realpath", realpath), ("ls", ls), ("printenv", printenv),
   ("which", which), ("uname", Program.print "Linux\n"), ("sync", pure ())]

def starters : List (String × (Runner → Program Unit)) :=
  [("env", env), ("xargs", xargs), ("timeout", timeout),
   ("nice", fun r => passOn r "n" 0 125 quotedName),
   ("nohup", fun r => passOn r "" 0 125 (fun name words =>
     "failed to run command " ++ quotedName name words)),
   ("setsid", fun r => passOn r "" 0 1 (fun name words =>
     "failed to execute " ++ name ++ ": " ++ words)),
   ("stdbuf", fun r => passOn r "ioe" 0 125 (fun name words =>
     "failed to run command " ++ quotedName name words))]

def run? (runner : Runner) (name : String) (call : Call) : Option Report :=
  match plain.lookup name with
  | some p => some (p.run call)
  | none => (starters.lookup name).map (fun p => (p runner).run call)

/-- The names under which a system keeps the shell. -/
def shellNames : List String :=
  [shellName, "dash", "bash"]

def names : List String :=
  shellNames ++ plain.map (·.1) ++ starters.map (·.1)

end BuildFront.Tool
