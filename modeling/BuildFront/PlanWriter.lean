import BuildFront.Engine

/-!
Writing plans instead of running an engine. A plan without a JSON form leaves the output as it is.
-/

namespace BuildFront.PlanWriter

def lineEnd : Bytes := [0x0A]

def line (text : String) : Bytes :=
  Utf8.ofString text ++ lineEnd

/-- Write a plan and a line end. -/
def configure (sink : Sink) (plan : BuildPlan) : Sink × Except EngineError Unit :=
  match plan.text? with
  | none => (sink, .error .serialize)
  | some text =>
    let (sink, complete) := sink.put (line text)
    (sink, if complete && sink.flushes then .ok () else .error .write)

end BuildFront.PlanWriter
