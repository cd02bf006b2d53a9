import ShaderReflection.Reflection

/-! What a reflection reports beside its document. -/
namespace ShaderReflection.CommandLine

inductive Level where
  | debug
  | info
  | error
  deriving DecidableEq, Repr

/-- The number of `-v` from which on a level is shown. -/
def Level.verbosity : Level → Nat
  | .debug => 2
  | .info => 1
  | .error => 0

def Level.text : Level → String
  | .debug => "DEBUG"
  | .info => "INFO"
  | .error => "ERROR"

structure Report where
  level : Level
  topic : String
  text : String
  deriving DecidableEq, Repr

def Report.line (r : Report) : String :=
  r.level.text ++ " reflc.reflection." ++ r.topic ++ ": " ++ r.text ++ "\n"

/-- The lines that are shown at a verbosity. -/
def logText (verbosity : Nat) (rs : List Report) : String :=
  String.join ((rs.filter (·.level.verbosity ≤ verbosity)).map Report.line)

/-- Why there is no vertex struct. Only its locations are worth a report. -/
def vertexReports : VertexSkip → List Report
  | .duplicateLocation l =>
    [⟨.debug, "vertex_input",
      "Not synthesizing " ++ vertexStructName ++ ": duplicate location " ++ toString l⟩]
  | .notContiguous ls =>
    [⟨.debug, "vertex_input",
      "Not synthesizing " ++ vertexStructName ++ ": locations ["
        ++ ", ".intercalate (ls.map toString) ++ "] are not contiguous"⟩]
  | .noInputs | .unresolved => []

def structReports : StructSkip → List Report
  | .reserved name => [⟨.debug, "layout", "Skipping reserved struct '" ++ name ++ "'"⟩]
  | .unresolved name m =>
    [⟨.debug, "layout",
      "Skipping struct '" ++ name ++ "': unresolved member type " ++ toString m⟩]
  | .notStruct => []

def summary (d : Document) : Report :=
  ⟨.info, "assembler",
    "Reflected '" ++ d.entryPoint ++ "' (" ++ d.stage ++ "): "
      ++ toString d.uniformBuffers.length ++ " uniform buffers, "
      ++ toString d.stageInputs.length ++ " inputs, "
      ++ toString d.sampledImages.length ++ " sampled images, "
      ++ toString d.stageOutputs.length ++ " outputs, "
      ++ toString d.structs.length ++ " structs"⟩

def skipReports (vertexSkips : List VertexSkip) (structSkips : List StructSkip) : List Report :=
  vertexSkips.flatMap vertexReports ++ structSkips.flatMap structReports

def reportsOf (r : Reflection) : List Report :=
  skipReports r.vertexSkips r.structSkips ++ [summary r.document]

def failureReports : ReflectionError → List Report
  | .entryPointCount n =>
    [⟨.error, "assembler",
      "Incorrect number of entrypoints in the shader. Found " ++ toString n
        ++ " but expected 1."⟩]
  | .unresolved part rs =>
    rs.map (fun r =>
      ⟨.error, "resources", "Could not resolve the type of resource '" ++ r.name ++ "'"⟩)
      ++ [⟨.error, "assembler", "Reflection failed: " ++ part.phrase⟩]
  | .unwritable vertexSkips structSkips => skipReports vertexSkips structSkips

end ShaderReflection.CommandLine
