import ShaderReflection.CommandLine.Run

/-! The command. It runs on the part of the file system that its arguments name, and changes that
part as the run says. -/
namespace ShaderReflection.CommandLine

/-- The paths that a run may look at: input, templates and output directory. -/
def Settings.paths (s : Settings) : List Path :=
  let input := (s.input.map Path.ofText).toList
  let templates := (s.templateDir.map Path.ofText).toList.flatMap fun dir =>
    [dir.join (.ofText Artifact.headerTemplate), dir.join (.ofText Artifact.implementationTemplate)]
  let outputDirs := (s.outputDir.map Path.ofText).toList ++ input.map Path.parent
  let outputs := outputDirs.flatMap fun dir =>
    dir :: ((s.headerFileName.toList ++ input.flatMap fun p =>
      [p.stem ++ ".h", p.stem ++ ".cc", p.stem ++ ".json"]).map fun name => dir.join (.ofText name))
  input ++ templates ++ outputs

/-- Add what the file system has at a path. -/
def observe (t : FileTree) (p : Path) : IO FileTree := do
  let file := (← IO.currentDir) / p.text
  if ← file.isDir then
    return { t with entries := t.entries.set (placeOf t.cwd p) .directory }
  else if ← file.pathExists then
    let bytes ← IO.FS.readBinFile file
    return { t with entries := t.entries.set (placeOf t.cwd p) (.file bytes.toList) }
  else return t

/-- Change the file system where two trees differ. -/
def apply (before after : FileTree) : IO Unit := do
  for (place, node) in after.entries.entries do
    if before.entries.get? place ≠ some node then
      let file := (← IO.currentDir) / ("/" ++ "/".intercalate place)
      match node with
      | .directory => IO.FS.createDirAll file
      | .file bytes => IO.FS.writeBinFile file ⟨bytes.toArray⟩

/-- Run the command on the file system. -/
def perform (arguments : List String) : IO UInt32 := do
  let cwd := (Path.ofText (← IO.currentDir).toString).parts
  let mut tree : FileTree := ⟨cwd, .empty⟩
  if let .ok s := Settings.ofArguments arguments then
    for p in s.paths.flatMap lineage do
      tree ← observe tree p
  let outcome := run tree arguments
  apply tree outcome.tree
  (← IO.getStdout).putStr outcome.stdout
  (← IO.getStderr).putStr outcome.stderr
  match outcome.ending with
  | .exit code => return code.toUInt32
  | .aborted e =>
    (← IO.getStderr).putStr (e.message ++ "\n")
    return 1

end ShaderReflection.CommandLine

def main (arguments : List String) : IO UInt32 :=
  ShaderReflection.CommandLine.perform arguments
