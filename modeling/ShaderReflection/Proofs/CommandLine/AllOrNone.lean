import ShaderReflection.Proofs.Artifact.Packaged
import ShaderReflection.Proofs.CommandLine.TreeChanges
import ShaderReflection.Proofs.Module.Steps

/-! The command writes all of its files or none. What can fail before a file is written is one
computation, the products of a job; it neither looks at the tree nor writes. -/
namespace ShaderReflection.CommandLine

/-- Why a job has no products: in reading the listing and making a module of it, in reflection, or
in rendering what reflection gave. -/
inductive JobFailure where
  | module (e : Module.LoadError)
  | reflection (e : ReflectionError)
  | rendering (r : Reflection) (e : Artifact.RenderError)

def JobFailure.message : JobFailure → String
  | .module e => e.message
  | .reflection e => e.message
  | .rendering _ e => e.message

def JobFailure.reports : JobFailure → List Report
  | .module _ => []
  | .reflection e => failureReports e
  | .rendering r _ => reportsOf r

/-- A reflection, and the two sources that are rendered from its document. -/
def Job.products (j : Job) : Except JobFailure (Reflection × Artifact.Artifacts) := do
  let d ← (Module.load j.source).mapError .module
  let r ← (d.shader.reflect j.options ⟨0⟩).1.mapError .reflection
  let a ← (Artifact.renderAll j.templates r.document j.host.engine).mapError (.rendering r)
  return (r, a)

/-- A job without products changes nothing and says why. One with products shows the document or
writes its files. -/
theorem Job.run_eq (j : Job) (tree : FileTree) :
    j.run tree =
      match j.products with
      | .error f => .failure tree f.message (logText j.verbosity f.reports)
      | .ok (r, a) =>
        if j.dumpDocument then
          match r.document.jsonText? with
          | some text => .success tree text (logText j.verbosity (reportsOf r))
          | none => .failure tree Number.unwritableText (logText j.verbosity (reportsOf r))
        else j.emit tree r.document a (logText j.verbosity (reportsOf r)) := by
  unfold run products
  cases Module.load j.source with
  | error e => rfl
  | ok d =>
    dsimp only [Except.mapError, bind, Except.bind]
    cases (d.shader.reflect j.options ⟨0⟩).1 with
    | error e => rfl
    | ok r =>
      dsimp only
      cases Artifact.renderAll j.templates r.document j.host.engine with
      | error e => rfl
      | ok a => rfl

section Writing

variable {t t' : FileTree} {os : List Output} {report : String}

private theorem Output.write_eq_ok {o : Output} (h : o.write t = .ok t') :
    ∃ text, o.text = some text ∧ t.write o.path (Text.utf8 text) = .ok t' := by
  unfold write at h
  cases htext : o.text with
  | none =>
    rw [htext] at h
    cases h
  | some text =>
    rw [htext] at h
    cases hwrite : t.write o.path (Text.utf8 text) with
    | error e =>
      dsimp only at h
      rw [hwrite] at h
      cases h
    | ok u =>
      dsimp only at h
      rw [hwrite] at h
      obtain rfl := Except.ok.inj h
      exact ⟨text, rfl, hwrite⟩

private theorem writeAll_cons {o : Output} (h : writeAll t (o :: os) = (report, t', none)) :
    ∃ u report', o.write t = .ok u ∧ writeAll u os = (report', t', none) := by
  unfold writeAll at h
  cases hwrite : o.write t with
  | error message =>
    rw [hwrite] at h
    cases h
  | ok u =>
    rw [hwrite] at h
    obtain ⟨-, hrest⟩ := Prod.mk.inj h
    exact ⟨u, _, rfl, Prod.ext rfl hrest⟩

/-- Where the places of files differ, each one has its text in the end, and nothing else has
changed. -/
theorem writeAll_ok (h : writeAll t os = (report, t', none)) :
    t.KeepsDirectories t' ∧
    (∀ l ∉ os.map fun o => placeOf t.cwd o.path, t'.node? l = t.node? l) ∧
    ((os.map fun o => placeOf t.cwd o.path).Nodup →
      ∀ o ∈ os, ∃ text, o.text = some text ∧ t'.lookup o.path = .ok (.file (Text.utf8 text))) := by
  induction os generalizing t report with
  | nil =>
    obtain ⟨-, h⟩ := Prod.mk.inj h
    obtain ⟨rfl, -⟩ := Prod.mk.inj h
    exact ⟨.refl t, fun _ _ => rfl, fun _ o ho => by cases ho⟩
  | cons o os ih =>
    obtain ⟨u, report', hwrite, hrest⟩ := writeAll_cons h
    obtain ⟨text, htext, hwrite⟩ := Output.write_eq_ok hwrite
    obtain ⟨hlocate, hkeeps, hnode⟩ := FileTree.write_eq_ok hwrite
    obtain ⟨hkeeps', hframe, hall⟩ := ih hrest
    rw [hkeeps.cwd] at hframe hall
    refine ⟨hkeeps.trans hkeeps', fun l hl => ?_, fun hnodup => ?_⟩
    · rw [List.map_cons, List.mem_cons, not_or] at hl
      rw [hframe l hl.2, hnode, if_neg hl.1]
    · rw [List.map_cons, List.nodup_cons] at hnodup
      intro o' ho'
      rcases List.mem_cons.mp ho' with rfl | ho'
      · -- The later files are elsewhere, and the way to this one is still there.
        refine ⟨text, htext, FileTree.lookup_eq_ok ((hkeeps.trans hkeeps').locate hlocate) ?_⟩
        rw [hframe _ hnodup.1, hnode, if_pos rfl]
      · exact hall hnodup.2 o' ho'

end Writing

section Delivery

variable {j : Job} {d : Document} {a : Artifact.Artifacts} {t : FileTree}

def Job.headerPath (j : Job) : Path := j.outputDir.join (.ofText j.options.headerFileName)

def Job.implementationPath (j : Job) : Path := j.outputDir.join (.ofText (j.stem ++ ".cc"))

def Job.jsonPath (j : Job) : Path := j.outputDir.join (.ofText (j.stem ++ ".json"))

def Job.outputPaths (j : Job) : List Path :=
  [j.headerPath, j.implementationPath] ++ if j.withJson then [j.jsonPath] else []

theorem Job.map_path_outputs (j : Job) (d : Document) (a : Artifact.Artifacts) :
    (j.outputs d a).map (·.path) = j.outputPaths := by
  unfold outputs outputPaths
  split <;> rfl

/-- The output directory is there or can be made, all files have a text, and all can be written. -/
def Job.WritesSucceed (j : Job) (t : FileTree) (d : Document) (a : Artifact.Artifacts) : Prop :=
  (t.makeDirectories j.outputDir j.host.maxMissing).2 = none ∧
    (writeAll (t.makeDirectories j.outputDir j.host.maxMissing).1 (j.outputs d a)).2.2 = none

instance : Decidable (j.WritesSucceed t d a) := inferInstanceAs (Decidable (_ ∧ _))

/-- From one tree to the other, a job has made its output directory and written its files. Whatever
is at another place is what was there before. -/
structure Job.Delivered (j : Job) (d : Document) (a : Artifact.Artifacts) (t t' : FileTree) :
    Prop where
  cwd : t'.cwd = t.cwd
  unchanged : ∀ l, (∀ p ∈ j.outputPaths, placeOf t.cwd p ≠ l) →
    t'.node? l = t.node? l ∨
      (∃ p ∈ lineage j.outputDir, placeOf t.cwd p = l) ∧ t.node? l = none ∧
        t'.node? l = some .directory
  header : t'.lookup j.headerPath = .ok (.file (Text.utf8 a.header))
  implementation : t'.lookup j.implementationPath = .ok (.file (Text.utf8 a.implementation))
  json : j.withJson = true → ∃ text, d.jsonText? = some text ∧
    t'.lookup j.jsonPath = .ok (.file (Text.utf8 text))

/-- A job that writes its files ends well just if it could make the directory and write them all. -/
theorem Job.ending_emit_iff (log : String) :
    (j.emit t d a log).ending = .exit 0 ↔ j.WritesSucceed t d a := by
  unfold emit WritesSucceed
  generalize t.makeDirectories j.outputDir j.host.maxMissing = made
  obtain ⟨u, failure⟩ := made
  cases failure with
  | some e => simp [Outcome.failure]
  | none =>
    dsimp only
    generalize writeAll u (j.outputs d a) = result
    obtain ⟨report, t', failure⟩ := result
    cases failure with
    | none => simp [Outcome.success]
    | some message => simp [Outcome.failure]

private theorem Job.WritesSucceed.emit_eq (h : j.WritesSucceed t d a) (log : String) :
    ∃ u report t', t.makeDirectories j.outputDir j.host.maxMissing = (u, none) ∧
      writeAll u (j.outputs d a) = (report, t', none) ∧
      j.emit t d a log = .success t' report log := by
  obtain ⟨hmade, hwritten⟩ := h
  unfold emit
  generalize t.makeDirectories j.outputDir j.host.maxMissing = made at hmade hwritten
  obtain ⟨u, failure⟩ := made
  obtain rfl : failure = none := hmade
  dsimp only at hwritten ⊢
  generalize hall : writeAll u (j.outputs d a) = result at hwritten
  obtain ⟨report, t', failure⟩ := result
  obtain rfl : failure = none := hwritten
  exact ⟨u, report, t', rfl, hall, rfl⟩

theorem Job.emit_delivered (h : j.WritesSucceed t d a)
    (distinct : (j.outputPaths.map (placeOf t.cwd)).Nodup) (log : String) :
    j.Delivered d a t (j.emit t d a log).tree := by
  obtain ⟨u, report, t', hmade, hall, hemit⟩ := h.emit_eq log
  have hgrown := FileTree.makeDirectories_grown t j.outputDir j.host.maxMissing
  rw [hmade] at hgrown
  rw [hemit]
  obtain ⟨hkeeps, hframe, htexts⟩ := writeAll_ok hall
  have hplaces : (j.outputs d a).map (fun o => placeOf u.cwd o.path) =
      j.outputPaths.map (placeOf t.cwd) := by
    rw [hgrown.cwd, ← j.map_path_outputs d a, List.map_map]
    rfl
  rw [hplaces] at hframe htexts
  have htexts := htexts distinct
  show j.Delivered d a t t'
  refine ⟨hkeeps.cwd.trans hgrown.cwd, fun l hl => ?_, ?_, ?_, fun hjson => ?_⟩
  · have hne : l ∉ j.outputPaths.map (placeOf t.cwd) := by
      rintro hmem
      obtain ⟨p, hp, hpl⟩ := List.mem_map.mp hmem
      exact hl p hp hpl
    rw [hframe l hne]
    exact hgrown.node? l
  · obtain ⟨text, htext, hlookup⟩ := htexts ⟨j.headerPath, a.header⟩ (by simp [outputs, headerPath])
    obtain rfl := Option.some.inj htext
    exact hlookup
  · obtain ⟨text, htext, hlookup⟩ := htexts ⟨j.implementationPath, a.implementation⟩
      (by simp [outputs, implementationPath])
    obtain rfl := Option.some.inj htext
    exact hlookup
  · exact htexts ⟨j.jsonPath, d.jsonText?⟩ (by simp [outputs, jsonPath, hjson])

private theorem Path.placeOf_join_name {name : String} (h : Path.IsName name) (cwd : Location)
    (dir : Path) : placeOf cwd (dir.join (.ofText name)) = placeOf cwd dir ++ [name] := by
  rw [h.ofText_eq]
  simp [Path.join, placeOf, h.ne_dots]

/-- Files that are named without a directory share a place only if they share a path. -/
private theorem Job.nodup_places_iff (hheader : Path.IsName j.options.headerFileName)
    (hstem : '/' ∉ j.stem.toList) (cwd : Location) :
    (j.outputPaths.map (placeOf cwd)).Nodup ↔ j.outputPaths.Nodup := by
  have hnames : ∀ p ∈ j.outputPaths, ∃ name, Path.IsName name ∧
      p = j.outputDir.join (.ofText name) := by
    intro p hp
    rcases List.mem_append.mp hp with hp | hp
    · have hp : p = j.headerPath ∨ p = j.implementationPath := by simpa using hp
      rcases hp with rfl | rfl
      · exact ⟨_, hheader, rfl⟩
      · exact ⟨_, Path.isName_append hstem (by decide) (by decide), rfl⟩
    · split at hp
      · rw [List.mem_singleton.mp hp]
        exact ⟨_, Path.isName_append hstem (by decide) (by decide), rfl⟩
      · cases hp
  refine ⟨fun h => h.of_map, fun h => h.map_on fun p hp q hq hpq => ?_⟩
  obtain ⟨name, hname, rfl⟩ := hnames p hp
  obtain ⟨name', hname', rfl⟩ := hnames q hq
  rw [Path.placeOf_join_name hname, Path.placeOf_join_name hname'] at hpq
  rw [List.cons.inj (List.append_cancel_left hpq) |>.1]

end Delivery

/-- The job that arguments ask for in a tree: the input that they name is a file, and it is text. -/
def Asks (host : Host) (tree : FileTree) (arguments : List String) (j : Job) : Prop :=
  ∃ s input bytes text, Settings.ofArguments arguments = .ok s ∧ s.input = some input ∧
    tree.lookup (.ofText input) = .ok (.file bytes) ∧ Text.ofUtf8 bytes = .ok text ∧
    j = s.job host tree (.ofText input) text

section Asked

variable {host : Host} {tree : FileTree} {arguments : List String} {j : Job}
  (h : Asks host tree arguments j)
include h

private theorem run_of_asks : run tree arguments host = j.run tree := by
  obtain ⟨s, input, bytes, text, hs, hinput, hfile, htext, rfl⟩ := h
  simp only [run, hs, hinput, Settings.run, hfile, htext]

/-- With a header file that is named without a directory, files have different places just if their
paths are different. -/
theorem nodup_places_iff_of_asks (hheader : Path.IsName j.options.headerFileName) :
    (j.outputPaths.map (placeOf tree.cwd)).Nodup ↔ j.outputPaths.Nodup := by
  obtain ⟨s, input, _, _, -, -, -, -, rfl⟩ := h
  exact Job.nodup_places_iff hheader (Path.slash_not_mem_stem input) tree.cwd

end Asked

def quadTree : FileTree where
  cwd := ["shaders"]
  entries := ⟨[
    (["shaders", "quad.spvasm"], .file (Text.utf8 "OpEntryPoint Vertex %main \"main\"\n")),
    (["shaders", "t"], .directory),
    (["shaders", "t", "reflection.h.j2"],
      .file (Text.utf8 "// \x7b\x7b entrypoint \x7d\x7d\n"))]⟩

/-- Write the files two directories further down, both of which are missing. -/
def quadArguments : List String := ["quad.spvasm", "-o", "out/gen", "-v", "--template-dir", "t"]

def quadJob : Job where
  host := .plain
  source := "OpEntryPoint Vertex %main \"main\"\n"
  stem := "quad"
  outputDir := ⟨"", ["out", "gen"]⟩
  options := { shaderName := "quad", headerFileName := "quad.h" }
  templates := templatesIn quadTree (some "t")
  withJson := true
  dumpDocument := false
  verbosity := 1

private theorem asks_quadJob : Asks .plain quadTree quadArguments quadJob := by
  have hinput : Path.ofText "quad.spvasm" = ⟨"", ["quad.spvasm"]⟩ :=
    Path.IsName.ofText_eq (by decide)
  have hdir : Path.ofText "out/gen" = ⟨"", ["out", "gen"]⟩ := by
    unfold Path.ofText
    rw [Text.splitOn_slash]
    decide +kernel
  refine ⟨{
      input := some "quad.spvasm", outputDir := some "out/gen", templateDir := some "t",
      verbosity := 1 },
    "quad.spvasm", Text.utf8 quadJob.source, quadJob.source.toList, by decide +kernel, rfl, ?_,
    by decide +kernel, ?_⟩
  · rw [hinput]
    decide +kernel
  · simp only [Settings.job, Option.map_some, Option.getD_some, hinput, hdir]
    rfl

private theorem quadJob_outputs (d : Document) (a : Artifact.Artifacts) :
    quadJob.outputs d a = [⟨⟨"", ["out", "gen", "quad.h"]⟩, a.header⟩,
      ⟨⟨"", ["out", "gen", "quad.cc"]⟩, a.implementation⟩,
      ⟨⟨"", ["out", "gen", "quad.json"]⟩, d.jsonText?⟩] := by
  have hheader : Path.ofText quadJob.options.headerFileName = ⟨"", ["quad.h"]⟩ :=
    Path.IsName.ofText_eq (by decide)
  have himplementation : Path.ofText (quadJob.stem ++ ".cc") = ⟨"", ["quad.cc"]⟩ :=
    Path.IsName.ofText_eq (by decide)
  have hjson : Path.ofText (quadJob.stem ++ ".json") = ⟨"", ["quad.json"]⟩ :=
    Path.IsName.ofText_eq (by decide)
  unfold Job.outputs
  rw [hheader, himplementation, hjson]
  rfl

private theorem quadJob_products : ∃ r a, quadJob.products = .ok (r, a) ∧
    a.header = "// main\n" ∧ quadJob.WritesSucceed quadTree r.document a := by
  have hheader : Path.IsName Artifact.headerTemplate := by decide
  have himplementation : Path.IsName Artifact.implementationTemplate := by decide
  have htemplates : Path.ofText "t" = ⟨"", ["t"]⟩ := Path.IsName.ofText_eq (by decide)
  obtain ⟨⟨r, a⟩, hok, hrendered, hmade, hwritten⟩ :=
    Module.exists_ok_of_any (x := quadJob.products)
    (p := fun (r, a) => a.header = "// main\n" ∧
      (quadTree.makeDirectories quadJob.outputDir quadJob.host.maxMissing).2 = none ∧
      (writeAll (quadTree.makeDirectories quadJob.outputDir quadJob.host.maxMissing).1 [
        ⟨⟨"", ["out", "gen", "quad.h"]⟩, a.header⟩,
        ⟨⟨"", ["out", "gen", "quad.cc"]⟩, a.implementation⟩,
        ⟨⟨"", ["out", "gen", "quad.json"]⟩, r.document.jsonText?⟩]).2.2 = none) (by
    simp only [Job.products, quadJob, templatesIn, htemplates, Artifact.renderAll, Artifact.render,
      Artifact.wayTo?_of_isName hheader, Artifact.wayTo?_of_isName himplementation]
    decide +kernel)
  exact ⟨r, a, hok, hrendered, hmade, by rw [quadJob_outputs]; exact hwritten⟩

end ShaderReflection.CommandLine
