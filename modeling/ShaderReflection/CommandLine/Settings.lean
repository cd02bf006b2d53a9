import ShaderReflection.Text.Quoted

/-! Reading the arguments of the command line. -/
namespace ShaderReflection.CommandLine

inductive Switch where
  | help
  | outputDir
  | shaderName
  | headerFileName
  | templateDir
  | noJson
  | dumpDocument
  | verbose
  | version
  deriving DecidableEq, Repr

namespace Switch

/-- The options in the order in which they are tried. -/
def all : List Switch := [.help, .outputDir, .shaderName, .headerFileName, .templateDir, .noJson,
  .dumpDocument, .verbose, .version]

def spellings : Switch → List String
  | .help => ["-h", "--help"]
  | .outputDir => ["-o", "--output-dir"]
  | .shaderName => ["--shader-name"]
  | .headerFileName => ["--header-file-name"]
  | .templateDir => ["--template-dir"]
  | .noJson => ["--no-json"]
  | .dumpDocument => ["--dump-document"]
  | .verbose => ["-v", "--verbose"]
  | .version => ["--version"]

def takesValue : Switch → Bool
  | .outputDir | .shaderName | .headerFileName | .templateDir => true
  | .help | .noJson | .dumpDocument | .verbose | .version => false

def title (s : Switch) : String := "/".intercalate s.spellings

def spelled : List (String × Switch) := all.flatMap fun s => s.spellings.map (·, s)

def ofSpelling? (spelling : String) : Option Switch := spelled.lookup spelling

end Switch

inductive UsageError where
  | ambiguous (argument : String) (candidates : List String)
  | valueExpected (switch : Switch)
  | valueIgnored (switch : Switch) (value : String)
  | unrecognized (arguments : List String)
  deriving DecidableEq, Repr

def UsageError.message : UsageError → String
  | .ambiguous argument candidates =>
    "ambiguous option: " ++ argument ++ " could match " ++ ", ".intercalate candidates
  | .valueExpected s => "argument " ++ s.title ++ ": expected one argument"
  | .valueIgnored s value =>
    "argument " ++ s.title ++ ": ignored explicit argument " ++ Text.quoted value
  | .unrecognized arguments => "unrecognized arguments: " ++ " ".intercalate arguments

/-- An argument read as an option: whether its spelling has a single dash, and the text behind
it. -/
structure Reading where
  switch : Switch
  short : Bool
  attached : Option (List Char)
  deriving DecidableEq, Repr

/-- An argument by its place on the command line. -/
inductive Item where
  | value (text : String)
  | separator
  /-- The reading is missing if no option is spelled so. -/
  | option (text : String) (reading : Option Reading)
  deriving DecidableEq, Repr

/-- The part before the first equals sign, and the part behind it if there is one. -/
def splitEquals (cs : List Char) : List Char × Option (List Char) :=
  match cs.dropWhile (· ≠ '=') with
  | [] => (cs, none)
  | _ :: value => (cs.takeWhile (· ≠ '='), some value)

/-- Whether a text, without one line break at its end, is a negative decimal number. -/
def isNegativeNumber (cs : List Char) : Bool :=
  match cs with
  | '-' :: ds =>
    let body := if ds.getLast? = some '\n' then ds.dropLast else ds
    let whole := body.takeWhile Text.isDecimalDigit
    match body.dropWhile Text.isDecimalDigit with
    | [] => whole ≠ []
    | '.' :: fraction => fraction ≠ [] && fraction.all Text.isDecimalDigit
    | _ => false
  | _ => false

/-- The options that an argument may abbreviate: a long one by any start of it, a short one by
itself with a value or further short options attached. -/
def candidates (argument : String) : List (String × Reading) :=
  match argument.toList with
  | '-' :: '-' :: cs =>
    let (start, attached) := splitEquals ('-' :: '-' :: cs)
    (Switch.spelled.filter fun (spelling, _) => start.isPrefixOf spelling.toList).map
      fun (spelling, s) => (spelling, ⟨s, false, attached⟩)
  | '-' :: c :: cs =>
    (Switch.spelled.filter fun (spelling, _) => spelling.toList = ['-', c]).map
      fun (spelling, s) => (spelling, ⟨s, true, some cs⟩)
  | _ => []

def isShort (spelling : String) : Bool := !"--".isPrefixOf spelling

/-- The option that an argument spells in full, before an equals sign if it has one. -/
def exactReading? (argument : String) : Option Reading :=
  match Switch.ofSpelling? argument with
  | some s => some ⟨s, isShort argument, none⟩
  | none =>
    match splitEquals argument.toList with
    | (_, none) => none
    | (spelling, attached) =>
      (Switch.ofSpelling? (String.ofList spelling)).map fun s => ⟨s, isShort argument, attached⟩

/-- Read one argument in front of the separator. -/
def Item.ofText (argument : String) : Except UsageError Item :=
  if !"-".isPrefixOf argument || argument = "-" then .ok (.value argument)
  else
    match exactReading? argument with
    | some r => .ok (.option argument (some r))
    | none =>
      match candidates argument with
      | [(_, r)] => .ok (.option argument (some r))
      | [] =>
        if isNegativeNumber argument.toList || argument.toList.contains ' ' then
          .ok (.value argument)
        else .ok (.option argument none)
      | several => .error (.ambiguous argument (several.map (·.1)))

/-- Read arguments. Behind the separator all are values. -/
def items : List String → Except UsageError (List Item)
  | [] => .ok []
  | argument :: rest =>
    if argument = "--" then .ok (.separator :: rest.map .value)
    else do
      let item ← Item.ofText argument
      let rest ← items rest
      return item :: rest

structure Settings where
  input : Option String := none
  outputDir : Option String := none
  shaderName : Option String := none
  headerFileName : Option String := none
  templateDir : Option String := none
  noJson : Bool := false
  dumpDocument : Bool := false
  verbosity : Nat := 0
  deriving DecidableEq, Repr

/-- Why the command line does not lead to any settings. -/
inductive Stop where
  | help
  | version
  | usage (e : UsageError)
  deriving DecidableEq, Repr

/-- An option, and its value where it takes one. An attached value of two dashes is a separator
without anything to separate, and leaves the option without a value. -/
structure Choice where
  switch : Switch
  value : Option String := none
  deriving DecidableEq, Repr

/-- What the template directory is called when its option has no value: the empty list. -/
def emptyList : String := "[]"

def Settings.choose (s : Settings) (c : Choice) : Except Stop Settings :=
  match c.switch with
  | .help => .error .help
  | .version => .error .version
  | .outputDir => .ok { s with outputDir := c.value }
  | .shaderName => .ok { s with shaderName := c.value }
  | .headerFileName => .ok { s with headerFileName := c.value }
  | .templateDir => .ok { s with templateDir := some (c.value.getD emptyList) }
  | .noJson => .ok { s with noJson := true }
  | .dumpDocument => .ok { s with dumpDocument := true }
  | .verbose => .ok { s with verbosity := s.verbosity + 1 }

/-- The value that is attached to an option. -/
def attachedValue (cs : List Char) : Option String :=
  if cs = ['-', '-'] then none else some (String.ofList cs)

/-- The options in one argument: those that are complete, and one that waits for a value. -/
structure Cluster where
  choices : List Choice
  waiting : Option Switch := none
  deriving DecidableEq, Repr

/-- Put an option without a value before others. -/
def Cluster.cons (s : Switch) (c : Cluster) : Cluster :=
  { c with choices := { switch := s } :: c.choices }

def Cluster.single (s : Switch) : Cluster :=
  if s.takesValue then ⟨[], some s⟩ else ⟨[{ switch := s }], none⟩

/-- Take apart what is attached to an option: its value or, behind a short option without one, the
letters of further short options. -/
def takeApart (s : Switch) (short : Bool) : List Char → Except UsageError Cluster
  | [] => if s.takesValue then .ok ⟨[⟨s, some ""⟩], none⟩ else .error (.valueIgnored s "")
  | c :: cs =>
    if s.takesValue then .ok ⟨[⟨s, attachedValue (c :: cs)⟩], none⟩
    else
      match if short then Switch.ofSpelling? (String.ofList ['-', c]) else none with
      | none => .error (.valueIgnored s (String.ofList (c :: cs)))
      | some t =>
        if cs = [] then .ok ((Cluster.single t).cons s)
        else (takeApart t true cs).map (·.cons s)

def Reading.cluster (r : Reading) : Except UsageError Cluster :=
  match r.attached with
  | none => .ok (.single r.switch)
  | some cs => takeApart r.switch r.short cs

/-- What has been read so far. -/
structure Progress where
  settings : Settings := {}
  inputTaken : Bool := false
  extras : List String := []
  deriving DecidableEq, Repr

namespace Progress

def chooseAll (p : Progress) (cs : List Choice) : Except Stop Progress := do
  let settings ← cs.foldlM Settings.choose p.settings
  return { p with settings }

/-- Set an argument aside that has no place. -/
def setAside (p : Progress) (text : String) : Progress := { p with extras := p.extras ++ [text] }

def takeInput (p : Progress) (text : String) : Progress :=
  { p with settings := { p.settings with input := some text }, inputTaken := true }

end Progress

/-- Take arguments from left to right. The first value is the input, and a separator beside it
belongs to it. -/
def consume (p : Progress) : List Item → Except Stop Progress
  | [] => .ok p
  | .value text :: .separator :: rest =>
    if p.inputTaken then consume ((p.setAside text).setAside "--") rest
    else consume (p.takeInput text) rest
  | .value text :: rest =>
    if p.inputTaken then consume (p.setAside text) rest
    else consume (p.takeInput text) rest
  | .separator :: .value text :: rest =>
    if p.inputTaken then consume ((p.setAside "--").setAside text) rest
    else consume (p.takeInput text) rest
  | .separator :: rest =>
    if p.inputTaken then consume (p.setAside "--") rest
    else consume { p with inputTaken := true } rest
  | .option text none :: rest => consume (p.setAside text) rest
  | .option _ (some r) :: rest =>
    match r.cluster with
    | .error e => .error (.usage e)
    | .ok ⟨cs, none⟩ => do consume (← p.chooseAll cs) rest
    | .ok ⟨cs, some s⟩ =>
      match rest with
      | .value text :: rest => do consume (← p.chooseAll (cs ++ [⟨s, some text⟩])) rest
      | _ => .error (.usage (.valueExpected s))

def Settings.ofArguments (arguments : List String) : Except Stop Settings := do
  let is ← (items arguments).mapError .usage
  let p ← consume {} is
  if p.extras.isEmpty then return p.settings
  else throw (.usage (.unrecognized p.extras))

end ShaderReflection.CommandLine
