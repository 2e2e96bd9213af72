import StaticSite.Config.Template
import StaticSite.Files.Path
import StaticSite.Text.Utf8
/-!
# Arguments

The arguments of a command are read from left to right, and the first that asks
for help or is wrong decides. An option is given once at most; its value follows
it as an argument of its own or is attached to it, after an equals sign or,
where the option is a single letter, also without one. Letters may be joined in
one argument. After two hyphens nothing is an option any more.
-/

namespace StaticSite

inductive Request where
  | help
  | version
  | build (file? outDir? : Option Path) (isVerbose : Bool)
  | verify (expected actual : Path)
deriving DecidableEq, Repr

/-- Why arguments have no meaning. -/
inductive UsageError where
  | missingCommand
  | unexpected (argument : String)
  | repeated (option : String)
  | missingValue (option : String)
  | emptyValue (name : String)
  | missingArguments
deriving DecidableEq, Repr

def UsageError.message : UsageError → String
  | .missingCommand => "a command is required: build or verify"
  | .unexpected argument => "unexpected argument '" ++ argument ++ "'"
  | .repeated option => "the option '" ++ option ++ "' is given more than once"
  | .missingValue option => "the option '" ++ option ++ "' needs a value"
  | .emptyValue name => "the value of '" ++ name ++ "' is empty"
  | .missingArguments => "two directories are required"

namespace Arguments

inductive ValueOption where
  | config
  | outDir
deriving DecidableEq, Repr

def ValueOption.name : ValueOption → String
  | .config => "--config"
  | .outDir => "--out-dir"

/-- The options of a build as far as they have been read. -/
structure BuildOptions where
  file? : Option Path := none
  outDir? : Option Path := none
  isVerbose : Bool := false

/-- What has been read of one argument: the options with it, an option whose value
is the next argument, or a request for help. -/
inductive Step where
  | options (o : BuildOptions)
  | valueOf (option : ValueOption) (o : BuildOptions)
  | help

def BuildOptions.set (o : BuildOptions) (option : ValueOption) (value : String) :
    Except UsageError BuildOptions :=
  if value = "" then .error (.emptyValue option.name)
  else
    match option, o.file?, o.outDir? with
    | .config, none, _ => .ok { o with file? := some (.ofText value) }
    | .outDir, _, none => .ok { o with outDir? := some (.ofText value) }
    | _, _, _ => .error (.repeated option.name)

def BuildOptions.setVerbose (o : BuildOptions) : Except UsageError BuildOptions :=
  if o.isVerbose then .error (.repeated "--verbose") else .ok { o with isVerbose := true }

def readLetters (o : BuildOptions) : List Char → Except UsageError Step
  | [] => .ok (.options o)
  | 'h' :: _ => .ok .help
  | 'v' :: cs => do readLetters (← o.setVerbose) cs
  | c :: cs =>
    let option? := if c = 'c' then some ValueOption.config
      else if c = 'o' then some .outDir else none
    match option?, cs with
    | none, _ => .error (.unexpected (String.ofList ['-', c]))
    | some option, [] => .ok (.valueOf option o)
    | some option, '=' :: value => do .ok (.options (← o.set option (String.ofList value)))
    | some option, value => do .ok (.options (← o.set option (String.ofList value)))

/-- Reads an option that is written in full, given the value attached to it. -/
def readWord (o : BuildOptions) (word : String) (value? : Option String) :
    Except UsageError Step :=
  let withValue (option : ValueOption) : Except UsageError Step :=
    match value? with
    | none => .ok (.valueOf option o)
    | some value => do .ok (.options (← o.set option value))
  match word, value? with
  | "config", _ => withValue .config
  | "out-dir", _ => withValue .outDir
  | "verbose", none => do .ok (.options (← o.setVerbose))
  | "help", none => .ok .help
  | _, _ => .error (.unexpected ("--" ++ word))

/-- Splits the text of an option at its first equals sign, if it has one. -/
def splitValue (cs : List Char) : String × Option String :=
  let word := String.ofList (cs.takeWhile (· != '='))
  match cs.dropWhile (· != '=') with
  | _ :: value => (word, some (String.ofList value))
  | [] => (word, none)

/-- Whether an argument is read as options. A single hyphen is not. -/
def isOption (argument : String) : Bool :=
  argument.toList.head? == some '-' && argument != "-"

def readBuildArgument (o : BuildOptions) (argument : String) : Except UsageError Step :=
  match argument.toList with
  | '-' :: '-' :: cs => readWord o (splitValue cs).1 (splitValue cs).2
  | '-' :: c :: cs => readLetters o (c :: cs)
  | _ => .error (.unexpected argument)

/-- Reads the arguments of a build. Without a value it is asked for help. -/
def readBuild (o : BuildOptions) : List String → Except UsageError (Option BuildOptions)
  | [] => .ok (some o)
  | ["--"] => .ok (some o)
  | "--" :: argument :: _ => .error (.unexpected argument)
  | argument :: rest => do
    match ← readBuildArgument o argument with
    | .help => .ok none
    | .options o => readBuild o rest
    | .valueOf option o =>
      match rest with
      | [] => .error (.missingValue option.name)
      | value :: rest =>
        if isOption value then .error (.missingValue option.name)
        else do readBuild (← o.set option value) rest

def outDirOf (env : Environment) : Except UsageError (Option Path) :=
  match env "SX_OUT_DIR" with
  | none => .ok none
  | some (.text "") => .error (.emptyValue "SX_OUT_DIR")
  | some (.text content) => .ok (some (.ofText content))
  | some (.bytes content) => .ok (some (.ofBytes content))

def readBuildRequest (env : Environment) (arguments : List String) :
    Except UsageError Request := do
  match ← readBuild {} arguments with
  | none => .ok .help
  | some o =>
    let outDir? ← if o.outDir?.isSome then .ok o.outDir? else outDirOf env
    .ok (.build o.file? outDir? o.isVerbose)

/-- Reads the directories of a comparison, given those that have been read. Without
a value it is asked for help. -/
def readDirectories (isLiteral : Bool) (found : List Path) :
    List String → Except UsageError (Option (List Path))
  | [] => .ok (some found)
  | argument :: rest =>
    if !isLiteral && argument == "--" then readDirectories true found rest
    else if !isLiteral && (argument == "--help" || "-h".toList.isPrefixOf argument.toList) then
      .ok none
    else if !isLiteral && isOption argument then .error (.unexpected argument)
    else if 2 ≤ found.length then .error (.unexpected argument)
    else if argument = "" then .error (.emptyValue "directory")
    else readDirectories isLiteral (found ++ [.ofText argument]) rest

def readVerifyRequest (arguments : List String) : Except UsageError Request := do
  match ← readDirectories false [] arguments with
  | none => .ok .help
  | some [expected, actual] => .ok (.verify expected actual)
  | some _ => .error .missingArguments

/-- Reads the names after the command that asks for help. At most one command may be
named. -/
def readHelpRequest : List String → Except UsageError Request
  | [] => .ok .help
  | [name] => if name ∈ ["build", "verify", "help"] then .ok .help else .error (.unexpected name)
  | name :: other :: _ =>
    if name ∈ ["build", "verify", "help"] then .error (.unexpected other)
    else .error (.unexpected name)

def read (env : Environment) : List String → Except UsageError Request
  | [] => .error .missingCommand
  | "build" :: rest => readBuildRequest env rest
  | "verify" :: rest => readVerifyRequest rest
  | "help" :: rest => readHelpRequest rest
  | "--version" :: _ => .ok .version
  | "--help" :: _ => .ok .help
  | argument :: _ =>
    if "-V".toList.isPrefixOf argument.toList then .ok .version
    else if "-h".toList.isPrefixOf argument.toList then .ok .help
    else .error (.unexpected argument)

end Arguments

end StaticSite
