import Buildfile.DockerBlock
import Buildfile.Flag.Reading
import Buildfile.Keyword
import Buildfile.Problem
import Buildfile.Selection
import Buildfile.Text.Identifier

/-! # Refusals

A refusal is a rule that a build file breaks before its builder is asked. Each one is reported as a
problem of one category.
-/

namespace Buildfile

inductive Refusal where
  /-- The flags of a statement cannot be read. -/
  | flags (keyword : Keyword) (words : List String) (fault : Flag.Fault)
  | platform (specifier : String) (fault : Platform.Fault)
  /-- A key is no identifier. -/
  | key (key : String)
  /-- A statement that does not push follows one that did. -/
  | afterPush (text : String)
  /-- The wrong number of arguments for a statement form. -/
  | argumentCount (form : String) (words : List String)
  /-- A statement that takes one word has more or none. -/
  | wordCount (keyword : Keyword) (text : String)
  | noArguments (keyword : Keyword)
  | imageAlias
  | dockerfilePath
  | copyFromImage
  | fewCopyArguments (words : List String)
  | mixedSources (sources : List String)
  | buildArgsForFiles (words : List String)
  | saveArtifactShape (words : List String)
  | manySaveArtifactArguments (words : List String)
  | emptyRun
  | pushInBlock
  | withDockerArguments (words : List String)
  | endArguments (text : String)
  | block (fault : DockerBlock.Fault)
  | healthcheckArray (words : List String)
  | healthcheckShape (words : List String)
  | noLabels (text : String)
  | unevenLabels (text : String)
  | notYetSupported (keyword : Keyword)
  | notSupported (keyword : Keyword)
  | obsolete (keyword : Keyword) (replacement : String)
  | unknownCommand (text : String)
  | selection (fault : Selection.Fault)
deriving DecidableEq, Repr

namespace Refusal

def aboutWords (finding form : String) (words : List String) : String :=
  s!"{finding} for {form}: {Text.quoteList words}"

def problem : Refusal → Problem
  | flags keyword words fault => .options keyword.text words fault.message
  | platform specifier fault => .value s!"parse platform {specifier}: {fault.message}"
  | key name => .value s!"invalid env key definition {name}"
  | afterPush text => .state s!"no non-push commands allowed after a --push: {text}"
  | argumentCount form words => .arity (aboutWords "invalid number of arguments" form words)
  | wordCount keyword text => .arity s!"invalid number of arguments for {keyword.text}: {text}"
  | noArguments keyword => .arity s!"no arguments provided to the {keyword.text} command"
  | imageAlias => .unsupported "AS not supported, use earthly targets instead"
  | dockerfilePath => .unsupported
      "FROM DOCKERFILE -f not supported; place the Dockerfile at the root of the build context"
  | copyFromImage => .unsupported
      "COPY --from not implemented. Use COPY artifacts form instead"
  | fewCopyArguments words => .arity s!"not enough COPY arguments {Text.quoteList words}"
  | mixedSources sources => .conflict <|
      "combining artifacts and build context arguments in a single COPY command is not allowed: " ++
        Text.quoteList sources
  | buildArgsForFiles words => .conflict
      s!"build args not supported for non +artifact arguments case {Text.quoteList words}"
  | saveArtifactShape words => .arity
      s!"invalid arguments for SAVE ARTIFACT command: {Text.quoteList words}"
  | manySaveArtifactArguments words => .arity
      s!"too many arguments provided to the SAVE ARTIFACT command: {Text.quoteList words}"
  | emptyRun => .arity "not enough arguments for RUN"
  | pushInBlock => .state "RUN --push not allowed in WITH DOCKER"
  | withDockerArguments words => .arity s!"invalid WITH DOCKER arguments {Text.quoteList words}"
  | endArguments text => .arity s!"END does not take any arguments: {text}"
  | block fault => .state fault.message
  | healthcheckArray words => .unsupported
      (aboutWords "exec form not yet supported" "HEALTHCHECK CMD" words)
  | healthcheckShape words => .arity (aboutWords "invalid arguments" "HEALTHCHECK" words)
  | noLabels text => .arity s!"no labels provided in LABEL command: {text}"
  | unevenLabels text => .arity s!"label keys and values do not match: {text}"
  | notYetSupported keyword => .unsupported s!"command {keyword.text} not yet supported"
  | notSupported keyword => .unsupported s!"command {keyword.text} not supported"
  | obsolete keyword replacement => .obsolete keyword.text replacement
  | unknownCommand text => .unsupported s!"invalid command {text}"
  | selection fault => .state fault.message

end Refusal

/-- The key of a variable has to be an identifier. -/
def checkKey (key : String) : Except Refusal Unit :=
  if Text.isIdentifier key then .ok () else .error (.key key)

end Buildfile
