/-! # Statement keywords

Every statement starts with one of these keywords. A statement with any other leading word is
kept and has no keyword of its own.
-/

namespace Buildfile

inductive Keyword where
  | fromImage
  | fromDockerfile
  | copy
  | run
  | saveArtifact
  | saveImage
  | build
  | workdir
  | user
  | cmd
  | entrypoint
  | expose
  | volume
  | env
  | arg
  | label
  | gitClone
  | healthcheck
  | withDocker
  | endBlock
  | add
  | stopsignal
  | onbuild
  | shell
  | dockerLoad
  | dockerPull
  | other
deriving DecidableEq, Repr

namespace Keyword

def text : Keyword → String
  | fromImage => "FROM"
  | fromDockerfile => "FROM DOCKERFILE"
  | copy => "COPY"
  | run => "RUN"
  | saveArtifact => "SAVE ARTIFACT"
  | saveImage => "SAVE IMAGE"
  | build => "BUILD"
  | workdir => "WORKDIR"
  | user => "USER"
  | cmd => "CMD"
  | entrypoint => "ENTRYPOINT"
  | expose => "EXPOSE"
  | volume => "VOLUME"
  | env => "ENV"
  | arg => "ARG"
  | label => "LABEL"
  | gitClone => "GIT CLONE"
  | healthcheck => "HEALTHCHECK"
  | withDocker => "WITH DOCKER"
  | endBlock => "END"
  | add => "ADD"
  | stopsignal => "STOPSIGNAL"
  | onbuild => "ONBUILD"
  | shell => "SHELL"
  | dockerLoad => "DOCKER LOAD"
  | dockerPull => "DOCKER PULL"
  | other => ""

/-- The statement runs a command, whose words may be written as a JSON array. -/
def takesArray : Keyword → Bool
  | run | cmd | entrypoint => true
  | _ => false

end Keyword
end Buildfile
