import Buildfile.Duration.Basic
import Buildfile.Platform

/-! # Calls of the builder

A builder receives one call per operation, in which every word is already expanded.
-/

namespace Buildfile

structure CopyOptions where
  isDir : Bool := false
  keepTimes : Bool := false
  keepOwner : Bool := false
  owner : String := ""
deriving DecidableEq, Repr

structure RunOptions where
  mounts : List String
  secrets : List String
  privileged : Bool
  withEntrypoint : Bool
  withDocker : Bool
  withShell : Bool
  push : Bool
  withSsh : Bool
deriving DecidableEq, Repr

structure SaveImageOptions where
  push : Bool
  insecure : Bool
  cacheHint : Bool
  cacheFrom : List String
deriving DecidableEq, Repr

structure HealthCheck where
  isNone : Bool
  command : List String
  interval : Duration
  timeout : Duration
  startPeriod : Duration
  retries : Int
deriving DecidableEq, Repr

/-- An image that a target makes and that is loaded for a run. The name is empty if the target
gives it one itself. -/
structure ImageLoad where
  target : String
  image : String
  platform : Option Platform
  buildArgs : List String
deriving DecidableEq, Repr

structure ImagePull where
  image : String
  platform : Option Platform
deriving DecidableEq, Repr

/-- What a command needs that runs beside a container daemon. -/
structure DockerSetup where
  composeFiles : List String := []
  composeServices : List String := []
  loads : List ImageLoad := []
  pulls : List ImagePull := []
  mounts : List String := []
  secrets : List String := []
  withShell : Bool := false
  withEntrypoint : Bool := false
deriving DecidableEq, Repr

inductive Call where
  | fromImage (image : String) (platform : Option Platform) (buildArgs : List String)
  | fromDockerfile (context path target : String) (platform : Option Platform)
      (buildArgs : List String)
  | copyArtifact (artifact dest : String) (platform : Option Platform) (buildArgs : List String)
      (options : CopyOptions) (ifExists : Bool)
  | copyFiles (sources : List String) (dest : String) (options : CopyOptions)
  | run (args : List String) (options : RunOptions)
  | runWithDocker (args : List String) (setup : DockerSetup)
  | saveArtifact (source dest localDest : String) (keepTimes keepOwner ifExists : Bool)
  | saveImage (names : List String) (options : SaveImageOptions)
  | build (target : String) (platform : Option Platform) (buildArgs : List String)
  | workdir (path : String)
  | user (name : String)
  | cmd (args : List String) (withShell : Bool)
  | entrypoint (args : List String) (withShell : Bool)
  | expose (ports : List String)
  | volume (volumes : List String)
  | env (key value : String)
  | arg (key value : String) (isGlobal : Bool)
  | label (labels : List (String × String))
  | gitClone (url branch dest : String) (keepTimes : Bool)
  | healthcheck (check : HealthCheck)
deriving DecidableEq, Repr

inductive Operation where
  | fromImage
  | fromDockerfile
  | copyArtifact
  | copyFiles
  | run
  | runWithDocker
  | saveArtifact
  | saveImage
  | build
  | workdir
  | user
  | cmd
  | entrypoint
  | expose
  | volume
  | env
  | arg
  | label
  | gitClone
  | healthcheck
deriving DecidableEq, Repr

def Operation.name : Operation → String
  | fromImage => "from"
  | fromDockerfile => "from_dockerfile"
  | copyArtifact => "copy_artifact"
  | copyFiles => "copy_classical"
  | run => "run"
  | runWithDocker => "with_docker_run"
  | saveArtifact => "save_artifact"
  | saveImage => "save_image"
  | build => "build"
  | workdir => "workdir"
  | user => "user"
  | cmd => "cmd"
  | entrypoint => "entrypoint"
  | expose => "expose"
  | volume => "volume"
  | env => "env"
  | arg => "arg"
  | label => "label"
  | gitClone => "git_clone"
  | healthcheck => "healthcheck"

namespace Call

def operation : Call → Operation
  | fromImage .. => .fromImage
  | fromDockerfile .. => .fromDockerfile
  | copyArtifact .. => .copyArtifact
  | copyFiles .. => .copyFiles
  | run .. => .run
  | runWithDocker .. => .runWithDocker
  | saveArtifact .. => .saveArtifact
  | saveImage .. => .saveImage
  | build .. => .build
  | workdir .. => .workdir
  | user .. => .user
  | cmd .. => .cmd
  | entrypoint .. => .entrypoint
  | expose .. => .expose
  | volume .. => .volume
  | env .. => .env
  | arg .. => .arg
  | label .. => .label
  | gitClone .. => .gitClone
  | healthcheck .. => .healthcheck

/-- The call pushes its result out of the build. -/
def pushes : Call → Bool
  | run _ options => options.push
  | saveImage _ options => options.push
  | _ => false

end Call
end Buildfile
