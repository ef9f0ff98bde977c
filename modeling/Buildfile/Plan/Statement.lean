import Buildfile.Plan.Commands
import Buildfile.Plan.Metadata
import Buildfile.Plan.Outputs
import Buildfile.Plan.Sources

/-! # The plan of any statement

Some commands are known and refused in every form.
-/

namespace Buildfile.Scope

def plan (s : Scope) (i : Invocation) : Except Refusal Plan :=
  match i.keyword with
  | .fromImage => s.planFromImage i
  | .fromDockerfile => s.planFromDockerfile i
  | .copy => s.planCopy i
  | .run => s.planRun i
  | .saveArtifact => s.planSaveArtifact i
  | .saveImage => s.planSaveImage i
  | .build => s.planBuild i
  | .workdir => s.planWord "workdir" .workdir i
  | .user => s.planWord "user" .user i
  | .cmd => s.planCommand "cmd" .cmd i
  | .entrypoint => s.planCommand "entrypoint" .entrypoint i
  | .expose => s.planWords "expose" .expose i
  | .volume => s.planWords "volume" .volume i
  | .env => s.planEnv i
  | .arg => s.planArg i
  | .label => s.planLabel i
  | .gitClone => s.planGitClone i
  | .healthcheck => s.planHealthcheck i
  | .withDocker => s.planWithDocker i
  | .endBlock => s.planEnd i
  | .add | .stopsignal | .shell => .error (.notYetSupported i.keyword)
  | .onbuild => .error (.notSupported i.keyword)
  | .dockerLoad => .error (.obsolete i.keyword "WITH DOCKER --load")
  | .dockerPull => .error (.obsolete i.keyword "WITH DOCKER --pull")
  | .other => .error (.unknownCommand i.text)

end Buildfile.Scope
