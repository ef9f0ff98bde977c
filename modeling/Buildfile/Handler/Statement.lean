import Buildfile.Handler.Commands
import Buildfile.Handler.Metadata
import Buildfile.Handler.Outputs
import Buildfile.Handler.Sources

/-! # The handler of any statement -/

namespace Buildfile.Session
open Handler

def handle (s : Session) (i : Invocation) : Handler Unit :=
  match i.keyword with
  | .fromImage => s.applyFromImage i
  | .fromDockerfile => s.applyFromDockerfile i
  | .copy => s.applyCopy i
  | .run => s.applyRun i
  | .saveArtifact => s.applySaveArtifact i
  | .saveImage => s.applySaveImage i
  | .build => s.applyBuild i
  | .workdir => s.applyWord "workdir" .workdir i
  | .user => s.applyWord "user" .user i
  | .cmd => s.applyCommand "cmd" .cmd i
  | .entrypoint => s.applyCommand "entrypoint" .entrypoint i
  | .expose => s.applyWords "expose" .expose i
  | .volume => s.applyWords "volume" .volume i
  | .env => s.applyEnv i
  | .arg => s.applyArg i
  | .label => s.applyLabel i
  | .gitClone => s.applyGitClone i
  | .healthcheck => s.applyHealthcheck i
  | .withDocker => s.applyWithDocker i
  | .endBlock => s.applyEnd i
  | .add | .stopsignal | .shell => refuse (.notYetSupported i.keyword)
  | .onbuild => refuse (.notSupported i.keyword)
  | .dockerLoad => refuse (.obsolete i.keyword "WITH DOCKER --load")
  | .dockerPull => refuse (.obsolete i.keyword "WITH DOCKER --pull")
  | .other => refuse (.unknownCommand i.text)

end Buildfile.Session
