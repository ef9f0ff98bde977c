import Buildfile.Proofs.Transitions
import Mathlib.Computability.Language

/-! # Blocks along a body

As long as the statements of a body succeed, the open block tells how they have followed one
another: each block was opened once, has handed its setup to at most one run, and was closed after
that run. What every run has received can be read off in the same way.
-/

namespace Buildfile

open scoped Computability

def Keyword.marksBlock (k : Keyword) : Bool := k ∈ [.withDocker, .run, .endBlock]

/-- Any number of runs, each alone or in a block of its own. -/
def blockLanguage : Language Keyword := {[.run], [.withDocker, .run, .endBlock]}∗

namespace Transition

def opensBlock (x : Transition) : Bool := x.keyword == .withDocker

def servesBlock (x : Transition) : Bool := x.attempts.any (·.call.operation == .runWithDocker)

end Transition

namespace Scope

/-- A word that loads an image is a name, an equals sign and a target, or a target alone. -/
inductive LoadWord (word : String) : String → String → Prop
  | named (image target : String) (shape : word = image ++ "=" ++ target)
      (first : '=' ∉ image.toList) : LoadWord word image target
  | unnamed (none : '=' ∉ word.toList) : LoadWord word "" word

end Scope

namespace Session
variable {s : Session} {σ : State}

/-- The statement has opened a block with the setup of its own flags. -/
inductive Opens (s : Session) (x : Transition) (setup : DockerSetup) : Prop
  | intro (i : Invocation) (r : Flag.Reading) (platform : Option Platform)
      (keyword : x.keyword = .withDocker) (succeeded : x.Succeeded) (attempts : x.attempts = [])
      (invocation : x.statement.invocation = .ok i) (read : i.read Scope.withDockerFlags = .ok r)
      (given : (s.scope x.before).platform (r.text "platform") = .ok platform)
      (setup_eq : setup = (s.scope x.before).dockerSetup r platform)

/-- The run has received what its block was opened with and what its own flags give. -/
inductive Serves (s : Session) (w x : Transition) : Prop
  | intro (i j : Invocation) (r q : Flag.Reading) (platform : Option Platform)
      (args : List String) (setup : DockerSetup)
      (opener : w.keyword = .withDocker ∧ w.statement.invocation = .ok i ∧
        i.read Scope.withDockerFlags = .ok r)
      (platform_eq : (s.scope w.before).platform (r.text "platform") = .ok platform)
      (run : x.keyword = .run ∧ x.statement.invocation = .ok j ∧ j.read Scope.runFlags = .ok q)
      (attempts : x.attempts = [.success (.runWithDocker args setup)])
      (args_eq : args = (s.scope x.before).commandWords j q.arguments)
      (composeFiles : setup.composeFiles = (s.scope w.before).literals (r.list "compose"))
      (composeServices : setup.composeServices = (s.scope w.before).literals (r.list "service"))
      (loads : List.Forall₂ (fun word load =>
        Scope.LoadWord ((s.scope w.before).reference word) load.image load.target ∧
          load.platform = platform ∧
          load.buildArgs = (s.scope w.before).references (r.list "build-arg"))
        (r.list "load") setup.loads)
      (pulls : setup.pulls = (r.list "pull").map fun word =>
        ⟨(s.scope w.before).literal word, platform⟩)
      (mounts : setup.mounts = (s.scope x.before).literals (q.list "mount"))
      (secrets : setup.secrets = (s.scope x.before).references (q.list "secret"))
      (withShell : setup.withShell = !j.operands.isArray)
      (withEntrypoint : setup.withEntrypoint = q.switch "entrypoint")

namespace Follows
variable {xs : List Transition} {b : DockerBlock}

def word (xs : List Transition) : List Keyword := (xs.map (·.keyword)).filter Keyword.marksBlock

/-- The words that lead to a block. -/
def words : DockerBlock → Language Keyword
  | .idle => blockLanguage
  | .awaitingRun _ => blockLanguage * {[.withDocker]}
  | .ran => blockLanguage * {[.withDocker, .run]}

/-- The openings and the runs of blocks agree one by one, but for an opening without its run. -/
def Paired (s : Session) (xs : List Transition) : DockerBlock → Prop
  | .awaitingRun setup => ∃ ws w, xs.filter (·.opensBlock) = ws ++ [w] ∧ s.Opens w setup ∧
      List.Forall₂ s.Serves ws (xs.filter (·.servesBlock))
  | _ => List.Forall₂ s.Serves (xs.filter (·.opensBlock)) (xs.filter (·.servesBlock))

/-- A statement that neither opens a block nor runs in one leaves all pairs as they are. -/
theorem Paired.append {x : Transition} (h : Paired s xs b) (ho : x.opensBlock = false)
    (hs : x.servesBlock = false) : Paired s (xs ++ [x]) b := by
  have hw : (xs ++ [x]).filter (·.opensBlock) = xs.filter (·.opensBlock) := by simp [ho]
  have hx : (xs ++ [x]).filter (·.servesBlock) = xs.filter (·.servesBlock) := by simp [hs]
  cases b <;> simp only [Paired, hw, hx] at h ⊢ <;> exact h

end Follows

/-! ## What a body calls -/

section Body
variable {ts : List Statement} {before after : List Transition} {x : Transition}

end Body

end Session
end Buildfile
