import Buildfile.Handler.Statement
import Buildfile.Plan.Statement

/-! # Handlers and their plans

A handler works in place and undoes nothing. Still each handler ends as the plan of its statement
does: where there is no plan the state is what it was before, and where there is one its calls have
been attempted in order up to the first that failed.
-/

namespace Buildfile.Session

/-- The attempts at some calls, up to the first that fails. -/
def attempt (s : Session) (history : List Call) : List Call → List Attempt
  | [] => []
  | call :: rest =>
    match s.builder.reply s.context history call with
    | some failure => [⟨call, some failure⟩]
    | none => ⟨call, none⟩ :: s.attempt (history ++ [call]) rest

def warnings (s : Session) (p : Plan) : List LogEntry :=
  if p.redundant && s.settings.warnDeprecations then [⟨.warn, deprecation⟩] else []

def attempted (s : Session) (σ : State) (p : Plan) (attempts : List Attempt) : State :=
  { σ with block := p.block, attempts := σ.attempts ++ attempts, log := σ.log ++ s.warnings p }

/-- The answer to the calls of a plan and the state after them. -/
def carryOut (s : Session) (σ : State) (p : Plan) : Except Problem Unit × State :=
  let attempts := s.attempt σ.calls p.calls
  let τ := s.attempted σ p attempts
  match attempts.findSome? (·.failure) with
  | some failure => (.error (.builder p.context failure), τ)
  | none => (.ok (), { τ with pushOnly := σ.pushOnly || p.push })

/-- A refusal changes nothing. -/
def ends (s : Session) (σ : State) : Except Refusal Plan → Except Problem Unit × State
  | .error r => (.error r.problem, σ)
  | .ok p => s.carryOut σ p

def Enacts (s : Session) (σ : State) (h : Handler Unit) (plan : Except Refusal Plan) : Prop :=
  h.run.run σ = s.ends σ plan

variable {s : Session} {σ : State} {α : Type}

/-! ## One rule for each kind of step -/

theorem enacts_refuse (r : Refusal) : s.Enacts σ (Handler.refuse r) (.error r) := rfl

theorem enacts_check {x : Except Refusal α} {rest : α → Handler Unit}
    {plan : α → Except Refusal Plan} (h : ∀ a, x = .ok a → s.Enacts σ (rest a) (plan a)) :
    s.Enacts σ (Handler.check x >>= rest) (x >>= plan) := by
  cases x with
  | ok a => exact h a rfl
  | error r => rfl

theorem enacts_look {f : Scope → α} {rest : α → Handler Unit} {plan : Except Refusal Plan}
    (h : s.Enacts σ (rest (f (s.scope σ))) plan) : s.Enacts σ (s.look f >>= rest) plan := h

theorem enacts_verify {f : Scope → Except Refusal α} {rest : α → Handler Unit}
    {plan : α → Except Refusal Plan}
    (h : ∀ a, f (s.scope σ) = .ok a → s.Enacts σ (rest a) (plan a)) :
    s.Enacts σ ((s.look f >>= Handler.check) >>= rest) (f (s.scope σ) >>= plan) :=
  enacts_check h

theorem enacts_ite {c : Prop} [Decidable c] {h k : Handler Unit} {p q : Except Refusal Plan}
    (hp : c → s.Enacts σ h p) (hq : ¬ c → s.Enacts σ k q) :
    s.Enacts σ (if c then h else k) (if c then p else q) := by
  split
  · exact hp ‹_›
  · exact hq ‹_›

/-- A statement that pushes is allowed after a push. -/
theorem enacts_unless {c : Prop} [Decidable c] {i : Invocation} {rest : Handler Unit}
    {plan : Except Refusal Plan} (h : s.Enacts σ rest plan) :
    s.Enacts σ (if c then s.allow i >>= fun _ => rest else rest)
      (if c then (s.scope σ).allow i >>= fun _ => plan else plan) :=
  enacts_ite (fun _ => enacts_verify fun _ _ => h) fun _ => h

/-! ## Calls -/

theorem run_bind {β : Type} (h : Handler α) (rest : α → Handler β) (σ : State) :
    (h >>= rest).run.run σ =
      match h.run.run σ with
      | (.ok a, τ) => (rest a).run.run τ
      | (.error p, τ) => (.error p, τ) := by
  change (match h.run.run σ with | (answer, τ) => ExceptT.bindCont rest answer τ) = _
  rcases h.run.run σ with ⟨_ | a, τ⟩ <;> rfl

theorem run_ask (s : Session) (σ : State) (context : String) (call : Call) :
    (s.ask context call).run.run σ =
      (match s.builder.reply s.context σ.calls call with
        | some failure => .error (.builder context failure)
        | none => .ok (),
      { σ with attempts := σ.attempts ++ [⟨call, s.builder.reply s.context σ.calls call⟩] }) := by
  have hask (answer : Option Failure) (τ : State) :
      StateT.run (ExceptT.run (match answer with
        | some failure => (throw (.builder context failure) : Handler Unit)
        | none => pure ())) τ =
      (match answer with
        | some failure => .error (.builder context failure)
        | none => .ok (), τ) := by
    cases answer <;> rfl
  exact hask _ _

theorem settle_ask (s : Session) (σ : State) (context : String) (call : Call) :
    settle σ (s.ask context call) =
      match s.builder.reply s.context σ.calls call with
      | some failure =>
        ({ σ with attempts := σ.attempts ++ [⟨call, some failure⟩] } : State).fail
          (.builder context failure)
      | none => { σ with attempts := σ.attempts ++ [⟨call, none⟩] } := by
  rw [settle, run_ask]
  cases s.builder.reply s.context σ.calls call <;> rfl

theorem calls_append_success (σ : State) (call : Call) :
    ({ σ with attempts := σ.attempts ++ [⟨call, none⟩] } : State).calls = σ.calls ++ [call] := by
  simp [State.calls]

theorem run_asks (s : Session) (σ : State) (context : String) (calls : List Call) :
    (calls.forM (s.ask context)).run.run σ =
      (match (s.attempt σ.calls calls).findSome? (·.failure) with
        | some failure => .error (.builder context failure)
        | none => .ok (),
      { σ with attempts := σ.attempts ++ s.attempt σ.calls calls }) := by
  induction calls generalizing σ with
  | nil => simp [attempt]; rfl
  | cons call rest ih =>
    rw [List.forM, run_bind, run_ask, attempt]
    cases s.builder.reply s.context σ.calls call with
    | some failure => rfl
    | none =>
      dsimp only
      rw [ih, calls_append_success]
      simp

theorem enacts_asks (context : String) (calls : List Call) :
    s.Enacts σ (calls.forM (s.ask context)) (.ok ((s.scope σ).issue context calls)) := by
  rw [Enacts, run_asks]
  cases hf : (s.attempt σ.calls calls).findSome? (·.failure) <;>
    simp [ends, carryOut, Scope.issue, hf, attempted, warnings, scope]

theorem enacts_ask (context : String) (call : Call) :
    s.Enacts σ (s.ask context call) (.ok ((s.scope σ).issue context [call])) := by
  rw [Enacts, run_ask, ends, carryOut, Scope.issue]
  cases hr : s.builder.reply s.context σ.calls call <;>
    simp [attempt, hr, attempted, warnings, scope]

theorem enacts_asksOf (context : String) (call : α → Call) (xs : List α) :
    s.Enacts σ (xs.forM fun x => s.ask context (call x))
      (.ok ((s.scope σ).issue context (xs.map call))) := by
  have h := enacts_asks (s := s) (σ := σ) context (xs.map call)
  rwa [List.forM_eq_forM, List.forM_map] at h

theorem enacts_push (context : String) (call : Call) (push : Bool) :
    s.Enacts σ (do s.ask context call; if push then Handler.startPushing)
      (.ok { (s.scope σ).issue context [call] with push }) := by
  rw [Enacts, run_bind, run_ask, ends, carryOut, Scope.issue]
  cases hr : s.builder.reply s.context σ.calls call with
  | some failure => simp [attempt, hr, attempted, warnings, scope]
  | none =>
    cases push <;> simp [attempt, hr, attempted, warnings, scope, Handler.startPushing] <;> rfl

theorem enacts_warnOfDeprecation (s : Session) (σ : State) :
    s.Enacts σ s.warnOfDeprecation (.ok { block := (s.scope σ).block, redundant := true }) := by
  unfold Enacts warnOfDeprecation
  cases hw : s.settings.warnDeprecations <;>
    simp [ends, carryOut, attempt, attempted, warnings, hw, scope, State.note] <;> rfl

/-! ## The open block -/

/-- An action in place that leaves no trace where it is refused changes nothing else either. -/
theorem run_onBlock {action : DockerBlock.InPlace α}
    (f : DockerBlock → Except DockerBlock.Fault (α × DockerBlock))
    (h : ∀ b, action.run.run b =
      match f b with
      | .ok (a, b) => (.ok a, b)
      | .error fault => (.error fault, b)) (σ : State) :
    (Handler.onBlock action).run.run σ =
      match f σ.block with
      | .ok (a, block) => (.ok a, { σ with block })
      | .error fault => (.error (Refusal.block fault).problem, σ) := by
  change (Handler.check ((action.run.run σ.block).1.mapError .block)).run.run
    { σ with block := (action.run.run σ.block).2 } = _
  rw [h]
  cases f σ.block <;> rfl

theorem enacts_onBlock {action : DockerBlock.InPlace Unit}
    (f : DockerBlock → Except DockerBlock.Fault DockerBlock)
    (h : ∀ b, action.run.run b =
      match f b with
      | .ok b => (.ok (), b)
      | .error fault => (.error fault, b)) :
    s.Enacts σ (Handler.onBlock action) (do
      let block ← (f (s.scope σ).block).mapError .block
      return { block }) := by
  have hscope : (s.scope σ).block = σ.block := rfl
  rw [Enacts, run_onBlock (fun b => (f b).map fun b => ((), b)) fun b => ?_, hscope]
  · cases f σ.block with
    | ok b =>
      change (Except.ok (), { σ with block := b }) = s.carryOut σ { block := b }
      simp [carryOut, attempt, attempted, warnings]
    | error fault => rfl
  · rw [h]
    cases f b <;> rfl

/-- A command takes over the setup of the block before it is asked for. -/
theorem enacts_take (context : String) (call : DockerSetup → Call) :
    s.Enacts σ
      (Handler.onBlock DockerBlock.takeInPlace >>= fun setup => s.ask context (call setup))
      (do
        let (setup, block) ← (s.scope σ).block.takeSetup.mapError .block
        return { (s.scope σ).issue context [call setup] with block }) := by
  have hscope : (s.scope σ).block = σ.block := rfl
  rw [Enacts, run_bind, run_onBlock DockerBlock.takeSetup fun b => by cases b <;> rfl, hscope]
  cases σ.block.takeSetup with
  | error fault => rfl
  | ok taken =>
    change (s.ask context (call taken.1)).run.run { σ with block := taken.2 } =
      s.ends σ (.ok { (s.scope σ).issue context [call taken.1] with block := taken.2 })
    have hcalls : State.calls { σ with block := taken.2 } = σ.calls := rfl
    rw [run_ask, ends, carryOut, hcalls]
    cases hr : s.builder.reply s.context σ.calls (call taken.1) <;>
      simp [attempt, hr, attempted, warnings, Scope.issue]

/-! ## Words that are read one by one -/

theorem mapM_look {β : Type} (f : β → Scope → α) (xs : List β) :
    xs.mapM (fun x => s.look (f x)) = s.look fun sc => xs.map (f · sc) := by
  induction xs with
  | nil => rfl
  | cons x xs ih => rw [List.mapM_cons, ih]; rfl

theorem mapM_verify {β : Type} (f : β → Scope → Except Refusal α) (xs : List β) :
    xs.mapM (fun x => s.look (f x) >>= Handler.check) =
      s.look (fun sc => xs.mapM (f · sc)) >>= Handler.check := by
  induction xs with
  | nil => rfl
  | cons x xs ih =>
    have hrun (σ : State) (y : Except Refusal α) (g : Scope → Except Refusal (List α)) :
        (Handler.check y >>= fun a =>
          (s.look g >>= Handler.check) >>= fun rest => pure (a :: rest)) σ =
            Handler.check (y >>= fun a => g (s.scope σ) >>= fun rest => pure (a :: rest)) σ := by
      cases y with
      | error r => rfl
      | ok a =>
        change (Handler.check (g (s.scope σ)) >>= fun rest => pure (a :: rest)) σ =
          Handler.check (g (s.scope σ) >>= fun rest => pure (a :: rest)) σ
        cases g (s.scope σ) <;> rfl
    simp only [List.mapM_cons]
    rw [ih]
    exact funext fun σ => hrun σ (f x (s.scope σ)) fun sc => xs.mapM (f · sc)

/-! ## Files -/

theorem enacts_applyFromImage (s : Session) (σ : State) (i : Invocation) :
    s.Enacts σ (s.applyFromImage i) ((s.scope σ).planFromImage i) := by
  unfold applyFromImage Scope.planFromImage allow platform reference references
  refine enacts_verify fun _ _ => enacts_check fun r _ => ?_
  rcases r.arguments with _ | ⟨image, _ | ⟨word, _ | ⟨name, _ | ⟨_, _⟩⟩⟩⟩
  · exact enacts_refuse _
  · dsimp only
    exact enacts_look (enacts_verify fun platform _ => enacts_look (enacts_ask _ _))
  · simp only [enacts_refuse]
  · by_cases h : word = "AS"
    · subst h
      exact enacts_refuse _
    · simp [h, enacts_refuse]
  · simp only [enacts_refuse]

theorem enacts_applyFromDockerfile (s : Session) (σ : State) (i : Invocation) :
    s.Enacts σ (s.applyFromDockerfile i) ((s.scope σ).planFromDockerfile i) := by
  unfold applyFromDockerfile Scope.planFromDockerfile allow platform source references literal
  refine enacts_verify fun _ _ => enacts_check fun r _ => ?_
  rcases r.arguments with _ | ⟨context, _ | ⟨_, _⟩⟩
  · exact enacts_refuse _
  · refine enacts_ite (fun _ => enacts_refuse _) fun _ => ?_
    refine enacts_look (enacts_look (enacts_verify fun platform _ => ?_))
    exact enacts_look (enacts_ask _ _)
  · exact enacts_refuse _

/-- The number of those in a list tells whether it is all of them, some or none. -/
theorem ite_countP {β : Type} {p : β → Bool} {xs : List β} (hne : xs ≠ []) {all some none : α} :
    (if xs.countP p ≠ 0 ∧ xs.countP p ≠ xs.length then some
      else if xs.countP p > 0 then all else none) =
      if xs.all p then all else if xs.any p then some else none := by
  have hall : xs.all p = true ↔ xs.countP p = xs.length := by
    rw [List.all_eq_true, List.countP_eq_length]
  have hany : xs.any p = true ↔ 0 < xs.countP p := by
    rw [List.any_eq_true, List.countP_pos_iff]
  have hlength : 0 < xs.length := List.length_pos_iff.mpr hne
  simp only [hall, hany]
  by_cases hfull : xs.countP p = xs.length
  · rw [if_neg fun h => h.2 hfull, if_pos (hfull ▸ hlength), if_pos hfull]
  · rw [if_neg hfull]
    by_cases hpos : 0 < xs.countP p
    · rw [if_pos ⟨Nat.ne_of_gt hpos, hfull⟩, if_pos hpos]
    · rw [if_neg fun h => hpos (Nat.pos_of_ne_zero h.1), if_neg hpos, if_neg hpos]

theorem enacts_applyCopy (s : Session) (σ : State) (i : Invocation) :
    s.Enacts σ (s.applyCopy i) ((s.scope σ).planCopy i) := by
  unfold applyCopy Scope.planCopy allow platform literal references
  refine enacts_verify fun _ _ => enacts_check fun r _ => ?_
  dsimp only
  refine enacts_ite (fun _ => enacts_refuse _) fun hlength => ?_
  refine enacts_ite (fun _ => enacts_refuse _) fun _ => ?_
  refine enacts_look (enacts_look (enacts_look (enacts_verify fun platform _ => ?_)))
  unfold source
  rw [mapM_look]
  refine enacts_look ?_
  have hne : (r.arguments.dropLast.map fun word => (s.scope σ).source word) ≠ [] := by
    intro h
    have hnone := congrArg List.length h
    simp only [List.length_map, List.length_dropLast, List.length_nil] at hnone
    omega
  generalize (r.arguments.dropLast.map fun word => (s.scope σ).source word) = sources at hne ⊢
  rw [ite_countP hne]
  refine enacts_ite (fun _ => enacts_asksOf _ _ _) fun _ => ?_
  refine enacts_ite (fun _ => enacts_refuse _) fun _ => ?_
  exact enacts_ite (fun _ => enacts_refuse _) fun _ => enacts_ask _ _

theorem enacts_applyGitClone (s : Session) (σ : State) (i : Invocation) :
    s.Enacts σ (s.applyGitClone i) ((s.scope σ).planGitClone i) := by
  unfold applyGitClone Scope.planGitClone allow literal
  refine enacts_verify fun _ _ => enacts_check fun r _ => ?_
  rcases r.arguments with _ | ⟨url, _ | ⟨dest, _ | ⟨_, _⟩⟩⟩
  · exact enacts_refuse _
  · exact enacts_refuse _
  · exact enacts_look (enacts_look (enacts_look (enacts_ask _ _)))
  · exact enacts_refuse _

/-! ## Results -/

theorem enacts_applySaveArtifact (s : Session) (σ : State) (i : Invocation) :
    s.Enacts σ (s.applySaveArtifact i) ((s.scope σ).planSaveArtifact i) := by
  unfold applySaveArtifact Scope.planSaveArtifact allow literal
  refine enacts_verify fun _ _ => enacts_check fun r _ => enacts_check fun paths _ => ?_
  exact enacts_look (enacts_look (enacts_look (enacts_ask _ _)))

theorem enacts_applySaveImage (s : Session) (σ : State) (i : Invocation) :
    s.Enacts σ (s.applySaveImage i) ((s.scope σ).planSaveImage i) := by
  unfold applySaveImage Scope.planSaveImage literals
  refine enacts_check fun r _ => enacts_unless (enacts_ite (fun _ => enacts_refuse _) fun _ => ?_)
  refine enacts_look (enacts_look (enacts_ite (fun _ => ?_) fun _ => enacts_push _ _ _))
  exact s.enacts_warnOfDeprecation σ

theorem enacts_applyBuild (s : Session) (σ : State) (i : Invocation) :
    s.Enacts σ (s.applyBuild i) ((s.scope σ).planBuild i) := by
  unfold applyBuild Scope.planBuild allow reference references
  refine enacts_verify fun _ _ => enacts_check fun r _ => ?_
  rcases r.arguments with _ | ⟨target, _ | ⟨_, _⟩⟩
  · exact enacts_refuse _
  · unfold platform
    dsimp only
    rw [mapM_verify]
    refine enacts_look (enacts_verify fun given _ => enacts_look ?_)
    exact enacts_asksOf _ _ _
  · exact enacts_refuse _

/-! ## Commands -/

theorem enacts_applyRun (s : Session) (σ : State) (i : Invocation) :
    s.Enacts σ (s.applyRun i) ((s.scope σ).planRun i) := by
  unfold applyRun Scope.planRun literals references commandWords
  refine enacts_check fun r _ => enacts_unless (enacts_ite (fun _ => enacts_refuse _) fun _ => ?_)
  refine enacts_look (enacts_look (enacts_look (enacts_look ?_)))
  refine enacts_ite (fun hopen => ?_) fun _ => ?_
  · refine enacts_ite (fun _ => enacts_refuse _) fun _ => ?_
    exact enacts_take _ _
  · exact enacts_push _ _ _

theorem enacts_applyWithDocker (s : Session) (σ : State) (i : Invocation) :
    s.Enacts σ (s.applyWithDocker i) ((s.scope σ).planWithDocker i) := by
  unfold applyWithDocker Scope.planWithDocker allow platform
  refine enacts_verify fun _ _ => enacts_look ?_
  refine enacts_ite (fun _ => enacts_refuse _) fun hidle => enacts_check fun r _ => ?_
  refine enacts_ite (fun _ => enacts_refuse _) fun _ => ?_
  refine enacts_verify fun platform _ => enacts_look ?_
  exact enacts_onBlock (fun b => b.start _) fun b => by cases b <;> rfl

theorem enacts_applyEnd (s : Session) (σ : State) (i : Invocation) :
    s.Enacts σ (s.applyEnd i) ((s.scope σ).planEnd i) := by
  unfold applyEnd Scope.planEnd allow
  refine enacts_verify fun _ _ => enacts_ite (fun _ => enacts_refuse _) fun _ => ?_
  exact enacts_onBlock DockerBlock.close fun b => by cases b <;> rfl

theorem enacts_applyCommand (s : Session) (σ : State) (i : Invocation) (context : String)
    (call : List String → Bool → Call) :
    s.Enacts σ (s.applyCommand context call i) ((s.scope σ).planCommand context call i) := by
  unfold applyCommand Scope.planCommand allow commandWords
  exact enacts_verify fun _ _ => enacts_look (enacts_ask _ _)

theorem enacts_applyHealthcheck (s : Session) (σ : State) (i : Invocation) :
    s.Enacts σ (s.applyHealthcheck i) ((s.scope σ).planHealthcheck i) := by
  unfold applyHealthcheck Scope.planHealthcheck allow literals
  refine enacts_verify fun _ _ => enacts_check fun r _ => enacts_check fun command _ => ?_
  exact enacts_look (enacts_ask _ _)

/-! ## Statements that describe the image -/

theorem enacts_applyWord (s : Session) (σ : State) (i : Invocation) (context : String)
    (call : String → Call) :
    s.Enacts σ (s.applyWord context call i) ((s.scope σ).planWord context call i) := by
  unfold applyWord Scope.planWord allow
  exact enacts_verify fun _ _ => enacts_look (enacts_check fun _ _ => enacts_ask _ _)

theorem enacts_applyWords (s : Session) (σ : State) (i : Invocation) (context : String)
    (call : List String → Call) :
    s.Enacts σ (s.applyWords context call i) ((s.scope σ).planWords context call i) := by
  unfold applyWords Scope.planWords allow
  exact enacts_verify fun _ _ => enacts_look (enacts_check fun _ _ => enacts_ask _ _)

theorem enacts_applyEnv (s : Session) (σ : State) (i : Invocation) :
    s.Enacts σ (s.applyEnv i) ((s.scope σ).planEnv i) := by
  unfold applyEnv Scope.planEnv allow literal
  exact enacts_verify fun _ _ => enacts_look (enacts_ask _ _)

theorem enacts_applyArg (s : Session) (σ : State) (i : Invocation) :
    s.Enacts σ (s.applyArg i) ((s.scope σ).planArg i) := by
  unfold applyArg Scope.planArg allow reference
  exact enacts_verify fun _ _ => enacts_look (enacts_look (enacts_ask _ _))

theorem enacts_applyLabel (s : Session) (σ : State) (i : Invocation) :
    s.Enacts σ (s.applyLabel i) ((s.scope σ).planLabel i) := by
  unfold applyLabel Scope.planLabel allow literals
  refine enacts_verify fun _ _ => enacts_ite (fun _ => enacts_refuse _) fun _ => ?_
  refine enacts_ite (fun _ => enacts_refuse _) fun _ => ?_
  exact enacts_look (enacts_look (enacts_ask _ _))

/-! ## All statements -/

theorem enacts_handle (s : Session) (σ : State) (i : Invocation) :
    s.Enacts σ (s.handle i) ((s.scope σ).plan i) := by
  unfold handle Scope.plan
  cases i.keyword with
  | fromImage => exact s.enacts_applyFromImage σ i
  | fromDockerfile => exact s.enacts_applyFromDockerfile σ i
  | copy => exact s.enacts_applyCopy σ i
  | run => exact s.enacts_applyRun σ i
  | saveArtifact => exact s.enacts_applySaveArtifact σ i
  | saveImage => exact s.enacts_applySaveImage σ i
  | build => exact s.enacts_applyBuild σ i
  | workdir => exact s.enacts_applyWord σ i _ _
  | user => exact s.enacts_applyWord σ i _ _
  | cmd => exact s.enacts_applyCommand σ i _ _
  | entrypoint => exact s.enacts_applyCommand σ i _ _
  | expose => exact s.enacts_applyWords σ i _ _
  | volume => exact s.enacts_applyWords σ i _ _
  | env => exact s.enacts_applyEnv σ i
  | arg => exact s.enacts_applyArg σ i
  | label => exact s.enacts_applyLabel σ i
  | gitClone => exact s.enacts_applyGitClone σ i
  | healthcheck => exact s.enacts_applyHealthcheck σ i
  | withDocker => exact s.enacts_applyWithDocker σ i
  | endBlock => exact s.enacts_applyEnd σ i
  | _ => exact enacts_refuse _

end Buildfile.Session
