import Buildfile.Plan.Statement

/-! # Plans and the modes of a body

A plan says what becomes of the modes of a body: whether only pushes may follow, and which block is
open. One lemma for each kind of statement says what its plan does with them, and that a refusal
complains about an earlier push only if there was one.
-/

namespace Buildfile

def Keyword.operations : Keyword → List Operation
  | fromImage => [.fromImage]
  | fromDockerfile => [.fromDockerfile]
  | copy => [.copyArtifact, .copyFiles]
  | run => [.run, .runWithDocker]
  | saveArtifact => [.saveArtifact]
  | saveImage => [.saveImage]
  | build => [.build]
  | workdir => [.workdir]
  | user => [.user]
  | cmd => [.cmd]
  | entrypoint => [.entrypoint]
  | expose => [.expose]
  | volume => [.volume]
  | env => [.env]
  | arg => [.arg]
  | label => [.label]
  | gitClone => [.gitClone]
  | healthcheck => [.healthcheck]
  | _ => []

theorem Keyword.eq_run_of_mem {k : Keyword} {operation : Operation}
    (ho : operation = .run ∨ operation = .runWithDocker) (h : operation ∈ k.operations) :
    k = .run := by
  rcases ho with rfl | rfl
  · cases k <;> simp [operations] at h
    rfl
  · cases k <;> simp [operations] at h
    rfl

theorem Keyword.eq_saveImage_of_mem {k : Keyword} (h : .saveImage ∈ k.operations) :
    k = .saveImage := by
  cases k <;> simp [operations] at h
  rfl

theorem Call.operation_of_pushes (c : Call) (h : c.pushes = true) :
    c.operation = .run ∨ c.operation = .saveImage := by
  cases c <;> simp [pushes, operation] at h ⊢

/-- The words of a statement ask for a push: a run or a saved image with the switch turned on. -/
def Invocation.asksPush (i : Invocation) : Bool :=
  let asked (flags : List Flag) : Bool :=
    match i.read flags with
    | .ok r => r.switch "push"
    | .error _ => false
  match i.keyword with
  | .run => asked Scope.runFlags
  | .saveImage => asked Scope.saveImageFlags
  | _ => false

/-- No other refusal reads like the one of a statement that follows a push, whose first four
characters tell it apart. -/
theorem Refusal.eq_afterPush_of_problem {r : Refusal} {text : String}
    (h : r.problem = (Refusal.afterPush text).problem) : r = .afterPush text := by
  have hl {m : String} (hm : Problem.state m = (Refusal.afterPush text).problem) :
      m.toList = "no non-push commands allowed after a --push: ".toList ++ text.toList := by
    rw [Refusal.problem, Problem.state.injEq] at hm
    rw [hm]
    exact String.toList_append
  have hn {m : String} (hm : Problem.state m = (Refusal.afterPush text).problem) :
      ∃ rest, m.toList = 'n' :: 'o' :: ' ' :: 'n' :: rest := by
    rw [hl hm, String.toList_ofList]
    exact ⟨_, rfl⟩
  cases r with
  | afterPush other =>
    have ho := hl h
    rw [String.toList_append] at ho
    exact congrArg _ (String.toList_inj.mp (List.append_cancel_left ho))
  | pushInBlock =>
    obtain ⟨rest, hrest⟩ := hn h
    rw [String.toList_ofList] at hrest
    exact absurd hrest (by simp)
  | block fault =>
    obtain ⟨rest, hrest⟩ := hn h
    cases fault <;> rw [DockerBlock.Fault.message, String.toList_ofList] at hrest <;>
      exact absurd hrest (by simp)
  | selection fault =>
    obtain ⟨rest, hrest⟩ := hn h
    cases fault with
    | reserved =>
      rw [Selection.Fault.message, String.toList_ofList] at hrest
      exact absurd hrest (by simp)
    | declaredTwice name =>
      have ht : (Selection.Fault.declaredTwice name).message =
          "target " ++ (name ++ " is declared twice") := by
        simp [Selection.Fault.message, toString, String.append_assoc]
      rw [ht, String.toList_append, String.toList_ofList] at hrest
      exact absurd hrest (by simp)
  | _ => simp [Refusal.problem] at h

namespace Scope
variable {α β : Type} {sc : Scope} {i : Invocation}

/-! ## Results and refusals -/

/-- The result is as wanted, and a refusal complains about a push only if there was one. -/
def Yields (sc : Scope) (wanted : α → Prop) : Except Refusal α → Prop
  | .ok a => wanted a
  | .error r => ∀ text, r = .afterPush text → sc.pushOnly = true

theorem Yields.mono {wanted other : α → Prop} {x : Except Refusal α} (h : sc.Yields wanted x)
    (hw : ∀ a, wanted a → other a) : sc.Yields other x := by
  cases x with
  | ok a => exact hw a h
  | error r => exact h

theorem yields_bind {wanted : β → Prop} {x : Except Refusal α} {f : α → Except Refusal β} :
    sc.Yields wanted (x >>= f) ↔ sc.Yields (fun a => sc.Yields wanted (f a)) x := by
  cases x <;> rfl

theorem yields_pure {wanted : α → Prop} {a : α} :
    sc.Yields wanted (pure a : Except Refusal α) ↔ wanted a := Iff.rfl

theorem yields_allow {wanted : Unit → Prop} :
    sc.Yields wanted (sc.allow i) ↔ (sc.pushOnly = false → wanted ()) := by
  unfold allow
  cases h : sc.pushOnly <;> simp [Yields, h]

theorem yields_iff {wanted : α → Prop} {x : Except Refusal α} (h : sc.Yields (fun _ => True) x) :
    sc.Yields wanted x ↔ ∀ a, x = .ok a → wanted a := by
  cases x with
  | ok a => simp [Yields]
  | error r => simpa [Yields] using h

theorem yields_read {wanted : Flag.Reading → Prop} {flags : List Flag} :
    sc.Yields wanted (i.read flags) ↔ ∀ r, i.read flags = .ok r → wanted r := by
  apply yields_iff
  unfold Invocation.read
  cases Flag.read flags i.words with
  | ok r => trivial
  | error fault => exact fun text h => by cases h

theorem harmless_platform (raw : String) : sc.Yields (fun _ => True) (sc.platform raw) := by
  unfold platform
  dsimp only
  split
  · trivial
  · cases Platform.parse (sc.literal raw) <;> simp [Yields]

theorem yields_platform {wanted : Option Platform → Prop} {raw : String} :
    sc.Yields wanted (sc.platform raw) ↔ ∀ p, sc.platform raw = .ok p → wanted p :=
  yields_iff (harmless_platform raw)

theorem yields_platforms {wanted : List (Option Platform) → Prop} {raws : List String} :
    sc.Yields wanted (raws.mapM sc.platform) ↔
      ∀ ps, raws.mapM sc.platform = .ok ps → wanted ps := by
  apply yields_iff
  induction raws with
  | nil => trivial
  | cons raw raws ih =>
    rw [List.mapM_cons, yields_bind, yields_platform]
    intro p hp
    rw [yields_bind]
    exact (yields_iff ih).mpr fun ps hps => trivial

/-! ## Statements that keep the modes -/

/-- The plan keeps the block, asks for no push and makes calls of some operations. -/
def Ordinary (sc : Scope) (operations : List Operation) (p : Plan) : Prop :=
  sc.pushOnly = false ∧ p.block = sc.block ∧ p.push = false ∧
    ∀ c ∈ p.calls, c.operation ∈ operations

theorem ordinary_issue {operations : List Operation} {context : String} {calls : List Call} :
    sc.Ordinary operations (sc.issue context calls) ↔
      sc.pushOnly = false ∧ ∀ c ∈ calls, c.operation ∈ operations := by
  simp [Ordinary, issue]

def Single (sc : Scope) (operation : Operation) (p : Plan) : Prop :=
  sc.pushOnly = false ∧ ∃ context call, call.operation = operation ∧ p = sc.issue context [call]

theorem single_issue {operation : Operation} {context : String} {call : Call}
    (hp : sc.pushOnly = false) (hc : call.operation = operation) :
    sc.Single operation (sc.issue context [call]) := ⟨hp, context, call, hc, rfl⟩

theorem Single.ordinary {operation : Operation} {p : Plan} (h : sc.Single operation p) :
    sc.Ordinary [operation] p := by
  obtain ⟨hp, context, call, hc, rfl⟩ := h
  rw [ordinary_issue]
  exact ⟨hp, by simp [hc]⟩

theorem yields_planFromImage : sc.Yields (sc.Single .fromImage) (sc.planFromImage i) := by
  simp only [planFromImage, yields_bind, yields_allow, yields_read]
  intro hp r hr
  split
  · simp only [yields_bind, yields_platform, yields_pure]
    exact fun p _ => single_issue hp rfl
  · simp [Yields]
  · simp [Yields]

theorem yields_planFromDockerfile :
    sc.Yields (sc.Single .fromDockerfile) (sc.planFromDockerfile i) := by
  simp only [planFromDockerfile, yields_bind, yields_allow, yields_read]
  intro hp r hr
  split
  · split
    · simp [Yields]
    · simp only [yields_bind, yields_platform, yields_pure]
      exact fun p _ => single_issue hp rfl
  · simp [Yields]

/-- What a copy does with its sources, which are all artifacts or all files. -/
inductive Copies (sc : Scope) (i : Invocation) (p : Plan) : Prop
  | artifacts (r : Flag.Reading) (dest : String) (platform : Option Platform)
      (buildArgs : List String) (options : CopyOptions) (ifExists : Bool)
      (read : i.read copyFlags = .ok r)
      (all : (r.arguments.dropLast.map sc.source).all Source.isArtifact = true)
      (plan : p = sc.issue "copy artifact" ((r.arguments.dropLast.map sc.source).map fun source =>
        .copyArtifact source.text dest platform buildArgs options ifExists))
  | files (r : Flag.Reading) (read : i.read copyFlags = .ok r)
      (all : (r.arguments.dropLast.map sc.source).all Source.isArtifact = false)
      (any : (r.arguments.dropLast.map sc.source).any Source.isArtifact = false) (call : Call)
      (operation : call.operation = .copyFiles) (plan : p = sc.issue "copy classical" [call])

theorem yields_planCopy :
    sc.Yields (fun p => sc.pushOnly = false ∧ sc.Copies i p) (sc.planCopy i) := by
  simp only [planCopy, yields_bind, yields_allow, yields_read]
  intro hp r hr
  split
  · simp [Yields]
  split
  · simp [Yields]
  simp only [yields_bind, yields_platform]
  intro p _
  split
  · next hall => exact ⟨hp, .artifacts r _ _ _ _ _ hr hall rfl⟩
  next hall =>
  split
  · simp [Yields]
  next hany =>
  split
  · simp [Yields]
  · rw [yields_pure]
    exact ⟨hp, .files r hr (Bool.eq_false_iff.mpr hall) (Bool.eq_false_iff.mpr hany) _ rfl rfl⟩

theorem Copies.ordinary {p : Plan} (hp : sc.pushOnly = false) (h : sc.Copies i p) :
    sc.Ordinary [.copyArtifact, .copyFiles] p := by
  cases h with
  | artifacts r _ _ _ _ _ _ _ hplan =>
    rw [hplan, ordinary_issue]
    refine ⟨hp, fun c hc => ?_⟩
    obtain ⟨source, -, rfl⟩ := List.mem_map.mp hc
    simp [Call.operation]
  | files r _ _ _ call hop hplan =>
    rw [hplan, ordinary_issue]
    exact ⟨hp, by simp [hop]⟩

theorem yields_planGitClone : sc.Yields (sc.Single .gitClone) (sc.planGitClone i) := by
  simp only [planGitClone, yields_bind, yields_allow, yields_read]
  intro hp r hr
  split
  · exact single_issue hp rfl
  · simp [Yields]

theorem harmless_saveArtifactPaths (arguments : List String) :
    sc.Yields (fun _ => True) (saveArtifactPaths i arguments) := by
  unfold saveArtifactPaths
  split <;> try exact trivial
  · simp [Yields]
  · split <;> simp [Yields]

theorem yields_planSaveArtifact : sc.Yields (sc.Single .saveArtifact) (sc.planSaveArtifact i) := by
  simp only [planSaveArtifact, yields_bind, yields_allow, yields_read]
  intro hp r hr
  apply (yields_iff (harmless_saveArtifactPaths _)).mpr
  intro paths _
  exact single_issue hp rfl

/-- A build of one target makes a call for each platform in order, or one call without any. -/
def Builds (sc : Scope) (i : Invocation) (p : Plan) : Prop :=
  ∃ r given target buildArgs context, i.read buildFlags = .ok r ∧
    (r.list "platform").mapM sc.platform = .ok given ∧
    p = sc.issue context ((if given.isEmpty then [none] else given).map fun platform =>
      .build target platform buildArgs)

theorem yields_planBuild :
    sc.Yields (fun p => sc.pushOnly = false ∧ sc.Builds i p) (sc.planBuild i) := by
  simp only [planBuild, yields_bind, yields_allow, yields_read]
  intro hp r hr
  split
  · simp only [yields_bind, yields_platforms, yields_pure]
    exact fun given hg => ⟨hp, r, given, _, _, _, hr, hg, rfl⟩
  · simp [Yields]

theorem Builds.ordinary {p : Plan} (hp : sc.pushOnly = false) (h : sc.Builds i p) :
    sc.Ordinary [.build] p := by
  obtain ⟨r, given, target, buildArgs, context, -, -, rfl⟩ := h
  rw [ordinary_issue]
  refine ⟨hp, fun c hc => ?_⟩
  obtain ⟨platform, -, rfl⟩ := List.mem_map.mp hc
  simp [Call.operation]

theorem harmless_healthcheckCommand (arguments : List String) :
    sc.Yields (fun _ => True) (healthcheckCommand i arguments) := by
  unfold healthcheckCommand
  split
  · simp [Yields]
  · trivial
  · simp [Yields]
  · split <;> simp [Yields]
  · split <;> simp [Yields]

theorem yields_planHealthcheck : sc.Yields (sc.Single .healthcheck) (sc.planHealthcheck i) := by
  simp only [planHealthcheck, yields_bind, yields_allow, yields_read]
  intro hp r hr
  apply (yields_iff (harmless_healthcheckCommand _)).mpr
  intro command _
  exact single_issue hp rfl

theorem yields_single {operation : Operation} {context : String} {x : Except Refusal α}
    {call : α → Call} (hx : sc.Yields (fun _ => True) x)
    (hc : ∀ a, (call a).operation = operation) :
    sc.Yields (sc.Single operation) (do
      sc.allow i
      return sc.issue context [call (← x)]) := by
  rw [yields_bind, yields_allow]
  intro hp
  rw [yields_bind]
  apply (yields_iff hx).mpr
  intro a _
  exact single_issue hp (hc a)

theorem harmless_singleWord : sc.Yields (fun _ => True) (sc.singleWord i) := by
  unfold singleWord
  split <;> simp [Yields]

theorem harmless_someWords : sc.Yields (fun _ => True) (sc.someWords i) := by
  unfold someWords
  split <;> simp [Yields]

theorem yields_planWord {operation : Operation} {context : String} {call : String → Call}
    (hc : ∀ word, (call word).operation = operation) :
    sc.Yields (sc.Single operation) (sc.planWord context call i) :=
  yields_single harmless_singleWord hc

theorem yields_planWords {operation : Operation} {context : String} {call : List String → Call}
    (hc : ∀ words, (call words).operation = operation) :
    sc.Yields (sc.Single operation) (sc.planWords context call i) :=
  yields_single harmless_someWords hc

theorem yields_plain {operation : Operation} {context : String} {call : Call}
    (hc : call.operation = operation) :
    sc.Yields (sc.Single operation) (do
      sc.allow i
      return sc.issue context [call]) := by
  rw [yields_bind, yields_allow]
  exact fun hp => single_issue hp hc

theorem yields_planCommand {operation : Operation} {context : String}
    {call : List String → Bool → Call}
    (hc : ∀ words withShell, (call words withShell).operation = operation) :
    sc.Yields (sc.Single operation) (sc.planCommand context call i) :=
  yields_plain (hc _ _)

theorem yields_planEnv : sc.Yields (sc.Single .env) (sc.planEnv i) := yields_plain rfl

theorem yields_planArg : sc.Yields (sc.Single .arg) (sc.planArg i) := yields_plain rfl

theorem yields_planLabel : sc.Yields (sc.Single .label) (sc.planLabel i) := by
  simp only [planLabel, yields_bind, yields_allow]
  intro hp
  split
  · simp [Yields]
  split
  · simp [Yields]
  · exact single_issue hp rfl

/-! ## Statements that change the modes -/

theorem yields_allow_unless {wanted : α → Prop} {push : Bool} {x : Except Refusal α} :
    sc.Yields wanted (if !push then (do sc.allow i; x) else x) ↔
      ((sc.pushOnly = true → push = true) → sc.Yields wanted x) := by
  cases push with
  | true => simp
  | false =>
    simp only [Bool.not_false, if_true, yields_bind, yields_allow, Bool.false_eq_true, imp_false,
      Bool.not_eq_true]

/-- What a run does in an idle block and in a block that awaits it. -/
inductive Runs (sc : Scope) (i : Invocation) (r : Flag.Reading) (p : Plan) : Prop
  | alone (options : RunOptions) (idle : sc.block = .idle) (block : p.block = .idle)
      (calls : p.calls = [.run (sc.commandWords i r.arguments) options])
      (push : options.push = p.push)
  | inBlock (setup : DockerSetup) (awaiting : sc.block = .awaitingRun setup)
      (block : p.block = .ran)
      (calls : p.calls = [.runWithDocker (sc.commandWords i r.arguments)
        { setup with
          mounts := sc.literals (r.list "mount")
          secrets := sc.references (r.list "secret")
          withShell := !i.operands.isArray
          withEntrypoint := r.switch "entrypoint" }])
      (push : p.push = false)

theorem yields_planRun :
    sc.Yields (fun p => ∃ r, i.read runFlags = .ok r ∧ p.push = r.switch "push" ∧
      (sc.pushOnly = true → p.push = true) ∧ sc.Runs i r p) (sc.planRun i) := by
  simp only [planRun, yields_bind, yields_read]
  intro r hr
  rw [yields_allow_unless]
  intro hp
  split
  · simp [Yields]
  cases hb : sc.block with
  | idle =>
    rw [if_neg (by simp [DockerBlock.isOpen])]
    exact ⟨r, hr, rfl, hp, .alone _ hb hb rfl rfl⟩
  | awaitingRun setup =>
    have ho : (DockerBlock.awaitingRun setup).isOpen = true := rfl
    rw [if_pos ho]
    cases hs : r.switch "push" with
    | true => simp [Yields]
    | false =>
      have hq : sc.pushOnly = true → false = true := fun h => hs ▸ hp h
      exact ⟨r, hr, hs.symm, hq, .inBlock setup hb rfl rfl rfl⟩
  | ran =>
    have ho : DockerBlock.ran.isOpen = true := rfl
    rw [if_pos ho]
    split <;> exact fun text h => by cases h

/-- A saved image has neither names nor cache settings. -/
def savesNothing (r : Flag.Reading) : Bool :=
  r.arguments.isEmpty && !r.switch "cache-hint" && (r.list "cache-from").isEmpty

theorem yields_planSaveImage :
    sc.Yields (fun p => ∃ r, i.read saveImageFlags = .ok r ∧ p.push = r.switch "push" ∧
      (sc.pushOnly = true → p.push = true) ∧ p.block = sc.block ∧
      ((savesNothing r = true ∧ p.calls = [] ∧ p.push = false) ∨
        (savesNothing r = false ∧
          ∃ names options, p.calls = [.saveImage names options] ∧ options.push = p.push)))
      (sc.planSaveImage i) := by
  simp only [planSaveImage, yields_bind, yields_read]
  intro r hr
  rw [yields_allow_unless]
  intro hp
  split
  · simp [Yields]
  next hnames =>
  have hn (r : Flag.Reading) : savesNothing r = ((sc.literals r.arguments).isEmpty &&
      !r.switch "cache-hint" && (sc.literals (r.list "cache-from")).isEmpty) := by
    rw [savesNothing, literals, literals, List.isEmpty_map, List.isEmpty_map]
  split
  · next hempty =>
    rw [← hn] at hempty
    have hs : r.switch "push" = false := by
      cases hs : r.switch "push" with
      | false => rfl
      | true =>
        rw [savesNothing, Bool.and_eq_true, Bool.and_eq_true] at hempty
        exact absurd (Bool.and_eq_true _ _ ▸ ⟨hs, hempty.1.1⟩) hnames
    have hq : sc.pushOnly = true → false = true := fun h => hs ▸ hp h
    exact ⟨r, hr, hs.symm, hq, rfl, .inl ⟨hempty, rfl, rfl⟩⟩
  · next hfull =>
    rw [← hn] at hfull
    exact ⟨r, hr, rfl, hp, rfl, .inr ⟨Bool.eq_false_iff.mpr hfull, _, _, rfl, rfl⟩⟩

theorem yields_planWithDocker :
    sc.Yields (fun p => sc.pushOnly = false ∧ sc.block = .idle ∧
      ∃ r platform, i.read withDockerFlags = .ok r ∧
        sc.platform (r.text "platform") = .ok platform ∧
        p = { block := .awaitingRun (sc.dockerSetup r platform) }) (sc.planWithDocker i) := by
  simp only [planWithDocker, yields_bind, yields_allow]
  intro hp
  cases hb : sc.block with
  | idle =>
    rw [if_neg (by simp [DockerBlock.isOpen])]
    simp only [yields_bind, yields_read]
    intro r hr
    split
    · simp [Yields]
    · simp only [yields_bind, yields_platform]
      exact fun platform hplatform => ⟨hp, trivial, r, platform, hr, hplatform, rfl⟩
  | awaitingRun setup => exact fun text h => by cases h
  | ran => exact fun text h => by cases h

theorem yields_planEnd :
    sc.Yields (fun p => sc.pushOnly = false ∧ sc.block = .ran ∧ p = { block := .idle })
      (sc.planEnd i) := by
  simp only [planEnd, yields_bind, yields_allow]
  intro hp
  split
  · simp [Yields]
  · cases hb : sc.block with
    | ran => exact ⟨hp, rfl, rfl⟩
    | idle => exact fun text h => by cases h
    | awaitingRun setup => exact fun text h => by cases h

/-! ## Every statement -/

/-- The statements that make more than one call or none, change the modes or depend on them. -/
def compound : List Keyword := [.run, .saveImage, .copy, .build, .withDocker, .endBlock]

/-- The plan of a statement, by the kind of the statement. -/
inductive Shape (sc : Scope) (i : Invocation) (p : Plan) : Prop
  | single (operation : Operation) (plain : i.keyword ∉ compound)
      (operations : i.keyword.operations = [operation]) (single : sc.Single operation p)
  | copies (keyword : i.keyword = .copy) (fresh : sc.pushOnly = false) (copies : sc.Copies i p)
  | builds (keyword : i.keyword = .build) (fresh : sc.pushOnly = false) (builds : sc.Builds i p)
  | run (r : Flag.Reading) (keyword : i.keyword = .run) (read : i.read runFlags = .ok r)
      (push : p.push = r.switch "push") (afterPush : sc.pushOnly = true → p.push = true)
      (runs : sc.Runs i r p)
  | saveImage (r : Flag.Reading) (keyword : i.keyword = .saveImage)
      (read : i.read saveImageFlags = .ok r) (push : p.push = r.switch "push")
      (afterPush : sc.pushOnly = true → p.push = true) (block : p.block = sc.block)
      (calls : (savesNothing r = true ∧ p.calls = [] ∧ p.push = false) ∨
        (savesNothing r = false ∧
          ∃ names options, p.calls = [.saveImage names options] ∧ options.push = p.push))
  | opens (r : Flag.Reading) (platform : Option Platform) (keyword : i.keyword = .withDocker)
      (fresh : sc.pushOnly = false) (idle : sc.block = .idle)
      (read : i.read withDockerFlags = .ok r)
      (given : sc.platform (r.text "platform") = .ok platform)
      (plan : p = { block := .awaitingRun (sc.dockerSetup r platform) })
  | closes (keyword : i.keyword = .endBlock) (fresh : sc.pushOnly = false)
      (ran : sc.block = .ran) (plan : p = { block := .idle })

theorem yields_shape (sc : Scope) (i : Invocation) : sc.Yields (sc.Shape i) (sc.plan i) := by
  have ho {k : Keyword} {operation : Operation} {x : Except Refusal Plan} (hk : i.keyword = k)
      (hx : sc.Yields (sc.Single operation) x) (hoperations : k.operations = [operation])
      (hplain : k ∉ compound) : sc.Yields (sc.Shape i) x :=
    hx.mono fun p hs => .single operation (hk ▸ hplain) (hk ▸ hoperations) hs
  unfold plan
  cases hk : i.keyword with
  | fromImage => exact ho hk yields_planFromImage rfl (by decide)
  | fromDockerfile => exact ho hk yields_planFromDockerfile rfl (by decide)
  | saveArtifact => exact ho hk yields_planSaveArtifact rfl (by decide)
  | workdir => exact ho hk (yields_planWord fun _ => rfl) rfl (by decide)
  | user => exact ho hk (yields_planWord fun _ => rfl) rfl (by decide)
  | cmd => exact ho hk (yields_planCommand fun _ _ => rfl) rfl (by decide)
  | entrypoint => exact ho hk (yields_planCommand fun _ _ => rfl) rfl (by decide)
  | expose => exact ho hk (yields_planWords fun _ => rfl) rfl (by decide)
  | volume => exact ho hk (yields_planWords fun _ => rfl) rfl (by decide)
  | env => exact ho hk yields_planEnv rfl (by decide)
  | arg => exact ho hk yields_planArg rfl (by decide)
  | label => exact ho hk yields_planLabel rfl (by decide)
  | gitClone => exact ho hk yields_planGitClone rfl (by decide)
  | healthcheck => exact ho hk yields_planHealthcheck rfl (by decide)
  | copy => exact yields_planCopy.mono fun p ⟨hp, hc⟩ => .copies hk hp hc
  | build => exact yields_planBuild.mono fun p ⟨hp, hb⟩ => .builds hk hp hb
  | run => exact yields_planRun.mono fun p ⟨r, hr, hs, hp, hruns⟩ => .run r hk hr hs hp hruns
  | saveImage =>
    exact yields_planSaveImage.mono fun p ⟨r, hr, hs, hp, hb, hc⟩ => .saveImage r hk hr hs hp hb hc
  | withDocker =>
    exact yields_planWithDocker.mono fun p ⟨hp, hb, r, platform, hr, hg, h⟩ =>
      .opens r platform hk hp hb hr hg h
  | endBlock => exact yields_planEnd.mono fun p ⟨hp, hb, h⟩ => .closes hk hp hb h
  | _ => simp [Yields]

/-- What the plan of a statement does with the modes, by the kind of the statement. -/
inductive Planned (sc : Scope) (i : Invocation) (p : Plan) : Prop
  | ordinary (plain : i.keyword ∉ [.run, .saveImage, .withDocker, .endBlock])
      (ordinary : sc.Ordinary i.keyword.operations p)
  | run (r : Flag.Reading) (keyword : i.keyword = .run) (read : i.read runFlags = .ok r)
      (push : p.push = r.switch "push") (afterPush : sc.pushOnly = true → p.push = true)
      (runs : sc.Runs i r p)
  | saveImage (r : Flag.Reading) (keyword : i.keyword = .saveImage)
      (read : i.read saveImageFlags = .ok r) (push : p.push = r.switch "push")
      (afterPush : sc.pushOnly = true → p.push = true) (block : p.block = sc.block)
      (calls : (p.calls = [] ∧ p.push = false) ∨
        ∃ names options, p.calls = [.saveImage names options] ∧ options.push = p.push)
  | opens (r : Flag.Reading) (platform : Option Platform) (keyword : i.keyword = .withDocker)
      (fresh : sc.pushOnly = false) (idle : sc.block = .idle)
      (read : i.read withDockerFlags = .ok r)
      (given : sc.platform (r.text "platform") = .ok platform)
      (plan : p = { block := .awaitingRun (sc.dockerSetup r platform) })
  | closes (keyword : i.keyword = .endBlock) (fresh : sc.pushOnly = false)
      (ran : sc.block = .ran) (plan : p = { block := .idle })

theorem Shape.planned {p : Plan} (h : sc.Shape i p) : sc.Planned i p := by
  cases h with
  | single operation hplain hops hs =>
    exact .ordinary (by simp_all [compound]) (hops ▸ hs.ordinary)
  | copies hk hp hc =>
    have hops : i.keyword.operations = [.copyArtifact, .copyFiles] := by rw [hk]; rfl
    exact .ordinary (by simp [hk]) (hops ▸ hc.ordinary hp)
  | builds hk hp hb =>
    have hops : i.keyword.operations = [.build] := by rw [hk]; rfl
    exact .ordinary (by simp [hk]) (hops ▸ hb.ordinary hp)
  | run r hk hr hs hp hruns => exact .run r hk hr hs hp hruns
  | saveImage r hk hr hs hp hb hc =>
    exact .saveImage r hk hr hs hp hb (hc.imp And.right And.right)
  | opens r platform hk hp hb hr hg h => exact .opens r platform hk hp hb hr hg h
  | closes hk hp hb h => exact .closes hk hp hb h

theorem yields_plan (sc : Scope) (i : Invocation) : sc.Yields (sc.Planned i) (sc.plan i) :=
  (sc.yields_shape i).mono fun _ h => h.planned

theorem planned_of_plan {p : Plan} (h : sc.plan i = .ok p) : sc.Planned i p := by
  have hy := sc.yields_plan i
  rwa [h] at hy

theorem pushOnly_of_plan {r : Refusal} {text : String} (h : sc.plan i = .error r)
    (hr : r.problem = (Refusal.afterPush text).problem) : sc.pushOnly = true := by
  have hy := sc.yields_plan i
  rw [h] at hy
  exact hy text (Refusal.eq_afterPush_of_problem hr)

namespace Planned
variable {p : Plan}

theorem operations (h : sc.Planned i p) : ∀ c ∈ p.calls, c.operation ∈ i.keyword.operations := by
  cases h with
  | ordinary _ ho => exact ho.2.2.2
  | run r hk _ _ _ hruns =>
    cases hruns with
    | alone _ _ _ hc _ => simp [hc, hk, Keyword.operations, Call.operation]
    | inBlock _ _ _ hc _ => simp [hc, hk, Keyword.operations, Call.operation]
  | saveImage r hk _ _ _ _ hc =>
    rcases hc with ⟨hc, -⟩ | ⟨names, options, hc, -⟩
    · simp [hc]
    · simp [hc, hk, Keyword.operations, Call.operation]
  | opens _ _ _ _ _ _ _ h => simp [h]
  | closes _ _ _ h => simp [h]

/-- After a push only another push has a plan. -/
theorem afterPush (h : sc.Planned i p) (hp : sc.pushOnly = true) : p.push = true := by
  cases h with
  | ordinary _ ho => exact absurd hp (by simp [ho.1])
  | run _ _ _ _ ha _ => exact ha hp
  | saveImage _ _ _ _ ha _ _ => exact ha hp
  | opens _ _ _ hf _ _ _ _ => exact absurd hp (by simp [hf])
  | closes _ hf _ _ => exact absurd hp (by simp [hf])

/-- A plan pushes if the words of its statement ask for it. -/
theorem push_eq (h : sc.Planned i p) : p.push = i.asksPush := by
  cases h with
  | ordinary hk ho =>
    rw [ho.2.2.1, Invocation.asksPush]
    split <;> simp_all
  | run r hk hr hs _ _ => simp only [Invocation.asksPush, hk, hr, hs]
  | saveImage r hk hr hs _ _ _ => simp only [Invocation.asksPush, hk, hr, hs]
  | opens _ _ hk _ _ _ _ h => simp [Invocation.asksPush, hk, h]
  | closes hk _ _ h => simp [Invocation.asksPush, hk, h]

/-- The calls of a plan push if the plan does. -/
theorem pushes_eq (h : sc.Planned i p) : ∀ c ∈ p.calls, c.pushes = p.push := by
  cases h with
  | ordinary hk ho =>
    intro c hc
    rw [ho.2.2.1, ← Bool.not_eq_true]
    intro hs
    rcases c.operation_of_pushes hs with hop | hop
    · exact hk (by simp [Keyword.eq_run_of_mem (.inl rfl) (hop ▸ ho.2.2.2 c hc)])
    · exact hk (by simp [Keyword.eq_saveImage_of_mem (hop ▸ ho.2.2.2 c hc)])
  | run _ _ _ _ _ hruns =>
    cases hruns with
    | alone options _ _ hc hs => simp [hc, Call.pushes, hs]
    | inBlock setup _ _ hc hs => simp [hc, Call.pushes, hs]
  | saveImage _ _ _ _ _ _ hc =>
    rcases hc with ⟨hc, -⟩ | ⟨names, options, hc, hs⟩
    · simp [hc]
    · simp [hc, Call.pushes, hs]
  | opens _ _ _ _ _ _ _ h => simp [h]
  | closes _ _ _ h => simp [h]

theorem calls_of_push (h : sc.Planned i p) (hp : p.push = true) : ∃ c, p.calls = [c] := by
  cases h with
  | ordinary _ ho => exact absurd hp (by simp [ho.2.2.1])
  | run _ _ _ _ _ hruns =>
    cases hruns with
    | alone options _ _ hc _ => exact ⟨_, hc⟩
    | inBlock setup _ _ hc _ => exact ⟨_, hc⟩
  | saveImage _ _ _ _ _ _ hc =>
    rcases hc with ⟨-, hs⟩ | ⟨names, options, hc, -⟩
    · exact absurd hp (by simp [hs])
    · exact ⟨_, hc⟩
  | opens _ _ _ _ _ _ _ h => exact absurd hp (by simp [h])
  | closes _ _ _ h => exact absurd hp (by simp [h])

/-- Only the last call of a plan can push. -/
theorem pushes_eq_false_of_append (h : sc.Planned i p) {before after : List Call} {call : Call}
    (hc : p.calls = before ++ call :: after) : ∀ c ∈ before, c.pushes = false := by
  intro c hm
  rw [h.pushes_eq c (by simp [hc, hm]), ← Bool.not_eq_true]
  intro hpush
  obtain ⟨only, honly⟩ := h.calls_of_push hpush
  have hlen := congrArg List.length (hc.symm.trans honly)
  have hpos := List.length_pos_of_mem hm
  simp only [List.length_append, List.length_cons, List.length_nil] at hlen
  omega

end Planned
end Scope
end Buildfile
