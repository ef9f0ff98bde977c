import Buildfile.Proofs.Outcomes
import Buildfile.Proofs.StringArrays

/-! # The forms of commands

A command is written as words for a shell or as an array of strings. An array may be cut at any of
its spaces, also at those inside a string: it is read from the words joined again, so its strings
arrive as they are, and only they are expanded. Words that are no array are passed on with their
line continuations removed.
-/

namespace Buildfile

namespace Text

/-- The pieces of a text between its spaces. -/
def cutAtSpaces (text : String) : List String := (text.toList.splitOn ' ').map String.ofList

theorem intercalate_cutAtSpaces (text : String) :
    String.intercalate " " (cutAtSpaces text) = text := by
  have hpieces : (cutAtSpaces text).map String.toList = text.toList.splitOn ' ' := by
    simp [cutAtSpaces, List.map_map, Function.comp_def]
  apply String.toList_inj.mp
  rw [String.toList_intercalate, hpieces]
  exact List.intercalate_splitOn ' '

end Text

namespace Arguments
variable {ws : List String}

theorem operands_of_array {strings : List String}
    (h : Json.StringArray strings (String.intercalate " " ws).toList) :
    (wordsOrArray ws).operands = { words := strings, isArray := true } := by
  simp only [operands, Json.readStrings_eq_ok_iff.mpr h]

theorem operands_of_no_array
    (h : ∀ strings, ¬ Json.StringArray strings (String.intercalate " " ws).toList) :
    (wordsOrArray ws).operands = { words := ws.map Text.joinLines } := by
  cases hr : Json.readStrings (String.intercalate " " ws) with
  | ok strings => exact absurd (Json.readStrings_eq_ok_iff.mp hr) (h strings)
  | error fault => simp only [operands, hr]

end Arguments

namespace Scope
variable {sc : Scope} {i : Invocation} {r : Flag.Reading}

def runOptions (sc : Scope) (r : Flag.Reading) (withShell : Bool) : RunOptions :=
  { mounts := sc.literals (r.list "mount"), secrets := sc.references (r.list "secret"),
    privileged := r.switch "privileged" || r.switch "with-docker",
    withEntrypoint := r.switch "entrypoint", withDocker := r.switch "with-docker", withShell,
    push := r.switch "push", withSsh := r.switch "ssh" }

def runSetup (sc : Scope) (r : Flag.Reading) (withShell : Bool) (setup : DockerSetup) :
    DockerSetup :=
  { setup with
    mounts := sc.literals (r.list "mount"), secrets := sc.references (r.list "secret"),
    withShell, withEntrypoint := r.switch "entrypoint" }

/-- A run whose flags are read is planned by the block that it stands in. -/
theorem planRun_eq (h : sc.pushOnly = false) (hr : i.read runFlags = .ok r) :
    sc.planRun i =
      if r.arguments = [] then .error .emptyRun
      else
        match sc.block with
        | .idle => .ok { sc.issue "run" [.run (sc.commandWords i r.arguments)
            (sc.runOptions r !i.operands.isArray)] with push := r.switch "push" }
        | .awaitingRun setup =>
          if r.switch "push" then .error .pushInBlock
          else .ok { sc.issue "with docker run" [.runWithDocker (sc.commandWords i r.arguments)
            (sc.runSetup r (!i.operands.isArray) setup)] with block := .ran }
        | .ran => if r.switch "push" then .error .pushInBlock else .error (.block .secondRun) := by
  have hpush (x : Except Refusal Plan) :
      (if !r.switch "push" then (do sc.allow i; x) else x) = x := by
    rw [allow_of_fresh h]
    exact ite_self x
  unfold planRun
  rw [hr]
  refine (hpush _).trans ?_
  simp only [List.isEmpty_iff]
  cases sc.block <;> simp only [DockerBlock.isOpen, Bool.false_eq_true, if_true, if_false] <;> rfl

end Scope

namespace Session

/-- What becomes of a run with these words between two states outside push-only mode. The words
that are no flags are passed on in this way. -/
structure RunOutcome (s : Session) (σ τ : State) (words : List String)
    (passed : List String → List String) (withShell : Bool) : Prop where
  unread : ∀ fault, Flag.read Scope.runFlags words = .error fault →
    Refused σ τ ∧ τ.problem = some (.options "RUN" words fault.message)
  empty : ∀ r, Flag.read Scope.runFlags words = .ok r → r.arguments = [] →
    Refused σ τ ∧ τ.problem = some (.arity "not enough arguments for RUN")
  alone : ∀ r, Flag.read Scope.runFlags words = .ok r → r.arguments ≠ [] → σ.block = .idle →
    s.Asked σ τ "run" (.run (passed r.arguments) ((s.scope σ).runOptions r withShell))
  inBlock : ∀ r, Flag.read Scope.runFlags words = .ok r → r.arguments ≠ [] →
    ∀ setup, σ.block = .awaitingRun setup → r.switch "push" = false →
      s.Asked σ τ "with docker run"
        (.runWithDocker (passed r.arguments) ((s.scope σ).runSetup r withShell setup))
  push : ∀ r, Flag.read Scope.runFlags words = .ok r → r.arguments ≠ [] →
    σ.block.isOpen = true → r.switch "push" = true →
      Refused σ τ ∧ τ.problem = some (.state "RUN --push not allowed in WITH DOCKER")
  again : ∀ r, Flag.read Scope.runFlags words = .ok r → r.arguments ≠ [] →
    σ.block = .ran → r.switch "push" = false →
      Refused σ τ ∧ τ.problem = some (.state "only one RUN command allowed in WITH DOCKER")

/-- What becomes of a statement that gives a command with these words. -/
structure CommandOutcome (s : Session) (σ τ : State) (keyword : Keyword) (words : List String)
    (passed : List String → List String) (withShell : Bool) : Prop where
  cmd : keyword = .cmd → s.Asked σ τ "cmd" (.cmd (passed words) withShell)
  entrypoint : keyword = .entrypoint →
    s.Asked σ τ "entrypoint" (.entrypoint (passed words) withShell)
  run : keyword = .run → s.RunOutcome σ τ words passed withShell

section Commands
variable {s : Session} {σ : State} {t : Statement} {i : Invocation}

theorem runOutcome_events (h : σ.ignores = false) (hp : σ.pushOnly = false)
    (hk : t.keyword = .run) (hi : t.invocation = .ok i) :
    s.RunOutcome σ (t.events.foldl s.step σ) i.words ((s.scope σ).commandWords i)
      (!i.operands.isArray) := by
  have hkeyword : i.keyword = .run := (keyword_of_invocation hi).trans hk
  have hplan : (s.scope σ).plan i = (s.scope σ).planRun i := by rw [Scope.plan, hkeyword]
  have hfresh : (s.scope σ).pushOnly = false := hp
  have hread {r : Flag.Reading} (hr : Flag.read Scope.runFlags i.words = .ok r) :
      i.read Scope.runFlags = .ok r := by
    rw [Invocation.read, hr]
    rfl
  have refused {e : Refusal} (he : (s.scope σ).planRun i = .error e) :=
    refused_events h hi (hplan.trans he)
  constructor
  case unread =>
    intro fault hfault
    have he : (s.scope σ).planRun i = .error (.flags .run i.words fault) := by
      rw [Scope.planRun, Invocation.read, hfault, hkeyword]
      rfl
    exact refused he
  all_goals
    intro r hr
    have hrun := Scope.planRun_eq hfresh (hread hr)
  case empty =>
    intro hempty
    rw [if_pos hempty] at hrun
    exact refused hrun
  all_goals
    intro hgiven
    rw [if_neg hgiven] at hrun
  case alone =>
    intro hblock
    have hscope : (s.scope σ).block = .idle := hblock
    rw [hscope] at hrun
    exact (issued_events h hi (hplan.trans hrun)).asked
  case inBlock =>
    intro setup hblock hpush
    have hscope : (s.scope σ).block = .awaitingRun setup := hblock
    simp only [hscope, hpush, Bool.false_eq_true, if_false] at hrun
    exact (issued_events h hi (hplan.trans hrun)).asked
  case push =>
    intro hopen hpush
    have hscope : (s.scope σ).block = σ.block := rfl
    cases hblock : σ.block with
    | idle =>
      rw [hblock] at hopen
      cases hopen
    | awaitingRun setup =>
      simp only [hscope, hblock, hpush, if_true] at hrun
      exact refused hrun
    | ran =>
      simp only [hscope, hblock, hpush, if_true] at hrun
      exact refused hrun
  case again =>
    intro hblock hpush
    have hscope : (s.scope σ).block = .ran := hblock
    simp only [hscope, hpush, Bool.false_eq_true, if_false] at hrun
    exact refused hrun

/-- The operands of a command decide its outcome, however they were written. -/
theorem commandOutcome_events (h : σ.ignores = false) (hp : σ.pushOnly = false)
    (hi : t.invocation = .ok i) :
    s.CommandOutcome σ (t.events.foldl s.step σ) t.keyword i.words ((s.scope σ).commandWords i)
      (!i.operands.isArray) := by
  have hallow : (s.scope σ).allow i = .ok () := Scope.allow_of_fresh hp i
  have hcommand (context : String) (call : List String → Bool → Call) :
      (s.scope σ).planCommand context call i = .ok ((s.scope σ).issue context
        [call ((s.scope σ).commandWords i i.words) (!i.operands.isArray)]) := by
    simp only [Scope.planCommand, hallow]
    rfl
  constructor
  · intro hk
    have hplan : (s.scope σ).plan i = (s.scope σ).planCommand "cmd" .cmd i := by
      rw [Scope.plan, keyword_of_invocation hi, hk]
    exact (issued_events h hi (hplan.trans (hcommand _ _))).asked
  · intro hk
    have hplan : (s.scope σ).plan i = (s.scope σ).planCommand "entrypoint" .entrypoint i := by
      rw [Scope.plan, keyword_of_invocation hi, hk]
    exact (issued_events h hi (hplan.trans (hcommand _ _))).asked
  · intro hk
    exact runOutcome_events h hp hk hi

end Commands

/-- A command that is written as an array of strings and cut at every space of its text is passed
on as the expansions of these strings, without a shell, and a run reads its flags from them. The
strings may be any, since each has a written form. A command whose joined words are no array of
strings is passed on word by word without line continuations, for a shell, and nothing is
expanded. -/
theorem commands_keep_their_form (s : Session) (σ : State) (h : σ.ignores = false)
    (hp : σ.pushOnly = false) (t : Statement) :
    let τ := t.events.foldl s.step σ
    (∀ strings text, Json.StringArray strings text →
      t.arguments = .wordsOrArray (Text.cutAtSpaces (String.ofList text)) →
        s.CommandOutcome σ τ t.keyword strings (s.scope σ).literals false) ∧
    (∀ ws, t.arguments = .wordsOrArray ws →
      (∀ strings, ¬ Json.StringArray strings (String.intercalate " " ws).toList) →
        s.CommandOutcome σ τ t.keyword (ws.map Text.joinLines) id true) ∧
    ∀ strings, ∀ separator ∈ [",", ", "],
      Json.StringArray strings (Json.writeArray separator.toList strings) := by
  intro τ
  have hinvocation {ws : List String} (ha : t.arguments = .wordsOrArray ws) :
      t.invocation = .ok ⟨t.keyword, t.text, (Arguments.wordsOrArray ws).operands⟩ := by
    rw [Statement.invocation, ha]
    rfl
  refine ⟨fun strings text htext ha => ?_, fun ws ha hnone => ?_, fun strings separator hs => ?_⟩
  · have hi := hinvocation ha
    have harray : Json.StringArray strings
        (String.intercalate " " (Text.cutAtSpaces (String.ofList text))).toList := by
      rwa [Text.intercalate_cutAtSpaces, String.toList_ofList]
    rw [Arguments.operands_of_array harray] at hi
    exact commandOutcome_events h hp hi
  · have hi := hinvocation ha
    rw [Arguments.operands_of_no_array hnone] at hi
    exact commandOutcome_events h hp hi
  · have hblanks (blanks : List Char) (hb : blanks.all Json.isBlank = true) : Json.Blanks blanks :=
      List.all_eq_true.mp hb
    apply Json.stringArray_writeArray
    simp only [List.mem_cons, List.not_mem_nil, or_false] at hs
    rcases hs with rfl | rfl
    · exact .comma (hblanks [] rfl) (hblanks [] rfl)
    · exact .comma (hblanks [] rfl) (hblanks [' '] rfl)

/-- Strings with spaces, a quote, an escaped marker and a line feed, of which no piece of the text
is one. -/
theorem commands_keep_their_form_pieces :
    let s : Session := { builder := .scripted (Text.substitute fun _ => none) none }
    let σ := State.initial {}
    let strings := ["a  b", "", "\"\\+\n"]
    let text := Json.writeArray [',', ' '] strings
    let t := Statement.ofWords .entrypoint ["[\"a", "", "b\",", "\"\",", "\"\\\"\\\\+\\n\"]"]
    σ.ignores = false ∧ σ.pushOnly = false ∧ Json.StringArray strings text ∧
      t.arguments = .wordsOrArray (Text.cutAtSpaces (String.ofList text)) ∧
      s.Asked σ (t.events.foldl s.step σ) "entrypoint"
        (.entrypoint ["a  b", "", "\"+\n"] false) := by
  intro s σ strings text t
  have hkeeps := s.commands_keep_their_form σ rfl rfl t
  have htext : Json.StringArray strings text := hkeeps.2.2 strings ", " (by decide)
  have hpieces : t.arguments = .wordsOrArray (Text.cutAtSpaces (String.ofList text)) := by
    decide +kernel
  have hexpanded : (s.scope σ).literals strings = ["a  b", "", "\"+\n"] := by decide +kernel
  have houtcome := (hkeeps.1 strings text htext hpieces).entrypoint rfl
  rw [hexpanded] at houtcome
  exact ⟨rfl, rfl, htext, hpieces, houtcome⟩

end Session
end Buildfile
