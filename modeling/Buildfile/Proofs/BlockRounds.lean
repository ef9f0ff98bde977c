import Buildfile.DockerBlock
import Mathlib.Data.List.Infix

/-! # Rounds of a block

Whatever actions a block is asked for, in any order and also after refusals, those that it accepts
go in rounds: it is opened with a setup, hands this setup out once, and is closed. A refused action
leaves no trace, and the end of a body is refused exactly while the block is open.
-/

namespace Buildfile
namespace DockerBlock

/-- An accepted action, with the setup that it handed out. -/
structure Move where
  action : Action
  handed : Option DockerSetup := none
deriving DecidableEq

namespace Move

def opened? (m : Move) : Option DockerSetup :=
  match m.action with
  | .start setup => some setup
  | _ => none

def opens (m : Move) : Bool := m.opened?.isSome

def closes (m : Move) : Bool := m.action == .close

end Move

/-- The move that an answer to an action stands for. The end of a body moves nothing. -/
def move? (a : Action) : Except Fault (Option DockerSetup) → Option Move
  | .ok handed => if a = .ensureClosed then none else some { action := a, handed }
  | .error _ => none

def moves (b : DockerBlock) (actions : List Action) : List Move :=
  (actions.zip (b.applyAll actions)).filterMap fun (a, _, answer) => move? a answer

def after (b : DockerBlock) (actions : List Action) : DockerBlock :=
  actions.foldl (fun b a => (b.apply a).1) b

def round (setup : DockerSetup) : List Move :=
  [{ action := .start setup }, { action := .take, handed := some setup }, { action := .close }]

/-- Moves that lead from an idle block to another block: whole rounds and a part of one. -/
inductive Rounds : List Move → DockerBlock → Prop
  | idle (setups : List DockerSetup) : Rounds (setups.flatMap round) .idle
  | awaitingRun (setups : List DockerSetup) (setup : DockerSetup) :
      Rounds (setups.flatMap round ++ [{ action := .start setup }]) (.awaitingRun setup)
  | ran (setups : List DockerSetup) (setup : DockerSetup) :
      Rounds (setups.flatMap round ++
        [{ action := .start setup }, { action := .take, handed := some setup }]) .ran

/-- The action comes next in a round after the last move. The end of a body comes between rounds. -/
def Due (last : Option Move) : Action → Prop
  | .start _ | .ensureClosed => ∀ m ∈ last, m.action = .close
  | .take => ∃ m ∈ last, ∃ setup, m.action = .start setup
  | .close => ∃ m ∈ last, m.action = .take

variable {b : DockerBlock} {ms : List Move}

theorem moves_cons (b : DockerBlock) (a : Action) (rest : List Action) :
    b.moves (a :: rest) = (move? a (b.apply a).2).toList ++ (b.apply a).1.moves rest := by
  rw [moves, applyAll, List.zip_cons_cons, List.filterMap_cons]
  cases h : move? a (b.apply a).2 <;> simp [h, moves]

/-! ## One action -/

theorem Rounds.apply (h : Rounds ms b) (a : Action) :
    Rounds (ms ++ (move? a (b.apply a).2).toList) (b.apply a).1 := by
  cases h with
  | idle setups =>
    have hstill : Rounds (setups.flatMap round ++ []) .idle := by
      rw [List.append_nil]
      exact .idle setups
    cases a with
    | start setup => exact .awaitingRun setups setup
    | take => exact hstill
    | close => exact hstill
    | ensureClosed => exact hstill
  | awaitingRun setups setup =>
    have hstill := Rounds.awaitingRun setups setup
    rw [← List.append_nil (setups.flatMap round ++ _)] at hstill
    cases a with
    | start _ => exact hstill
    | take =>
      rw [List.append_assoc]
      exact .ran setups setup
    | close => exact hstill
    | ensureClosed => exact hstill
  | ran setups setup =>
    have hstill := Rounds.ran setups setup
    rw [← List.append_nil (setups.flatMap round ++ _)] at hstill
    cases a with
    | start _ => exact hstill
    | take => exact hstill
    | close =>
      have hround := Rounds.idle (setups ++ [setup])
      rw [List.flatMap_append, List.flatMap_singleton] at hround
      rw [List.append_assoc]
      exact hround
    | ensureClosed => exact hstill

theorem not_accepted_of_error {a : Action} {fault : Fault} (h : (b.apply a).2 = .error fault) :
    ¬ ∃ handed, (b.apply a).2 = .ok handed := by
  rintro ⟨handed, hok⟩
  cases h.symm.trans hok

theorem take_cases {handed : Option DockerSetup} (h : (b.apply .take).2 = .ok handed) :
    ∃ setup, handed = some setup ∧ b = .awaitingRun setup := by
  cases b with
  | idle => cases h
  | awaitingRun setup =>
    cases h
    exact ⟨setup, rfl, rfl⟩
  | ran => cases h

theorem apply_ensureClosed (b : DockerBlock) :
    (b.apply .ensureClosed).2 = if b.isOpen then .error .noEnd else .ok none := by
  cases b <;> rfl

/-! ## Any number of actions -/

theorem Rounds.run (h : Rounds ms b) (actions : List Action) :
    Rounds (ms ++ b.moves actions) (b.after actions) := by
  induction actions generalizing b ms with
  | nil => simpa [moves, after] using h
  | cons a rest ih =>
    have hrest := ih (h.apply a)
    rwa [List.append_assoc, ← moves_cons] at hrest

theorem rounds_of_idle (actions : List Action) :
    Rounds (idle.moves actions) (idle.after actions) :=
  (Rounds.idle []).run actions

/-! ## What the moves tell -/

namespace Rounds

theorem isPrefix (h : Rounds ms b) : ∃ setups : List DockerSetup, ms <+: setups.flatMap round := by
  cases h with
  | idle setups => exact ⟨setups, List.prefix_rfl⟩
  | awaitingRun setups setup =>
    refine ⟨setups ++ [setup], ?_⟩
    rw [List.flatMap_append, List.flatMap_singleton, List.prefix_append_right_inj]
    exact ⟨_, rfl⟩
  | ran setups setup =>
    refine ⟨setups ++ [setup], ?_⟩
    rw [List.flatMap_append, List.flatMap_singleton, List.prefix_append_right_inj]
    exact ⟨_, rfl⟩

theorem getLast? {setup : DockerSetup} (h : Rounds ms (.awaitingRun setup)) :
    ms.getLast? = some { action := .start setup } := by
  cases h with
  | awaitingRun setups => exact List.getLast?_concat

end Rounds

theorem filterMap_flatMap_round {f : Move → Option DockerSetup}
    (hf : ∀ setup, (round setup).filterMap f = [setup]) (setups : List DockerSetup) :
    (setups.flatMap round).filterMap f = setups := by
  induction setups with
  | nil => rfl
  | cons setup rest ih =>
    rw [List.flatMap_cons, List.filterMap_append, hf, ih]
    rfl

theorem countP_flatMap_round {p : Move → Bool} (hp : ∀ setup, (round setup).countP p = 1)
    (setups : List DockerSetup) : (setups.flatMap round).countP p = setups.length := by
  induction setups with
  | nil => rfl
  | cons setup rest ih =>
    rw [List.flatMap_cons, List.countP_append, hp, ih, List.length_cons, Nat.add_comm]

theorem handed_flatMap_round (setups : List DockerSetup) :
    (setups.flatMap round).filterMap Move.handed = setups :=
  filterMap_flatMap_round (fun _ => rfl) setups

theorem opened_flatMap_round (setups : List DockerSetup) :
    (setups.flatMap round).filterMap Move.opened? = setups :=
  filterMap_flatMap_round (fun _ => rfl) setups

theorem opens_flatMap_round (setups : List DockerSetup) :
    (setups.flatMap round).countP Move.opens = setups.length :=
  countP_flatMap_round (fun _ => rfl) setups

theorem closes_flatMap_round (setups : List DockerSetup) :
    (setups.flatMap round).countP Move.closes = setups.length :=
  countP_flatMap_round (fun _ => rfl) setups

namespace Rounds

/-- Setups are handed out in the order in which blocks are opened with them, each at most once. -/
theorem handed_isPrefix (h : Rounds ms b) :
    ms.filterMap Move.handed <+: ms.filterMap Move.opened? := by
  cases h with
  | idle setups =>
    rw [handed_flatMap_round, opened_flatMap_round]
  | awaitingRun setups setup =>
    rw [List.filterMap_append, List.filterMap_append, handed_flatMap_round, opened_flatMap_round]
    exact List.prefix_append_right_inj _ |>.mpr ⟨[setup], rfl⟩
  | ran setups setup =>
    rw [List.filterMap_append, List.filterMap_append, handed_flatMap_round, opened_flatMap_round]
    exact List.prefix_rfl

theorem isOpen_iff (h : Rounds ms b) :
    b.isOpen = true ↔ ms.countP Move.closes < ms.countP Move.opens := by
  cases h with
  | idle setups =>
    rw [opens_flatMap_round, closes_flatMap_round]
    simp [isOpen]
  | awaitingRun setups setup =>
    rw [List.countP_append, List.countP_append, opens_flatMap_round,
      closes_flatMap_round]
    exact iff_of_true rfl (Nat.lt_succ_self _)
  | ran setups setup =>
    rw [List.countP_append, List.countP_append, opens_flatMap_round,
      closes_flatMap_round]
    exact iff_of_true rfl (Nat.lt_succ_self _)

theorem action_of_mem_getLast? {setups : List DockerSetup} {m : Move}
    (h : m ∈ (setups.flatMap round).getLast?) : m.action = .close := by
  rcases List.eq_nil_or_concat' setups with rfl | ⟨before, setup, rfl⟩
  · cases h
  · rw [List.flatMap_append, List.flatMap_singleton, List.getLast?_append] at h
    cases h
    rfl

/-- An action is accepted exactly if it comes next in a round. -/
theorem accepts_iff (h : Rounds ms b) (a : Action) :
    (∃ handed, (b.apply a).2 = .ok handed) ↔ Due ms.getLast? a := by
  cases h with
  | idle setups =>
    have hlast := @action_of_mem_getLast? setups
    cases a with
    | start setup => exact iff_of_true ⟨none, rfl⟩ fun m hm => hlast hm
    | take =>
      refine iff_of_false (not_accepted_of_error rfl) ?_
      rintro ⟨m, hm, setup, hstart⟩
      cases (hlast hm).symm.trans hstart
    | close =>
      refine iff_of_false (not_accepted_of_error rfl) ?_
      rintro ⟨m, hm, htake⟩
      cases (hlast hm).symm.trans htake
    | ensureClosed => exact iff_of_true ⟨none, rfl⟩ fun m hm => hlast hm
  | awaitingRun setups setup =>
    rw [List.getLast?_concat]
    cases a with
    | start _ => exact iff_of_false (not_accepted_of_error rfl) (by simp [Due])
    | take => exact iff_of_true ⟨some setup, rfl⟩ (by simp [Due])
    | close => exact iff_of_false (not_accepted_of_error rfl) (by simp [Due])
    | ensureClosed => exact iff_of_false (not_accepted_of_error rfl) (by simp [Due])
  | ran setups setup =>
    rw [List.getLast?_append]
    cases a with
    | start _ => exact iff_of_false (not_accepted_of_error rfl) (by simp [Due])
    | take => exact iff_of_false (not_accepted_of_error rfl) (by simp [Due])
    | close => exact iff_of_true ⟨none, rfl⟩ (by simp [Due])
    | ensureClosed => exact iff_of_false (not_accepted_of_error rfl) (by simp [Due])

end Rounds

/-- After any actions, those that moved the block make up rounds of which only the last may be
unfinished, and each setup was handed out at most once. The next action is accepted if it comes next
in a round, leaves no trace if it is refused, and hands out the setup of the last start if it is a
run. The block is open if it was opened more often than closed, and only then is the end of a body
refused. -/
theorem accepted_actions_go_in_rounds (actions : List Action) (a : Action) :
    let moves := idle.moves actions
    let b := idle.after actions
    (∃ setups : List DockerSetup, moves <+: setups.flatMap round) ∧
    moves.filterMap Move.handed <+: moves.filterMap Move.opened? ∧
    ((∃ handed, (b.apply a).2 = .ok handed) ↔ Due moves.getLast? a) ∧
    (∀ fault, (b.apply a).2 = .error fault → (b.apply a).1 = b) ∧
    (∀ handed, a = .take → (b.apply a).2 = .ok handed →
      ∃ setup, handed = some setup ∧ moves.getLast? = some { action := .start setup }) ∧
    (b.isOpen = true ↔ moves.countP Move.closes < moves.countP Move.opens) ∧
    (b.apply .ensureClosed).2 = if b.isOpen then .error .noEnd else .ok none := by
  intro moves b
  have h : Rounds moves b := rounds_of_idle actions
  refine ⟨h.isPrefix, h.handed_isPrefix, h.accepts_iff a,
    fun fault hfault => apply_fst_of_error hfault, fun handed ha hok => ?_, h.isOpen_iff,
    apply_ensureClosed b⟩
  rw [ha] at hok
  obtain ⟨setup, hhanded, hb⟩ := take_cases hok
  rw [hb] at h
  exact ⟨setup, hhanded, h.getLast?⟩

/-- A refused start does not replace the setup of the open block. -/
example (first second : DockerSetup) :
    idle.moves [.take, .start first, .start second, .take, .take, .ensureClosed, .close] =
      round first :=
  rfl

end DockerBlock
end Buildfile
