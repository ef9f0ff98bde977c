import Buildfile.Proofs.FlagForms
import Buildfile.Proofs.Integers
import Mathlib.Data.List.Nodup

/-! # The grammar of flags

The words of a statement are occurrences of its flags followed by a tail with the arguments. The
grammar says which words these are, and what each flag holds after them. The words that can be read
are exactly the words of the grammar, and they are read as what they mean.
-/

namespace Buildfile

namespace Flag

variable {units : String → Option Duration}

/-! ## Words -/

/-- Flags that can be told apart by their names. -/
structure WellFormed (flags : List Flag) : Prop where
  distinct : (flags.map (·.name)).Nodup
  proper : ∀ f ∈ flags, ProperName f.name

theorem WellFormed.eq_of_name {flags : List Flag} {f g : Flag} (h : WellFormed flags)
    (hf : f ∈ flags) (hg : g ∈ flags) (hname : f.name = g.name) : f = g :=
  List.inj_on_of_nodup_map h.distinct hf hg hname

/-- The value that a written value stands for. -/
inductive Kind.Gives (units : String → Option Duration) : Kind → String → Value → Prop
  | on {raw : String} (h : raw ∈ ["1", "t", "T", "true", "TRUE", "True"]) :
      Gives units .switch raw (.switch true)
  | off {raw : String} (h : raw ∈ ["0", "f", "F", "false", "FALSE", "False"]) :
      Gives units .switch raw (.switch false)
  | text {raw : String} : Gives units .text raw (.text raw)
  | list {raw : String} : Gives units .list raw (.list [raw])
  | zero {default : Duration} : Gives units (.duration default) "0" (.duration .zero)
  | units {default d : Duration} {raw : String} (hne : raw ≠ "0") (h : units raw = some d) :
      Gives units (.duration default) raw (.duration d)
  | integer {default n : Int} {raw : String} (h : Text.Numeral raw.toList n)
      (hmin : -2 ^ 63 ≤ n) (hmax : n ≤ 2 ^ 63 - 1) : Gives units (.integer default) raw (.integer n)

/-- The words of one occurrence of a flag, with the value that they give. -/
inductive Occurs (units : String → Option Duration) (f : Flag) : List String → Value → Prop
  | bare {dash : String} (hdash : dash ∈ dashes) (hk : f.kind = .switch) :
      Occurs units f [dash ++ f.name] (.switch true)
  | inline {dash raw : String} {value : Value} (hdash : dash ∈ dashes)
      (hv : f.kind.Gives units raw value) : Occurs units f [dash ++ (f.name ++ "=" ++ raw)] value
  | next {dash raw : String} {value : Value} (hdash : dash ∈ dashes) (hk : f.kind ≠ .switch)
      (hv : f.kind.Gives units raw value) : Occurs units f [dash ++ f.name, raw] value

/-- The words after the last flag, with the arguments among them. -/
inductive Tail : List String → List String → Prop
  | empty : Tail [] []
  | terminator {rest : List String} : Tail ("--" :: rest) rest
  | argument {word : String} {rest : List String} (h : IsArgument word) :
      Tail (word :: rest) (word :: rest)

/-- Words with the values that they give to flags, in order of occurrence, and their arguments. -/
inductive Sentence (units : String → Option Duration) (flags : List Flag) :
    List String → List (String × Value) → List String → Prop
  | tail {words arguments : List String} (h : Tail words arguments) :
      Sentence units flags words [] arguments
  | occurrence {f : Flag} {head rest arguments : List String} {value : Value}
      {given : List (String × Value)} (hf : f ∈ flags) (ho : f.Occurs units head value)
      (h : Sentence units flags rest given arguments) :
      Sentence units flags (head ++ rest) ((f.name, value) :: given) arguments

/-! ## Meanings -/

def Value.texts : Value → List String
  | .list values => values
  | _ => []

/-- What a flag holds after its occurrences. A list holds the texts of all of them, and any other
flag the value of the last one, or its initial value if there is none. -/
def held (f : Flag) (given : List (String × Value)) : Value :=
  let own := (given.filter (·.1 == f.name)).map (·.2)
  match f.kind with
  | .list => .list (own.flatMap Value.texts)
  | kind => own.getLast?.getD kind.initial

/-- The value read under a name that is taken for a flag of some kind. -/
def Reading.get (r : Reading) : Kind → String → Value
  | .switch, name => .switch (r.switch name)
  | .text, name => .text (r.text name)
  | .list, name => .list (r.list name)
  | .duration _, name => .duration (r.duration name)
  | .integer _, name => .integer (r.integer name)

def Kind.empty : Kind → Value
  | .duration _ => .duration .zero
  | .integer _ => .integer 0
  | kind => kind.initial

/-- A reading that says what the values and arguments of a sentence mean. -/
structure Reading.Means (r : Reading) (flags : List Flag) (given : List (String × Value))
    (arguments : List String) : Prop where
  arguments_eq : r.arguments = arguments
  declared : ∀ f ∈ flags, r.get f.kind f.name = f.held given
  undeclared : ∀ name, (∀ f ∈ flags, f.name ≠ name) → ∀ kind, r.get kind name = kind.empty

/-! ## Reading one value -/

inductive Kind.Fits : Kind → Value → Prop
  | switch (on : Bool) : Fits .switch (.switch on)
  | text (value : String) : Fits .text (.text value)
  | list (values : List String) : Fits .list (.list values)
  | duration {default : Duration} (value : Duration) : Fits (.duration default) (.duration value)
  | integer {default : Int} (value : Int) : Fits (.integer default) (.integer value)

def Kind.after : Kind → Value → Value → Value
  | .list, earlier, value => .list (earlier.texts ++ value.texts)
  | _, _, value => value

theorem Kind.fits_initial (kind : Kind) : kind.Fits kind.initial := by
  cases kind <;> constructor

theorem Kind.Gives.fits {kind : Kind} {raw : String} {value : Value}
    (h : kind.Gives units raw value) : kind.Fits value := by
  cases h <;> constructor

theorem Kind.Fits.after {kind : Kind} {value : Value} (h : kind.Fits value) (earlier : Value) :
    kind.Fits (kind.after earlier value) := by
  cases h <;> constructor

theorem Occurs.fits {f : Flag} {head : List String} {value : Value}
    (h : f.Occurs units head value) : f.kind.Fits value := by
  cases h with
  | bare _ hk =>
    rw [hk]
    exact .switch true
  | inline _ hv => exact hv.fits
  | next _ _ hv => exact hv.fits

theorem readSwitch?_eq_some_iff (units : String → Option Duration) {raw : String} {on : Bool} :
    readSwitch? raw = some on ↔ Kind.switch.Gives units raw (.switch on) := by
  constructor
  · intro h
    unfold readSwitch? at h
    split at h <;> cases h
    all_goals first
      | exact .on (by decide)
      | exact .off (by decide)
  · rintro (h | h)
    · simp only [List.mem_cons, List.not_mem_nil, or_false] at h
      rcases h with rfl | rfl | rfl | rfl | rfl | rfl <;> rfl
    · simp only [List.mem_cons, List.not_mem_nil, or_false] at h
      rcases h with rfl | rfl | rfl | rfl | rfl | rfl <;> rfl

theorem readDuration?_eq_some_iff (default : Duration) {raw : String} {d : Duration} :
    readDuration? units raw = some d ↔ (Kind.duration default).Gives units raw (.duration d) := by
  constructor
  · intro h
    unfold readDuration? at h
    split at h
    · next hraw =>
      cases h
      exact hraw ▸ .zero
    · next hne => exact .units hne h
  · rintro (_ | _ | _ | _ | _ | ⟨hne, h⟩)
    · rfl
    · rw [readDuration?, if_neg hne, h]

theorem Kind.gives_of_read {kind : Kind} {name raw : String} {values : Values} {value : Value}
    (h : kind.read name raw values units = .ok value) : ∃ given, kind.Gives units raw given := by
  cases kind with
  | switch =>
    cases hread : readSwitch? raw with
    | none => simp [Kind.read, hread] at h
    | some on => exact ⟨_, (readSwitch?_eq_some_iff units).mp hread⟩
  | text => exact ⟨_, .text⟩
  | list => exact ⟨_, .list⟩
  | duration default =>
    cases hread : readDuration? units raw with
    | none => simp [Kind.read, hread] at h
    | some d => exact ⟨_, (readDuration?_eq_some_iff default).mp hread⟩
  | integer default =>
    cases hread : Text.readInteger raw with
    | error fault => simp [Kind.read, hread] at h
    | ok n =>
      obtain ⟨hn, hmin, hmax⟩ := Text.readInteger_eq_ok_iff.mp hread
      exact ⟨_, .integer hn hmin hmax⟩

theorem Kind.Gives.read {kind : Kind} {name raw : String} {values : Values} {value earlier : Value}
    (h : kind.Gives units raw value) (hl : values.lookup name = some earlier)
    (hfit : kind.Fits earlier) :
    kind.read name raw values units = .ok (kind.after earlier value) := by
  cases h with
  | on h =>
    rw [Kind.read, (readSwitch?_eq_some_iff units).mpr (.on h)]
    rfl
  | off h =>
    rw [Kind.read, (readSwitch?_eq_some_iff units).mpr (.off h)]
    rfl
  | text => rfl
  | list =>
    cases hfit
    rw [Kind.read, hl]
    rfl
  | zero =>
    rw [Kind.read, (readDuration?_eq_some_iff .zero).mpr .zero]
    rfl
  | units hne h =>
    rw [Kind.read, (readDuration?_eq_some_iff .zero).mpr (.units hne h)]
    rfl
  | integer h hmin hmax =>
    rw [Kind.read, Text.readInteger_eq_ok_iff.mpr ⟨h, hmin, hmax⟩]
    rfl

theorem held_nil (f : Flag) : f.held [] = f.kind.initial := by
  unfold held
  cases f.kind <;> rfl

theorem held_append_self (f : Flag) (given : List (String × Value)) (value : Value) :
    f.held (given ++ [(f.name, value)]) = f.kind.after (f.held given) value := by
  unfold held
  cases f.kind <;> simp [Kind.after, Value.texts]

theorem held_append_of_ne {f : Flag} {name : String} (h : name ≠ f.name)
    (given : List (String × Value)) (value : Value) :
    f.held (given ++ [(name, value)]) = f.held given := by
  simp [held, h]

/-! ## Reading all words -/

section Reading
variable {flags : List Flag} {f : Flag} {values : Values} {earlier given : List (String × Value)}
  {head rest words arguments : List String} {value : Value} {r : Reading}

/-- The values after some occurrences. Reading a list adds to what the list holds, so the values
before an occurrence matter for those after it. -/
structure Holds (flags : List Flag) (values : Values) (given : List (String × Value)) : Prop where
  declared : ∀ f ∈ flags, values.lookup f.name = some (f.held given)
  fits : ∀ f ∈ flags, f.kind.Fits (f.held given)
  undeclared : ∀ name, (∀ f ∈ flags, f.name ≠ name) → values.lookup name = none

theorem WellFormed.find?_name (hw : WellFormed flags) (hf : f ∈ flags) :
    flags.find? (·.name == f.name) = some f := by
  cases hfind : flags.find? (·.name == f.name) with
  | none => simpa using List.find?_eq_none.mp hfind f hf
  | some g =>
    have hname : g.name = f.name := by simpa using List.find?_some hfind
    rw [hw.eq_of_name (List.mem_of_find?_eq_some hfind) hf hname]

theorem mem_initialValues_iff {name : String} :
    (name, value) ∈ initialValues flags ↔ ∃ f ∈ flags, f.name = name ∧ f.kind.initial = value := by
  simp [initialValues]

theorem holds_initial (hw : WellFormed flags) : Holds flags (initialValues flags) [] := by
  constructor
  · intro f hf
    have hmem := mem_initialValues_iff.mpr ⟨f, hf, rfl, rfl⟩
    cases hl : (initialValues flags).lookup f.name with
    | none => simpa using List.lookup_eq_none_iff.mp hl _ hmem
    | some value =>
      obtain ⟨before, after, heq, -⟩ := List.lookup_eq_some_iff.mp hl
      have hvalue : (f.name, value) ∈ initialValues flags := by simp [heq]
      obtain ⟨g, hg, hname, rfl⟩ := mem_initialValues_iff.mp hvalue
      rw [hw.eq_of_name hg hf hname, held_nil]
  · intro f _
    rw [held_nil]
    exact f.kind.fits_initial
  · intro name hname
    rw [List.lookup_eq_none_iff]
    rintro ⟨declared, value⟩ hmem
    obtain ⟨f, hf, rfl, -⟩ := mem_initialValues_iff.mp hmem
    simpa using (hname f hf).symm

theorem Holds.occurrence (h : Holds flags values earlier) (hw : WellFormed flags) (hf : f ∈ flags)
    (ho : f.Occurs units head value) :
    Holds flags ((f.name, f.kind.after (f.held earlier) value) :: values)
      (earlier ++ [(f.name, value)]) := by
  constructor
  · intro g hg
    by_cases hname : f.name = g.name
    · obtain rfl := hw.eq_of_name hf hg hname
      rw [List.lookup_cons_self, held_append_self]
    · rw [List.lookup_cons, beq_false_of_ne (Ne.symm hname), held_append_of_ne hname]
      exact h.declared g hg
  · intro g hg
    by_cases hname : f.name = g.name
    · obtain rfl := hw.eq_of_name hf hg hname
      rw [held_append_self]
      exact ho.fits.after _
    · rw [held_append_of_ne hname]
      exact h.fits g hg
  · intro name hname
    rw [List.lookup_cons, beq_false_of_ne (hname f hf).symm]
    exact h.undeclared name hname

theorem readFrom_occurrence (hw : WellFormed flags) (hf : f ∈ flags)
    (ho : f.Occurs units head value) (h : Holds flags values earlier) :
    readFrom units flags values (head ++ rest) =
      readFrom units flags ((f.name, f.kind.after (f.held earlier) value) :: values) rest := by
  have hfind := hw.find?_name hf
  have hproper := hw.proper f hf
  have hread {raw : String} (hv : f.kind.Gives units raw value) :
      f.kind.read f.name raw values units = .ok (f.kind.after (f.held earlier) value) :=
    hv.read (h.declared f hf) (h.fits f hf)
  cases ho with
  | @bare dash hdash hk =>
    have hform : form (dash ++ f.name) = .occurrence f.name none :=
      form_eq_occurrence_iff.mpr ⟨hproper, dash, hdash, rfl⟩
    rw [List.singleton_append, readFrom, hform]
    simp only [hfind, hk, if_true, Kind.after]
  | @inline dash raw _ hdash hv =>
    have hform : form (dash ++ (f.name ++ "=" ++ raw)) = .occurrence f.name (some raw) :=
      form_eq_occurrence_iff.mpr ⟨hproper, dash, hdash, rfl⟩
    rw [List.singleton_append, readFrom, hform]
    simp only [hfind, hread hv]
  | @next dash raw _ hdash hk hv =>
    have hform : form (dash ++ f.name) = .occurrence f.name none :=
      form_eq_occurrence_iff.mpr ⟨hproper, dash, hdash, rfl⟩
    rw [List.cons_append, List.singleton_append, readFrom, hform]
    simp only [hfind, hk, if_false, hread hv]

theorem readFrom_tail (h : Tail words arguments) :
    readFrom units flags values words = .ok ⟨values, arguments⟩ := by
  cases h with
  | empty => rw [readFrom]
  | terminator => rw [readFrom, form_eq_terminator_iff.mpr rfl]
  | argument h => rw [readFrom, form_eq_argument_iff.mpr h]

/-- Every sentence is read, and what it gives to the flags is held after it. -/
theorem readFrom_sentence (hw : WellFormed flags) (hs : Sentence units flags words given arguments)
    (h : Holds flags values earlier) :
    ∃ last, readFrom units flags values words = .ok ⟨last, arguments⟩ ∧
      Holds flags last (earlier ++ given) := by
  induction hs generalizing values earlier with
  | tail htail => exact ⟨values, readFrom_tail htail, by simpa using h⟩
  | @occurrence f head rest arguments value given hf ho _ ih =>
    obtain ⟨last, hread, hlast⟩ := ih (h.occurrence hw hf ho)
    refine ⟨last, ?_, by simpa using hlast⟩
    rw [readFrom_occurrence hw hf ho h]
    exact hread

theorem declared_of_form {word name : String} {written : Option String}
    (hform : form word = .occurrence name written)
    (hfind : flags.find? (·.name == name) = some f) :
    f ∈ flags ∧ ∃ dash ∈ dashes, word = dash ++ spelled f.name written := by
  obtain rfl : f.name = name := by simpa using List.find?_some hfind
  exact ⟨List.mem_of_find?_eq_some hfind, (form_eq_occurrence_iff.mp hform).2⟩

/-- Whatever is read is a sentence. The values are arbitrary, since they do not decide whether words
are read. -/
theorem sentence_of_readFrom (h : readFrom units flags values words = .ok r) :
    ∃ given, Sentence units flags words given r.arguments := by
  fun_induction readFrom units flags values words with
  | case1 values =>
    cases h
    exact ⟨[], .tail .empty⟩
  | case2 values word rest hform =>
    cases h
    exact ⟨[], .tail (.argument (form_eq_argument_iff.mp hform))⟩
  | case3 values word rest hform =>
    cases h
    obtain rfl := form_eq_terminator_iff.mp hform
    exact ⟨[], .tail .terminator⟩
  | case4 => cases h
  | case5 => cases h
  | case6 => cases h
  | case7 values word rest name f hfind raw value hread hform ih =>
    obtain ⟨given, hs⟩ := ih h
    obtain ⟨hf, dash, hdash, rfl⟩ := declared_of_form hform hfind
    obtain ⟨value, hv⟩ := Kind.gives_of_read hread
    exact ⟨_, .occurrence hf (.inline hdash hv) hs⟩
  | case8 values word rest name f hfind hk hform ih =>
    obtain ⟨given, hs⟩ := ih h
    obtain ⟨hf, dash, hdash, rfl⟩ := declared_of_form hform hfind
    exact ⟨_, .occurrence hf (.bare hdash hk) hs⟩
  | case9 => cases h
  | case10 => cases h
  | case11 values word name f hfind hk raw rest value hread hform ih =>
    obtain ⟨given, hs⟩ := ih h
    obtain ⟨hf, dash, hdash, rfl⟩ := declared_of_form hform hfind
    obtain ⟨value, hv⟩ := Kind.gives_of_read hread
    exact ⟨_, .occurrence hf (.next hdash hk hv) hs⟩

theorem get_of_lookup {kind : Kind} {name : String} (hl : r.values.lookup name = some value)
    (hfit : kind.Fits value) : r.get kind name = value := by
  cases hfit <;> simp [Reading.get, Reading.switch, Reading.text, Reading.list, Reading.duration,
    Reading.integer, hl]

theorem get_of_lookup_none {name : String} (hl : r.values.lookup name = none) (kind : Kind) :
    r.get kind name = kind.empty := by
  cases kind <;> simp [Reading.get, Reading.switch, Reading.text, Reading.list, Reading.duration,
    Reading.integer, hl, Kind.empty, Kind.initial]

theorem Holds.means (h : Holds flags r.values given) : r.Means flags given r.arguments := by
  constructor
  · rfl
  · intro f hf
    exact get_of_lookup (h.declared f hf) (h.fits f hf)
  · intro name hname kind
    exact get_of_lookup_none (h.undeclared name hname) kind

end Reading

/-- The words that can be read are exactly the sentences, and each is read as what it means,
whatever durations with units are. -/
theorem read_accepts_sentences {flags : List Flag} (hw : WellFormed flags) (words : List String)
    (units : String → Option Duration) :
    ((∃ r, read flags words units = .ok r) ↔
      ∃ given arguments, Sentence units flags words given arguments) ∧
    ∀ given arguments, Sentence units flags words given arguments →
      ∃ r, read flags words units = .ok r ∧ r.Means flags given arguments := by
  have hmeans : ∀ given arguments, Sentence units flags words given arguments →
      ∃ r, read flags words units = .ok r ∧ r.Means flags given arguments := by
    intro given arguments hs
    obtain ⟨last, hread, hlast⟩ := readFrom_sentence hw hs (holds_initial hw)
    exact ⟨⟨last, arguments⟩, hread, Holds.means hlast⟩
  refine ⟨⟨?_, ?_⟩, hmeans⟩
  · rintro ⟨r, hread⟩
    obtain ⟨given, hs⟩ := sentence_of_readFrom hread
    exact ⟨given, r.arguments, hs⟩
  · rintro ⟨given, arguments, hs⟩
    obtain ⟨r, hread, -⟩ := hmeans given arguments hs
    exact ⟨r, hread⟩

theorem read_accepts_sentences_repeated :
    let flags := [switch "push", text "f", list "arg", duration "wait" .zero, integer "retries" 3]
    let words := ["-f", "--", "--arg=A=1", "--push=0", "-push", "--arg", "-x", "-retries=+7",
      "--wait=1m 30s", "--", "-f"]
    let given := [("f", .text "--"), ("arg", .list ["A=1"]), ("push", .switch false),
      ("push", .switch true), ("arg", .list ["-x"]), ("retries", .integer 7),
      ("wait", .duration (.ofSeconds 90))]
    Sentence Duration.parse? flags words given ["-f"] ∧
      ∃ r, read flags words = .ok r ∧ r.Means flags given ["-f"] := by
  intro flags words given
  have hone : "-" ∈ dashes := List.mem_cons_self
  have htwo : "--" ∈ dashes := List.mem_cons_of_mem _ List.mem_cons_self
  have hf : (text "f").Occurs Duration.parse? ["-f", "--"] (.text "--") :=
    .next hone (by decide) .text
  have hinline : (list "arg").Occurs Duration.parse? ["--" ++ ("arg" ++ "=" ++ "A=1")]
      (.list ["A=1"]) :=
    .inline htwo .list
  have hoff : (switch "push").Occurs Duration.parse? ["--" ++ ("push" ++ "=" ++ "0")]
      (.switch false) :=
    .inline htwo (.off (by decide))
  have hon : (switch "push").Occurs Duration.parse? ["-push"] (.switch true) := .bare hone rfl
  have hnext : (list "arg").Occurs Duration.parse? ["--arg", "-x"] (.list ["-x"]) :=
    .next htwo (by decide) .list
  have hread : Text.readInteger "+7" = .ok 7 := by decide
  obtain ⟨hnumeral, hmin, hmax⟩ := Text.readInteger_eq_ok_iff.mp hread
  have hseven : (integer "retries" 3).Occurs Duration.parse? ["-" ++ ("retries" ++ "=" ++ "+7")]
      (.integer 7) :=
    .inline hone (.integer hnumeral hmin hmax)
  have hminute : Duration.parse? "1m 30s" = some (.ofSeconds 90) := by decide
  have hwait : (duration "wait" .zero).Occurs Duration.parse? ["--" ++ ("wait" ++ "=" ++ "1m 30s")]
      (.duration (.ofSeconds 90)) :=
    .inline htwo (.units (by decide) hminute)
  have hs : Sentence Duration.parse? flags words given ["-f"] :=
    .occurrence (by decide) hf <| .occurrence (by decide) hinline <| .occurrence (by decide) hoff <|
      .occurrence (by decide) hon <| .occurrence (by decide) hnext <|
      .occurrence (by decide) hseven <| .occurrence (by decide) hwait <| .tail .terminator
  refine ⟨hs, ?_⟩
  exact (read_accepts_sentences ⟨by decide, by decide⟩ words Duration.parse?).2 given ["-f"] hs

end Flag
end Buildfile
