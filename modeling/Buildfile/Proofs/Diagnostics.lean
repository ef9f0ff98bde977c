import Buildfile.Diagnostic
import Buildfile.Proofs.StringArrays

/-! # Diagnostics are read back

A record is read back from its written form if each of its values is. Strings and named variants
are, so the category and the message of every problem survive their way through JSON, and each
category has the same name there as elsewhere.
-/

namespace Buildfile

namespace Json

/-! ## Written values -/

theorem stringFrom_write (cs rest : List Char) :
    stringFrom none (cs.flatMap writeChar ++ '"' :: rest) = .ok (cs, rest) :=
  stringFrom_eq_ok_iff.mpr ⟨_, spells_write cs, rfl⟩

theorem text_write (x : String) (rest : List Char) :
    Json.text (write x.toList ++ rest) = .ok (x, rest) :=
  text_eq_ok_iff.mpr ⟨[], write x.toList, by simp [Blanks], quoted_write x, rfl⟩

theorem variant_write {α : Type} {ofName? : String → Option α} {name : String} {x : α}
    (h : ofName? name = some x) (rest : List Char) :
    variant ofName? (write name.toList ++ rest) = .ok (x, rest) := by
  have hskip : skipBlanks (write name.toList ++ rest) = write name.toList ++ rest := rfl
  rw [variant, hskip]
  exact Text.bind_eq_ok_iff.mpr ⟨(name, rest), text_write name rest, by simp only [h]; rfl⟩

/-! ## Written records -/

/-- A member of a written record. Its text is read as its value by the field with its name,
whatever follows. -/
structure Member {α : Type} (fields : List (Field α)) where
  name : String
  value : α
  text : List Char
  reads : ∃ field, fields.find? (·.name == name) = some field ∧
    ∀ rest, field.decode (text ++ rest) = .ok (value, rest)

section Records
variable {α β : Type} {fields : List (Field α)}

def Member.entry (m : Member fields) : String × α := (m.name, m.value)

def Member.written (m : Member fields) : String × List Char := (m.name, m.text)

theorem nextKey_write (first : Bool) (cs rest : List Char) :
    nextKey first ((if first then [] else [',']) ++ write cs ++ rest) =
      .ok (some (cs.flatMap writeChar ++ '"' :: rest)) := by
  have hquotes : write cs ++ rest = '"' :: (cs.flatMap writeChar ++ '"' :: rest) := by simp [write]
  rw [List.append_assoc, hquotes]
  cases first <;> rfl

theorem fieldsByName_member (unknown : Unknown) (m : Member fields) {found : List (String × α)}
    (hf : found.lookup m.name = none) (bound : Nat) (first : Bool) (rest : List Char) :
    fieldsByName fields unknown (bound + 1) first found (writeMembers first [m.written] ++ rest) =
      fieldsByName fields unknown bound false (m.entry :: found) rest := by
  obtain ⟨field, hfind, hdecode⟩ := m.reads
  have htext : writeMembers first [m.written] ++ rest =
      (if first then [] else [',']) ++ write m.name.toList ++ ':' :: (m.text ++ rest) := by
    simp [writeMembers, Member.written]
  have hmark : takeMark ':' (':' :: (m.text ++ rest)) = .ok (m.text ++ rest) := rfl
  rw [fieldsByName, htext, nextKey_write]
  simp only [bind, Except.bind, stringFrom_write, String.ofList_toList, hfind, hf, hmark, hdecode]
  rfl

/-- Written members are found in reverse order, the bound on their number being no obstacle. -/
theorem fieldsByName_writeMembers (unknown : Unknown) (members : List (Member fields))
    (hd : (members.map (·.name)).Nodup) {found : List (String × α)}
    (hf : ∀ m ∈ members, found.lookup m.name = none) {bound : Nat}
    (hb : members.length < bound) (first : Bool) (rest : List Char) :
    fieldsByName fields unknown bound first found
        (writeMembers first (members.map Member.written) ++ '\x7d' :: rest) =
      .ok ((members.map Member.entry).reverse ++ found, '\x7d' :: rest) := by
  obtain ⟨bound, rfl⟩ := Nat.exists_eq_add_one_of_ne_zero (Nat.ne_zero_of_lt hb)
  induction members generalizing found bound first with
  | nil => rfl
  | cons m members ih =>
    obtain ⟨hnew, hd⟩ := List.nodup_cons.mp hd
    have hfound : ∀ n ∈ members, (m.entry :: found).lookup n.name = none := by
      intro n hn
      have hne : n.name ≠ m.name := fun he => hnew (List.mem_map.mpr ⟨n, hn, he⟩)
      rw [Member.entry, List.lookup_cons, beq_eq_false_iff_ne.mpr hne]
      exact hf n (List.mem_cons_of_mem _ hn)
    have hlt : members.length < bound := Nat.lt_of_succ_lt_succ hb
    obtain ⟨bound, rfl⟩ := Nat.exists_eq_add_one_of_ne_zero (Nat.ne_zero_of_lt hlt)
    have htext : writeMembers first ((m :: members).map Member.written) ++ '\x7d' :: rest =
        writeMembers first [m.written] ++
          (writeMembers false (members.map Member.written) ++ '\x7d' :: rest) := by
      simp [writeMembers, Member.written]
    rw [htext, fieldsByName_member unknown m (hf m List.mem_cons_self),
      ih hd hfound false bound hlt]
    simp

theorem length_writeMembers (first : Bool) (members : List (String × List Char)) :
    members.length ≤ (writeMembers first members).length := by
  induction members generalizing first with
  | nil => exact Nat.zero_le _
  | cons m members ih =>
    have hrest := ih false
    simp only [writeMembers, List.length_append, List.length_cons]
    omega

/-- A written record is read as what is built from its members. -/
theorem record_writeRecord (unknown : Unknown) {build : List (String × α) → Option β}
    (members : List (Member fields)) (hd : (members.map (·.name)).Nodup) {x : β}
    (hx : build (members.map Member.entry).reverse = some x) (rest : List Char) :
    record fields unknown build (writeRecord (members.map Member.written) ++ rest) =
      .ok (x, rest) := by
  have htext : writeRecord (members.map Member.written) ++ rest =
      '\x7b' :: (writeMembers true (members.map Member.written) ++ '\x7d' :: rest) := by
    simp [writeRecord]
  have hbound : members.length <
      (writeMembers true (members.map Member.written) ++ '\x7d' :: rest).length + 1 := by
    have hlength := length_writeMembers true (members.map Member.written)
    rw [List.length_map] at hlength
    rw [List.length_append]
    omega
  have hnew : ∀ m ∈ members, ([] : List (String × α)).lookup m.name = none := fun _ _ => rfl
  have hfound := fieldsByName_writeMembers unknown members hd hnew hbound true rest
  have hskip (text : List Char) : skipBlanks ('\x7b' :: text) = '\x7b' :: text := rfl
  have hmark : takeMark '\x7d' ('\x7d' :: rest) = .ok rest := rfl
  rw [htext, record, hskip]
  simp only [bind, Except.bind, hfound, List.append_nil, hx, hmark]
  rfl

theorem readAll_of_ok {decode : Decoder β} {x : β} {text : List Char}
    (h : decode text = .ok (x, [])) : readAll decode (String.ofList text) = .ok x := by
  rw [readAll, String.toList_ofList, h]
  rfl

end Records
end Json

/-! ## Diagnostics -/

theorem Category.ofTag?_tag (c : Category) : ofTag? c.tag = some c := by
  cases c <;> decide

namespace Diagnostic

def members (d : Diagnostic) : List (Json.Member fields) :=
  [{ name := "category"
     value := .category d.category
     text := Json.write d.category.tag.toList
     reads := ⟨_, rfl, fun rest =>
       Text.bind_eq_ok_iff.mpr ⟨_, Json.variant_write d.category.ofTag?_tag rest, rfl⟩⟩ },
    { name := "message"
      value := .message d.message
      text := Json.write d.message.toList
      reads := ⟨_, rfl, fun rest =>
        Text.bind_eq_ok_iff.mpr ⟨_, Json.text_write d.message rest, rfl⟩⟩ }]

theorem parse_json (d : Diagnostic) : parse d.json = .ok d := by
  have hparts : ofParts? (d.members.map Json.Member.entry).reverse = some d := rfl
  have hnames : (d.members.map (·.name)).Nodup := by
    have he : d.members.map (·.name) = ["category", "message"] := rfl
    rw [he]
    decide
  have hrecord := Json.record_writeRecord .skip d.members hnames hparts []
  rw [List.append_nil] at hrecord
  exact Json.readAll_of_ok hrecord

theorem toList_json (d : Diagnostic) :
    d.json.toList = "\x7b\"category\":\"".toList ++ d.category.text.toList ++
      "\",\"message\":".toList ++ Json.write d.message.toList ++ ['\x7d'] := by
  have hcategory : Json.write d.category.tag.toList = '"' :: d.category.text.toList ++ ['"'] := by
    cases d.category <;> decide
  rw [json, String.toList_ofList, hcategory]
  simp only [Json.writeRecord, Json.writeMembers, List.append_assoc, List.cons_append]
  rfl

/-- The diagnostic of any problem is read back from its JSON text with the same category and the
same message. There the category has the name that it has in texts, the message is a quoted string,
and no other diagnostic is written the same way. -/
theorem diagnostics_survive_json (p : Problem) :
    parse p.diagnostic.json = .ok ⟨p.category, p.message⟩ ∧
    (∃ message, Json.Quoted p.message message ∧ p.diagnostic.json.toList =
      "\x7b\"category\":\"".toList ++ p.category.text.toList ++ "\",\"message\":".toList ++
        message ++ ['\x7d']) ∧
    ∀ d e : Diagnostic, d.json = e.json ↔ d.category = e.category ∧ d.message = e.message := by
  refine ⟨p.diagnostic.parse_json, ⟨_, Json.quoted_write p.message, p.diagnostic.toList_json⟩,
    fun d e => ⟨fun h => ?_, fun ⟨hc, hm⟩ => ?_⟩⟩
  · have hread : parse d.json = .ok e := by rw [h, e.parse_json]
    rw [parse_json] at hread
    obtain rfl := Except.ok.inj hread
    exact ⟨rfl, rfl⟩
  · rw [json, hc, hm, json]

end Diagnostic
end Buildfile
