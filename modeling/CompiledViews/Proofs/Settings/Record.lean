import CompiledViews.Proofs.Json.Values
import CompiledViews.Settings.Reader
import Mathlib.Data.Finset.Dedup
import Mathlib.Data.Finset.Insert
import Mathlib.Data.List.ReduceOption

/-!
# Records that are read

A record is given by an object: its members give fields their values, in any order, and members of
other names stand among them. Where every field takes its value over into the record, what is read
is the record with the values of the given fields, and of no other.
-/

namespace CompiledViews.Json

open Text

variable {α σ ι : Type} {value : α} {text before rest key wanted : Text} {limit : Nat}

section values

/-- A text that stands for null, a truth value, a number or a string. -/
inductive IsTextOf : Json → Text → Prop
  | null : IsTextOf null "null"
  | true : IsTextOf (bool true) "true"
  | false : IsTextOf (bool false) "false"
  | natural {value : Nat} : IsTextOf (natural value) (Text.ofNat value)
  | string {value spelled : Text} :
      Spells value spelled → IsTextOf (string value) ('"' :: (spelled ++ ['"']))

/-- The value of a path that need not be given. -/
def ofPath? : Option Text → Json
  | none => null
  | some path => string path

/-- Whether a text is read as a value, whatever blanks stand before it. -/
def Reads (reader : Text → Except ReadError (α × Text)) (value : α) (text : Text) : Prop :=
  ∀ {before rest}, AreBlanks before → Follows rest →
    reader (before ++ (text ++ rest)) = .ok (value, rest)

theorem reads_readBool {value : Bool} (isText : IsTextOf (bool value) text) :
    Reads readBool value text := by
  intro before rest areBlanks follows
  cases isText <;> (rw [readBool, skipBlanks_append areBlanks]; rfl)

theorem reads_readNatural {value : Nat} (isText : IsTextOf (natural value) text)
    (inRange : value < limit) (isExact : value < exactLimit) :
    Reads (readNatural wanted limit) value text := by
  intro before rest areBlanks follows
  cases isText
  rw [readNatural, readScalar_ofNat isExact areBlanks follows]
  exact if_pos inRange

theorem reads_readText {value : Text} (isText : IsTextOf (string value) text) :
    Reads (readText wanted) value text := by
  intro before rest areBlanks follows
  cases isText with
  | string spells =>
      rw [List.cons_append, readText, skipBlanks_append areBlanks, skipBlanks_cons rfl,
        List.append_assoc]
      exact readStringBody_of_spells spells rest

theorem reads_readPath? {value : Option Text} (isText : IsTextOf (ofPath? value) text) :
    Reads readPath? value text := by
  intro before rest areBlanks follows
  cases value with
  | none =>
      cases isText
      rw [readPath?, skipBlanks_append areBlanks]
      rfl
  | some path =>
      cases isText with
      | string spells =>
          rw [List.cons_append, readPath?, skipBlanks_append areBlanks, skipBlanks_cons rfl,
            List.append_assoc]
          change (readStringBody _).map (fun read => (some read.1, read.2)) = _
          rw [List.singleton_append, readStringBody_of_spells spells rest]
          rfl

end values

section records

/-- A member of a record: it gives a field its value, or its name is that of no field. -/
inductive IsEntry (name : ι → Text) (Gives : ι → Text → Prop) : Option ι → Text → Prop
  | known {field : ι} {spelled value text : Text} :
      Spells (name field) spelled → Gives field value → IsMember spelled value text →
      IsEntry name Gives (some field) text
  | other {key spelled value text : Text} :
      (∀ field, name field ≠ key) → Spells key spelled → IsValue value →
      IsMember spelled value text → IsEntry name Gives none text

variable [DecidableEq ι]

/-- The text of an object that gives fields in some order, each of them once, with other members
among them. -/
def IsRecord (name : ι → Text) (Gives : ι → Text → Prop) (given : Finset ι) (text : Text) : Prop :=
  ∃ entries texts body, entries.reduceOption.Nodup ∧ entries.reduceOption.toFinset = given ∧
    List.Forall₂ (IsEntry name Gives) entries texts ∧ Listed texts body ∧
    text = '\x7b' :: (body ++ ['\x7d'])

/-- How fields are taken over into a record: `state` tells what the record is when some fields have
been given. -/
structure TakesFields (fields : List (RecordField σ)) (name : ι → Text) (Gives : ι → Text → Prop)
    (state : Finset ι → σ) : Prop where
  name_injective : Function.Injective name
  known : ∀ {given field text}, Gives field text →
    ∃ known, fields.find? (fun known => known.name == name field) = some known ∧
      Reads (known.read (state given)) (state (insert field given)) text
  other : ∀ {key}, (∀ field, name field ≠ key) →
    fields.find? (fun known => known.name == key) = none

variable {fields : List (RecordField σ)} {name : ι → Text} {Gives : ι → Text → Prop}
  {state : Finset ι → σ} {given : List ι} {field : ι} {entries : List (Option ι)}
  {texts : List Text} {reader : Text → Except ReadError (α × Text)} {put : σ → α → σ}

theorem reads_ofReader (isRead : Reads reader value text) (put : σ → α → σ) (record : σ) :
    Reads ((RecordField.ofReader key reader put).read record) (put record value) text := by
  intro before rest areBlanks follows
  simp only [RecordField.ofReader, isRead areBlanks follows, bind, Except.bind, pure, Except.pure]

/-- The fields of a record that are told apart by their names are taken over if each of them has a
reader that does so. -/
theorem takesFields_of_names (all : List ι) (isAll : ∀ field, field ∈ all)
    (areNames : fields.map (·.name) = all.map name) (nodup : (all.map name).Nodup)
    (known : ∀ {given field text}, Gives field text →
      ∃ known, fields.find? (fun known => known.name == name field) = some known ∧
        Reads (known.read (state given)) (state (insert field given)) text) :
    TakesFields fields name Gives state where
  name_injective := fun left right same =>
    List.inj_on_of_nodup_map nodup (isAll left) (isAll right) same
  known := known
  other := by
    intro key isOther
    rw [List.find?_eq_none]
    intro known member isKey
    have isName := List.mem_map_of_mem (f := RecordField.name) member
    rw [areNames, List.mem_map] at isName
    rcases isName with ⟨field, _, same⟩
    exact isOther field (same.trans (beq_iff_eq.1 isKey))

/-- A field whose value is read by itself is taken over if it is put into its place. -/
theorem exists_known_of_reader {given : Finset ι}
    (isFound :
      fields.find? (fun known => known.name == name field) = some (.ofReader key reader put))
    (isRead : Reads reader value text)
    (isPut : put (state given) value = state (insert field given)) :
    ∃ known, fields.find? (fun known => known.name == name field) = some known ∧
      Reads (known.read (state given)) (state (insert field given)) text := by
  refine ⟨_, isFound, ?_⟩
  rw [← isPut]
  exact reads_ofReader isRead put _

section fields

variable {names : List Text} {record later : σ} {known : RecordField σ} {afterKey place : Text}

/-- A member whose name is that of no field is skipped. -/
theorem readField_other (isKey : readStringBody text = .ok (key, afterKey))
    (isColon : readColon afterKey = .ok place) (isSkipped : skipValue place = .ok rest)
    (isOther : fields.find? (fun known => known.name == key) = none) :
    readField fields (record, names) text = .ok ((record, names), rest) := by
  simp only [readField, bind, Except.bind, isKey, isOther, isColon, isSkipped, pure, Except.pure]

/-- A member that gives a field its value for the first time is taken over. -/
theorem readField_known (isKey : readStringBody text = .ok (key, afterKey))
    (isColon : readColon afterKey = .ok place)
    (isRead : known.read record place = .ok (later, rest))
    (isFound : fields.find? (fun known => known.name == key) = some known) (isNew : key ∉ names) :
    readField fields (record, names) text = .ok ((later, key :: names), rest) := by
  simp only [readField, bind, Except.bind, isKey, isFound, List.contains_iff_mem, isNew, if_false,
    isColon, isRead, pure, Except.pure]

end fields

/-- A member of a record stands at its place, behind the quote that it begins with. -/
theorem exists_place_of_isMember {spelled value : Text}
    (isMember : IsMember spelled value text) (spells : Spells key spelled) :
    ∃ place before, IsPlace nextMember text place ∧ AreBlanks before ∧
      ∀ rest, ∃ afterKey, readStringBody (place ++ rest) = .ok (key, afterKey) ∧
        readColon afterKey = .ok (before ++ (value ++ rest)) := by
  rcases isMember with ⟨before, after, areBefore, areAfter, rfl⟩
  refine ⟨_, after, isPlace_member _, areAfter, fun rest => ?_⟩
  refine ⟨before ++ ':' :: (after ++ (value ++ rest)), ?_, readColon_append areBefore _⟩
  simp only [List.append_assoc, List.cons_append]
  exact readStringBody_of_spells spells _

/-- The fields that have been given and the members that are left are read into the record. -/
theorem takesAll_of_entries (takes : TakesFields fields name Gives state)
    (areEntries : List.Forall₂ (IsEntry name Gives) entries texts)
    (nodup : (entries.reduceOption.reverse ++ given).Nodup) :
    TakesAll nextMember (readField fields) (state given.toFinset, given.map name) texts
      (state (entries.reduceOption.reverse ++ given).toFinset,
        (entries.reduceOption.reverse ++ given).map name) := by
  induction areEntries generalizing given with
  | nil => exact .nil
  | cons isEntry areEntries ih =>
      cases isEntry with
      | @known field spelled value _ spells gives isMember =>
          rcases exists_place_of_isMember isMember spells with
            ⟨place, before, isPlace, areBlanks, isRead⟩
          simp only [List.reduceOption_cons_of_some, List.reverse_cons, List.append_assoc,
            List.singleton_append] at nodup ⊢
          have isNew : field ∉ given := (List.nodup_cons.1 (List.nodup_append'.1 nodup).2.1).1
          have isNewName : name field ∉ given.map name := by
            rwa [List.mem_map_of_injective takes.name_injective]
          refine .cons isPlace (fun rest follows => ?_) (ih nodup)
          rcases isRead rest with ⟨afterKey, isKey, isColon⟩
          rcases takes.known gives with ⟨known, isFound, reads⟩
          rw [List.toFinset_cons]
          exact readField_known isKey isColon (reads areBlanks follows) isFound isNewName
      | @other key spelled value _ isOther spells isValue isMember =>
          rcases exists_place_of_isMember isMember spells with
            ⟨place, before, isPlace, areBlanks, isRead⟩
          rw [List.reduceOption_cons_of_none] at nodup ⊢
          refine .cons isPlace (fun rest follows => ?_) (ih nodup)
          rcases isRead rest with ⟨afterKey, isKey, isColon⟩
          exact readField_other isKey isColon (skipValue_of_isValue isValue areBlanks follows)
            (takes.other isOther)

/-- A record is read as what it is when its fields have been given. -/
theorem reads_readRecord (wanted : Text) {given : Finset ι}
    (takes : TakesFields fields name Gives state) (isRecord : IsRecord name Gives given text) :
    Reads (readRecord wanted fields (state ∅)) (state given) text := by
  intro before rest areBlanks follows
  rcases isRecord with ⟨entries, texts, body, nodup, rfl, areEntries, listed, rfl⟩
  have nodupAll : (entries.reduceOption.reverse ++ []).Nodup := by
    rwa [List.append_nil, List.nodup_reverse]
  have takesAll := takesAll_of_entries takes areEntries nodupAll
  have isRead := readMembers_of_listed listed takesAll rest
  rw [List.append_nil, List.toFinset_reverse, List.toFinset_nil, List.map_nil] at isRead
  simp only [List.cons_append, List.append_assoc, List.nil_append]
  rw [readRecord, skipBlanks_append areBlanks, skipBlanks_cons rfl]
  simp only [isRead, bind, Except.bind, pure, Except.pure]

end records

section compact

/-- A member as it stands in the compact text of an object. -/
def memberText (member : Text × Json) : Text := quoted member.1 ++ ":" ++ member.2.text

theorem listed_membersText : (members : List (Text × Json)) →
    Listed (members.map memberText) (membersText doubleText members)
  | [] => .nil (List.nil_subset _)
  | [(key, value)] => by
    have listed := @Listed.single [] (memberText (key, value)) [] (List.nil_subset _)
      (List.nil_subset _)
    rwa [List.nil_append, List.append_nil] at listed
  | (key, value) :: next :: rest => by
    have listed := @Listed.cons [] (memberText (key, value)) [] _ _ (List.nil_subset _)
      (List.nil_subset _) (List.cons_ne_nil _ _) (listed_membersText (next :: rest))
    rw [List.nil_append, List.nil_append] at listed
    have isText : membersText doubleText ((key, value) :: next :: rest) =
        memberText (key, value) ++ ',' :: membersText doubleText (next :: rest) := by
      rw [membersText, List.append_assoc _ ",".toList]
      rfl
    rw [isText]
    exact listed

theorem isMember_memberText (key : Text) (value : Json) :
    IsMember (key.flatMap escapedChar) value.text (memberText (key, value)) := by
  refine ⟨[], [], List.nil_subset _, List.nil_subset _, ?_⟩
  rw [memberText, quoted]
  simp

/-- The compact text of an object whose members are named for fields gives these fields. -/
theorem isRecord_text [DecidableEq ι] {name : ι → Text} {Gives : ι → Text → Prop}
    {value : ι → Json} (gives : ∀ field, Gives field (value field).text) {given : List ι}
    (nodup : given.Nodup) :
    IsRecord name Gives given.toFinset
      (object (given.map fun field => (name field, value field))).text := by
  have isGiven : (given.map some).reduceOption = given := by
    rw [List.reduceOption, List.filterMap_map]
    exact List.filterMap_some
  refine ⟨given.map some, (given.map fun field => (name field, value field)).map memberText,
    membersText doubleText (given.map fun field => (name field, value field)), by rwa [isGiven],
    by rw [isGiven], ?_, listed_membersText _, rfl⟩
  clear isGiven nodup
  induction given with
  | nil => exact .nil
  | cons field given ih =>
      exact .cons (.known (spells_escaped _) (gives field) (isMember_memberText _ _)) ih

theorem isTextOf_null : IsTextOf null null.text := .null

theorem isTextOf_bool (value : Bool) : IsTextOf (bool value) (bool value).text := by
  cases value
  · exact .false
  · exact .true

theorem isTextOf_natural (value : Nat) : IsTextOf (natural value) (natural value).text := .natural

theorem isTextOf_string (value : Text) : IsTextOf (string value) (string value).text :=
  .string (spells_escaped value)

end compact

end CompiledViews.Json
