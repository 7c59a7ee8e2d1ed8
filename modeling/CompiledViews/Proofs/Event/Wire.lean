import CompiledViews.Event.Wire
import CompiledViews.Proofs.Number.Binary
import Mathlib.Data.List.Nodup

/-!
# Messages that are read back

A message says its kind and its fields in members of its own, and so does the payload in it. Both
are found by their names: neither the order of the members nor members with other names make a
difference, so what is sent is what is received.
-/

namespace CompiledViews

namespace Json

variable {members others wide : List (Text × Json)} {name tag : Text} {value : Json}

/-- Members among which are the given ones, in any order, and no others with the name of one of
them. -/
def Holds (wide members : List (Text × Json)) : Prop :=
  (wide.filter fun member => member.1 ∈ members.map Prod.fst).Perm members

/-- An object with the members of another one, in any order, and maybe members with other names. -/
def WidensTo (json wide : Json) : Prop :=
  ∃ members more, json = .object members ∧ wide = .object more ∧ Holds more members

/-! ### Looking members up -/

theorem Holds.refl (members : List (Text × Json)) : Holds members members := by
  have allNamed : ∀ member ∈ members, decide (member.1 ∈ members.map Prod.fst) = true :=
    fun member inMembers => decide_eq_true (List.mem_map_of_mem inMembers)
  rw [Holds, List.filter_eq_self.2 allNamed]

/-- A member is found by its name. -/
theorem Holds.find?_eq (holds : Holds wide members) (distinct : (members.map Prod.fst).Nodup)
    (isMember : (name, value) ∈ members) :
    (wide.find? fun member => member.1 == name) = some (name, value) := by
  have isNamed : name ∈ members.map Prod.fst := List.mem_map_of_mem isMember
  cases found : wide.find? fun member => member.1 == name with
  | none =>
      have present := (List.mem_filter.1 (holds.mem_iff.2 isMember)).1
      simpa using List.find?_eq_none.1 found _ present
  | some member =>
      have sameName : member.1 = name := by simpa using List.find?_some found
      have inMembers : member ∈ members := by
        rw [← holds.mem_iff, List.mem_filter, sameName]
        exact ⟨List.mem_of_find?_eq_some found, decide_eq_true isNamed⟩
      rw [List.inj_on_of_nodup_map distinct inMembers isMember sameName]

theorem find?_filter_ne (different : name ≠ tag) (wide : List (Text × Json)) :
    ((wide.filter fun member => member.1 != tag).find? fun member => member.1 == name) =
      wide.find? fun member => member.1 == name := by
  rw [List.find?_filter]
  congr 1
  funext member
  by_cases isNamed : member.1 = name
  · simp [isNamed, different]
  · simp [isNamed]

/-- An object that holds a kind and fields has this kind, and these fields under their names. -/
theorem Holds.exists_fields {fields : List (Text × Json)}
    (holds : Holds wide ((tag, value) :: fields))
    (distinct : (((tag, value) :: fields).map Prod.fst).Nodup) :
    ∃ others, splitKind? tag (.object wide) = some (value, others) ∧
      others.values? (fields.map Prod.fst) = some (fields.map Prod.snd) := by
  refine ⟨.named (wide.filter fun member => member.1 != tag), ?_, ?_⟩
  · rw [splitKind?, holds.find?_eq distinct List.mem_cons_self]
    rfl
  · suffices ∀ part ⊆ fields, (Fields.named (wide.filter fun member => member.1 != tag)).values?
        (part.map Prod.fst) = some (part.map Prod.snd) from this fields (List.Subset.refl _)
    intro part subset
    rw [Fields.values?]
    induction part with
    | nil => rfl
    | cons field part ih =>
        -- The kind is not among the members that are left, but no field has its name.
        obtain ⟨isField, subset⟩ := List.cons_subset.1 subset
        have isNamed : field.1 ∈ fields.map Prod.fst := List.mem_map_of_mem isField
        have isOther : field.1 ≠ tag := fun same => (List.nodup_cons.1 distinct).1 (same ▸ isNamed)
        rw [List.map_cons, List.mapM_cons, find?_filter_ne isOther,
          holds.find?_eq distinct (List.mem_cons_of_mem _ isField), ih subset]
        rfl

/-! ### Members in order -/

theorem insertMember_perm (absent : name ∉ members.map Prod.fst) (value : Json) :
    (insertMember name value members).Perm ((name, value) :: members) := by
  induction members with
  | nil => exact .refl _
  | cons first members ih =>
      obtain ⟨isOther, absent⟩ := List.ne_and_not_mem_of_not_mem_cons absent
      rw [insertMember, if_neg isOther]
      split
      · exact .refl _
      · exact ((ih absent).cons first).trans (.swap ..)

theorem sortedMembers_perm {inOrder : List (Text × Json)}
    (distinct : ((members ++ inOrder).map Prod.fst).Nodup) :
    (sortedMembers inOrder members).Perm
      ((members.map fun member => (member.1, member.2.sorted)) ++ inOrder) := by
  induction members generalizing inOrder with
  | nil => exact .refl _
  | cons first members ih =>
      obtain ⟨name, value⟩ := first
      have absent : name ∉ inOrder.map Prod.fst := by
        rw [List.cons_append, List.map_cons, List.nodup_cons, List.map_append,
          List.mem_append, not_or] at distinct
        exact distinct.1.2
      have inserted := insertMember_perm absent value.sorted
      have sameMembers := (inserted.append_left members).trans List.perm_middle
      have stillDistinct := (sameMembers.map Prod.fst).nodup_iff.2 distinct
      rw [sortedMembers]
      exact (ih stillDistinct).trans ((inserted.append_left _).trans List.perm_middle)

/-- Putting an object in order changes no more of it than the values of its members. -/
theorem widensTo_sorted (distinct : (members.map Prod.fst).Nodup)
    (changed : (members.map fun member => (member.1, member.2.sorted)) = others) :
    (object others).WidensTo (object members).sorted := by
  have ordered := @sortedMembers_perm members [] (by simpa using distinct)
  rw [List.append_nil, changed] at ordered
  refine ⟨_, _, rfl, by rw [sorted], ?_⟩
  exact (ordered.filter _).trans (Holds.refl _)

theorem sortedElements_eq {elements : List Json}
    (areSorted : ∀ element ∈ elements, element.sorted = element) :
    sortedElements elements = elements := by
  induction elements with
  | nil => rfl
  | cons element elements ih =>
      obtain ⟨isSorted, areSorted⟩ := List.forall_mem_cons.1 areSorted
      rw [sortedElements, isSorted, ih areSorted]

theorem sorted_pairsJson (pairs : List (Nat × Nat)) :
    (Payload.pairsJson pairs).sorted = Payload.pairsJson pairs := by
  rw [Payload.pairsJson, sorted, sortedElements_eq]
  intro element member
  obtain ⟨pair, -, rfl⟩ := List.mem_map.1 member
  rfl

end Json

namespace Payload

/-- Line numbers of thirty-two bits, as payloads hold them. -/
def AreWords (pairs : List (Nat × Nat)) : Prop :=
  ∀ pair ∈ pairs, pair.1 < Nat.pow 2 32 ∧ pair.2 < Nat.pow 2 32

/-- A payload whose numbers have thirty-two bits. -/
def IsSendable : Payload → Prop
  | .listing _ jumps sourceToCode codeToSource =>
    AreWords jumps ∧ AreWords sourceToCode ∧ AreWords codeToSource
  | _ => True

theorem word?_natural {number : Nat} (isWord : number < Nat.pow 2 32) :
    (Json.natural number).word? = some number := if_pos isWord

theorem pairs?_pairsJson {pairs : List (Nat × Nat)} (areWords : AreWords pairs) :
    (pairsJson pairs).pairs? = some pairs := by
  rw [pairsJson, Json.pairs?]
  induction pairs with
  | nil => rfl
  | cons pair pairs ih =>
      obtain ⟨⟨keyFits, valueFits⟩, areWords⟩ := List.forall_mem_cons.1 areWords
      rw [List.map_cons, List.mapM_cons, ih areWords]
      simp only [word?_natural keyFits, word?_natural valueFits]
      rfl

theorem nodup_names {payload : Payload} {members : List (Text × Json)}
    (isObject : payload.toJson = .object members) : (members.map Prod.fst).Nodup := by
  have distinct : (["state", "text", "jumps", "source_to_code", "code_to_source"] :
      List Text).Nodup ∧ (["state", "message"] : List Text).Nodup := by decide
  cases payload <;> cases isObject
  · exact distinct.1
  · exact distinct.2
  · exact List.nodup_singleton _

theorem ofJson?_of_widensTo {payload : Payload} (isSendable : payload.IsSendable) {json : Json}
    (widens : payload.toJson.WidensTo json) : ofJson? json = some payload := by
  obtain ⟨members, wide, isObject, rfl, holds⟩ := widens
  have distinct := nodup_names isObject
  cases payload with
  | listing text jumps sourceToCode codeToSource =>
      obtain ⟨jumpsFit, sourceToCodeFits, codeToSourceFits⟩ := isSendable
      cases isObject
      obtain ⟨others, isKind, areFields⟩ := holds.exists_fields distinct
      have isSuccess : kind? (.string "Success") = some 0 := by decide
      simp only [List.map_cons, List.map_nil] at areFields
      simp only [ofJson?, isKind, isSuccess, areFields, Json.string?, pairs?_pairsJson jumpsFit,
        pairs?_pairsJson sourceToCodeFits, pairs?_pairsJson codeToSourceFits, Option.bind_eq_bind,
        Option.bind_some]
      rfl
  | unreadable message =>
      cases isObject
      obtain ⟨others, isKind, areFields⟩ := holds.exists_fields distinct
      have isError : kind? (.string "Error") = some 1 := by decide
      simp only [List.map_cons, List.map_nil] at areFields
      simp only [ofJson?, isKind, isError, areFields, Json.string?, Option.bind_eq_bind,
        Option.bind_some]
      rfl
  | empty =>
      cases isObject
      obtain ⟨others, isKind, areFields⟩ := holds.exists_fields distinct
      have isEmpty : kind? (.string "Empty") = some 2 := by decide
      simp only [List.map_nil] at areFields
      simp only [ofJson?, isKind, isEmpty, areFields, Option.bind_eq_bind, Option.bind_some]
      rfl

/-- The order of its members makes a payload no other one. -/
theorem widensTo_sorted_toJson (payload : Payload) :
    payload.toJson.WidensTo payload.toJson.sorted := by
  have distinct := @nodup_names payload
  cases payload <;>
    exact Json.widensTo_sorted (distinct rfl) (by simp [Json.sorted_pairsJson, Json.sorted])

end Payload

namespace Message

/-- A message whose numbers are values of single precision and of thirty-two bits. -/
def IsSendable : Message → Prop
  | .status _ fraction => fraction.IsSingle
  | .log .. => True
  | .content _ payload => payload.IsSendable

/-- An object that tells a message: the object and the one of the payload hold the members that the
message has there, in any order, and maybe members with other names. -/
def ToldBy (json : Json) : Message → Prop
  | .content view payload => ∃ contents, payload.toJson.WidensTo contents ∧
      (Json.object [("type", .string "Content"), ("view", .string view.name),
        ("content", contents)]).WidensTo json
  | message => message.toJson.WidensTo json

theorem ofName?_name (view : View) : View.ofName? view.name = some view := by
  cases view <;> decide

theorem single?_fractionJson {fraction : Binary} (isSingle : fraction.IsSingle) :
    (fractionJson fraction).single? = some fraction := by
  cases fraction with
  | finite negative mantissa exponent => exact congrArg some isSingle.narrow_eq
  | infinite | nan => exact isSingle.isFinite.elim

theorem nodup_names {message : Message} {members : List (Text × Json)}
    (isObject : message.toJson = .object members) : (members.map Prod.fst).Nodup := by
  have distinct : (["type", "message", "fraction"] : List Text).Nodup ∧
      (["type", "text", "is_error"] : List Text).Nodup ∧
      (["type", "view", "content"] : List Text).Nodup := by decide
  cases message <;> cases isObject
  · exact distinct.1
  · exact distinct.2.1
  · exact distinct.2.2

theorem ofJson?_of_toldBy {message : Message} (isSendable : message.IsSendable) {json : Json}
    (told : message.ToldBy json) : ofJson? json = some message := by
  have distinct := @nodup_names message
  cases message with
  | status message fraction =>
      obtain ⟨members, wide, isObject, rfl, holds⟩ := told
      cases isObject
      obtain ⟨others, isKind, areFields⟩ := holds.exists_fields (distinct rfl)
      simp only [List.map_cons, List.map_nil] at areFields
      simp only [ofJson?, isKind, areFields, Json.string?, single?_fractionJson isSendable,
        Option.bind_eq_bind, Option.bind_some]
      rfl
  | log text isError =>
      obtain ⟨members, wide, isObject, rfl, holds⟩ := told
      cases isObject
      obtain ⟨others, isKind, areFields⟩ := holds.exists_fields (distinct rfl)
      simp only [List.map_cons, List.map_nil] at areFields
      simp only [ofJson?, isKind, areFields, Json.string?, Json.bool?, Option.bind_eq_bind,
        Option.bind_some]
      rfl
  | content view payload =>
      obtain ⟨contents, payloadTold, members, wide, isObject, rfl, holds⟩ := told
      cases isObject
      have sameNames : (["type", "view", "content"] : List Text).Nodup := distinct rfl
      obtain ⟨others, isKind, areFields⟩ := holds.exists_fields sameNames
      have isView : (Json.string view.name).view? = some view := ofName?_name view
      simp only [List.map_cons, List.map_nil] at areFields
      simp only [ofJson?, isKind, areFields, Json.string?, isView,
        Payload.ofJson?_of_widensTo isSendable payloadTold, Option.bind_eq_bind, Option.bind_some]
      rfl

theorem toldBy_toJson (message : Message) : message.ToldBy message.toJson := by
  cases message with
  | status | log => exact ⟨_, _, rfl, rfl, Json.Holds.refl _⟩
  | content view payload =>
      obtain ⟨members, isObject⟩ : ∃ members, payload.toJson = .object members := by
        cases payload <;> exact ⟨_, rfl⟩
      exact ⟨payload.toJson, ⟨members, members, isObject, isObject, Json.Holds.refl _⟩,
        _, _, rfl, rfl, Json.Holds.refl _⟩

theorem sorted_fractionJson (fraction : Binary) :
    (fractionJson fraction).sorted = fractionJson fraction := by
  cases fraction <;> simp [fractionJson, Json.sorted]

/-- A message is told by its members in the order in which they stand in a frame. -/
theorem toldBy_sorted_toJson (message : Message) : message.ToldBy message.toJson.sorted := by
  have distinct := @nodup_names message
  cases message with
  | status message fraction =>
      exact Json.widensTo_sorted (distinct rfl) (by simp [Json.sorted, sorted_fractionJson])
  | log text isError => exact Json.widensTo_sorted (distinct rfl) (by simp [Json.sorted])
  | content view payload =>
      exact ⟨payload.toJson.sorted, payload.widensTo_sorted_toJson,
        Json.widensTo_sorted (distinct rfl) (by simp [Json.sorted])⟩

/-- A message that is sent is the message that is received, in whatever order the members of its
objects are, and whatever members with other names are added to them. -/
theorem ofJson?_toJson {message : Message} (isSendable : message.IsSendable) :
    ofJson? message.toJson = some message ∧ ofJson? message.toJson.sorted = some message ∧
      ∀ json, message.ToldBy json → ofJson? json = some message :=
  ⟨ofJson?_of_toldBy isSendable message.toldBy_toJson,
    ofJson?_of_toldBy isSendable message.toldBy_sorted_toJson,
    fun _ => ofJson?_of_toldBy isSendable⟩

/-- A listing with the greatest line number there is. -/
def marked : Message := .content .oat (.listing "a → \"b\"" [(4, 6)] [(2, 4294967295)] [])

/-- The members of its payload among two that a listing does not have. One of these has the name
that the kind has one level up. -/
def paddedMembers : List (Text × Json) := [
  ("type", .string "Log"), ("state", .string "Success"), ("text", .string "a → \"b\""),
  ("jumps", Payload.pairsJson [(4, 6)]), ("message", .null),
  ("source_to_code", Payload.pairsJson [(2, 4294967295)]), ("code_to_source", .array [])]

/-- The listing in an object that has other members as well. -/
def padded : Json := .object [
  ("state", .string "Error"), ("type", .string "Content"), ("view", .string "oat"),
  ("content", .object paddedMembers), ("time", .natural 12)]

/-- The least positive value of single precision, and a listing among other members. -/
theorem ofJson?_toJson_padded :
    (status "→" (.ofBits 1)).IsSendable ∧
      ofJson? (status "→" (.ofBits 1)).toJson = some (status "→" (.ofBits 1)) ∧
      marked.IsSendable ∧ marked.ToldBy padded ∧ ofJson? padded = some marked := by
  have isSingle : (status "→" (.ofBits 1)).IsSendable := ⟨by trivial, 1, rfl⟩
  have areWords : marked.IsSendable := by
    simp [marked, IsSendable, Payload.IsSendable, Payload.AreWords]
  have told : marked.ToldBy padded :=
    ⟨.object paddedMembers, ⟨_, paddedMembers, rfl, rfl, List.Perm.refl _⟩, _, _, rfl, rfl,
      List.Perm.refl _⟩
  exact ⟨isSingle, (ofJson?_toJson isSingle).1, areWords, told,
    (ofJson?_toJson areWords).2.2 padded told⟩

end Message

end CompiledViews
