import CompiledViews.Proofs.Dump.Machine
import CompiledViews.Proofs.NatMap
import CompiledViews.Proofs.Text.SingleLine

/-!
# Classes whose texts stay in one line

Each text of a class becomes a part of one line of a listing, so none of them may hold a line feed.
-/

namespace CompiledViews

open Text

/-- The texts of an instruction are in one line each. -/
structure Instruction.InOneLine (instruction : Instruction) : Prop where
  label : instruction.label.SingleLine
  op : instruction.op.SingleLine
  operands : instruction.operands.SingleLine

/-- The names that references give are in one line each. -/
def ReferencesInOneLine (references : NatMap Text) : Prop :=
  ∀ reference ∈ references.pairs, reference.2.SingleLine

/-- The header of a method, the names of the methods that it calls and the texts of its instructions
are in one line each. -/
structure Method.InOneLine (method : Method) : Prop where
  header : method.header.SingleLine
  instructions : ∀ instruction ∈ method.instructions, instruction.InOneLine
  references : ReferencesInOneLine method.references

/-- The texts of a class are in one line each. -/
structure Class.InOneLine (cls : Class) : Prop where
  header : cls.header.SingleLine
  methods : ∀ method ∈ cls.methods, method.InOneLine

namespace ReferencesInOneLine

theorem empty : ReferencesInOneLine .empty := by simp [ReferencesInOneLine, NatMap.empty]

theorem insert {references : NatMap Text} {name : Text}
    (inOneLine : ReferencesInOneLine references) (single : name.SingleLine) (key : Nat) :
    ReferencesInOneLine (references.insert key name) :=
  NatMap.of_mem_insert inOneLine single key

theorem of_get? {references : NatMap Text} (inOneLine : ReferencesInOneLine references)
    {address : Nat} {name : Text} (found : references.get? address = some name) :
    name.SingleLine :=
  inOneLine (address, name) ((NatMap.mem_pairs_iff ..).2 found)

end ReferencesInOneLine

namespace Instruction

theorem splitCode_isInfix (code : Text) :
    (splitCode code).1 <+: code ∧ (splitCode code).2 <:+: code := by
  fun_induction splitCode code with
  | case1 => simp
  | case2 rest => exact ⟨ List.nil_prefix, List.infix_cons (trim_isInfix rest)⟩
  | case3 character rest _ ih =>
      exact ⟨List.prefix_cons_inj character |>.2 ih.1, List.infix_cons ih.2⟩

theorem InOneLine.ofCode {label code : Text} (labelSingle : label.SingleLine)
    (codeSingle : code.SingleLine) (address : Nat) (jumpAddress : Option Nat) :
    (Instruction.ofCode address label code jumpAddress).InOneLine where
  label := labelSingle
  op := codeSingle.of_part (splitCode_isInfix code).1.isInfix
  operands := codeSingle.of_part (splitCode_isInfix code).2

theorem InOneLine.withLineNumbers {instructions : List Instruction} (table : NatMap Nat)
    (inOneLine : ∀ instruction ∈ instructions, instruction.InOneLine) :
    ∀ instruction ∈ Instruction.withLineNumbers table instructions, instruction.InOneLine := by
  intro instruction member
  rcases List.mem_map.1 member with ⟨original, inOriginals, rfl⟩
  exact ⟨(inOneLine original inOriginals).label, (inOneLine original inOriginals).op,
    (inOneLine original inOriginals).operands⟩

end Instruction

/-- What holds of each element of a list and of a further one holds of all of them. -/
theorem forall_mem_concat {α : Type} {property : α → Prop} {items : List α} {item : α}
    (holds : ∀ other ∈ items, property other) (last : property item) :
    ∀ other ∈ items ++ [item], property other := by
  intro other member
  rcases List.mem_append.1 member with old | new
  · exact holds other old
  · exact List.mem_singleton.1 new ▸ last

end CompiledViews
