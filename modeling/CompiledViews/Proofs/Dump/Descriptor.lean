import CompiledViews.Dump.Descriptor
import CompiledViews.Proofs.Text.Exact
import CompiledViews.Proofs.Text.Removal
import Mathlib.Data.List.Forall2

/-!
# Descriptors of method types

A type is written as its dimensions, one bracket for each, and its element: the letter of a
primitive type, or a class name between the letter `L` and a semicolon. A method type is written as
its parameter types in parentheses and its result type, with nothing between them. Decoding finds
the types again, since each of them tells where it ends.

`IsDisplayedAs` says how a type is written in source code, without the functions that decode it.
Each type has one such text, and this is what decoding gives for it.
-/

namespace CompiledViews.Dump.Descriptor

open Text

inductive Primitive where
  | byte
  | char
  | double
  | float
  | int
  | long
  | short
  | void
  | boolean
deriving DecidableEq, Repr

namespace Primitive

def letter : Primitive → Char
  | byte => 'B'
  | char => 'C'
  | double => 'D'
  | float => 'F'
  | int => 'I'
  | long => 'J'
  | short => 'S'
  | void => 'V'
  | boolean => 'Z'

def shown : Primitive → Text
  | byte => "byte"
  | char => "char"
  | double => "double"
  | float => "float"
  | int => "int"
  | long => "long"
  | short => "short"
  | void => "void"
  | boolean => "boolean"

end Primitive

/-- A type without dimensions; a class has its name in slash notation. -/
inductive Element where
  | primitive (kind : Primitive)
  | ofClass (name : Text)
deriving DecidableEq, Repr

namespace Element

def encode : Element → Text
  | primitive kind => [kind.letter]
  | ofClass name => 'L' :: (name ++ [';'])

/-- How the type is written in source code. -/
def shown : Element → Text
  | primitive kind => kind.shown
  | ofClass name => className name

/-- The name of the class; empty for a primitive type. -/
def name : Element → Text
  | primitive _ => []
  | ofClass name => name

theorem mem_encode {element : Element} {character : Char} (member : character ∈ element.encode) :
    character.isUpper = true ∨ character = ';' ∨ character ∈ element.name := by
  cases element with
  | primitive kind =>
      obtain rfl := List.mem_singleton.1 member
      exact .inl (by cases kind <;> decide)
  | ofClass name =>
      rcases List.mem_cons.1 member with rfl | later
      · exact .inl (by decide)
      · rcases List.mem_append.1 later with inName | isEnd
        · exact .inr (.inr inName)
        · exact .inr (.inl (List.mem_singleton.1 isEnd))

/-- No element begins with a bracket. -/
theorem exists_encode_eq_cons (element : Element) :
    ∃ first rest, element.encode = first :: rest ∧ first ≠ '[' := by
  cases element with
  | primitive kind => exact ⟨kind.letter, [], rfl, by cases kind <;> decide⟩
  | ofClass name => exact ⟨'L', _, rfl, by decide⟩

theorem decodeElement_encode {element : Element} (closed : ';' ∉ element.name) (dimensions : Nat)
    (rest : Text) :
    decodeElement dimensions (element.encode ++ rest) =
      ([element.shown ++ arraySuffix dimensions], rest) := by
  cases element with
  | primitive kind => cases kind <;> rfl
  | ofClass name =>
      have inName : ∀ character ∈ name, (character != ';') = true := by
        intro character member
        exact bne_iff_ne.2 fun isEnd => closed (isEnd ▸ member)
      have text : (ofClass name).encode ++ rest = 'L' :: (name ++ ';' :: rest) := by simp [encode]
      have named : (name ++ ';' :: rest).takeWhile (· != ';') = name := by
        rw [List.takeWhile_append_of_pos inName]
        simp
      have left : ((name ++ ';' :: rest).dropWhile (· != ';')).drop 1 = rest := by
        rw [List.dropWhile_append_of_pos inName]
        simp
      rw [text, decodeElement]
      simp only [named, left]
      rfl

/-- The text that the type has in source code: the word for a primitive type, and the name of a
class in dotted notation, with each `java.lang.` in it taken out. -/
inductive IsDisplayedAs : Element → Text → Prop where
  | primitive (kind : Primitive) : IsDisplayedAs (primitive kind) kind.shown
  | ofClass {name dotted text : Text} (dots : dotted = replaceChar '/' '.' name)
      (leaves : LeavesWithout "java.lang." dotted text) : IsDisplayedAs (ofClass name) text

theorem isDisplayedAs_iff {element : Element} {text : Text} :
    element.IsDisplayedAs text ↔ text = element.shown := by
  have once : 'j' ∉ ("ava.lang." : Text) := by decide
  constructor
  · rintro (kind | ⟨rfl, leaves⟩)
    · rfl
    · exact (leavesWithout_iff once).1 leaves
  · rintro rfl
    cases element with
    | primitive kind => exact .primitive kind
    | ofClass name => exact .ofClass rfl ((leavesWithout_iff once).2 rfl)

end Element

structure JavaType where
  element : Element
  dimensions : Nat
deriving DecidableEq, Repr

namespace JavaType

def encode (type : JavaType) : Text := List.replicate type.dimensions '[' ++ type.element.encode

/-- How the type is written in source code. -/
def shown (type : JavaType) : Text := type.element.shown ++ arraySuffix type.dimensions

theorem mem_encode {type : JavaType} {character : Char} (member : character ∈ type.encode) :
    character = '[' ∨ character.isUpper = true ∨ character = ';' ∨
      character ∈ type.element.name := by
  rcases List.mem_append.1 member with isBracket | inElement
  · exact .inl (List.eq_of_mem_replicate isBracket)
  · exact .inr (Element.mem_encode inElement)

/-- The text that the type has in source code: that of its element and a pair of brackets for each
dimension. -/
def IsDisplayedAs (type : JavaType) (text : Text) : Prop :=
  ∃ element, type.element.IsDisplayedAs element ∧
    text = element ++ (List.replicate type.dimensions ("[]" : Text)).flatten

theorem isDisplayedAs_iff {type : JavaType} {text : Text} :
    type.IsDisplayedAs text ↔ text = type.shown := by
  have brackets (dimensions : Nat) :
      (List.replicate dimensions ("[]" : Text)).flatten = arraySuffix dimensions := by
    induction dimensions with
    | zero => rfl
    | succ dimensions ih => rw [List.replicate_succ, List.flatten_cons, ih, arraySuffix]
  simp only [IsDisplayedAs, Element.isDisplayedAs_iff, exists_eq_left, brackets, shown]

/-- Each of some types has one text in source code. -/
theorem forall₂_isDisplayedAs_iff {types : List JavaType} {texts : List Text} :
    List.Forall₂ IsDisplayedAs types texts ↔ texts = types.map shown := by
  have isShown : IsDisplayedAs = fun type text => type.shown = text := by
    funext type text
    exact propext (isDisplayedAs_iff.trans eq_comm)
  rw [isShown, ← List.forall₂_map_left_iff, List.forall₂_eq_eq_eq, eq_comm]

theorem encode_ne_nil (type : JavaType) : type.encode ≠ [] := by
  obtain ⟨first, rest, encodes, -⟩ := type.element.exists_encode_eq_cons
  simp [encode, encodes]

theorem decodeType_encode {type : JavaType} (closed : ';' ∉ type.element.name) (rest : Text) :
    decodeType (type.encode ++ rest) = ([type.shown], rest) := by
  obtain ⟨first, others, encodes, noBracket⟩ := type.element.exists_encode_eq_cons
  have brackets : ∀ character ∈ List.replicate type.dimensions '[',
      (character == '[') = true := by
    intro character member
    exact beq_iff_eq.2 (List.eq_of_mem_replicate member)
  have text : type.encode ++ rest =
      List.replicate type.dimensions '[' ++ (type.element.encode ++ rest) := by
    rw [encode, List.append_assoc]
  have dimensions : (type.encode ++ rest).takeWhile (· == '[') =
      List.replicate type.dimensions '[' := by
    rw [text, List.takeWhile_append_of_pos brackets, encodes]
    simp [noBracket]
  have element : (type.encode ++ rest).dropWhile (· == '[') = type.element.encode ++ rest := by
    rw [text, List.dropWhile_append_of_pos brackets, encodes]
    simp [noBracket]
  rw [decodeType, dimensions, element, List.length_replicate,
    Element.decodeElement_encode closed]
  rfl

theorem decodeTypes_encode {types : List JavaType}
    (closed : ∀ type ∈ types, ';' ∉ type.element.name) :
    decodeTypes (types.flatMap encode) = types.map shown := by
  induction types with
  | nil => rw [List.flatMap_nil, decodeTypes, List.map_nil]
  | cons type types ih =>
      obtain ⟨isClosed, others⟩ := List.forall_mem_cons.1 closed
      obtain ⟨first, rest, encodes⟩ := List.exists_cons_of_ne_nil type.encode_ne_nil
      have decodes := decodeType_encode isClosed (types.flatMap encode)
      rw [List.flatMap_cons, List.map_cons, ← ih others]
      rw [encodes, List.cons_append] at decodes ⊢
      rw [decodeTypes, decodes]
      rfl

end JavaType

structure MethodType where
  parameters : List JavaType
  result : JavaType
deriving DecidableEq, Repr

namespace MethodType

def encode (type : MethodType) : Text :=
  "(" ++ (type.parameters.flatMap JavaType.encode ++ ')' :: type.result.encode)

/-- The class names hold none of the characters that separate the parts of a descriptor, nor a
period. -/
def IsPlain (type : MethodType) : Prop :=
  ∀ part ∈ type.result :: type.parameters, ∀ character ∈ part.element.name,
    character ∉ ([';', '(', ')', '.'] : List Char)

instance (type : MethodType) : Decidable type.IsPlain :=
  inferInstanceAs (Decidable (∀ part ∈ type.result :: type.parameters,
    ∀ character ∈ part.element.name, character ∉ ([';', '(', ')', '.'] : List Char)))

/-- Decoding finds the types again. No class name may hold a semicolon, which ends it, and that of
the result type no closing parenthesis. -/
theorem decode_encode_eq {type : MethodType}
    (closed : ∀ part ∈ type.result :: type.parameters, ';' ∉ part.element.name)
    (ends : ')' ∉ type.result.element.name) :
    decode type.encode = some (type.result.shown, type.parameters.map JavaType.shown) := by
  obtain ⟨resultClosed, parametersClosed⟩ := List.forall_mem_cons.1 closed
  have opening : splitOnce "(" type.encode =
      some ([], type.parameters.flatMap JavaType.encode ++ ')' :: type.result.encode) :=
    splitOnce_append List.not_mem_nil _
  have absent : ')' ∉ type.result.encode := by
    intro member
    rcases JavaType.mem_encode member with isBracket | isUpper | isEnd | inName
    · cases isBracket
    · revert isUpper
      decide
    · cases isEnd
    · exact ends inName
  have result := JavaType.decodeType_encode resultClosed []
  rw [List.append_nil] at result
  obtain ⟨first, rest, encodes⟩ := List.exists_cons_of_ne_nil type.result.encode_ne_nil
  rw [decode, opening]
  simp only [splitLast_append absent]
  rw [encodes] at result ⊢
  simp only [result, JavaType.decodeTypes_encode parametersClosed]
  rfl

/-- The class names hold none of the characters that separate the parts of a descriptor. -/
def IsSeparable (type : MethodType) : Prop :=
  ∀ part ∈ type.result :: type.parameters, ∀ character ∈ part.element.name,
    character ∉ ([';', '(', ')'] : List Char)

instance (type : MethodType) : Decidable type.IsSeparable :=
  inferInstanceAs (Decidable (∀ part ∈ type.result :: type.parameters,
    ∀ character ∈ part.element.name, character ∉ ([';', '(', ')'] : List Char)))

theorem IsSeparable.decode_encode {type : MethodType} (separable : type.IsSeparable) :
    decode type.encode = some (type.result.shown, type.parameters.map JavaType.shown) :=
  decode_encode_eq (fun part member inName => separable part member ';' inName (by decide))
    fun inName => separable type.result List.mem_cons_self ')' inName (by decide)

theorem IsPlain.isSeparable {type : MethodType} (plain : type.IsPlain) : type.IsSeparable :=
  fun part isPart character inName isMark =>
    plain part isPart character inName (List.mem_append_left ['.'] isMark)

theorem IsPlain.decode_encode {type : MethodType} (plain : type.IsPlain) :
    decode type.encode = some (type.result.shown, type.parameters.map JavaType.shown) :=
  plain.isSeparable.decode_encode

/-- No period occurs in a descriptor. -/
theorem IsPlain.not_mem_encode {type : MethodType} (plain : type.IsPlain) : '.' ∉ type.encode := by
  have absent : ∀ part ∈ type.result :: type.parameters, '.' ∉ part.encode := by
    intro part isPart member
    rcases JavaType.mem_encode member with isBracket | isUpper | isEnd | inName
    · cases isBracket
    · revert isUpper
      decide
    · cases isEnd
    · exact plain part isPart '.' inName (by decide)
  obtain ⟨ofResult, ofParameters⟩ := List.forall_mem_cons.1 absent
  intro member
  simp only [encode, List.mem_append, List.mem_flatMap, List.mem_cons] at member
  rcases member with isOpening | ⟨part, isPart, inPart⟩ | isEnd | inResult
  · revert isOpening
    decide
  · exact ofParameters part isPart inPart
  · cases isEnd
  · exact ofResult inResult

/-- Decoding undoes encoding. It succeeds, and what it gives are the texts that the types have in
source code: that of the result, and one for each parameter, in order. -/
theorem decode_encode_iff {type : MethodType} (separable : type.IsSeparable) :
    (decode type.encode).isSome = true ∧
      ∀ result parameters, decode type.encode = some (result, parameters) ↔
        type.result.IsDisplayedAs result ∧
          List.Forall₂ JavaType.IsDisplayedAs type.parameters parameters := by
  refine ⟨by rw [separable.decode_encode]; rfl, fun result parameters => ?_⟩
  rw [separable.decode_encode, Option.some.injEq, Prod.mk.injEq, eq_comm (b := result),
    eq_comm (b := parameters), JavaType.isDisplayedAs_iff, JavaType.forall₂_isDisplayedAs_iff]

/-- A type of class names that begin with, hold and end in letters of primitive types. -/
def mixedType : MethodType where
  parameters :=
    [⟨.ofClass "I", 0⟩, ⟨.primitive .int, 2⟩, ⟨.ofClass "java/lang/LongJ", 1⟩,
      ⟨.primitive .void, 0⟩, ⟨.ofClass "xjava/lang/java/lang/[V", 3⟩]
  result := ⟨.ofClass "java/util/List", 1⟩

theorem decode_encode_iff_mixedType :
    mixedType.IsSeparable ∧
      mixedType.encode =
        "(LI;[[I[Ljava/lang/LongJ;V[[[Lxjava/lang/java/lang/[V;)[Ljava/util/List;" ∧
      decode mixedType.encode =
        some (("java.util.List[]" : Text),
          (["I", "int[][]", "LongJ[]", "void", "x[V[][][]"] : List Text)) := by
  have separable : mixedType.IsSeparable := by decide
  refine ⟨separable, by decide +kernel, ((decode_encode_iff separable).2 _ _).2 ⟨?_, ?_⟩⟩
  · rw [JavaType.isDisplayedAs_iff]
    decide +kernel
  · rw [JavaType.forall₂_isDisplayedAs_iff]
    decide +kernel

end MethodType

end CompiledViews.Dump.Descriptor
