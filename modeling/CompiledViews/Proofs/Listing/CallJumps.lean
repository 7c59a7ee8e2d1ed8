import CompiledViews.Proofs.Listing.Arrows
import CompiledViews.Proofs.Listing.Jumps

/-!
# Calls that lead somewhere

A native call is no jump, and where a `StackMap` line follows it the reader does not ask whether it
looks like one. Where none follows, the code of the call is held against the form of a jump like
that of any other line. On Arm64 the two forms have no code in common. On X86_64 they have, since
the operand of a call may be a distance and an address, and such a call keeps the address: it gets
a line in the jump table of the listing.
-/

namespace CompiledViews.Listing

open Text Text.Form Dump Dump.Oatdump

/-- A line of native code has the form of a jump to an address, in an architecture where a call can
have it, and no `StackMap` line is right below it. -/
structure LeadsAstray (architecture : Architecture) (line : CodeRange) (target : Nat) : Prop where
  overlaps : architecture = .x86_64
  unmapped : ∀ map ∈ line.2.head?, stackMapLine.accepts map = false
  isJump : (architecture.jumpCode.first? line.1.2).bind hexadecimal? = some target

/-- A line of native code with the instruction that it shows and the line where this is placed. If
the line has the form of a call, the instruction leads to an address just where the line leads
astray, and only then an arrow can begin on the line where it is placed. -/
structure CallLeads (architecture : Architecture) (classes : List Class) (style : Style)
    (line : CodeRange) (place : Nat × Instruction) : Prop where
  shows : Shows architecture line place.2
  leads : architecture.callCode.accepts line.1.2 = true → ∀ target,
    place.2.jumpAddress = some target ↔ LeadsAstray architecture line target
  drawn : architecture.callCode.accepts line.1.2 = true → ∀ row,
    (ofClasses classes style).jumpTarget? place.1 = some row →
      ∃ landing, (row, landing) ∈ Call.placements style 0 (Call.ofClasses classes) ∧
        LeadsAstray architecture line landing.address

theorem jumpCode_arm64_of_call {code : Text}
    (isCall : Architecture.arm64.callCode.accepts code = true) :
    Architecture.arm64.jumpCode.first? code = none := by
  obtain rfl := eq_of_callCode_arm64 isCall
  decide

section line

variable {architecture : Architecture} {line : CodeRange} {instruction : Instruction}

/-- A call leads to an address if it leads astray. -/
theorem jumpAddress_iff_leadsAstray (shows : Shows architecture line instruction)
    (isCall : architecture.callCode.accepts line.1.2 = true) (target : Nat) :
    instruction.jumpAddress = some target ↔ LeadsAstray architecture line target := by
  cases shows with
  | @plain address code below key found unmapped isKey leads =>
      have own : (Instruction.ofCode key ("0x" ++ address) code found).jumpAddress = found := rfl
      rw [own]
      cases architecture with
      | arm64 =>
          have noJump := jumpCode_arm64_of_call isCall
          rw [noJump] at leads
          cases leads
          constructor
          · intro isTarget
            cases isTarget
          · intro astray
            cases astray.overlaps
      | x86_64 =>
          have isFound : (Architecture.x86_64.jumpCode.first? code).bind hexadecimal? = found := by
            generalize Architecture.x86_64.jumpCode.first? code = jump at leads
            cases leads with
            | none => rfl
            | some isValue => exact isValue
          constructor
          · intro isTarget
            exact ⟨rfl, unmapped isCall, isFound.trans isTarget⟩
          · intro astray
            exact isFound.symm.trans astray.isJump
  | @mapped address code map pc below key callAddress _ isMap =>
      constructor
      · intro isTarget
        cases isTarget
      · intro astray
        have noMap := astray.unmapped map rfl
        simp [accepts, isMap] at noMap
  | @inlined address code map pc info inlinedPc index below key callAddress callMethod _ isMap =>
      constructor
      · intro isTarget
        cases isTarget
      · intro astray
        have noMap := astray.unmapped map rfl
        simp [accepts, isMap] at noMap

end line

/-- The instruction on a line where an arrow begins leads to the instruction where it ends. -/
theorem exists_landing_of_jumpTarget? {classes : List Class} {style : Style} {line row : Nat}
    {instruction : Instruction}
    (placed : (line, instruction) ∈ Call.placements style 0 (Call.ofClasses classes))
    (drawn : (ofClasses classes style).jumpTarget? line = some row) :
    ∃ landing, (row, landing) ∈ Call.placements style 0 (Call.ofClasses classes) ∧
      instruction.jumpAddress = some landing.address := by
  rw [ofClasses_eq_build] at drawn
  have hasJump := (Builder.get?_jumps_iff style (Call.ofClasses classes) line row).1 drawn
  rcases hasJump.exists_placed with ⟨jump, landing, jumpPlaced, landingPlaced, leads⟩
  obtain rfl := Call.eq_of_mem_placements placed jumpPlaced
  exact ⟨landing, landingPlaced, leads⟩

/-- The lines of native code are shown by the instructions that are placed, in order. -/
theorem forall₂_shows_placements {architecture : Architecture} {kept : List MethodRange}
    {classes : List Class}
    (gives : List.Forall₂ (GivesMethod architecture) kept (classes.flatMap (·.methods)))
    (style : Style) :
    List.Forall₂ (fun line place => Shows architecture line.2 place.2) (nativeLines kept)
      (Call.placements style 0 (Call.ofClasses classes)) := by
  rw [← List.forall₂_map_right_iff, Call.map_snd_placements_ofClasses]
  refine List.rel_flatMap gives ?_
  intro range method ofMethod
  rw [List.forall₂_map_left_iff]
  exact ofMethod.nativeCode

/-- The calls in a dump that is read. Each instruction that is read is placed in the listing for a
line of native code. If this line has the form of a call, the instruction leads nowhere and no
arrow begins on its line, unless the line leads astray. -/
theorem callLeads_of_read {dump : Text} {classes : List Class}
    (accepted : Dump.Oatdump.read dump = .ok classes) (style : Style) :
    (Call.placements style 0 (Call.ofClasses classes)).map (·.2) =
        (classes.flatMap (·.methods)).flatMap (·.instructions) ∧
      ∃ architecture body, body? (Text.lines dump) = some (architecture, body) ∧
        List.Forall₂ (fun line place => CallLeads architecture classes style line.2 place)
          (nativeLines (keptMethods body)) (Call.placements style 0 (Call.ofClasses classes)) := by
  refine ⟨Call.map_snd_placements_ofClasses style classes, ?_⟩
  obtain ⟨completed, final, last, reading, finished, rfl⟩ := Dump.Machine.read_eq_ok_iff.1 accepted
  have gives : GivesDump (Text.lines dump) (completed ++ last) := rest_of_reading reading finished
  obtain ⟨architecture, body, isBody, givesClasses⟩ := gives.body?
  refine ⟨architecture, body, isBody, ?_⟩
  have shown := forall₂_shows_placements givesClasses.keptMethods style
  -- that the instruction is placed on its line has to be known where an arrow begins on the line
  have members := (List.forall₂_and_left _ _).2 ⟨fun place member => member, shown.flip⟩
  refine members.flip.imp ?_
  intro line place ofLine
  rcases ofLine with ⟨placed, shows⟩
  refine ⟨shows, jumpAddress_iff_leadsAstray shows, ?_⟩
  intro isCall row drawn
  rcases exists_landing_of_jumpTarget? placed drawn with ⟨landing, landingPlaced, leads⟩
  exact ⟨landing, landingPlaced, (jumpAddress_iff_leadsAstray shows isCall landing.address).1 leads⟩

/-- Two calls with the same operand, of which the second one has a `StackMap` line below it. -/
def strayLines : List Text :=
  ["INSTRUCTION SET:", "X86_64", "0: LA; (offset=0x1) (type_idx=1) -",
    " 0: void f() (dex_method_idx=7)", " DEX CODE:",
    " 0x0: 71 | invoke-static \x7b\x7d, void g() // m", " CODE: (size=11)",
    " 0x10: e8 call +5 (0x0000001a)", " 0x15: e8 call +0 (0x0000001a)",
    " StackMap (dex_pc=0x0, r)", " 0x1a: c3 ret"]

def strayClasses : List Class :=
  [{ header := "class A"
     methods :=
       [{ header := "void f()", index := some 7, codeSize := some 11, isa := .x86_64
          instructions :=
            [Instruction.ofCode 0x10 "0x10" "call +5 (0x0000001a)" (some 0x1a),
             { Instruction.ofCode 0x15 "0x15" "call +0 (0x0000001a)" none with
               callAddress := some 0 },
             Instruction.ofCode 0x1a "0x1a" "ret" none]
          references := NatMap.empty.insert 0 "g()" }] }]

theorem read_strayLines : Dump.Oatdump.read (unlines strayLines) = .ok strayClasses := by
  -- The kernel is slow at taking strings apart, so that is done before.
  unfold strayLines strayClasses
  repeat rewrite [String.toList_ofList]
  decide +kernel

theorem body?_strayLines :
    body? (Text.lines (unlines strayLines)) = some (.x86_64, strayLines.drop 2) := by
  unfold strayLines
  repeat rewrite [String.toList_ofList]
  decide

theorem isCall_strayLines : (nativeLines (keptMethods (strayLines.drop 2))).map
    (fun line => Architecture.x86_64.callCode.accepts line.2.1.2) = [true, true, false] := by
  unfold strayLines
  repeat rewrite [String.toList_ofList]
  decide

theorem callLeads_of_read_strayLines :
    Dump.Oatdump.read (unlines strayLines) = .ok strayClasses ∧
      ((Call.placements .default 0 (Call.ofClasses strayClasses)).map
        fun place => (place.1, place.2.jumpAddress)) = [(3, some 0x1a), (4, none), (5, none)] ∧
      (ofClasses strayClasses .default).jumps.pairs = [(3, 5)] ∧
      ∃ architecture body, body? (Text.lines (unlines strayLines)) = some (architecture, body) ∧
        (nativeLines (keptMethods body)).map
          (fun line => architecture.callCode.accepts line.2.1.2) = [true, true, false] ∧
        List.Forall₂ (fun line place => CallLeads architecture strayClasses .default line.2 place)
          (nativeLines (keptMethods body))
          (Call.placements .default 0 (Call.ofClasses strayClasses)) := by
  obtain ⟨-, architecture, body, isBody, leads⟩ := callLeads_of_read read_strayLines .default
  obtain ⟨rfl, rfl⟩ := Prod.mk.inj (Option.some.inj (body?_strayLines.symm.trans isBody))
  refine ⟨read_strayLines, by decide, by decide, _, _, isBody, ?_, leads⟩
  exact isCall_strayLines

/-- A call may lead to an address, and an arrow may begin on its line. -/
theorem not_forall_call_leads_nowhere :
    ¬∀ (dump : Text) (classes : List Class) (style : Style) (architecture : Architecture)
      (body : List Text), Dump.Oatdump.read dump = .ok classes →
      body? (Text.lines dump) = some (architecture, body) →
      List.Forall₂ (fun line place => architecture.callCode.accepts line.2.1.2 = true →
          place.2.jumpAddress = none ∧ (ofClasses classes style).jumpTarget? place.1 = none)
        (nativeLines (keptMethods body)) (Call.placements style 0 (Call.ofClasses classes)) := by
  intro all
  have ofStray := all (unlines strayLines) strayClasses .default .x86_64 (strayLines.drop 2)
    read_strayLines body?_strayLines
  have areCalls := isCall_strayLines
  generalize nativeLines (keptMethods (strayLines.drop 2)) = lines at ofStray areCalls
  have placed : Call.placements .default 0 (Call.ofClasses strayClasses) =
      (3, Instruction.ofCode 0x10 "0x10" "call +5 (0x0000001a)" (some 0x1a)) ::
        (Call.placements .default 0 (Call.ofClasses strayClasses)).tail := by decide
  rw [placed] at ofStray
  cases ofStray with
  | cons leads others =>
      have isCall := (List.cons.inj areCalls).1
      have nowhere := (leads isCall).1
      cases nowhere

end CompiledViews.Listing
