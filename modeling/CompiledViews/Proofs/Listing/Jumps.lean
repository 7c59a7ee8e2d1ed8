import CompiledViews.Proofs.Listing.Placements

/-!
# Jumps of a listing

The calls between two neighbouring `endMethod` calls form a segment, and a segment is closed by the
`endMethod` after it. The jump on a line leads to the last instruction that the segment of the line
places with the address that the jump asks for. Segments that nothing closes have no jumps yet.

While a segment is open the builder knows its instructions only through two tables, the lines of
the addresses and the jumps that wait. `OpenSegment.Tracked` says what these hold; closing the
segment then resolves exactly the jumps that `HasJump` asks for.
-/

namespace CompiledViews.Listing

/-- Calls after which the next call begins a segment. -/
def AtBoundary (calls : List Call) : Prop := ∀ last ∈ calls.getLast?, last = .endMethod

/-- Calls of which the last part is a segment that nothing closes. -/
structure OpenSegment (calls before segment : List Call) : Prop where
  split : calls = before ++ segment
  begins : AtBoundary before
  undivided : .endMethod ∉ segment

/-- Calls of which a part in the middle is a segment, closed by the call after it. -/
structure ClosedSegment (calls before segment : List Call) : Prop where
  split : ∃ after, calls = before ++ segment ++ .endMethod :: after
  begins : AtBoundary before
  undivided : .endMethod ∉ segment

/-- A segment that begins on a line has a jump from a line to another one: it places a jump on the
one, and on the other its last instruction with the address that the jump leads to. -/
def SegmentJump (style : Style) (first : Nat) (segment : List Call) (line target : Nat) : Prop :=
  ∃ jump address,
    (line, jump) ∈ Call.placements style first segment ∧ jump.jumpAddress = some address ∧
      lastLine? (·.address == address) (Call.placements style first segment) = some target

/-- Calls have the jumps of their closed segments. -/
def HasJump (style : Style) (calls : List Call) (line target : Nat) : Prop :=
  ∃ before segment, ClosedSegment calls before segment ∧
    SegmentJump style (Call.lineAfter style before) segment line target

namespace OpenSegment

variable {calls before segment : List Call}

/-- Of two places where the same calls may be split into what is over and an open segment, the
second one is not after the first. -/
theorem eq_nil_of_append {calls before segment gap rest : List Call}
    (isOpen : OpenSegment calls before segment) (begins : AtBoundary (before ++ gap))
    (split : segment = gap ++ rest) : gap = [] := by
  rcases List.eq_nil_or_concat gap with empty | ⟨init, last, rfl⟩
  · exact empty
  · have isEnd : last = .endMethod := begins last (by simp)
    exact absurd (by simp [split, isEnd]) isOpen.undivided

/-- Calls have one open segment. -/
theorem unique {otherBefore otherSegment : List Call} (isOpen : OpenSegment calls before segment)
    (other : OpenSegment calls otherBefore otherSegment) :
    otherBefore = before ∧ otherSegment = segment := by
  rcases List.append_eq_append_iff.1 (isOpen.split.symm.trans other.split) with
    ⟨gap, beforeEq, segmentEq⟩ | ⟨gap, beforeEq, segmentEq⟩
  · have empty := isOpen.eq_nil_of_append (beforeEq ▸ other.begins) segmentEq
    simp_all
  · have empty := other.eq_nil_of_append (beforeEq ▸ isOpen.begins) segmentEq
    simp_all

theorem nil : OpenSegment [] [] [] := ⟨rfl, by simp [AtBoundary], by simp⟩

/-- A call other than `endMethod` goes into the open segment. -/
theorem concat (isOpen : OpenSegment calls before segment) {call : Call}
    (isNoEnd : call ≠ .endMethod) :
    OpenSegment (calls ++ [call]) before (segment ++ [call]) where
  split := by simp [isOpen.split]
  begins := isOpen.begins
  undivided := by simpa [isOpen.undivided] using fun same => isNoEnd same.symm

/-- After `endMethod` the open segment is empty. -/
theorem nil_of_end (calls : List Call) :
    OpenSegment (calls ++ [Call.endMethod]) (calls ++ [Call.endMethod]) [] where
  split := by simp
  begins := by simp [AtBoundary]
  undivided := by simp

/-- There is always an open segment, be it an empty one. -/
theorem exists_of_calls (calls : List Call) :
    ∃ before segment, OpenSegment calls before segment := by
  induction calls using List.reverseRecOn with
  | nil => exact ⟨[], [], nil⟩
  | append_singleton calls call ih =>
      by_cases isEnd : call = .endMethod
      · exact isEnd ▸ ⟨_, _, nil_of_end calls⟩
      · rcases ih with ⟨before, segment, isOpen⟩
        exact ⟨before, segment ++ [call], isOpen.concat isEnd⟩

end OpenSegment

namespace ClosedSegment

variable {calls before segment : List Call}

/-- A further call leaves the segments closed that are closed. -/
theorem concat (closed : ClosedSegment calls before segment) (call : Call) :
    ClosedSegment (calls ++ [call]) before segment where
  split := by
    rcases closed.split with ⟨after, split⟩
    exact ⟨after ++ [call], by simp [split]⟩
  begins := closed.begins
  undivided := closed.undivided

/-- Closing the open segment adds it to the closed ones, and no call adds another one. -/
theorem concat_iff {openBefore openSegment : List Call} {call : Call}
    (isOpen : OpenSegment calls openBefore openSegment) :
    ClosedSegment (calls ++ [call]) before segment ↔
      ClosedSegment calls before segment ∨
        call = .endMethod ∧ before = openBefore ∧ segment = openSegment := by
  constructor
  · rintro ⟨⟨after, split⟩, begins, undivided⟩
    rcases List.eq_nil_or_concat after with rfl | ⟨init, last, rfl⟩
    · rcases List.append_inj' split (by simp) with ⟨callsEq, callEq⟩
      have unique := isOpen.unique ⟨callsEq, begins, undivided⟩
      exact .inr ⟨by simpa using callEq, unique⟩
    · have split : calls ++ [call] = (before ++ segment ++ .endMethod :: init) ++ [last] := by
        simpa using split
      exact .inl ⟨⟨init, (List.append_inj' split (by simp)).1⟩, begins, undivided⟩
  · rintro (closed | ⟨rfl, rfl, rfl⟩)
    · exact closed.concat call
    · exact ⟨⟨[], by simp [isOpen.split]⟩, isOpen.begins, isOpen.undivided⟩

/-- A closed segment lies within the lines above the open one. -/
theorem lineAfter_le {openBefore openSegment : List Call}
    (closed : ClosedSegment calls before segment)
    (isOpen : OpenSegment calls openBefore openSegment) (style : Style) :
    Call.lineAfter style before + Call.lineAfter style segment ≤
      Call.lineAfter style openBefore := by
  rcases closed.split with ⟨after, split⟩
  have split : (before ++ segment ++ [.endMethod]) ++ after = openBefore ++ openSegment := by
    rw [← isOpen.split, split]
    simp
  rcases List.append_eq_append_iff.1 split with ⟨gap, openBeforeEq, _⟩ | ⟨gap, closedEq, openEq⟩
  · simp only [openBeforeEq, Call.lineAfter_append]
    omega
  · -- The call that closes the segment cannot be one of the open segment.
    rcases List.eq_nil_or_concat gap with rfl | ⟨init, last, rfl⟩
    · have sameLines := congrArg (Call.lineAfter style) closedEq
      simp only [Call.lineAfter_append, List.append_nil] at sameLines
      omega
    · have ends : .endMethod = last := by
        simpa using congrArg List.getLast? closedEq
      exact absurd (by simp [openEq, ends]) isOpen.undivided

end ClosedSegment

namespace HasJump

/-- A further call adds no jumps unless it closes the open segment, whose jumps it adds then. -/
theorem concat_iff {style : Style} {calls before segment : List Call} {call : Call}
    (isOpen : OpenSegment calls before segment) (line target : Nat) :
    HasJump style (calls ++ [call]) line target ↔
      HasJump style calls line target ∨
        call = .endMethod ∧
          SegmentJump style (Call.lineAfter style before) segment line target := by
  constructor
  · rintro ⟨_, _, closed, jump⟩
    rcases (ClosedSegment.concat_iff isOpen).1 closed with closed | ⟨isEnd, rfl, rfl⟩
    · exact .inl ⟨_, _, closed, jump⟩
    · exact .inr ⟨isEnd, jump⟩
  · rintro (⟨_, _, closed, jump⟩ | ⟨isEnd, jump⟩)
    · exact ⟨_, _, closed.concat call, jump⟩
    · exact ⟨_, _, (ClosedSegment.concat_iff isOpen).2 (.inr ⟨isEnd, rfl, rfl⟩), jump⟩

/-- A jump stands on the line of an instruction, and its target is the line of one that has the
address the first one leads to. -/
theorem exists_placed {style : Style} {calls : List Call} {line target : Nat}
    (hasJump : HasJump style calls line target) :
    ∃ jump landing, (line, jump) ∈ Call.placements style 0 calls ∧
      (target, landing) ∈ Call.placements style 0 calls ∧
      jump.jumpAddress = some landing.address := by
  rcases hasJump with ⟨before, segment, closed, jump, address, placed, leads, found⟩
  rcases closed.split with ⟨after, rfl⟩
  rcases exists_of_lastLine? found with ⟨landing, targetPlaced, isWanted⟩
  have inSegment {place : Nat × Instruction}
      (member : place ∈ Call.placements style (Call.lineAfter style before) segment) :
      place ∈ Call.placements style 0 (before ++ segment ++ .endMethod :: after) := by
    simp [member]
  obtain rfl := beq_iff_eq.1 isWanted
  exact ⟨jump, landing, inSegment placed, inSegment targetPlaced, leads⟩

/-- A jump and its target are lines of instructions. -/
theorem placed {style : Style} {calls : List Call} {line target : Nat}
    (hasJump : HasJump style calls line target) :
    (∃ jump, (line, jump) ∈ Call.placements style 0 calls) ∧
      ∃ instruction, (target, instruction) ∈ Call.placements style 0 calls := by
  rcases hasJump.exists_placed with ⟨jump, landing, jumpPlaced, landingPlaced, -⟩
  exact ⟨⟨jump, jumpPlaced⟩, ⟨landing, landingPlaced⟩⟩

/-- Jumps stand above the open segment. -/
theorem line_lt {style : Style} {calls before segment : List Call} {line target : Nat}
    (hasJump : HasJump style calls line target) (isOpen : OpenSegment calls before segment) :
    line < Call.lineAfter style before := by
  rcases hasJump with ⟨_, _, closed, jump, address, placed, _, _⟩
  have bounds := Call.line_bounds_of_mem_placements placed
  have within := closed.lineAfter_le isOpen style
  omega

end HasJump

/-- The jump that waits for the end of its segment, with the address it leads to. -/
def waitingJump? (place : Nat × Instruction) : Option (Nat × Nat) :=
  place.2.jumpAddress.map (place.1, ·)

theorem mem_filterMap_waitingJump? {placed : List (Nat × Instruction)} {line address : Nat} :
    (line, address) ∈ placed.filterMap waitingJump? ↔
      ∃ jump, (line, jump) ∈ placed ∧ jump.jumpAddress = some address := by
  simp [waitingJump?, List.mem_filterMap, Option.map_eq_some_iff]

/-- On each line waits one jump at most. -/
theorem nodup_waiting_lines (style : Style) (first : Nat) (segment : List Call) :
    (((Call.placements style first segment).filterMap waitingJump?).map (·.1)).Nodup := by
  refine List.pairwise_map.2 (List.Pairwise.filterMap _ ?_
    (Call.placements_ascending style first segment))
  intro left right ascends leftJump isLeft rightJump isRight
  simp only [waitingJump?, Option.map_eq_some_iff] at isLeft isRight
  rcases isLeft with ⟨_, _, rfl⟩
  rcases isRight with ⟨_, _, rfl⟩
  exact Nat.ne_of_lt ascends

namespace Builder

/-- Where at most one jump waits on each line, resolving them lets a line jump to where the address
of its jump is found, and otherwise to where it jumped before. -/
theorem get?_resolvedJumps (builder : Builder)
    (distinct : (builder.pendingJumps.map (·.1)).Nodup) (line target : Nat) :
    builder.resolvedJumps.get? line = some target ↔
      (∃ address, (line, address) ∈ builder.pendingJumps ∧
        builder.addresses.get? address = some target) ∨
      builder.jumps.get? line = some target ∧
        ∀ address, (line, address) ∈ builder.pendingJumps →
          builder.addresses.get? address = none := by
  unfold resolvedJumps
  generalize builder.pendingJumps = pending at distinct ⊢
  generalize builder.jumps = jumps
  induction pending generalizing jumps with
  | nil => simp
  | cons head pending ih =>
      rcases head with ⟨headLine, headAddress⟩
      rcases List.nodup_cons.1 distinct with ⟨isNew, distinct⟩
      have absent (address : Nat) : (headLine, address) ∉ pending := fun member =>
        isNew (List.mem_map.2 ⟨_, member, rfl⟩)
      rw [List.foldl_cons, ih distinct]
      cases found : builder.addresses.get? headAddress with
      | none => grind
      | some headTarget => grind [NatMap.get?_insert]

/-- What a builder knows of its open segment: the last line of each address, and the jumps that
wait. -/
structure Tracks (builder : Builder) (style : Style) (before segment : List Call) : Prop where
  get?_addresses : ∀ address, builder.addresses.get? address =
    lastLine? (·.address == address) (Call.placements style (Call.lineAfter style before) segment)
  pendingJumps_eq : builder.pendingJumps =
    (Call.placements style (Call.lineAfter style before) segment).filterMap waitingJump?

namespace Tracks

variable {builder : Builder} {style : Style} {before segment : List Call}

/-- An instruction enters both tables with the line it is placed on. -/
theorem addInstruction (tracks : builder.Tracks style before segment)
    (line_eq : builder.line = Call.lineAfter style before + Call.lineAfter style segment)
    (instruction : Instruction) (callee : Option Text) :
    (builder.addInstruction instruction callee).Tracks style before
      (segment ++ [.addInstruction instruction callee]) where
  get?_addresses address := by
    simp only [Builder.addInstruction, Call.placements_append, Call.placements, Call.placement?,
      Option.toList_some, List.append_nil, lastLine?_concat, NatMap.get?_insert,
      tracks.get?_addresses, line_eq, beq_iff_eq]
    simp only [eq_comm]
  pendingJumps_eq := by
    simp only [Builder.addInstruction, Call.placements_append, Call.placements, Call.placement?,
      List.filterMap_append, tracks.pendingJumps_eq, line_eq]
    cases leads : instruction.jumpAddress <;> simp [waitingJump?, leads]

/-- The tables of a builder that has just ended a method are empty. -/
theorem endMethod (builder : Builder) (style : Style) (calls : List Call) :
    builder.endMethod.Tracks style calls [] where
  get?_addresses _ := rfl
  pendingJumps_eq := rfl

/-- Other calls place no instruction. -/
theorem of_no_placement {next : Builder} {call : Call}
    (tracks : builder.Tracks style before segment) (places : ∀ line, call.placement? line = none)
    (addresses : next.addresses = builder.addresses)
    (pendingJumps : next.pendingJumps = builder.pendingJumps) :
    next.Tracks style before (segment ++ [call]) where
  get?_addresses address := by
    simp [Call.placements, places, addresses, tracks.get?_addresses]
  pendingJumps_eq := by
    simp [Call.placements, places, pendingJumps, tracks.pendingJumps_eq]

/-- The jumps that are resolved when a segment is closed are its jumps. -/
theorem pending_iff_segmentJump (tracks : builder.Tracks style before segment)
    (line target : Nat) :
    (∃ address, (line, address) ∈ builder.pendingJumps ∧
        builder.addresses.get? address = some target) ↔
      SegmentJump style (Call.lineAfter style before) segment line target := by
  simp only [tracks.pendingJumps_eq, mem_filterMap_waitingJump?, tracks.get?_addresses,
    SegmentJump]
  constructor
  · rintro ⟨address, ⟨jump, placed, leads⟩, found⟩
    exact ⟨jump, address, placed, leads, found⟩
  · rintro ⟨jump, address, placed, leads, found⟩
    exact ⟨address, ⟨jump, placed, leads⟩, found⟩

/-- Closing a segment keeps the jumps of the lines above it and adds its own. -/
theorem get?_resolvedJumps_iff (tracks : builder.Tracks style before segment)
    (above : ∀ line target, builder.jumps.get? line = some target →
      line < Call.lineAfter style before) (line target : Nat) :
    builder.resolvedJumps.get? line = some target ↔
      builder.jumps.get? line = some target ∨
        SegmentJump style (Call.lineAfter style before) segment line target := by
  have distinct : (builder.pendingJumps.map (·.1)).Nodup := by
    rw [tracks.pendingJumps_eq]
    exact nodup_waiting_lines ..
  rw [get?_resolvedJumps _ distinct, tracks.pending_iff_segmentJump, or_comm]
  refine or_congr_left (and_iff_left_of_imp fun jumped address waits => ?_)
  -- A line that had a jump is above the segment, so no jump of the segment waits on it.
  rw [tracks.pendingJumps_eq, mem_filterMap_waitingJump?] at waits
  rcases waits with ⟨jump, placed, _⟩
  have below := (Call.line_bounds_of_mem_placements placed).1
  have := above line target jumped
  omega

end Tracks

/-- After any calls a builder tracks its open segment, and its jumps are those of the closed
segments. -/
theorem tracks_and_get?_jumps (style : Style) {calls before segment : List Call}
    (isOpen : OpenSegment calls before segment) :
    ((new style).performAll calls).Tracks style before segment ∧
      ∀ line target, ((new style).performAll calls).jumps.get? line = some target ↔
        HasJump style calls line target := by
  induction calls using List.reverseRecOn generalizing before segment with
  | nil =>
      rcases OpenSegment.nil.unique isOpen with ⟨rfl, rfl⟩
      refine ⟨⟨fun _ => rfl, rfl⟩, fun line target => ⟨by simp [new], ?_⟩⟩
      rintro ⟨_, _, closed, _⟩
      rcases closed.split with ⟨after, split⟩
      simp at split
  | append_singleton calls call ih =>
      rcases OpenSegment.exists_of_calls calls with ⟨openBefore, openSegment, wasOpen⟩
      rcases ih wasOpen with ⟨tracks, jumps⟩
      have line_eq := line_performAll_new style calls
      rw [wasOpen.split, Call.lineAfter_append, ← wasOpen.split] at line_eq
      rw [performAll_append]
      generalize (new style).performAll calls = builder at tracks jumps line_eq
      simp only [performAll_cons, performAll_nil, HasJump.concat_iff wasOpen, ← jumps]
      by_cases isEnd : call = .endMethod
      · subst isEnd
        rcases (OpenSegment.nil_of_end calls).unique isOpen with ⟨rfl, rfl⟩
        have above (line target : Nat) (jumped : builder.jumps.get? line = some target) :=
          ((jumps line target).1 jumped).line_lt wasOpen
        refine ⟨Tracks.endMethod builder style _, fun line target => ?_⟩
        simpa [perform, endMethod] using tracks.get?_resolvedJumps_iff above line target
      · rcases (wasOpen.concat isEnd).unique isOpen with ⟨rfl, rfl⟩
        cases call with
        | startClass header =>
            exact ⟨tracks.of_no_placement (fun _ => rfl) rfl rfl,
              by simp [perform, startClass, write]⟩
        | startMethod method =>
            refine ⟨tracks.of_no_placement (fun _ => rfl) ?_ ?_, ?_⟩ <;>
              simp [perform, startMethod, foldl_write]
        | addInstruction instruction callee =>
            exact ⟨tracks.addInstruction line_eq instruction callee,
              by simp [perform, addInstruction]⟩
        | endMethod => exact absurd rfl isEnd

/-- The jumps of a builder are those of the closed segments of the calls it has been used by. -/
theorem get?_jumps_iff (style : Style) (calls : List Call) (line target : Nat) :
    ((new style).performAll calls).jumps.get? line = some target ↔
      HasJump style calls line target := by
  rcases OpenSegment.exists_of_calls calls with ⟨before, segment, isOpen⟩
  exact (tracks_and_get?_jumps style isOpen).2 line target

end Builder

/-- The jumps of a listing are those of the closed segments of the calls it is built by, whatever
these calls are; the listing of classes is built by the calls for these classes. -/
theorem jumpTarget?_build_iff (style : Style) (line target : Nat) :
    (∀ calls : List Call,
      ((Builder.new style).performAll calls).build.jumpTarget? line = some target ↔
        HasJump style calls line target) ∧
    ∀ classes : List Class,
      (ofClasses classes style).jumpTarget? line = some target ↔
        HasJump style (Call.ofClasses classes) line target := by
  have built (calls : List Call) :
      ((Builder.new style).performAll calls).build.jumpTarget? line = some target ↔
        HasJump style calls line target := by
    rcases OpenSegment.exists_of_calls calls with ⟨before, segment, isOpen⟩
    exact (Builder.tracks_and_get?_jumps style isOpen).2 line target
  refine ⟨built, fun classes => ?_⟩
  rw [ofClasses_eq_build]
  exact built _

end CompiledViews.Listing
