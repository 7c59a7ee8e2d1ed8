import CompiledViews.Host.Run
import CompiledViews.Proofs.Text.Utf8
import Mathlib.Data.List.Basic

/-!
# What is heard of channels

A line feed is no part of a longer character, so bytes that are decoded line by line decode to the
same text as in one piece, whatever they are. What is heard of two channels is some merge of their
lines: each line comes once, with its end, and after the lines of its channel before it. Every such
merge is heard in some order in which pieces of the output arrive.
-/

namespace CompiledViews

namespace Utf8

/-- A state in which a line feed does not go on with the character at hand. -/
def State.Breaks : State → Prop
  | between => True
  | inside _ _ lowest _ => 0x80 ≤ lowest

variable {state : State}

theorem breaks_between : State.between.Breaks := trivial

theorem breaks_start (byte : Nat) : (start byte).2.Breaks := by
  unfold start
  split_ifs <;> simp [State.Breaks]

theorem State.Breaks.step (breaks : state.Breaks) (byte : Nat) : (step byte state).2.Breaks := by
  cases state with
  | between => exact breaks_start byte
  | inside value left lowest highest =>
      simp only [Utf8.step]
      split_ifs
      · trivial
      · exact Nat.le_refl 0x80
      · exact breaks_start byte

/-- After a line feed the decoder is between characters. -/
theorem State.Breaks.step_lineFeed (breaks : state.Breaks) :
    (Utf8.step Bytes.lineFeed.toNat state).2 = .between := by
  have isFeed : Bytes.lineFeed.toNat = 0x0A := rfl
  cases state with
  | between => rfl
  | inside value left lowest highest =>
      have above : 0x80 ≤ lowest := breaks
      simp only [Utf8.step, isFeed]
      rw [if_neg (by omega)]
      rfl

/-- What bytes decode to from a state on if each line after the first one is decoded by itself. -/
def decodeLines (state : State) : List Bytes → List Piece
  | [] => finish state
  | line :: others => decodeFrom state line ++ others.flatMap decode

theorem decodeLines_lines (breaks : state.Breaks) (bytes : Bytes) :
    decodeLines state bytes.lines = decodeFrom state bytes := by
  induction bytes generalizing state with
  | nil => rfl
  | cons byte rest ih =>
      have unfolded : decodeFrom state (byte :: rest) =
          (step byte.toNat state).1 ++ decodeFrom (step byte.toNat state).2 rest := rfl
      rw [unfolded, ← ih (breaks.step byte.toNat), Bytes.lines]
      split
      case isTrue isFeed =>
        subst isFeed
        rw [breaks.step_lineFeed]
        cases Bytes.lines rest <;>
          simp [decodeLines, decodeFrom, decode, finish, breaks.step_lineFeed]
      case isFalse _ =>
        cases Bytes.lines rest <;> simp [decodeLines, decodeFrom]

end Utf8

/-- Bytes that are decoded line by line decode to the same text as in one piece. -/
theorem flatten_heardLines (bytes : Bytes) :
    (heardLines bytes).flatten = Utf8.lossyText bytes := by
  rw [Utf8.lossyText, Utf8.decode, ← Utf8.decodeLines_lines Utf8.breaks_between, heardLines]
  cases bytes.lines with
  | nil => rfl
  | cons line others =>
      simp only [List.map_cons, List.flatten_cons, Utf8.decodeLines, List.map_append,
        List.map_flatMap]
      rfl

/-- What is heard of bytes are their characters and a replacement for each invalid part. -/
theorem shows_heardLines (bytes : Bytes) : Utf8.Shows (heardLines bytes).flatten bytes := by
  rw [flatten_heardLines]
  exact Utf8.shows_iff.2 rfl

/-- The items of a channel, in their order. -/
def Channel.items {α : Type} (channel : Channel) (tagged : List (Channel × α)) : List α :=
  (tagged.filter fun item => item.1 = channel).map Prod.snd

/-- From each channel comes what is printed to it, in pieces, and then its end. -/
def Delivers (arrivals : List (Channel × Arrival)) (printed : Channel → Bytes) : Prop :=
  ∀ channel : Channel, ∃ pieces : List Bytes,
    channel.items arrivals = pieces.map Arrival.bytes ++ [.close] ∧ pieces.flatten = printed channel

section items

variable {α : Type} {channel other : Channel}

@[simp]
theorem items_nil : channel.items ([] : List (Channel × α)) = [] := rfl

@[simp]
theorem items_append (front back : List (Channel × α)) :
    channel.items (front ++ back) = channel.items front ++ channel.items back := by
  simp [Channel.items]

@[simp]
theorem items_map_self (items : List α) : channel.items (items.map (channel, ·)) = items := by
  simp [Channel.items, List.filter_map, Function.comp_def]

theorem items_map_of_ne (different : other ≠ channel) (items : List α) :
    other.items (items.map (channel, ·)) = [] := by
  simp [Channel.items, List.filter_map, Function.comp_def, different.symm]

@[simp]
theorem items_cons_self (item : α) (rest : List (Channel × α)) :
    channel.items ((channel, item) :: rest) = item :: channel.items rest := by
  simp [Channel.items]

theorem items_cons_of_ne (different : other ≠ channel) (item : α) (rest : List (Channel × α)) :
    other.items ((channel, item) :: rest) = other.items rest := by
  simp [Channel.items, different.symm]

end items

namespace Bytes

theorem lines_append_lineFeed {front : Bytes} (noFeed : lineFeed ∉ front) (rest : Bytes) :
    lines (front ++ lineFeed :: rest) = (front ++ [lineFeed]) :: lines rest := by
  induction front with
  | nil => simp [lines]
  | cons byte front ih =>
      rw [List.mem_cons, not_or] at noFeed
      rw [List.cons_append, lines, if_neg (Ne.symm noFeed.1), ih noFeed.2]
      rfl

theorem lines_eq_singleton {bytes : Bytes} (noFeed : lineFeed ∉ bytes) (nonempty : bytes ≠ []) :
    lines bytes = [bytes] := by
  induction bytes with
  | nil => exact absurd rfl nonempty
  | cons byte rest ih =>
      rw [List.mem_cons, not_or] at noFeed
      rw [lines, if_neg (Ne.symm noFeed.1)]
      cases rest with
      | nil => rfl
      | cons next rest => rw [ih noFeed.2 (List.cons_ne_nil next rest)]

/-- Bytes with a first line: either it ends in a line feed, or it is all there is. -/
theorem exists_of_lines_cons {bytes line : Bytes} {others : List Bytes}
    (isLine : lines bytes = line :: others) : ∃ front, lineFeed ∉ front ∧
      ((∃ rest, line = front ++ [lineFeed] ∧ others = lines rest) ∨
        line = front ∧ front ≠ [] ∧ others = []) := by
  by_cases feed : lineFeed ∈ bytes
  · rcases List.eq_append_cons_of_mem feed with ⟨front, rest, rfl, noFeed⟩
    rw [lines_append_lineFeed noFeed, List.cons.injEq] at isLine
    rcases isLine with ⟨rfl, rfl⟩
    exact ⟨front, noFeed, .inl ⟨rest, rfl, rfl⟩⟩
  · have nonempty : bytes ≠ [] := by
      rintro rfl
      cases isLine
    rw [lines_eq_singleton feed nonempty, List.cons.injEq] at isLine
    rcases isLine with ⟨rfl, rfl⟩
    exact ⟨bytes, feed, .inr ⟨rfl, nonempty, rfl⟩⟩

end Bytes

namespace Listener

variable {listener : Listener} {channel other : Channel} {printed : Bytes}

/-- The listener after lines have come from a channel, with the bytes of the next one. -/
def sent (listener : Listener) (channel : Channel) (lines : List Bytes) (next : Bytes) :
    Listener :=
  { listener with lines := (lines.map Utf8.lossyText).reverse ++ listener.lines }.setUnfinished
    channel next

@[simp]
theorem lines_sent (lines : List Bytes) (next : Bytes) :
    (listener.sent channel lines next).lines =
      (lines.map Utf8.lossyText).reverse ++ listener.lines := by
  cases channel <;> rfl

@[simp]
theorem unfinished_sent_self (lines : List Bytes) (next : Bytes) :
    (listener.sent channel lines next).unfinished channel = next := by
  cases channel <;> rfl

theorem unfinished_sent_of_ne (different : other ≠ channel) (lines : List Bytes) (next : Bytes) :
    (listener.sent channel lines next).unfinished other = listener.unfinished other := by
  cases channel <;> cases other <;> first | rfl | exact absurd rfl different

@[simp]
theorem sent_sent (lines more : List Bytes) (next last : Bytes) :
    (listener.sent channel lines next).sent channel more last =
      listener.sent channel (lines ++ more) last := by
  cases channel <;> simp [sent, setUnfinished]

theorem sent_nil : listener.sent channel [] (listener.unfinished channel) = listener := by
  cases channel <;> rfl

theorem hear_lineFeed : hear channel listener Bytes.lineFeed =
    listener.sent channel [(listener.unfinished channel).reverse ++ [Bytes.lineFeed]] [] := by
  cases channel <;> simp [hear, sent, setUnfinished, unfinished, endLine]

theorem hear_of_ne {byte : UInt8} (noFeed : byte ≠ Bytes.lineFeed) :
    hear channel listener byte =
      listener.sent channel [] (byte :: listener.unfinished channel) := by
  simp [hear, noFeed, sent]

/-- The end of a channel is the end of its unfinished line. -/
theorem endLine_eq (noFeed : Bytes.lineFeed ∉ listener.unfinished channel) :
    listener.endLine channel =
      listener.sent channel (Bytes.lines (listener.unfinished channel).reverse) [] := by
  cases unfinished : listener.unfinished channel with
  | nil =>
      have rests : listener.sent channel [] (listener.unfinished channel) = listener := sent_nil
      rw [unfinished] at rests
      simpa [endLine, unfinished, Bytes.lines] using rests.symm
  | cons byte rest =>
      rw [unfinished] at noFeed
      rw [Bytes.lines_eq_singleton (by simpa [and_comm] using noFeed) (by simp)]
      simp only [endLine, unfinished]
      rfl

/-- A byte completes a line or goes on with it. -/
theorem exists_sent_of_hear (noFeed : Bytes.lineFeed ∉ listener.unfinished channel)
    (byte : UInt8) :
    ∃ lines next, hear channel listener byte = listener.sent channel lines next ∧
      Bytes.lineFeed ∉ next ∧
      ∀ more, Bytes.lines ((listener.unfinished channel).reverse ++ byte :: more) =
        lines ++ Bytes.lines (next.reverse ++ more) := by
  by_cases isFeed : byte = Bytes.lineFeed
  · subst isFeed
    refine ⟨_, _, hear_lineFeed, List.not_mem_nil, fun more => ?_⟩
    rw [Bytes.lines_append_lineFeed (by simpa using noFeed)]
    rfl
  · refine ⟨_, _, hear_of_ne isFeed, ?_, fun more => ?_⟩
    · rw [List.mem_cons, not_or]
      exact ⟨Ne.symm isFeed, noFeed⟩
    · simp

/-- The lines that bytes complete, and the one that they leave unfinished, are the lines of these
bytes after what was unfinished before, whatever comes next. -/
theorem exists_sent (noFeed : Bytes.lineFeed ∉ listener.unfinished channel) (printed : Bytes) :
    ∃ lines next, printed.foldl (hear channel) listener = listener.sent channel lines next ∧
      Bytes.lineFeed ∉ next ∧
      ∀ more, Bytes.lines ((listener.unfinished channel).reverse ++ (printed ++ more)) =
        lines ++ Bytes.lines (next.reverse ++ more) := by
  induction printed generalizing listener with
  | nil => exact ⟨[], listener.unfinished channel, sent_nil.symm, noFeed, fun more => rfl⟩
  | cons byte printed ih =>
      rcases exists_sent_of_hear noFeed byte with ⟨first, middle, isFirst, noFeedMiddle, begins⟩
      have later := @ih (listener.sent channel first middle) (by rwa [unfinished_sent_self])
      rw [unfinished_sent_self] at later
      rcases later with ⟨lines, next, isSent, noFeedNext, same⟩
      refine ⟨first ++ lines, next, ?_, noFeedNext, fun more => ?_⟩
      · rw [List.foldl_cons, isFirst, isSent, sent_sent]
      · rw [List.cons_append, begins, same, List.append_assoc]

/-- What a channel has still to bring: nothing once it is closed, else pieces and its end, with the
lines of what is unfinished and these. -/
def Awaits (listener : Listener) (arrivals : List (Channel × Arrival)) (channel : Channel)
    (lines : List Bytes) : Prop :=
  (channel.items arrivals = [] ∧ lines = []) ∨
    ∃ pieces : List Bytes, channel.items arrivals = pieces.map Arrival.bytes ++ [.close] ∧
      Bytes.lineFeed ∉ listener.unfinished channel ∧
      lines = Bytes.lines ((listener.unfinished channel).reverse ++ pieces.flatten)

/-- Lines of a channel come before those that it has still to bring; the other channel is left as it
is. -/
theorem Awaits.of_sent {arrivals : List (Channel × Arrival)} {arrival : Arrival}
    {parts : Channel → List Bytes} {lines rest : List Bytes} {next : Bytes}
    (awaits : ∀ other, listener.Awaits ((channel, arrival) :: arrivals) other (parts other))
    (goesOn : (listener.sent channel lines next).Awaits arrivals channel rest) (other : Channel) :
    (listener.sent channel lines next).Awaits arrivals other
      (if other = channel then rest else parts other) := by
  by_cases same : other = channel
  · rw [if_pos same, same]
    exact goesOn
  · rw [if_neg same]
    have before := awaits other
    rwa [Awaits, items_cons_of_ne same, ← unfinished_sent_of_ne same lines next] at before

/-- What arrives adds a merge of the lines that the channels have still to bring. -/
theorem exists_merge {arrivals : List (Channel × Arrival)} {parts : Channel → List Bytes}
    (awaits : ∀ channel, listener.Awaits arrivals channel (parts channel)) :
    ∃ tagged : List (Channel × Bytes),
      (arrivals.foldl receive listener).lines =
        (tagged.map fun line => Utf8.lossyText line.2).reverse ++ listener.lines ∧
      ∀ channel : Channel, channel.items tagged = parts channel := by
  induction arrivals generalizing listener parts with
  | nil =>
      refine ⟨[], rfl, fun channel => ?_⟩
      rcases awaits channel with ⟨_, none⟩ | ⟨pieces, impossible, _⟩
      · rw [none, items_nil]
      · simp at impossible
  | cons first arrivals ih =>
      rcases first with ⟨channel, arrival⟩
      -- The lines that this arrival completes come first, then those that the others bring.
      have collect {lines rest : List Bytes} {next : Bytes}
          (received : listener.receive (channel, arrival) = listener.sent channel lines next)
          (goesOn : (listener.sent channel lines next).Awaits arrivals channel rest)
          (parted : parts channel = lines ++ rest) :
          ∃ tagged : List (Channel × Bytes),
            (((channel, arrival) :: arrivals).foldl receive listener).lines =
              (tagged.map fun line => Utf8.lossyText line.2).reverse ++ listener.lines ∧
            ∀ channel : Channel, channel.items tagged = parts channel := by
        rcases ih (Awaits.of_sent awaits goesOn) with ⟨tagged, same, items⟩
        refine ⟨lines.map (channel, ·) ++ tagged, ?_, fun other => ?_⟩
        · rw [List.foldl_cons, received, same, lines_sent]
          simp [Function.comp_def]
        · rw [items_append, items other]
          by_cases isOwn : other = channel
          · simp [isOwn, parted]
          · simp [isOwn, items_map_of_ne isOwn]
      rcases awaits channel with ⟨impossible, _⟩ | ⟨pieces, isPieces, noFeed, isLines⟩
      · simp at impossible
      · rw [items_cons_self] at isPieces
        cases pieces with
        | nil =>
            rcases List.cons.inj isPieces with ⟨rfl, none⟩
            refine collect (endLine_eq noFeed) (.inl ⟨none, rfl⟩) ?_
            simpa using isLines
        | cons printed pieces =>
            rcases List.cons.inj isPieces with ⟨rfl, others⟩
            rcases exists_sent noFeed printed with ⟨lines, next, isSent, noFeedNext, same⟩
            refine collect isSent (.inr ⟨pieces, others, ?_, rfl⟩) ?_
            · rwa [unfinished_sent_self]
            · rw [isLines, unfinished_sent_self]
              exact same pieces.flatten

theorem foldl_hear (noFeed : Bytes.lineFeed ∉ printed) :
    printed.foldl (hear channel) listener =
      listener.sent channel [] (printed.reverse ++ listener.unfinished channel) := by
  induction printed generalizing listener with
  | nil => exact sent_nil.symm
  | cons byte printed ih =>
      rw [List.mem_cons, not_or] at noFeed
      rw [List.foldl_cons, hear_of_ne (Ne.symm noFeed.1), ih noFeed.2, sent_sent]
      simp

/-- A line that arrives as a whole, and the end of the channel if it is the last one. -/
def arrivalsOf : List (Channel × Bytes) → List (Channel × Arrival)
  | [] => []
  | (channel, line) :: rest =>
    (channel, .bytes line) ::
      ((if channel.items rest = [] then [(channel, .close)] else []) ++ arrivalsOf rest)

theorem items_arrivalsOf (channel : Channel) (tagged : List (Channel × Bytes)) :
    channel.items (arrivalsOf tagged) =
      if channel.items tagged = [] then [] else (channel.items tagged).map .bytes ++ [.close] := by
  induction tagged with
  | nil => rfl
  | cons line rest ih =>
      rcases line with ⟨other, line⟩
      by_cases same : other = channel
      · subst same
        simp only [arrivalsOf, items_cons_self, items_append, ih]
        by_cases last : other.items rest = [] <;> simp [last]
      · have different : channel ≠ other := Ne.symm same
        simp only [arrivalsOf, items_cons_of_ne different, items_append, ih]
        by_cases last : other.items rest = [] <;> simp [last, items_cons_of_ne different]

/-- A whole line is heard as it arrives, or as its channel is closed if no line feed ends it. -/
theorem foldl_receive_line {line : Bytes} {closes : Prop} [Decidable closes]
    (isLine : ∃ front, Bytes.lineFeed ∉ front ∧
      (line = front ++ [Bytes.lineFeed] ∨ line = front ∧ front ≠ [] ∧ closes))
    (finished : listener.unfinished channel = []) :
    ((channel, .bytes line) :: if closes then [(channel, .close)] else []).foldl receive listener =
      listener.sent channel [line] [] := by
  rcases isLine with ⟨front, noFeed, rfl | ⟨rfl, nonempty, isLast⟩⟩
  · have complete : receive listener (channel, .bytes (front ++ [Bytes.lineFeed])) =
        listener.sent channel [front ++ [Bytes.lineFeed]] [] := by
      simp [receive, List.foldl_append, foldl_hear noFeed, hear_lineFeed, finished]
    rw [List.foldl_cons, complete]
    split
    · simp [receive, endLine_eq, Bytes.lines]
    · rfl
  · have unended : receive listener (channel, .bytes line) =
        listener.sent channel [] line.reverse := by
      simp [receive, foldl_hear noFeed, finished]
    have ended : receive (listener.sent channel [] line.reverse) (channel, .close) =
        listener.sent channel [line] [] := by
      rw [receive, endLine_eq (by simpa using noFeed), unfinished_sent_self, List.reverse_reverse,
        Bytes.lines_eq_singleton noFeed nonempty, sent_sent]
      rfl
    rw [List.foldl_cons, unended, if_pos isLast]
    exact ended

/-- Whole lines are heard in the order in which they arrive. -/
theorem foldl_arrivalsOf {tagged : List (Channel × Bytes)}
    (whole : ∀ channel : Channel, ∃ bytes, channel.items tagged = Bytes.lines bytes)
    (finished : ∀ channel, listener.unfinished channel = []) :
    ((arrivalsOf tagged).foldl receive listener).lines =
        (tagged.map fun line => Utf8.lossyText line.2).reverse ++ listener.lines := by
  induction tagged generalizing listener with
  | nil => rfl
  | cons first rest ih =>
      rcases first with ⟨channel, line⟩
      have isFirst : ∃ front, Bytes.lineFeed ∉ front ∧
          ((∃ bytes, line = front ++ [Bytes.lineFeed] ∧ channel.items rest = Bytes.lines bytes) ∨
            line = front ∧ front ≠ [] ∧ channel.items rest = []) := by
        rcases whole channel with ⟨bytes, isLines⟩
        rw [items_cons_self] at isLines
        exact Bytes.exists_of_lines_cons isLines.symm
      have received : ((channel, .bytes line) ::
          if channel.items rest = [] then [(channel, .close)] else []).foldl receive listener =
            listener.sent channel [line] [] := by
        apply foldl_receive_line _ (finished channel)
        rcases isFirst with ⟨front, noFeed, ⟨_, isLine, _⟩ | isLine⟩
        · exact ⟨front, noFeed, .inl isLine⟩
        · exact ⟨front, noFeed, .inr isLine⟩
      have others : ∀ other : Channel, ∃ bytes, other.items rest = Bytes.lines bytes := by
        intro other
        by_cases same : other = channel
        · rcases isFirst with ⟨front, _, ⟨bytes, _, isRest⟩ | ⟨_, _, none⟩⟩
          · exact ⟨bytes, same ▸ isRest⟩
          · exact ⟨[], same ▸ none⟩
        · rcases whole other with ⟨bytes, isLines⟩
          exact ⟨bytes, by rw [← isLines, items_cons_of_ne same]⟩
      have finishedLater : ∀ other, (listener.sent channel [line] []).unfinished other = [] := by
        intro other
        by_cases same : other = channel
        · rw [same, unfinished_sent_self]
        · rw [unfinished_sent_of_ne same, finished]
      rw [arrivalsOf, ← List.cons_append, List.foldl_append, received, ih others finishedLater]
      simp

end Listener

theorem Bytes.flatten_lines (bytes : Bytes) : (lines bytes).flatten = bytes := by
  induction bytes with
  | nil => rfl
  | cons byte rest ih =>
      rw [lines]
      split
      · simp [ih]
      · cases isLines : lines rest <;> simp_all

/-- A merge of lists whose items are made from others is made from a merge of these. -/
theorem exists_of_items_eq_map {α β : Type} {make : α → β} {tagged : List (Channel × β)}
    {parts : Channel → List α}
    (isMerge : ∀ channel : Channel, channel.items tagged = (parts channel).map make) :
    ∃ sources : List (Channel × α), tagged = sources.map (fun (channel, item) =>
      (channel, make item)) ∧ ∀ channel : Channel, channel.items sources = parts channel := by
  induction tagged generalizing parts with
  | nil => exact ⟨[], rfl, fun channel => (List.map_eq_nil_iff.1 (isMerge channel).symm).symm⟩
  | cons first rest ih =>
      rcases first with ⟨channel, item⟩
      have own := isMerge channel
      rw [items_cons_self, eq_comm, List.map_eq_cons_iff] at own
      rcases own with ⟨source, others, isParts, rfl, isRest⟩
      have later (other : Channel) : other.items rest =
          (if other = channel then others else parts other).map make := by
        by_cases same : other = channel
        · rw [if_pos same, same, isRest]
        · rw [if_neg same, ← isMerge other, items_cons_of_ne same]
      rcases ih later with ⟨sources, rfl, items⟩
      refine ⟨(channel, source) :: sources, rfl, fun other => ?_⟩
      by_cases same : other = channel
      · subst same
        rw [items_cons_self, items, if_pos rfl, isParts]
      · rw [items_cons_of_ne same, items, if_neg same]

/-- What is heard of the channels is a merge of their lines. -/
theorem Delivers.exists_merge {arrivals : List (Channel × Arrival)} {printed : Channel → Bytes}
    (delivers : Delivers arrivals printed) :
    ∃ lines : List (Channel × Text),
      (∀ channel : Channel, channel.items lines = heardLines (printed channel)) ∧
        (lines.map Prod.snd).flatten = heard arrivals := by
  have awaits (channel : Channel) :
      Listener.new.Awaits arrivals channel (Bytes.lines (printed channel)) := by
    rcases delivers channel with ⟨pieces, isPieces, whole⟩
    refine .inr ⟨pieces, isPieces, ?_, ?_⟩ <;> cases channel <;>
      simp [Listener.new, Listener.unfinished, whole]
  rcases Listener.exists_merge awaits with ⟨tagged, same, items⟩
  refine ⟨tagged.map fun line => (line.1, Utf8.lossyText line.2), fun channel => ?_, ?_⟩
  · rw [heardLines, ← items]
    simp [Channel.items, List.filter_map, Function.comp_def]
  · rw [heard, same]
    simp [Listener.new, Function.comp_def]

/-- The ends of the channels that bring no lines. -/
def Listener.closedOf (tagged : List (Channel × Bytes)) : List (Channel × Arrival) :=
  [Channel.output, Channel.diagnostics].flatMap fun channel =>
    if channel.items tagged = [] then [(channel, .close)] else []

theorem Listener.items_closedOf (channel : Channel) (tagged : List (Channel × Bytes)) :
    channel.items (closedOf tagged) = if channel.items tagged = [] then [.close] else [] := by
  simp only [closedOf, List.flatMap_cons, List.flatMap_nil, items_append, items_nil]
  cases channel <;> split_ifs <;> rfl

/-- The end of a channel without an unfinished line is not heard. -/
theorem Listener.foldl_closedOf (tagged : List (Channel × Bytes)) :
    (closedOf tagged).foldl receive new = new := by
  simp only [closedOf, List.flatMap_cons, List.flatMap_nil]
  split_ifs <;> rfl

/-- The lines of the channels are heard in every order that keeps those of each channel in
theirs. -/
theorem exists_delivers {printed : Channel → Bytes} {lines : List (Channel × Text)}
    (isMerge : ∀ channel : Channel, channel.items lines = heardLines (printed channel)) :
    ∃ arrivals, Delivers arrivals printed ∧ heard arrivals = (lines.map Prod.snd).flatten := by
  rcases exists_of_items_eq_map isMerge with ⟨tagged, rfl, items⟩
  -- A channel without lines is closed at the beginning.
  refine ⟨Listener.closedOf tagged ++ Listener.arrivalsOf tagged, fun channel => ?_, ?_⟩
  · refine ⟨Bytes.lines (printed channel), ?_, Bytes.flatten_lines _⟩
    rw [items_append, Listener.items_closedOf, Listener.items_arrivalsOf, items]
    split
    · simp_all
    · rfl
  · have whole (channel : Channel) : ∃ bytes, channel.items tagged = Bytes.lines bytes :=
      ⟨_, items channel⟩
    rw [heard, List.foldl_append, Listener.foldl_closedOf, Listener.foldl_arrivalsOf whole]
    · simp [Listener.new, Function.comp_def]
    · intro channel
      cases channel <;> rfl

/-- What is printed in pieces, until both channels are closed. -/
theorem delivers_heardText (shown : List (Channel × Bytes)) :
    Delivers (shown.map (fun (channel, bytes) => (channel, Arrival.bytes bytes)) ++
      [(Channel.output, .close), (.diagnostics, .close)])
      fun channel => (channel.items shown).flatten := by
  intro channel
  refine ⟨channel.items shown, ?_, rfl⟩
  cases channel <;> simp [Channel.items, List.filter_map, Function.comp_def]

/-- The exit codes that ends of programs are told by. -/
inductive ProgramEnd.ToldBy : ProgramEnd → Int → Prop
  | exited (status : Nat) : ToldBy (.exited status) status
  | killed : ToldBy .killed (-1)

/-- What a command leaves behind, whatever its program does: the lines of both channels, and how it
ended. -/
theorem Host.performs_of_run {programs : Programs} {host : Host} {command : Command}
    {cancelAfter : Option Nat} {result : ToolResult}
    (finished : host.run programs command cancelAfter = .ok result) :
    ∃ seen place performance, host.launch host.files command = .ok (seen, place) ∧
      programs host seen command cancelAfter = performance ∧
      performance.ending.ToldBy result.exitCode ∧
      ∃ lines : List (Channel × Text),
        (∀ channel : Channel,
          channel.items lines = heardLines (channel.items performance.printed).flatten) ∧
        (lines.map Prod.snd).flatten = result.output := by
  unfold Host.run at finished
  split at finished
  · cases finished
  cases isLaunched : host.launch host.files command with
  | error error =>
      rw [isLaunched] at finished
      cases finished
  | ok launched =>
      rcases launched with ⟨seen, place⟩
      rw [isLaunched] at finished
      have isMerge :=
        (delivers_heardText (programs host seen command cancelAfter).printed).exists_merge
      refine ⟨seen, place, _, rfl, rfl, ?_⟩
      cases hasEnded : (programs host seen command cancelAfter).ending with
      | exited status =>
          simp only [hasEnded] at finished
          cases finished
          exact ⟨.exited status, isMerge⟩
      | killed =>
          simp only [hasEnded] at finished
          cases finished
          exact ⟨.killed, isMerge⟩
      | overdue =>
          simp only [hasEnded] at finished
          cases finished

/-- Nothing is lost by hearing line by line. The lines of any bytes decode to the text of the whole,
and in whatever order pieces of two channels arrive, what is heard are their lines, each one once
and after those of its channel that come before it; there is such an order for every merge of the
lines, and what is printed in pieces is heard so, too. -/
theorem heard_linewise :
    (∀ bytes, (heardLines bytes).flatten = Utf8.lossyText bytes) ∧
    (∀ (printed : Channel → Bytes) (text : Text),
      (∃ arrivals, Delivers arrivals printed ∧ heard arrivals = text) ↔
        ∃ lines : List (Channel × Text),
          (∀ channel : Channel, channel.items lines = heardLines (printed channel)) ∧
            (lines.map Prod.snd).flatten = text) ∧
    ∀ shown : List (Channel × Bytes), ∃ lines : List (Channel × Text),
      (∀ channel : Channel, channel.items lines = heardLines (channel.items shown).flatten) ∧
        (lines.map Prod.snd).flatten = heardText shown := by
  refine ⟨flatten_heardLines, fun printed text => ⟨?_, ?_⟩, fun shown => ?_⟩
  · rintro ⟨arrivals, delivers, rfl⟩
    exact delivers.exists_merge
  · rintro ⟨lines, isMerge, rfl⟩
    exact exists_delivers isMerge
  · exact (delivers_heardText shown).exists_merge

end CompiledViews
