import CompiledViews.Proofs.Settings.Record
import CompiledViews.Proofs.Text.Utf8
import CompiledViews.Settings.Load

/-!
# Settings that are loaded

A settings file is an object that may give any of the fields, and for the visible views and the
style any of theirs. The settings that are loaded from it are the default ones with the values of
exactly the given fields, whatever the order of the members, however their texts are spelled, and
whatever members of other names there are.
-/

namespace CompiledViews

open Json

variable {text : Text}

namespace VisibleViews

/-- The views that are visible by default, but the given ones as in another choice. -/
def overriding (views : VisibleViews) (given : Finset View) : VisibleViews where
  byteCode := if .byteCode ∈ given then views.byteCode else default.byteCode
  dex := if .dex ∈ given then views.dex else default.dex
  oat := if .oat ∈ given then views.oat else default.oat

/-- The value that a view has in a settings file. -/
def value (views : VisibleViews) (view : View) : Json := .bool (views.shows view)

theorem takesFields (views : VisibleViews) :
    TakesFields fields View.name (fun view => IsTextOf (views.value view)) views.overriding := by
  refine takesFields_of_names View.all (fun view => ?_) rfl (by decide) ?_
  · cases view <;> decide
  · intro given view text isText
    cases view <;>
      exact exists_known_of_reader rfl (reads_readBool isText) (by simp [overriding, shows])

end VisibleViews

namespace Style

/-- The fields of a style. -/
inductive Field where
  | indent
  | lineNumberWidth
  | showLineNumbers
deriving DecidableEq, Repr

namespace Field

/-- All fields, in the order in which they are declared. -/
def all : List Field := [indent, lineNumberWidth, showLineNumbers]

/-- The name of a field in a settings file. -/
def name : Field → Text
  | indent => "indent"
  | lineNumberWidth => "lineNumberWidth"
  | showLineNumbers => "showLineNumbers"

end Field

/-- The default style, but the given fields as in another one. -/
def overriding (style : Style) (given : Finset Field) : Style where
  indent := if .indent ∈ given then style.indent else default.indent
  lineNumberWidth :=
    if .lineNumberWidth ∈ given then style.lineNumberWidth else default.lineNumberWidth
  showLineNumbers :=
    if .showLineNumbers ∈ given then style.showLineNumbers else default.showLineNumbers

/-- The value that a field has in a settings file. -/
def value (style : Style) : Field → Json
  | .indent => .natural style.indent
  | .lineNumberWidth => .natural style.lineNumberWidth
  | .showLineNumbers => .bool style.showLineNumbers

/-- Columns are counted in sixty-four bits. -/
structure InRange (style : Style) : Prop where
  indent : style.indent < Nat.pow 2 64
  lineNumberWidth : style.lineNumberWidth < Nat.pow 2 64

theorem takesFields {style : Style} (inRange : style.InRange) :
    TakesFields fields Field.name (fun field => IsTextOf (style.value field)) style.overriding := by
  refine takesFields_of_names Field.all (fun field => ?_) rfl (by decide) ?_
  · cases field <;> decide
  · intro given field text isText
    cases field with
    | indent =>
        exact exists_known_of_reader rfl (reads_readNatural isText inRange.indent inRange.indent)
          (by simp [overriding])
    | lineNumberWidth =>
        exact exists_known_of_reader rfl
          (reads_readNatural isText inRange.lineNumberWidth inRange.lineNumberWidth)
          (by simp [overriding])
    | showLineNumbers =>
        exact exists_known_of_reader rfl (reads_readBool isText) (by simp [overriding])

end Style

namespace Settings

/-- The fields of settings. -/
inductive Field where
  | optimize
  | keepEverything
  | minApiLevel
  | compilerFlags
  | r8Rules
  | kotlinOnlyConsumers
  | views
  | decompileHidden
  | style
  | androidHome
  | kotlinHome
  | scratchDirectory
deriving DecidableEq, Repr

namespace Field

/-- All fields, in the order in which they are declared. -/
def all : List Field := [
  optimize, keepEverything, minApiLevel, compilerFlags, r8Rules, kotlinOnlyConsumers, views,
  decompileHidden, style, androidHome, kotlinHome, scratchDirectory]

/-- The name of a field in a settings file. -/
def name : Field → Text
  | optimize => "optimize"
  | keepEverything => "keepEverything"
  | minApiLevel => "minApiLevel"
  | compilerFlags => "compilerFlags"
  | r8Rules => "r8Rules"
  | kotlinOnlyConsumers => "kotlinOnlyConsumers"
  | views => "views"
  | decompileHidden => "decompileHiddenIsa"
  | style => "style"
  | androidHome => "androidHome"
  | kotlinHome => "kotlinHome"
  | scratchDirectory => "scratchDir"

end Field

/-- Fields that are given, and which fields of the views and of the style these give. -/
structure Selection where
  fields : Finset Field
  views : Finset View
  style : Finset Style.Field

/-- The default settings, but the selected fields as in other settings. -/
def overriding (settings : Settings) (selection : Selection) : Settings where
  optimize := if .optimize ∈ selection.fields then settings.optimize else default.optimize
  keepEverything :=
    if .keepEverything ∈ selection.fields then settings.keepEverything else default.keepEverything
  minApiLevel :=
    if .minApiLevel ∈ selection.fields then settings.minApiLevel else default.minApiLevel
  compilerFlags :=
    if .compilerFlags ∈ selection.fields then settings.compilerFlags else default.compilerFlags
  r8Rules := if .r8Rules ∈ selection.fields then settings.r8Rules else default.r8Rules
  kotlinOnlyConsumers :=
    if .kotlinOnlyConsumers ∈ selection.fields then settings.kotlinOnlyConsumers
    else default.kotlinOnlyConsumers
  views :=
    if .views ∈ selection.fields then settings.views.overriding selection.views else default.views
  decompileHidden :=
    if .decompileHidden ∈ selection.fields then settings.decompileHidden
    else default.decompileHidden
  style :=
    if .style ∈ selection.fields then settings.style.overriding selection.style else default.style
  androidHome :=
    if .androidHome ∈ selection.fields then settings.androidHome else default.androidHome
  kotlinHome := if .kotlinHome ∈ selection.fields then settings.kotlinHome else default.kotlinHome
  scratchDirectory :=
    if .scratchDirectory ∈ selection.fields then settings.scratchDirectory
    else default.scratchDirectory

/-- What a text must be to give a field the value that it has in settings. -/
def Gives (settings : Settings) (selection : Selection) : Field → Text → Prop
  | .optimize => IsTextOf (.bool settings.optimize)
  | .keepEverything => IsTextOf (.bool settings.keepEverything)
  | .minApiLevel => IsTextOf (.natural settings.minApiLevel)
  | .compilerFlags => IsTextOf (.string settings.compilerFlags)
  | .r8Rules => IsTextOf (.string settings.r8Rules)
  | .kotlinOnlyConsumers => IsTextOf (.bool settings.kotlinOnlyConsumers)
  | .views =>
    IsRecord View.name (fun view => IsTextOf (settings.views.value view)) selection.views
  | .decompileHidden => IsTextOf (.bool settings.decompileHidden)
  | .style =>
    IsRecord Style.Field.name (fun field => IsTextOf (settings.style.value field)) selection.style
  | .androidHome => IsTextOf (ofPath? settings.androidHome)
  | .kotlinHome => IsTextOf (ofPath? settings.kotlinHome)
  | .scratchDirectory => IsTextOf (ofPath? settings.scratchDirectory)

/-- Whether the text of a settings file gives the selected fields the values that they have in
settings, and no others. -/
def GivenBy (settings : Settings) (selection : Selection) (text : Text) : Prop :=
  ∃ before object after, AreBlanks before ∧ AreBlanks after ∧
    IsRecord Field.name (settings.Gives selection) selection.fields object ∧
    text = before ++ (object ++ after)

/-- Versions of the system are counted in thirty-two bits. -/
structure InRange (settings : Settings) : Prop where
  minApiLevel : settings.minApiLevel < Nat.pow 2 32
  style : settings.style.InRange

/-- The settings when some of the selected fields have been given. -/
def overridingFields (settings : Settings) (selection : Selection) (given : Finset Field) :
    Settings :=
  settings.overriding { selection with fields := given }

theorem takesFields {settings : Settings} (inRange : settings.InRange) (selection : Selection) :
    TakesFields fields Field.name (settings.Gives selection)
      (settings.overridingFields selection) := by
  have isExact : settings.minApiLevel < exactLimit :=
    inRange.minApiLevel.trans (by decide)
  refine takesFields_of_names Field.all (fun field => ?_) rfl (by decide) ?_
  · cases field <;> decide
  · intro given field text gives
    cases field with
    | minApiLevel =>
        exact exists_known_of_reader rfl (reads_readNatural gives inRange.minApiLevel isExact)
          (by simp [overridingFields, overriding])
    | compilerFlags | r8Rules =>
        exact exists_known_of_reader rfl (reads_readText gives)
          (by simp [overridingFields, overriding])
    | views =>
        exact exists_known_of_reader rfl (reads_readRecord _ settings.views.takesFields gives)
          (by simp [overridingFields, overriding])
    | style =>
        exact exists_known_of_reader rfl
          (reads_readRecord _ (Style.takesFields inRange.style) gives)
          (by simp [overridingFields, overriding])
    | androidHome | kotlinHome | scratchDirectory =>
        exact exists_known_of_reader rfl (reads_readPath? gives)
          (by simp [overridingFields, overriding])
    | _ =>
        exact exists_known_of_reader rfl (reads_readBool gives)
          (by simp [overridingFields, overriding])

theorem overridingFields_empty (settings : Settings) (selection : Selection) :
    settings.overridingFields selection ∅ = default := by
  simp [overridingFields, overriding, default]

/-- The text that gives selected fields is read as the default settings with these fields. -/
theorem read_of_givenBy {settings : Settings} (inRange : settings.InRange) {selection : Selection}
    (given : settings.GivenBy selection text) :
    Settings.read text = .ok (settings.overriding selection) := by
  rcases given with ⟨before, object, after, areBefore, areAfter, isRecord, rfl⟩
  have ends : Follows after := by
    rw [← List.append_nil after]
    exact Follows.blanks areAfter (by intro first isFirst; cases isFirst)
  have isEnd : readEnd after = .ok () := by
    have isEmpty := skipBlanks_append areAfter []
    rw [List.append_nil] at isEmpty
    rw [readEnd, isEmpty]
    rfl
  have isRead := reads_readRecord "struct PipelineConfig" (takesFields inRange selection) isRecord
    areBefore ends
  rw [overridingFields_empty] at isRead
  rw [Settings.read, isRead]
  change (do
    readEnd after
    pure (settings.overridingFields selection selection.fields)) = _
  rw [isEnd]
  rfl

theorem load_of_read {tree : FileTree} {path : Text} {settings : Settings}
    (isFile : tree.readBytes path = .ok (Text.utf8 text))
    (isRead : Settings.read text = .ok settings) : load tree path = .ok settings := by
  have isText : tree.readText path = .ok text := by
    simp only [FileTree.readText, isFile, bind, Except.bind, Utf8.text?_utf8, pure, Except.pure]
  rw [load, isText]
  change (Settings.read text).mapError (LoadError.invalid path) = .ok settings
  rw [isRead]
  rfl

/-- The JSON form of settings with fields, views and fields of the style in some order. -/
def json (settings : Settings) (fields : List Field) (views : List View)
    (style : List Style.Field) : Json :=
  .object (fields.map fun field => (field.name,
    match field with
    | .optimize => .bool settings.optimize
    | .keepEverything => .bool settings.keepEverything
    | .minApiLevel => .natural settings.minApiLevel
    | .compilerFlags => .string settings.compilerFlags
    | .r8Rules => .string settings.r8Rules
    | .kotlinOnlyConsumers => .bool settings.kotlinOnlyConsumers
    | .views => .object (views.map fun view => (view.name, settings.views.value view))
    | .decompileHidden => .bool settings.decompileHidden
    | .style => .object (style.map fun field => (field.name, settings.style.value field))
    | .androidHome => ofPath? settings.androidHome
    | .kotlinHome => ofPath? settings.kotlinHome
    | .scratchDirectory => ofPath? settings.scratchDirectory))

theorem isTextOf_ofPath? (path? : Option Text) : IsTextOf (ofPath? path?) (ofPath? path?).text := by
  cases path? with
  | none => exact isTextOf_null
  | some path => exact isTextOf_string path

/-- The compact text of the JSON form of settings gives the fields that are in it. -/
theorem givenBy_json (settings : Settings) {fields : List Field} {views : List View}
    {style : List Style.Field} (fieldsNodup : fields.Nodup) (viewsNodup : views.Nodup)
    (styleNodup : style.Nodup) :
    settings.GivenBy ⟨fields.toFinset, views.toFinset, style.toFinset⟩
      (settings.json fields views style).text := by
  refine ⟨[], (settings.json fields views style).text, [], List.nil_subset _, List.nil_subset _, ?_,
    (List.append_nil _).symm⟩
  refine isRecord_text (fun field => ?_) fieldsNodup
  cases field with
  | minApiLevel => exact isTextOf_natural _
  | compilerFlags | r8Rules => exact isTextOf_string _
  | views => exact isRecord_text (fun view => isTextOf_bool _) viewsNodup
  | style =>
      refine isRecord_text (fun field => ?_) styleNodup
      cases field with
      | showLineNumbers => exact isTextOf_bool _
      | _ => exact isTextOf_natural _
  | androidHome | kotlinHome | scratchDirectory => exact isTextOf_ofPath? _
  | _ => exact isTextOf_bool _

theorem overriding_all (settings : Settings) :
    settings.overriding ⟨Field.all.toFinset, View.all.toFinset, Style.Field.all.toFinset⟩ =
      settings := by
  simp [overriding, VisibleViews.overriding, Style.overriding, Field.all, View.all,
    Style.Field.all]

/-- A settings file overrides exactly the fields that it gives. In particular the compact text of
the JSON form of settings is such a file, with any fields in any order, and with all fields it is
loaded as the settings themselves. -/
theorem load_of_givenBy (settings : Settings) (inRange : settings.InRange) (tree : FileTree)
    (path : Text) :
    (∀ selection text, settings.GivenBy selection text →
      tree.readBytes path = .ok (Text.utf8 text) →
      load tree path = .ok (settings.overriding selection)) ∧
    (∀ fields views style, fields.Nodup → views.Nodup → style.Nodup →
      tree.readBytes path = .ok (Text.utf8 (settings.json fields views style).text) →
      load tree path =
        .ok (settings.overriding ⟨fields.toFinset, views.toFinset, style.toFinset⟩)) ∧
    (tree.readBytes path =
        .ok (Text.utf8 (settings.json Field.all View.all Style.Field.all).text) →
      load tree path = .ok settings) := by
  have overrides (selection : Selection) (text : Text) (given : settings.GivenBy selection text)
      (isFile : tree.readBytes path = .ok (Text.utf8 text)) :
      load tree path = .ok (settings.overriding selection) :=
    load_of_read isFile (read_of_givenBy inRange given)
  refine ⟨overrides, ?_, ?_⟩
  · intro fields views style fieldsNodup viewsNodup styleNodup isFile
    exact overrides _ _ (settings.givenBy_json fieldsNodup viewsNodup styleNodup) isFile
  · intro isFile
    rw [overrides _ _ (settings.givenBy_json (by decide) (by decide) (by decide)) isFile,
      overriding_all]

/-- Settings that differ from the default ones in everything. -/
def unusual : Settings where
  optimize := false
  keepEverything := false
  minApiLevel := 26
  compilerFlags := "-Xfriend"
  r8Rules := "-keep"
  kotlinOnlyConsumers := false
  views := ⟨true, false, false⟩
  decompileHidden := false
  style := ⟨2, 8, false⟩
  androidHome := some "/a"
  kotlinHome := some "/k"
  scratchDirectory := some "/s"

/-- A file that gives a path with an escape, one of the views, and a member of another name. -/
def unusualFile : Text :=
  "\x7b \"kind\":[1e3], \"views\":\x7b\"byteCode\":true\x7d,\"kotlinHome\":\"\\u002fk\" \x7d"

theorem givenBy_unusualFile :
    unusual.GivenBy ⟨{.views, .kotlinHome}, {.byteCode}, ∅⟩ unusualFile := by
  have isKind : IsValue "[1e3]" := by
    refine @IsValue.array ["1e3"] "1e3" (fun element member => ?_) ?_
    · rw [List.mem_singleton] at member
      rw [member]
      refine .number ⟨[], by decide, "1", [], "e3", by decide, by decide, .inl rfl, .inr ?_, rfl⟩
      exact ⟨'e', by decide, [], by decide, "3", by decide, rfl⟩
    · exact @Listed.single [] "1e3" [] (by decide) (by decide)
  have isView : IsRecord View.name (fun view => IsTextOf (unusual.views.value view)) {.byteCode}
      "\x7b\"byteCode\":true\x7d" := by
    refine ⟨[some .byteCode], ["\"byteCode\":true"], "\"byteCode\":true", by decide, by decide, ?_,
      ?_, rfl⟩
    · refine .cons (.known (spells_escaped _) .true ?_) .nil
      exact isMember_memberText View.byteCode.name (.bool true)
    · exact @Listed.single [] "\"byteCode\":true" [] (by decide) (by decide)
  have isPath : IsTextOf (.string "/k") "\"\\u002fk\"" := by
    have isSlash : SpellsOne '/' "\\u002f" := @SpellsOne.unit '/' "002f" ⟨rfl, by decide⟩ rfl
    exact .string (.cons isSlash (spells_escaped "k"))
  have listed := @Listed.cons " " "\"kind\":[1e3]" [] _ _ (by decide) (by decide) (by decide)
    (@Listed.cons " " "\"views\":\x7b\"byteCode\":true\x7d" [] _ _ (by decide) (by decide)
      (by decide) (@Listed.single [] "\"kotlinHome\":\"\\u002fk\"" " " (by decide) (by decide)))
  refine ⟨[], unusualFile, [], by decide, by decide, ?_, (List.append_nil _).symm⟩
  refine ⟨[none, some .views, some .kotlinHome], _, _, by decide, by decide, ?_, listed, ?_⟩
  · refine .cons (.other (fun field => ?_) (spells_escaped "kind") isKind ?_)
      (.cons (.known (spells_escaped _) isView ?_)
        (.cons (.known (spells_escaped _) isPath ?_) .nil))
    · cases field <;> decide
    all_goals
      refine ⟨[], [], by decide, by decide, ?_⟩
      repeat rewrite [String.toList_ofList]
      rfl
  · unfold unusualFile
    repeat rewrite [String.toList_ofList]
    rfl

/-- A tree with one file, of a text. -/
def treeOf (text : Text) : FileTree where
  root := .directory [("c.json", .file (Text.utf8 text))]
  current := []

theorem readBytes_treeOf (text : Text) :
    (treeOf text).readBytes "c.json" = .ok (Text.utf8 text) := by
  rfl

/-- From the file one of the views and a path are taken, and from the JSON form everything. -/
theorem load_of_givenBy_unusual :
    unusual.InRange ∧ unusual.GivenBy ⟨{.views, .kotlinHome}, {.byteCode}, ∅⟩ unusualFile ∧
      load (treeOf unusualFile) "c.json" =
        .ok { default with views := ⟨true, true, true⟩, kotlinHome := some "/k" } ∧
      load (treeOf (unusual.json Field.all View.all Style.Field.all).text) "c.json" =
        .ok unusual := by
  have inRange : unusual.InRange := ⟨by decide, by decide, by decide⟩
  have ofFile := (load_of_givenBy unusual inRange (treeOf unusualFile) "c.json").1 _ _
    givenBy_unusualFile (readBytes_treeOf _)
  have ofJson := (load_of_givenBy unusual inRange
    (treeOf (unusual.json Field.all View.all Style.Field.all).text) "c.json").2.2
    (readBytes_treeOf _)
  exact ⟨inRange, givenBy_unusualFile, ofFile, ofJson⟩

end Settings

end CompiledViews
