import CompiledViews.Proofs.Dump.Descriptor

/-!
# How classes are shown in descriptors

A class of the package `java.lang` is to be shown without that package, and any other one by its
full name in dotted notation. This is how a class is shown unless `java.lang.` occurs in that name:
then it is taken out there too, and classes of different packages may be shown alike.
-/

namespace CompiledViews.Dump.Descriptor

open Text

/-- The name of a class in dotted notation. -/
def dottedName (name : Text) : Text := replaceChar '/' '.' name

/-- The dotted name of a class, without `java.lang.` if it begins with that. -/
def shortName (name : Text) : Text := (after? "java.lang." (dottedName name)).getD (dottedName name)

/-- The class with a name is shown as a text, under any number of dimensions and whatever follows
it in a descriptor. -/
def ShowsAs (name shown : Text) : Prop :=
  ∀ dimensions rest, decodeType ((JavaType.mk (.ofClass name) dimensions).encode ++ rest) =
    ([shown ++ arraySuffix dimensions], rest)

/-- The names without a period are told apart by their dotted forms. -/
theorem dottedName_inj {name other : Text} (isPlain : '.' ∉ name) (isPlainOther : '.' ∉ other)
    (same : dottedName name = dottedName other) : name = other := by
  have slashed {name : Text} (isPlain : '.' ∉ name) :
      replaceChar '.' '/' (dottedName name) = name := by
    rw [dottedName, replaceChar, replaceChar, List.map_map]
    refine (List.map_congr_left fun character member => ?_).trans (List.map_id name)
    have noPeriod : character ≠ '.' := fun isPeriod => isPlain (isPeriod ▸ member)
    by_cases isSlash : character = '/' <;> simp [isSlash, noPeriod]
  rw [← slashed isPlain, same, slashed isPlainOther]

theorem showsAs_iff_eq_className {name shown : Text} (closed : ';' ∉ name) :
    ShowsAs name shown ↔ shown = className name := by
  have decodes : ShowsAs name (className name) := by
    intro dimensions rest
    let type := JavaType.mk (.ofClass name) dimensions
    have isClosed : ';' ∉ type.element.name := closed
    exact JavaType.decodeType_encode isClosed rest
  constructor
  · intro shows
    have alone := (shows 0 []).symm.trans (decodes 0 [])
    simpa [arraySuffix] using alone
  · rintro rfl
    exact decodes

/-- Nothing but a leading package is left out exactly if `java.lang.` does not occur behind it. -/
theorem className_eq_shortName_iff {name : Text} :
    className name = shortName name ↔ ¬"java.lang." <:+: shortName name := by
  have nonempty : ("java.lang." : Text) ≠ [] := by decide
  rw [← removeAll_eq_self_iff nonempty, className, shortName, dottedName]
  cases leading : after? "java.lang." (replaceChar '/' '.' name) with
  | none => rfl
  | some rest =>
      rw [after?_eq_some_iff.1 leading, removeAll_append nonempty]
      rfl

theorem className_eq_dottedName {name : Text} (absent : ¬"java.lang." <:+: dottedName name) :
    className name = dottedName name :=
  (removeAll_eq_self_iff (by decide)).2 absent

/-- Every class is shown as some text. It is its short name exactly if `java.lang.` does not occur
in that, and two classes are not shown alike if it does not occur in their dotted names. -/
theorem showsAs_shortName_iff {name : Text} (closed : ';' ∉ name) :
    (∃ shown, ShowsAs name shown) ∧
      (ShowsAs name (shortName name) ↔ ¬"java.lang." <:+: shortName name) ∧
      ∀ other shown, ';' ∉ other → '.' ∉ name → '.' ∉ other →
        ¬"java.lang." <:+: dottedName name → ¬"java.lang." <:+: dottedName other →
        ShowsAs name shown → ShowsAs other shown → name = other := by
  refine ⟨⟨_, (showsAs_iff_eq_className closed).2 rfl⟩, ?_, ?_⟩
  · rw [showsAs_iff_eq_className closed, eq_comm, className_eq_shortName_iff]
  · intro other shown closedOther isPlain isPlainOther absent absentOther shows showsOther
    have isShown := (showsAs_iff_eq_className closed).1 shows
    have isShownOther := (showsAs_iff_eq_className closedOther).1 showsOther
    rw [className_eq_dottedName absent] at isShown
    rw [className_eq_dottedName absentOther] at isShownOther
    exact dottedName_inj isPlain isPlainOther (isShown.symm.trans isShownOther)

/-- A class in a package below `java.lang`, beside one whose package only looks like that. -/
theorem showsAs_shortName_method :
    ';' ∉ ("java/lang/reflect/Method" : Text) ∧
      ShowsAs "java/lang/reflect/Method" "reflect.Method" ∧
      ∀ shown, ShowsAs "kotlin/java/language/Word" shown →
        ¬ShowsAs "kotlin/language/Word" shown := by
  obtain ⟨closed, isShort, absent⟩ : ';' ∉ ("java/lang/reflect/Method" : Text) ∧
      shortName "java/lang/reflect/Method" = "reflect.Method" ∧
      ¬"java.lang." <:+: shortName "java/lang/reflect/Method" := by
    decide
  refine ⟨closed, isShort ▸ (showsAs_shortName_iff closed).2.1.2 absent, ?_⟩
  intro shown shows showsOther
  let word : Text := "kotlin/java/language/Word"
  let other : Text := "kotlin/language/Word"
  obtain ⟨closed, closedOther, isPlain, isPlainOther⟩ :
      ';' ∉ word ∧ ';' ∉ other ∧ '.' ∉ word ∧ '.' ∉ other := by
    decide +kernel
  obtain ⟨absent, absentOther, differ⟩ :
      ¬"java.lang." <:+: dottedName word ∧ ¬"java.lang." <:+: dottedName other ∧ word ≠ other := by
    decide +kernel
  exact differ ((showsAs_shortName_iff closed).2.2 other shown closedOther isPlain isPlainOther
    absent absentOther shows showsOther)

/-- `java.lang.` is taken out within the name of a package too. -/
theorem showsAs_box : ShowsAs "com/java/lang/Box" "com.Box" ∧ ShowsAs "com/Box" "com.Box" := by
  obtain ⟨closed, closedOther, inner, plain⟩ : ';' ∉ ("com/java/lang/Box" : Text) ∧
      ';' ∉ ("com/Box" : Text) ∧ className "com/java/lang/Box" = "com.Box" ∧
      className "com/Box" = "com.Box" := by
    decide +kernel
  exact ⟨(showsAs_iff_eq_className closed).2 inner.symm,
    (showsAs_iff_eq_className closedOther).2 plain.symm⟩

/-- So not every class is shown by its short name, and two classes outside of `java.lang` may be
shown alike. -/
theorem not_forall_showsAs_shortName :
    (¬∀ name, ';' ∉ name → ShowsAs name (shortName name)) ∧
      ¬∀ name other shown, ';' ∉ name → ';' ∉ other → '.' ∉ name → '.' ∉ other →
        ¬"java.lang." <+: dottedName name → ¬"java.lang." <+: dottedName other →
        ShowsAs name shown → ShowsAs other shown → name = other := by
  obtain ⟨closed, closedOther, isPlain, isPlainOther⟩ : ';' ∉ ("com/java/lang/Box" : Text) ∧
      ';' ∉ ("com/Box" : Text) ∧ '.' ∉ ("com/java/lang/Box" : Text) ∧
      '.' ∉ ("com/Box" : Text) := by
    decide +kernel
  obtain ⟨outside, outsideOther, isLong, differ⟩ :
      ¬"java.lang." <+: dottedName "com/java/lang/Box" ∧
        ¬"java.lang." <+: dottedName "com/Box" ∧
        shortName "com/java/lang/Box" ≠ className "com/java/lang/Box" ∧
        ("com/java/lang/Box" : Text) ≠ "com/Box" := by
    decide +kernel
  refine ⟨fun always => ?_, fun apart => ?_⟩
  · exact isLong ((showsAs_iff_eq_className closed).1 (always _ closed))
  · exact differ (apart _ _ _ closed closedOther isPlain isPlainOther outside outsideOther
      showsAs_box.1 showsAs_box.2)

end CompiledViews.Dump.Descriptor
