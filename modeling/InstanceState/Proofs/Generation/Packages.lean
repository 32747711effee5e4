import InstanceState.Proofs.Generation.Intake
import InstanceState.Proofs.Splits

/-!
# Packages declared in turn

Of the packages that the fields of an owner declare in turn the first is recorded, whether the owner
lies in it or not, and only the layout asks for that.  So the first decides: if the owner lies in
it, it is the package of the layout, and if the owner does not, the layout is that of an owner
without declarations, and the later declarations count for nothing.
-/

namespace InstanceState

namespace TypeName

/-- Whether a declared package is one that the name lies in, but for blank characters around it. -/
def Matches (name : TypeName) (package : Text) : Prop :=
  Text.trim package ≠ [] ∧ name.LiesIn (Text.trim package)

instance (name : TypeName) (package : Text) : Decidable (name.Matches package) :=
  inferInstanceAs (Decidable (_ ∧ _))

/-- Whether a name is that of a package, a dot and a class that is not nested. -/
def LiesDirectlyIn (name : TypeName) (package : Text) : Prop :=
  ∃ path : Text, path ≠ [] ∧ '.' ∉ path ∧ name.text = package ++ "." ++ path

theorem package_layout_of_matches {name : TypeName} {package : Text} (h : name.Matches package) :
  (name.layout (some package)).package = some (Text.trim package)
  := (name.isSplitOf_layout _).package_of_liesIn _ rfl h.1 h.2

theorem package_layout_of_trim_eq_nil {package : Text} (h : Text.trim package = [])
    (name : TypeName) :
  (name.layout (some package)).package = none
  := (name.isSplitOf_layout _).package_of_blank (congrArg some h)

/-- A declared package that is not used makes no difference. -/
theorem layout_of_not_matches {name : TypeName} {package : Text} (hpackage : Text.trim package ≠ [])
    (h : ¬ name.Matches package) :
  name.layout (some package) = name.layout none
  := by
  apply layout_of_ignores
  intro trimmed htrimmed
  rw [Option.map_some, Option.some.injEq] at htrimmed
  rw [← htrimmed]
  exact ⟨hpackage, fun hlies => h ⟨hpackage, hlies⟩⟩

/-- Without a declaration the package is one that the name lies in directly, if it lies in it. -/
theorem package_layout_none_iff {name : TypeName} {package : Text} (h : name.LiesIn package) :
  (name.layout none).package = some package ↔ name.LiesDirectlyIn package
  := by
  have hsplit := name.isSplitOf_layout none
  have hignores : name.Ignores none := by
    rintro _ ⟨⟩
  have hdot := hsplit.dot_not_mem_classPath hignores
  have hname : (name.layout none).rejoined = name.text := name.rejoined_layout none
  constructor
  · intro hpackage
    obtain ⟨path, hpath, htext⟩ := h
    rw [Layout.rejoined, hpackage, htext] at hname
    have heq : (name.layout none).classPath = path := List.append_cancel_left hname
    use path, hpath
    constructor
    · rw [← heq]
      exact hdot
    · exact htext
  · rintro ⟨path, -, hpathdot, htext⟩
    have hrejoined : (name.layout none).rejoined
        = (⟨name.text, some package, path⟩ : Layout).rejoined := by
      rw [hname, htext]
      rfl
    apply Layout.package_eq_of_rejoined_eq hdot hpathdot hrejoined

end TypeName

namespace Group

/-- The group of an owner after declarations of its package in turn, some of which may declare
none. -/
def afterDeclarations (owner : TypeName) (declarations : List (Option Text)) : Group :=
  declarations.foldl declarePackage (.new owner)

theorem foldl_declarePackage (declarations : List (Option Text)) (g : Group) :
  declarations.foldl declarePackage g
    = { g with package := g.package <|> declarations.findSome? id }
  := by
  induction declarations generalizing g with
  | nil => simp
  | cons d declarations ih =>
    rw [List.foldl_cons, ih, declarePackage, List.findSome?_cons]
    cases g.package <;> cases d <;> rfl

/-- The layout of an owner is by the first package that is declared. -/
theorem layout_afterDeclarations (owner : TypeName) (declarations : List (Option Text)) :
  (afterDeclarations owner declarations).layout = owner.layout (declarations.findSome? id)
  := by
  rw [afterDeclarations, foldl_declarePackage]
  rfl

/-- The packages of the fields are declared in the order of the batch. -/
theorem layout_of_find?_collect {g : Generator} {fields : List Field} {owner : TypeName}
    {group : Group} (h : (g.collect fields).groups.find? owner.text = some group) :
  group.layout
    = (afterDeclarations owner ((Batch.declaredBy fields owner).map Field.package)).layout
  := by
  rw [g.find?_collect fields owner] at h
  obtain ⟨-, hgroup⟩ := Option.ite_none_right_eq_some.1 h
  cases hgroup
  rw [layout_afterDeclarations, List.findSome?_map]
  rfl

/-- Of the packages that are declared for an owner the first decides.  If the owner lies in it, it
is the package of the layout, whatever is declared later; a blank one is the default package; any
other leaves the layout as it is without a declaration.  So the package of the layout is a declared
one that the owner lies in exactly if the first is one, or the first is not blank and a declared
package holds the owner directly.  The fields of a batch declare their packages for their owner's
group in turn. -/
theorem first_declaration_decides (owner : TypeName) (declarations : List (Option Text)) :
  (∀ first, declarations.findSome? id = some first →
      (owner.Matches first →
        (afterDeclarations owner declarations).layout.package = some (Text.trim first))
      ∧ (Text.trim first ≠ [] → ¬ owner.Matches first →
        (afterDeclarations owner declarations).layout = owner.layout none)
      ∧ (Text.trim first = [] → (afterDeclarations owner declarations).layout.package = none))
    ∧ ((∃ package, some package ∈ declarations ∧ owner.Matches package
        ∧ (afterDeclarations owner declarations).layout.package = some (Text.trim package))
      ↔ ∃ first, declarations.findSome? id = some first
        ∧ (owner.Matches first
          ∨ Text.trim first ≠ [] ∧ ∃ package, some package ∈ declarations
            ∧ owner.Matches package ∧ owner.LiesDirectlyIn (Text.trim package)))
    ∧ ∀ (g : Generator) (fields : List Field) (group : Group),
      (g.collect fields).groups.find? owner.text = some group →
      group.layout
        = (afterDeclarations owner ((Batch.declaredBy fields owner).map Field.package)).layout
  := by
  have hmem : ∀ first, declarations.findSome? id = some first → some first ∈ declarations := by
    intro first hfirst
    obtain ⟨declared, hdeclared, rfl⟩ := List.exists_of_findSome?_eq_some hfirst
    exact hdeclared
  refine ⟨?_, ?_, fun g fields group h => layout_of_find?_collect h⟩
  · intro first hfirst
    rw [layout_afterDeclarations, hfirst]
    refine ⟨TypeName.package_layout_of_matches, TypeName.layout_of_not_matches, ?_⟩
    intro hblank
    apply TypeName.package_layout_of_trim_eq_nil hblank
  · rw [layout_afterDeclarations]
    constructor
    · rintro ⟨package, hpackage, hmatches, hlayout⟩
      obtain ⟨first, hfirst⟩ : ∃ first, declarations.findSome? id = some first := by
        rw [← Option.isSome_iff_exists, List.findSome?_isSome_iff]
        exact ⟨_, hpackage, rfl⟩
      use first, hfirst
      rw [hfirst] at hlayout
      by_cases hused : owner.Matches first
      · exact .inl hused
      · right
        by_cases hblank : Text.trim first = []
        · rw [TypeName.package_layout_of_trim_eq_nil hblank] at hlayout
          contradiction
        · rw [TypeName.layout_of_not_matches hblank hused,
            TypeName.package_layout_none_iff hmatches.2] at hlayout
          exact ⟨hblank, package, hpackage, hmatches, hlayout⟩
    · rintro ⟨first, hfirst, h⟩
      rw [hfirst]
      by_cases hused : owner.Matches first
      · exact ⟨first, hmem first hfirst, hused, TypeName.package_layout_of_matches hused⟩
      · obtain ⟨hblank, package, hpackage, hmatches, hdirect⟩ := h.resolve_left hused
        use package, hpackage, hmatches
        rw [TypeName.layout_of_not_matches hblank hused,
          TypeName.package_layout_none_iff hmatches.2]
        exact hdirect

/-- A nested class. -/
def nested : TypeName := ⟨"com.example.Outer.Inner"⟩

/-- A package of the class that is declared first is kept. -/
theorem nested_package_kept :
  nested.Matches " com.example "
    ∧ (afterDeclarations nested [none, some " com.example ", some "org.other", some "com"]
      ).layout.package = some ↑"com.example"
  := by
  have hmatches : nested.Matches " com.example " := by
    decide
  obtain ⟨hfirst, -⟩ :=
    first_declaration_decides nested [none, some " com.example ", some "org.other", some "com"]
  use hmatches
  apply ((hfirst _ rfl).1 hmatches).trans
  decide

/-- A package of the class is lost after another package is declared. -/
theorem nested_package_lost :
  nested.Matches "com.example"
    ∧ (afterDeclarations nested [some "org.other", some "com.example"]).layout.package
      = some ↑"com.example.Outer"
    ∧ ¬ ∃ package, some package ∈ [some ↑"org.other", some (↑"com.example" : Text)]
      ∧ nested.Matches package
      ∧ (afterDeclarations nested [some "org.other", some "com.example"]).layout.package
        = some (Text.trim package)
  := by
  have hlayout : (afterDeclarations nested [some "org.other", some "com.example"]).layout.package
      = some ↑"com.example.Outer" := by
    decide
  refine ⟨by decide, hlayout, ?_⟩
  rintro ⟨package, hpackage, -, heq⟩
  rw [hlayout] at heq
  rw [List.mem_cons, List.mem_singleton, Option.some.injEq, Option.some.injEq] at hpackage
  rcases hpackage with rfl | rfl
  · revert heq
    decide
  · revert heq
    decide

end Group

end InstanceState
