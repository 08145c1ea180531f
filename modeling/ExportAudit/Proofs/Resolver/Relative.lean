import ExportAudit.Proofs.Path.Names
import ExportAudit.Proofs.Reference.Locating

/-!
# Relative specifiers

From a module the way to another one goes up to the nearest directory above
both, and down from there.  Written as a relative specifier it denotes the other
module, whatever else the resolver knows: a location itself is probed before
its neighbours.  Detours on the way, which lead to where they start, change
nothing.
-/

namespace ExportAudit

open Pattern

namespace Resolver

/-! ## Specifiers of modules -/

/-- The relative specifier that goes a number of steps up and then down along
some names; `./` stands for no step up. -/
def wayText : (steps : Nat) → (down : List String) → String
  | 0, down => "./" ++ Path.joinNames down
  | steps + 1, down => Path.joinNames (List.replicate (steps + 1) ".." ++ down)

/-- The relative specifier of a target in an importing module: a step up for
each directory below the nearest one above both, and then the names on the way
down. -/
def specifierTo (importer target : Location) : String :=
  let shared :=
    (Path.sharedNames importer.parent.names target.parent.names).length
  wayText (importer.parent.names.length - shared) (target.names.drop shared)

/-- A text between two slashes that leads nowhere: an empty one, `.`, or a name
and a step back. -/
inductive IsDetour : List Char → Prop where
  | slash : IsDetour []
  | here : IsDetour ['.']
  | back {name : List Char} (isPart : IsPart name) (clean : '\x00' ∉ name) :
      IsDetour (name ++ '/' :: ['.', '.'])

/-- A text is another one with detours after some of its slashes or at its
end. -/
inductive IsPadded (text : List Char) : List Char → Prop where
  | refl : IsPadded text text
  | within {left right detour : List Char} (isDetour : IsDetour detour)
      (padded : IsPadded text (left ++ '/' :: right)) :
      IsPadded text (left ++ '/' :: (detour ++ '/' :: right))
  | behind {padding detour : List Char} (isDetour : IsDetour detour)
      (padded : IsPadded text padding) :
      IsPadded text (padding ++ '/' :: detour)

/-! ## Looking up relative specifiers -/

/-- A specifier is relative if its first part is `.` or `..`. -/
theorem isRelative_iff {text : List Char} :
    isRelative (String.ofList text) = true ↔
      text.takeWhile (· ≠ '/') = ['.'] ∨
        text.takeWhile (· ≠ '/') = ['.', '.'] := by
  have same (name : String) : String.ofList text = name ↔ text = name.toList := by
    rw [← String.toList_inj, String.toList_ofList]
  simp only [isRelative, String.toList_ofList, Bool.or_eq_true, decide_eq_true_eq,
    same, List.isPrefixOf_iff_prefix]
  change ((text = ['.'] ∨ text = ['.', '.']) ∨ ['.', '/'] <+: text) ∨
    ['.', '.', '/'] <+: text ↔ _
  -- The first three characters decide both sides.
  rcases text with _ | ⟨first, _ | ⟨second, _ | ⟨third, rest⟩⟩⟩ <;>
    simp only [List.takeWhile_cons, List.takeWhile_nil, List.cons_prefix_cons] <;>
    grind

theorem takeWhile_slash (left right : List Char) :
    (left ++ '/' :: right).takeWhile (· ≠ '/') = left.takeWhile (· ≠ '/') := by
  induction left with
  | nil => rfl
  | cons first rest ih =>
      rw [List.cons_append, List.takeWhile_cons, List.takeWhile_cons, ih]

/-- A relative specifier is no absolute path. -/
theorem ofText?_of_isRelative {specifier : String}
    (relative : isRelative specifier = true) :
    PathRoot.ofText? specifier.toList = none := by
  rw [← String.ofList_toList (s := specifier), isRelative_iff] at relative
  cases starts : specifier.toList with
  | nil => rfl
  | cons first rest =>
      have dot : first = '.' := by
        rw [starts, List.takeWhile_cons] at relative
        grind
      rw [dot]
      rfl

section Lookup

variable {resolver : Resolver} {importer target : Location} {specifier : String}

/-- A relative specifier is looked up at one place. -/
theorem locate_of_isRelative (relative : isRelative specifier = true) :
    resolver.locate importer specifier =
      (importer.parent.path.join specifier).locate.map resolver.probe := by
  have nonempty : specifier ≠ "" := by
    intro empty
    rw [empty] at relative
    cases relative
  rw [locate, paths, if_neg nonempty, if_pos relative, locateFirst]
  cases located : (importer.parent.path.join specifier).locate with
  | error failure => rfl
  | ok location =>
      rw [ok_bind, Except.map]
      cases probed : resolver.probe location with
      | none => rfl
      | some module => rfl

/-- A module is found where it is. -/
theorem probe_of_mem {location : Location} (listed : location ∈ resolver.modules) :
    resolver.probe location = some location :=
  List.find?_cons_of_pos (decide_eq_true listed)

/-- A text is a way from a directory to a location: it is relative, and its
names, which files can have, lead there. -/
structure IsWay (directory location : Location) (text : List Char) : Prop where
  relative : isRelative (String.ofList text) = true
  reached : Path.collapse
    (directory.names ++ (properParts text).map String.ofList) = location.names
  clean : '\x00' ∉ text

/-- A way leads to a module, also in a file system. -/
theorem IsWay.locate {text : List Char} (way : IsWay importer.parent target text)
    (normal : importer.IsNormal) (listed : target ∈ resolver.modules) :
    resolver.locate importer (String.ofList text) = .ok (some target) := by
  have names : (importer.parent.path.join (String.ofList text)).names =
      importer.parent.names ++ Path.splitNames (String.ofList text) :=
    Path.names_join (ofText?_of_isRelative way.relative)
  have clean :
      (importer.parent.path.join (String.ofList text)).holdsNull = false := by
    rw [Path.holdsNull, names, List.any_eq_false]
    intro name member
    rw [decide_eq_true_eq]
    cases List.mem_append.mp member with
    | inl above => exact (normal name (List.mem_of_mem_dropLast above)).2
    | inr own => exact Path.not_null_of_mem_splitNames way.clean own
  have resolved :
      (importer.parent.path.join (String.ofList text)).resolve = target := by
    apply congrArg Location.mk
    rw [names, splitNames_ofList]
    exact way.reached
  rw [locate_of_isRelative way.relative, Path.locate, clean, resolved]
  exact congrArg Except.ok (probe_of_mem listed)

end Lookup

/-! ## Detours -/

section Detours

variable {directory location : Location} {text detour : List Char}

theorem properParts_of_isPart {part : List Char} (isPart : IsPart part) :
    properParts part = [part] := by
  have single := @Path.properParts_joined [part]
  rw [joined_singleton] at single
  exact single (by simpa using ⟨isPart.1, isPart.2.1, isPart.2.2.2⟩)

theorem IsDetour.clean (isDetour : IsDetour detour) : '\x00' ∉ detour := by
  cases isDetour with
  | slash => simp
  | here => simp
  | back isPart clean => simp [clean]

/-- A detour leads to where it starts. -/
theorem IsDetour.collapse (isDetour : IsDetour detour)
    (left right : List String) :
    Path.collapse (left ++ ((properParts detour).map String.ofList ++ right)) =
      Path.collapse (left ++ right) := by
  cases isDetour with
  | slash => rfl
  | here => rfl
  | @back name isPart clean =>
      have parts : properParts (name ++ '/' :: ['.', '.']) = [name, ['.', '.']] := by
        rw [properParts_append_cons, properParts_of_isPart isPart]
        rfl
      have onward : String.ofList name ≠ ".." := by
        intro same
        apply isPart.2.2.1
        rw [← String.toList_ofList (l := name), same]
        rfl
      rw [parts]
      exact Path.collapse_back onward left right

/-- A detour after a slash of a way leaves it a way. -/
theorem IsWay.within {left right : List Char} (isDetour : IsDetour detour)
    (way : IsWay directory location (left ++ '/' :: right)) :
    IsWay directory location (left ++ '/' :: (detour ++ '/' :: right)) where
  relative := by
    have relative := way.relative
    rw [isRelative_iff, takeWhile_slash] at relative ⊢
    exact relative
  reached := by
    have step := isDetour.collapse
      (directory.names ++ (properParts left).map String.ofList)
      ((properParts right).map String.ofList)
    rw [← way.reached]
    simpa only [properParts_append_cons, List.map_append, List.append_assoc]
      using step
  clean := by
    have clean := way.clean
    have detourClean := isDetour.clean
    simp only [List.mem_append, List.mem_cons] at clean ⊢
    tauto

/-- A detour behind a way leaves it a way. -/
theorem IsWay.behind (isDetour : IsDetour detour)
    (way : IsWay directory location text) :
    IsWay directory location (text ++ '/' :: detour) where
  relative := by
    have relative := way.relative
    rw [isRelative_iff] at relative ⊢
    rwa [takeWhile_slash]
  reached := by
    have step := isDetour.collapse
      (directory.names ++ (properParts text).map String.ofList) []
    rw [← way.reached]
    simpa only [properParts_append_cons, List.map_append, List.append_assoc,
      List.append_nil] using step
  clean := by
    have clean := way.clean
    have detourClean := isDetour.clean
    have noSlash : '\x00' ≠ '/' := by decide
    simp only [List.mem_append, List.mem_cons]
    tauto

/-- A padded way is a way. -/
theorem IsPadded.isWay {padding : List Char} (padded : IsPadded text padding)
    (way : IsWay directory location text) :
    IsWay directory location padding := by
  induction padded with
  | refl => exact way
  | within isDetour padded ih => exact ih.within isDetour
  | behind isDetour padded ih => exact ih.behind isDetour

end Detours

/-! ## The way to a module -/

section Ways

variable {importer target : Location} {down : List String}

theorem properParts_names {names : List String}
    (each : ∀ name ∈ names, name = ".." ∨ IsName name) :
    properParts (joined (names.map String.toList)) =
      names.map String.toList := by
  apply Path.properParts_names
  intro name member
  cases each name member with
  | inl up =>
      rw [up]
      decide
  | inr isName => exact isName.isProperName

theorem clean_joined {names : List String}
    (each : ∀ name ∈ names, name = ".." ∨ IsName name) :
    '\x00' ∉ joined (names.map String.toList) := by
  intro inside
  rcases Text.mem_intercalate inside with slash | ⟨part, listed, null⟩
  · exact absurd slash (by decide)
  · obtain ⟨name, member, rfl⟩ := List.mem_map.mp listed
    cases each name member with
    | inl up =>
        rw [up] at null
        exact absurd null (by decide)
    | inr isName => exact isName.2 null

theorem up_or_isName (steps : Nat) (named : ∀ name ∈ down, IsName name) :
    ∀ name ∈ List.replicate steps ".." ++ down, name = ".." ∨ IsName name := by
  intro name member
  cases List.mem_append.mp member with
  | inl up => exact .inl (List.eq_of_mem_replicate up)
  | inr own => exact .inr (named name own)

theorem isRelative_wayText (steps : Nat) (down : List String) :
    isRelative (wayText steps down) = true := by
  rw [← String.ofList_toList (s := wayText steps down), isRelative_iff]
  cases steps with
  | zero =>
      rw [wayText, String.toList_append]
      exact .inl (takeWhile_slash ['.'] (Path.joinNames down).toList)
  | succ steps =>
      right
      rw [wayText, Path.toList_joinNames, List.replicate_succ, List.cons_append,
        List.map_cons]
      cases onward : (List.replicate steps ".." ++ down).map String.toList with
      | nil => rfl
      | cons second others =>
          rw [joined_cons _ (List.cons_ne_nil _ _), takeWhile_slash]
          rfl

theorem properParts_wayText (steps : Nat)
    (named : ∀ name ∈ down, IsName name) :
    properParts (wayText steps down).toList =
      (List.replicate steps ".." ++ down).map String.toList := by
  have each := up_or_isName steps named
  cases steps with
  | zero =>
      rw [wayText, String.toList_append, Path.toList_joinNames]
      exact (properParts_append_cons ['.'] _).trans (properParts_names each)
  | succ steps =>
      rw [wayText, Path.toList_joinNames]
      exact properParts_names each

theorem clean_wayText (steps : Nat) (named : ∀ name ∈ down, IsName name) :
    '\x00' ∉ (wayText steps down).toList := by
  have each := up_or_isName steps named
  cases steps with
  | zero =>
      rw [wayText, String.toList_append, Path.toList_joinNames, List.mem_append,
        not_or]
      exact ⟨by decide, clean_joined each⟩
  | succ steps =>
      rw [wayText, Path.toList_joinNames]
      exact clean_joined each

/-- From a directory above both, steps up and names down are a way to a
location. -/
theorem isWay_wayText {above passed : List String}
    (start : importer.parent.names = above ++ passed)
    (finish : target.names = above ++ down) (normal : importer.IsNormal)
    (targetNormal : target.IsNormal) :
    IsWay importer.parent target (wayText passed.length down).toList := by
  have downNamed : ∀ name ∈ down, IsName name := by
    intro name member
    apply targetNormal name
    rw [finish]
    exact List.mem_append_right _ member
  have named : ∀ name ∈ above ++ passed ++ down, name ≠ ".." := by
    intro name member
    rw [← start] at member
    cases List.mem_append.mp member with
    | inl before => exact (normal name (List.mem_of_mem_dropLast before)).ne_up
    | inr after => exact (downNamed name after).ne_up
  refine ⟨?_, ?_, clean_wayText passed.length downNamed⟩
  · rw [String.ofList_toList]
    exact isRelative_wayText passed.length down
  · rw [properParts_wayText passed.length downNamed, map_ofList_toList, start,
      finish]
    exact Path.collapse_up named

/-- The specifier of a target is a way to it. -/
theorem isWay_specifierTo (normal : importer.IsNormal)
    (targetNormal : target.IsNormal) :
    IsWay importer.parent target (specifierTo importer target).toList := by
  obtain ⟨passed, start⟩ :=
    Path.sharedNames_left importer.parent.names target.parent.names
  obtain ⟨down, finish⟩ :=
    (Path.sharedNames_right importer.parent.names target.parent.names).trans
      (List.dropLast_prefix target.names)
  unfold specifierTo
  generalize Path.sharedNames importer.parent.names target.parent.names = above
    at start finish
  have steps : importer.parent.names.length - above.length = passed.length := by
    rw [← start, List.length_append, Nat.add_sub_cancel_left]
  have onward : target.names.drop above.length = down := by
    rw [← finish, List.drop_left]
  dsimp only
  rw [steps, onward]
  exact isWay_wayText start.symm finish.symm normal targetNormal

/-- Every module of a resolver denotes each other one by the relative specifier
of the way to it, also with detours on that way, whatever other modules, aliases
and base directories there are. -/
theorem locate_specifierTo {resolver : Resolver}
    (normal : ∀ module ∈ resolver.modules, module.IsNormal)
    (importing : importer ∈ resolver.modules) (listed : target ∈ resolver.modules)
    {text : List Char}
    (padded : IsPadded (specifierTo importer target).toList text) :
    resolver.locate importer (String.ofList text) = .ok (some target) := by
  have way := isWay_specifierTo (normal importer importing) (normal target listed)
  exact (padded.isWay way).locate (normal importer importing) listed

end Ways

/-- A resolver with a module beside a target that would be found by adding an
extension, and an alias for everything. -/
def crowded : Resolver :=
  build [⟨["src", "app", "main.ts"]⟩, ⟨["lib", "b.ts"]⟩, ⟨["lib", "b.ts.ts"]⟩]
    (some ⟨["src"]⟩) [("*", ["lib/b.ts"])] none

theorem locate_specifierTo_crowded :
    specifierTo ⟨["src", "app", "main.ts"]⟩ ⟨["lib", "b.ts"]⟩ = "../../lib/b.ts" ∧
    crowded.locate ⟨["src", "app", "main.ts"]⟩ "../../x/..//lib/./b.ts" =
      .ok (some ⟨["lib", "b.ts"]⟩) := by
  have written : specifierTo ⟨["src", "app", "main.ts"]⟩ ⟨["lib", "b.ts"]⟩ =
      "../../lib/b.ts" := by decide
  have here : IsPadded "../../lib/b.ts".toList "../../lib/./b.ts".toList :=
    @IsPadded.within _ "../../lib".toList "b.ts".toList _ .here .refl
  have slash : IsPadded "../../lib/b.ts".toList "../..//lib/./b.ts".toList :=
    @IsPadded.within _ "../..".toList "lib/./b.ts".toList _ .slash here
  have back : IsPadded "../../lib/b.ts".toList "../../x/..//lib/./b.ts".toList :=
    @IsPadded.within _ "../..".toList "/lib/./b.ts".toList _
      (@IsDetour.back ['x'] (by decide) (by decide)) slash
  refine ⟨written, ?_⟩
  have located := @locate_specifierTo ⟨["src", "app", "main.ts"]⟩
    ⟨["lib", "b.ts"]⟩ crowded (by decide) (by decide) (by decide)
    "../../x/..//lib/./b.ts".toList (by rw [written]; exact back)
  rwa [String.ofList_toList] at located

end Resolver

end ExportAudit
