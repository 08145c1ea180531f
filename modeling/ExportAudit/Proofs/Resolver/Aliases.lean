import Mathlib.Data.List.Nodup
import ExportAudit.Proofs.Reference.Locating

/-!
# Aliases

A specifier that is not relative is looked up through the aliases that match
it: first through the one that is the specifier itself, then through those with
a wildcard, the longest start first.  Of aliases that match one specifier two
never come equally early, unless they start alike, so the order in which the
aliases are declared does not matter.
-/

namespace ExportAudit

namespace AliasPattern

/-! ## Patterns -/

/-- The pattern that a text denotes, by its wildcards. -/
inductive IsWritten : List Char → AliasPattern → Prop where
  | exact {specifier : List Char} (plain : '*' ∉ specifier) :
      IsWritten specifier (.exact specifier)
  | wildcard {start finish : List Char} (plainStart : '*' ∉ start)
      (plainFinish : '*' ∉ finish) :
      IsWritten (start ++ '*' :: finish) (.wildcard start finish)

theorem ofText?_eq_some {text : List Char} {pattern : AliasPattern} :
    ofText? text = some pattern ↔ IsWritten text pattern := by
  constructor
  · intro read
    by_cases star : '*' ∈ text
    · obtain ⟨start, later, rfl, plainStart⟩ := List.eq_append_cons_of_mem star
      rw [ofText?, List.splitOn_append_cons_self,
        List.splitOn_eq_singleton plainStart] at read
      by_cases second : '*' ∈ later
      · obtain ⟨between, last, rfl, plain⟩ := List.eq_append_cons_of_mem second
        rw [List.splitOn_append_cons_self, List.splitOn_eq_singleton plain] at read
        cases parts : last.splitOn '*' with
        | nil => exact absurd parts (List.splitOn_ne_nil '*' last)
        | cons part others =>
            rw [parts] at read
            cases read
      · rw [List.splitOn_eq_singleton second] at read
        cases read
        exact .wildcard plainStart second
    · rw [ofText?, List.splitOn_eq_singleton star] at read
      cases read
      exact .exact star
  · intro written
    cases written with
    | exact plain => rw [ofText?, List.splitOn_eq_singleton plain]
    | wildcard plainStart plainFinish =>
        rw [ofText?, List.splitOn_append_cons_self,
          List.splitOn_eq_singleton plainStart,
          List.splitOn_eq_singleton plainFinish]
        rfl

/-- A pattern denotes one text. -/
theorem IsWritten.unique {left right : List Char} {pattern : AliasPattern}
    (first : IsWritten left pattern) (second : IsWritten right pattern) :
    left = right := by
  cases first with
  | exact => cases second; rfl
  | wildcard => cases second; rfl

/-- A specifier matches a pattern, and some text of it stands for the
wildcard. -/
inductive Captures : List Char → AliasPattern → List Char → Prop where
  | exact {specifier : List Char} : Captures specifier (.exact specifier) []
  | wildcard {start captured finish : List Char} :
      Captures (start ++ captured ++ finish) (.wildcard start finish) captured

theorem Captures.exact_eq {text expected captured : List Char}
    (captures : Captures text (.exact expected) captured) : expected = text := by
  cases captures
  rfl

theorem Captures.text_eq {text start finish captured : List Char}
    (captures : Captures text (.wildcard start finish) captured) :
    text = start ++ captured ++ finish := by
  cases captures
  rfl

theorem capture?_wildcard (start captured finish : List Char) :
    (wildcard start finish).capture? (start ++ captured ++ finish) =
      some captured := by
  have begins : start.isPrefixOf (start ++ captured ++ finish) = true := by
    rw [List.isPrefixOf_iff_prefix, List.append_assoc]
    exact List.prefix_append _ _
  have ends : finish.isSuffixOf (start ++ captured ++ finish) = true := by
    rw [List.isSuffixOf_iff_suffix]
    exact List.suffix_append _ _
  have fits : start.length + finish.length ≤
      (start ++ captured ++ finish).length := by
    simp only [List.length_append]
    omega
  have between : (start ++ captured ++ finish).length - finish.length -
      start.length = captured.length := by
    simp only [List.length_append]
    omega
  rw [capture?, begins, ends, decide_eq_true fits, between, List.append_assoc,
    List.drop_left, List.take_left]
  rfl

theorem capture?_eq_some {specifier captured : List Char}
    {pattern : AliasPattern} :
    pattern.capture? specifier = some captured ↔
      Captures specifier pattern captured := by
  constructor
  · intro found
    cases pattern with
    | exact expected =>
        rw [capture?] at found
        split at found
        · next same =>
          cases found
          rw [same]
          exact .exact
        · cases found
    | wildcard start finish =>
        have matched := found
        rw [capture?] at found
        split at found
        · next known =>
          simp only [Bool.and_eq_true, decide_eq_true_eq] at known
          obtain ⟨⟨begins, ends⟩, fits⟩ := known
          obtain ⟨rest, rfl⟩ := List.isPrefixOf_iff_prefix.mp begins
          have shorter : finish.length ≤ rest.length := by
            rw [List.length_append] at fits
            omega
          obtain ⟨between, rfl⟩ := List.suffix_of_suffix_length_le
            (List.isSuffixOf_iff_suffix.mp ends) (List.suffix_append _ _) shorter
          rw [← List.append_assoc, capture?_wildcard] at matched
          cases matched
          rw [← List.append_assoc]
          exact .wildcard
        · cases found
  · intro captures
    cases captures with
    | exact => rw [capture?, if_pos rfl]
    | wildcard => exact capture?_wildcard _ _ _

/-- Starts of one text that have one length are equal. -/
theorem start_eq {text left right leftRest rightRest : List Char}
    (first : text = left ++ leftRest) (second : text = right ++ rightRest)
    (shorter : left.length ≤ right.length)
    (longer : right.length ≤ left.length) : left = right :=
  (List.append_inj (first.symm.trans second)
    (Nat.le_antisymm shorter longer)).1

/-! ## The order of patterns -/

theorem tried_trans (first second third : AliasPattern)
    (before : first.tried second = true) (after : second.tried third = true) :
    first.tried third = true := by
  cases first <;> cases second <;> cases third <;>
    simp only [tried, decide_eq_true_eq] at before after ⊢ <;> grind

theorem tried_total (left right : AliasPattern) :
    (left.tried right || right.tried left) = true := by
  cases left <;> cases right <;> simp [tried, Nat.le_total]

end AliasPattern

namespace Resolver

open AliasPattern

/-! ## Declared aliases -/

/-- What stands before the wildcard of a text with one. -/
def wildcardStart? (text : List Char) : Option (List Char) :=
  match ofText? text with
  | some (.wildcard start _) => some start
  | _ => none

/-- Each alias is declared once, and no two aliases with one wildcard have the
same start. -/
structure IsUnambiguous (paths : List (String × List WideText)) : Prop where
  once : (paths.map Prod.fst).Nodup
  apart : ∀ left ∈ paths, ∀ right ∈ paths,
    (wildcardStart? left.1.toList).isSome →
      wildcardStart? left.1.toList = wildcardStart? right.1.toList →
        left.1 = right.1

instance (paths : List (String × List WideText)) : Decidable (IsUnambiguous paths) :=
  decidable_of_iff (_ ∧ _)
    ⟨fun known => ⟨known.1, known.2⟩, fun known => ⟨known.once, known.apart⟩⟩

/-- The module to which the first target of an alias leads that leads to one. -/
def targetModule? (resolver : Resolver) (base : Location) (captured : List Char)
    (targets : List WideText) : Option Location :=
  targets.findSome? fun target =>
    resolver.probe (base.resolveWide (expandTarget captured target))

/-- The alias that is a specifier itself leads to a module. -/
def LeadsExactly (resolver : Resolver) (paths : List (String × List WideText))
    (base : Location) (specifier : String) (found : Location) : Prop :=
  ∃ targets, (specifier, targets) ∈ paths ∧ '*' ∉ specifier.toList ∧
    resolver.targetModule? base [] targets = some found

/-- An alias with one wildcard after a given start matches a specifier and leads
to a module. -/
def LeadsAfter (resolver : Resolver) (paths : List (String × List WideText))
    (base : Location) (specifier : String) (start : List Char)
    (found : Location) : Prop :=
  ∃ name targets captured finish, (name, targets) ∈ paths ∧
    name.toList = start ++ '*' :: finish ∧ '*' ∉ start ∧ '*' ∉ finish ∧
    specifier.toList = start ++ captured ++ finish ∧
    resolver.targetModule? base captured targets = some found

/-- The base directory leads to a module. -/
def LeadsFromBase (resolver : Resolver) (specifier : String)
    (found : Location) : Prop :=
  ∃ url, resolver.baseUrl = some url ∧ specifier.toList.head? ≠ some '/' ∧
    resolver.probe (url.resolve specifier) = some found

/-- What a specifier denotes by the aliases, in whatever order they are
declared: the module to which the alias leads that is the specifier itself, else
the one of the alias with the longest start that leads to one, else the one at
the base directory, else nothing. -/
inductive Denotes (resolver : Resolver) (paths : List (String × List WideText))
    (base : Location) (specifier : String) : Option Location → Prop where
  | exact {found : Location}
      (leads : resolver.LeadsExactly paths base specifier found) :
      Denotes resolver paths base specifier (some found)
  | wildcard {start : List Char} {found : Location}
      (notExactly : ∀ other, ¬ resolver.LeadsExactly paths base specifier other)
      (leads : resolver.LeadsAfter paths base specifier start found)
      (longest : ∀ other module,
        resolver.LeadsAfter paths base specifier other module →
          other.length ≤ start.length) :
      Denotes resolver paths base specifier (some found)
  | base {found : Location}
      (notExactly : ∀ other, ¬ resolver.LeadsExactly paths base specifier other)
      (notAfter : ∀ start other,
        ¬ resolver.LeadsAfter paths base specifier start other)
      (leads : resolver.LeadsFromBase specifier found) :
      Denotes resolver paths base specifier (some found)
  | nothing
      (notExactly : ∀ other, ¬ resolver.LeadsExactly paths base specifier other)
      (notAfter : ∀ start other,
        ¬ resolver.LeadsAfter paths base specifier start other)
      (notFromBase : ∀ other, ¬ resolver.LeadsFromBase specifier other) :
      Denotes resolver paths base specifier none

section Declared

variable {modules : List Location} {baseUrl aliasBase : Option Location}
  {paths : List (String × List WideText)}

/-- An alias is one of those that are declared. -/
def IsDeclared (paths : List (String × List WideText)) (candidate : Alias) : Prop :=
  ∃ name, (name, candidate.targets) ∈ paths ∧
    IsWritten name.toList candidate.pattern

theorem mem_aliases_build {candidate : Alias} :
    candidate ∈ (build modules baseUrl paths aliasBase).aliases ↔
      IsDeclared paths candidate := by
  rw [build, List.mem_mergeSort, List.mem_filterMap]
  constructor
  · intro listed
    obtain ⟨⟨name, targets⟩, declared, made⟩ := listed
    obtain ⟨pattern, read, rfl⟩ := Option.map_eq_some_iff.mp made
    exact ⟨name, declared, ofText?_eq_some.mp read⟩
  · intro known
    obtain ⟨name, declared, written⟩ := known
    refine ⟨(name, candidate.targets), declared, ?_⟩
    rw [ofText?_eq_some.mpr written]
    rfl

/-- The aliases stand in the order in which they are tried. -/
theorem pairwise_aliases_build :
    (build modules baseUrl paths aliasBase).aliases.Pairwise
      fun left right => left.pattern.tried right.pattern = true := by
  apply List.pairwise_mergeSort
  · intro first second third
    exact tried_trans first.pattern second.pattern third.pattern
  · intro left right
    exact tried_total left.pattern right.pattern

/-- Aliases that are declared in another order are the same aliases. -/
theorem aliases_build_perm {others : List (String × List WideText)}
    (permuted : others.Perm paths) :
    (build modules baseUrl others aliasBase).aliases.Perm
      (build modules baseUrl paths aliasBase).aliases := by
  unfold build
  exact (List.mergeSort_perm _ _).trans
    ((permuted.filterMap _).trans (List.mergeSort_perm _ _).symm)

namespace IsUnambiguous

theorem targets_eq (unambiguous : IsUnambiguous paths) {name : String}
    {left right : List WideText} (first : (name, left) ∈ paths)
    (second : (name, right) ∈ paths) : left = right :=
  congrArg Prod.snd (List.inj_on_of_nodup_map unambiguous.once first second rfl)

theorem eq_of_start (unambiguous : IsUnambiguous paths)
    {left right : String × List WideText} (leftListed : left ∈ paths)
    (rightListed : right ∈ paths) {start leftFinish rightFinish : List Char}
    (first : IsWritten left.1.toList (.wildcard start leftFinish))
    (second : IsWritten right.1.toList (.wildcard start rightFinish)) :
    left.1 = right.1 := by
  have leftStart : wildcardStart? left.1.toList = some start := by
    rw [wildcardStart?, ofText?_eq_some.mpr first]
  have rightStart : wildcardStart? right.1.toList = some start := by
    rw [wildcardStart?, ofText?_eq_some.mpr second]
  apply unambiguous.apart left leftListed right rightListed
  · rw [leftStart]
    rfl
  · rw [leftStart, rightStart]

/-- Two aliases that match a specifier have one name if none of them comes
before the other. -/
theorem name_eq (unambiguous : IsUnambiguous paths) {left right : Alias}
    {leftName rightName : String} {text leftCaptured rightCaptured : List Char}
    (leftListed : (leftName, left.targets) ∈ paths)
    (leftWritten : IsWritten leftName.toList left.pattern)
    (rightListed : (rightName, right.targets) ∈ paths)
    (rightWritten : IsWritten rightName.toList right.pattern)
    (leftMatches : Captures text left.pattern leftCaptured)
    (rightMatches : Captures text right.pattern rightCaptured)
    (before : left.pattern.tried right.pattern = true)
    (after : right.pattern.tried left.pattern = true) : leftName = rightName := by
  cases leftPattern : left.pattern with
  | exact leftExpected =>
      cases rightPattern : right.pattern with
      | exact rightExpected =>
          rw [leftPattern] at leftMatches leftWritten
          rw [rightPattern] at rightMatches rightWritten
          cases leftMatches
          cases rightMatches
          exact String.toList_inj.mp (leftWritten.unique rightWritten)
      | wildcard rightStart rightFinish =>
          rw [leftPattern, rightPattern] at after
          cases after
  | wildcard leftStart leftFinish =>
      cases rightPattern : right.pattern with
      | exact rightExpected =>
          rw [leftPattern, rightPattern] at before
          cases before
      | wildcard rightStart rightFinish =>
          rw [leftPattern] at leftMatches leftWritten before after
          rw [rightPattern] at rightMatches rightWritten before after
          have leftText := leftMatches.text_eq
          have rightText := rightMatches.text_eq
          rw [List.append_assoc] at leftText rightText
          have sameStart : leftStart = rightStart :=
            start_eq leftText rightText (of_decide_eq_true after)
              (of_decide_eq_true before)
          rw [← sameStart] at rightWritten
          exact unambiguous.eq_of_start leftListed rightListed leftWritten
            rightWritten

/-- Of two aliases that match a specifier one comes before the other. -/
theorem eq_of_tried (unambiguous : IsUnambiguous paths) {left right : Alias}
    {text leftCaptured rightCaptured : List Char}
    (leftDeclared : IsDeclared paths left)
    (rightDeclared : IsDeclared paths right)
    (leftMatches : Captures text left.pattern leftCaptured)
    (rightMatches : Captures text right.pattern rightCaptured)
    (before : left.pattern.tried right.pattern = true)
    (after : right.pattern.tried left.pattern = true) : left = right := by
  obtain ⟨leftName, leftListed, leftWritten⟩ := leftDeclared
  obtain ⟨rightName, rightListed, rightWritten⟩ := rightDeclared
  have sameName : leftName = rightName :=
    unambiguous.name_eq leftListed leftWritten rightListed rightWritten
      leftMatches rightMatches before after
  rw [← sameName] at rightListed rightWritten
  have sameTargets : left.targets = right.targets :=
    unambiguous.targets_eq leftListed rightListed
  have samePattern : some left.pattern = some right.pattern := by
    rw [← ofText?_eq_some.mpr leftWritten, ofText?_eq_some.mpr rightWritten]
  cases left
  cases right
  cases samePattern
  cases sameTargets
  rfl

end IsUnambiguous

/-! ## The order of declarations -/

/-- An alias matches a specifier. -/
def matchesAlias (specifier : String) (candidate : Alias) : Bool :=
  (candidate.pattern.capture? specifier.toList).isSome

theorem captures_of_matchesAlias {specifier : String} {candidate : Alias}
    (known : matchesAlias specifier candidate = true) :
    ∃ captured, Captures specifier.toList candidate.pattern captured := by
  obtain ⟨captured, found⟩ := Option.isSome_iff_exists.mp known
  exact ⟨captured, capture?_eq_some.mp found⟩

/-- The aliases that match a specifier come in one order, in whatever order the
aliases are declared. -/
theorem matching_aliases_eq (unambiguous : IsUnambiguous paths)
    {others : List (String × List WideText)} (permuted : others.Perm paths)
    (specifier : String) :
    (build modules baseUrl others aliasBase).aliases.filter
        (matchesAlias specifier) =
      (build modules baseUrl paths aliasBase).aliases.filter
        (matchesAlias specifier) := by
  apply List.Perm.eq_of_pairwise _ (pairwise_aliases_build.filter _)
    (pairwise_aliases_build.filter _)
    ((aliases_build_perm permuted).filter _)
  intro left right leftListed rightListed before after
  have leftMember := List.mem_filter.mp leftListed
  have rightMember := List.mem_filter.mp rightListed
  have leftKnown := (aliases_build_perm permuted).mem_iff.mp leftMember.1
  obtain ⟨leftCaptured, leftMatches⟩ := captures_of_matchesAlias leftMember.2
  obtain ⟨rightCaptured, rightMatches⟩ := captures_of_matchesAlias rightMember.2
  exact unambiguous.eq_of_tried (mem_aliases_build.mp leftKnown)
    (mem_aliases_build.mp rightMember.1) leftMatches rightMatches before after

/-- An alias that does not match a specifier leads nowhere. -/
theorem flatMap_pathsOfAlias (base : Location) (specifier : String)
    (candidates : List Alias) :
    candidates.flatMap (pathsOfAlias base specifier) =
      (candidates.filter (matchesAlias specifier)).flatMap
        (pathsOfAlias base specifier) := by
  induction candidates with
  | nil => rfl
  | cons candidate rest ih =>
      rw [List.flatMap_cons, ih]
      cases captured : candidate.pattern.capture? specifier.toList with
      | none =>
          have missed : matchesAlias specifier candidate = false := by
            rw [matchesAlias, captured]
            rfl
          rw [List.filter_cons_of_neg (by rw [missed]; exact Bool.false_ne_true),
            pathsOfAlias, captured, List.nil_append]
      | some text =>
          have matched : matchesAlias specifier candidate = true := by
            rw [matchesAlias, captured]
            rfl
          rw [List.filter_cons_of_pos matched, List.flatMap_cons]

theorem locateFirst_congr {left right : Resolver}
    (same : left.modules = right.modules) (looked : List Path) :
    left.locateFirst looked = right.locateFirst looked := by
  have sameProbe : left.probe = right.probe := by
    funext location
    rw [probe, probe, same]
  induction looked with
  | nil => rfl
  | cons path rest ih => rw [locateFirst, locateFirst, sameProbe, ih]

theorem locate_build_perm (unambiguous : IsUnambiguous paths)
    {others : List (String × List WideText)} (permuted : others.Perm paths)
    (importer : Location) (specifier : String) :
    (build modules baseUrl others aliasBase).locate importer specifier =
      (build modules baseUrl paths aliasBase).locate importer specifier := by
  have sameAliases :
      (build modules baseUrl others aliasBase).aliasPaths specifier =
        (build modules baseUrl paths aliasBase).aliasPaths specifier := by
    have sameBase : (build modules baseUrl others aliasBase).aliasBase =
        (build modules baseUrl paths aliasBase).aliasBase := rfl
    unfold aliasPaths
    rw [sameBase]
    cases (build modules baseUrl paths aliasBase).aliasBase with
    | none => rfl
    | some base =>
        dsimp only
        rw [flatMap_pathsOfAlias, matching_aliases_eq unambiguous permuted,
          ← flatMap_pathsOfAlias]
  have samePaths :
      (build modules baseUrl others aliasBase).paths importer specifier =
        (build modules baseUrl paths aliasBase).paths importer specifier := by
    unfold Resolver.paths
    rw [sameAliases]
    rfl
  rw [locate, locate, samePaths]
  apply locateFirst_congr
  rfl

/-! ## What a specifier denotes -/

section Looking

variable {resolver : Resolver} {base : Location} {specifier : String}

/-- The module to which an alias leads. -/
def aliasModule? (resolver : Resolver) (base : Location) (specifier : String)
    (candidate : Alias) : Option Location :=
  (pathsOfAlias base specifier candidate).findSome? fun path =>
    resolver.probe path.resolve

theorem aliasModule?_eq_some {candidate : Alias} {found : Location} :
    resolver.aliasModule? base specifier candidate = some found ↔
      ∃ captured, Captures specifier.toList candidate.pattern captured ∧
        resolver.targetModule? base captured candidate.targets = some found := by
  rw [aliasModule?, pathsOfAlias]
  cases read : candidate.pattern.capture? specifier.toList with
  | none =>
      constructor
      · intro leads
        cases leads
      · intro matched
        obtain ⟨captured, captures, _⟩ := matched
        rw [capture?_eq_some.mpr captures] at read
        cases read
  | some text =>
      have same :
          (candidate.targets.map fun target =>
              base.path.joinWide (expandTarget text target)).findSome?
            (fun path => resolver.probe path.resolve) =
              resolver.targetModule? base text candidate.targets :=
        List.findSome?_map
      dsimp only
      rw [same]
      constructor
      · intro leads
        exact ⟨text, capture?_eq_some.mp read, leads⟩
      · intro matched
        obtain ⟨captured, captures, leads⟩ := matched
        rw [capture?_eq_some.mpr captures] at read
        cases read
        exact leads

theorem findSome?_flatMap_pathsOfAlias (candidates : List Alias) :
    (candidates.flatMap (pathsOfAlias base specifier)).findSome?
        (fun path => resolver.probe path.resolve) =
      candidates.findSome? (resolver.aliasModule? base specifier) := by
  induction candidates with
  | nil => rfl
  | cons candidate rest ih =>
      rw [List.flatMap_cons, List.findSome?_append, ih, List.findSome?_cons,
        aliasModule?]
      cases (pathsOfAlias base specifier candidate).findSome?
        (fun path => resolver.probe path.resolve) <;> rfl

/-- The module to which the base directory leads. -/
def baseModule? (resolver : Resolver) (specifier : String) : Option Location :=
  (resolver.basePaths specifier).findSome? fun path => resolver.probe path.resolve

theorem baseModule?_eq_some {found : Location} :
    resolver.baseModule? specifier = some found ↔
      resolver.LeadsFromBase specifier found := by
  rw [baseModule?, basePaths, LeadsFromBase]
  cases resolver.baseUrl with
  | none => simp
  | some url =>
      by_cases rooted : specifier.toList.head? = some '/'
      · simp [rooted]
      · simp [rooted, Location.resolve]

/-- A specifier that is not relative is looked up through the aliases and then
from the base directory. -/
theorem resolve_of_not_isRelative (nonempty : specifier ≠ "")
    (notRelative : isRelative specifier = false)
    (anchored : resolver.aliasBase = some base) (importer : Location) :
    resolver.resolve importer specifier =
      (resolver.aliases.findSome? (resolver.aliasModule? base specifier)).or
        (resolver.baseModule? specifier) := by
  rw [resolve, Resolver.paths, if_neg nonempty, notRelative,
    if_neg Bool.false_ne_true, List.findSome?_append, aliasPaths, anchored,
    baseModule?]
  dsimp only
  rw [findSome?_flatMap_pathsOfAlias]

/-- What is found is a module. -/
theorem mem_modules_of_locate {importer found : Location}
    (located : resolver.locate importer specifier = .ok (some found)) :
    found ∈ resolver.modules := by
  by_cases null : resolver.MeetsNull importer specifier
  · rw [locate_of_meetsNull null] at located
    cases located
  · rw [locate_of_not_meetsNull null, Except.ok.injEq] at located
    obtain ⟨path, _, probed⟩ := List.exists_of_findSome?_eq_some located
    simpa using List.find?_some probed

end Looking

section Denoting

variable {resolver : Resolver} {base : Location} {specifier : String}
  {start : List Char} {found : Location}

/-- The aliases of a resolver are those that are declared, in the order in which
they are tried. -/
structure Declares (resolver : Resolver) (paths : List (String × List WideText)) :
    Prop where
  declared : ∀ candidate, candidate ∈ resolver.aliases ↔ IsDeclared paths candidate
  ordered : resolver.aliases.Pairwise
    fun left right => left.pattern.tried right.pattern = true

theorem declares_build :
    (build modules baseUrl paths aliasBase).Declares paths :=
  ⟨fun _ => mem_aliases_build, pairwise_aliases_build⟩

theorem leadsExactly_iff (declares : resolver.Declares paths) :
    resolver.LeadsExactly paths base specifier found ↔
      ∃ candidate ∈ resolver.aliases,
        candidate.pattern = .exact specifier.toList ∧
          resolver.aliasModule? base specifier candidate = some found := by
  constructor
  · intro leads
    obtain ⟨targets, listed, plain, hit⟩ := leads
    refine ⟨⟨.exact specifier.toList, targets⟩, ?_, rfl, ?_⟩
    · exact (declares.declared _).mpr ⟨specifier, listed, .exact plain⟩
    · exact aliasModule?_eq_some.mpr ⟨[], .exact, hit⟩
  · intro leads
    obtain ⟨⟨pattern, targets⟩, member, same, hit⟩ := leads
    obtain ⟨name, listed, written⟩ := (declares.declared _).mp member
    obtain ⟨captured, captures, hit⟩ := aliasModule?_eq_some.mp hit
    dsimp only at same listed written captures hit
    rw [same] at written captures
    generalize nameText : name.toList = text at written
    generalize specifierText : specifier.toList = wanted at written captures
    cases written with
    | exact plain =>
        cases captures
        have sameName : name = specifier :=
          String.toList_inj.mp (nameText.trans specifierText.symm)
        rw [sameName] at listed
        rw [← specifierText] at plain
        exact ⟨targets, listed, plain, hit⟩

theorem leadsAfter_iff (declares : resolver.Declares paths) :
    resolver.LeadsAfter paths base specifier start found ↔
      ∃ candidate ∈ resolver.aliases,
        (∃ finish, candidate.pattern = .wildcard start finish) ∧
          resolver.aliasModule? base specifier candidate = some found := by
  constructor
  · intro leads
    obtain ⟨name, targets, captured, finish, listed, written, plainStart,
      plainFinish, matched, hit⟩ := leads
    refine ⟨⟨.wildcard start finish, targets⟩, ?_, ⟨finish, rfl⟩, ?_⟩
    · apply (declares.declared _).mpr
      refine ⟨name, listed, ?_⟩
      rw [written]
      exact .wildcard plainStart plainFinish
    · apply aliasModule?_eq_some.mpr
      refine ⟨captured, ?_, hit⟩
      rw [matched]
      exact .wildcard
  · intro leads
    obtain ⟨⟨pattern, targets⟩, member, ⟨finish, same⟩, hit⟩ := leads
    obtain ⟨name, listed, written⟩ := (declares.declared _).mp member
    obtain ⟨captured, captures, hit⟩ := aliasModule?_eq_some.mp hit
    dsimp only at same listed written captures hit
    rw [same] at written captures
    have matched := captures.text_eq
    generalize nameText : name.toList = text at written
    cases written with
    | wildcard plainStart plainFinish =>
        exact ⟨name, targets, captured, finish, listed, nameText, plainStart,
          plainFinish, matched, hit⟩

/-- What the aliases and the base directory lead to is denoted: of the aliases
that lead to a module the first decides, and none of the later ones comes before
it. -/
theorem denotes_of_declares (declares : resolver.Declares paths) :
    resolver.Denotes paths base specifier
      ((resolver.aliases.findSome? (resolver.aliasModule? base specifier)).or
        (resolver.baseModule? specifier)) := by
  cases first : resolver.aliases.findSome?
      (resolver.aliasModule? base specifier) with
  | none =>
      have missed := List.findSome?_eq_none_iff.mp first
      have notExactly (other : Location) :
          ¬ resolver.LeadsExactly paths base specifier other := by
        intro leads
        obtain ⟨candidate, member, _, hit⟩ := (leadsExactly_iff declares).mp leads
        rw [missed candidate member] at hit
        cases hit
      have notAfter (start : List Char) (other : Location) :
          ¬ resolver.LeadsAfter paths base specifier start other := by
        intro leads
        obtain ⟨candidate, member, _, hit⟩ := (leadsAfter_iff declares).mp leads
        rw [missed candidate member] at hit
        cases hit
      rw [Option.none_or]
      cases fromBase : resolver.baseModule? specifier with
      | some found =>
          exact .base notExactly notAfter (baseModule?_eq_some.mp fromBase)
      | none =>
          apply Denotes.nothing notExactly notAfter
          intro other leads
          rw [baseModule?_eq_some.mpr leads] at fromBase
          cases fromBase
  | some found =>
      obtain ⟨before, candidate, after, split, hit, missed⟩ :=
        List.findSome?_eq_some_iff.mp first
      have member : candidate ∈ resolver.aliases := by
        rw [split]
        exact List.mem_append_right _ List.mem_cons_self
      -- An alias that leads somewhere is the first one or comes after it.
      have later : ∀ other ∈ resolver.aliases, ∀ module,
          resolver.aliasModule? base specifier other = some module →
            other = candidate ∨
              candidate.pattern.tried other.pattern = true := by
        intro other listed module leads
        rw [split, List.mem_append, List.mem_cons] at listed
        cases listed with
        | inl early =>
            rw [missed other early] at leads
            cases leads
        | inr rest =>
            apply rest.imp_right
            have ordered := declares.ordered
            rw [split, List.pairwise_append, List.pairwise_cons] at ordered
            exact ordered.2.1.1 other
      obtain ⟨captured, captures, _⟩ := aliasModule?_eq_some.mp hit
      rw [Option.some_or]
      cases pattern : candidate.pattern with
      | exact expected =>
          rw [pattern] at captures
          rw [captures.exact_eq] at pattern
          apply Denotes.exact
          exact (leadsExactly_iff declares).mpr ⟨candidate, member, pattern, hit⟩
      | wildcard start finish =>
          refine @Denotes.wildcard _ _ _ _ start _ ?_ ?_ ?_
          · intro other leads
            obtain ⟨earlier, listed, exactly, leads⟩ :=
              (leadsExactly_iff declares).mp leads
            cases later earlier listed other leads with
            | inl same => rw [same, pattern] at exactly; cases exactly
            | inr tried => rw [exactly, pattern] at tried; cases tried
          · exact (leadsAfter_iff declares).mpr
              ⟨candidate, member, ⟨finish, pattern⟩, hit⟩
          · intro other module leads
            obtain ⟨second, listed, ⟨otherFinish, otherPattern⟩, leads⟩ :=
              (leadsAfter_iff declares).mp leads
            cases later second listed module leads with
            | inl same =>
                rw [same, pattern] at otherPattern
                cases otherPattern
                exact Nat.le_refl _
            | inr tried =>
                rw [pattern, otherPattern] at tried
                exact of_decide_eq_true tried

theorem LeadsExactly.unique (unambiguous : IsUnambiguous paths)
    {other : Location}
    (first : resolver.LeadsExactly paths base specifier found)
    (second : resolver.LeadsExactly paths base specifier other) :
    found = other := by
  obtain ⟨targets, listed, _, hit⟩ := first
  obtain ⟨others, otherListed, _, otherHit⟩ := second
  rw [unambiguous.targets_eq listed otherListed] at hit
  exact Option.some.inj (hit.symm.trans otherHit)

theorem LeadsAfter.unique (unambiguous : IsUnambiguous paths) {other : Location}
    (first : resolver.LeadsAfter paths base specifier start found)
    (second : resolver.LeadsAfter paths base specifier start other) :
    found = other := by
  obtain ⟨name, targets, captured, finish, listed, written, plainStart,
    plainFinish, matched, hit⟩ := first
  obtain ⟨otherName, others, otherCaptured, otherFinish, otherListed,
    otherWritten, _, otherPlain, otherMatched, otherHit⟩ := second
  have sameName : name = otherName := by
    apply unambiguous.eq_of_start listed otherListed
    · rw [written]
      exact .wildcard plainStart plainFinish
    · rw [otherWritten]
      exact .wildcard plainStart otherPlain
  rw [sameName] at listed written
  have sameFinish : finish = otherFinish := by
    have same := List.append_cancel_left (written.symm.trans otherWritten)
    exact List.tail_eq_of_cons_eq same
  rw [sameFinish] at matched
  have sameCaptured : captured = otherCaptured :=
    List.append_cancel_left
      (List.append_cancel_right (matched.symm.trans otherMatched))
  rw [sameCaptured, unambiguous.targets_eq listed otherListed] at hit
  exact Option.some.inj (hit.symm.trans otherHit)

/-- Starts after which aliases lead on from one specifier are equal if they have
one length. -/
theorem LeadsAfter.start_eq {otherStart : List Char} {other : Location}
    (first : resolver.LeadsAfter paths base specifier start found)
    (second : resolver.LeadsAfter paths base specifier otherStart other)
    (shorter : start.length ≤ otherStart.length)
    (longer : otherStart.length ≤ start.length) : start = otherStart := by
  obtain ⟨_, _, captured, finish, _, _, _, _, matched, _⟩ := first
  obtain ⟨_, _, otherCaptured, otherFinish, _, _, _, _, otherMatched, _⟩ := second
  rw [List.append_assoc] at matched otherMatched
  exact AliasPattern.start_eq matched otherMatched shorter longer

/-- A specifier denotes one thing. -/
theorem Denotes.unique (unambiguous : IsUnambiguous paths)
    {left right : Option Location}
    (first : resolver.Denotes paths base specifier left)
    (second : resolver.Denotes paths base specifier right) : left = right := by
  cases first with
  | exact leads =>
      cases second with
      | exact other => exact congrArg some (leads.unique unambiguous other)
      | wildcard notExactly => exact absurd leads (notExactly _)
      | base notExactly => exact absurd leads (notExactly _)
      | nothing notExactly => exact absurd leads (notExactly _)
  | wildcard notExactly leads longest =>
      cases second with
      | exact other => exact absurd other (notExactly _)
      | wildcard _ other otherLongest =>
          have sameStart := leads.start_eq other (otherLongest _ _ leads)
            (longest _ _ other)
          rw [← sameStart] at other
          exact congrArg some (leads.unique unambiguous other)
      | base _ notAfter => exact absurd leads (notAfter _ _)
      | nothing _ notAfter => exact absurd leads (notAfter _ _)
  | base notExactly notAfter leads =>
      cases second with
      | exact other => exact absurd other (notExactly _)
      | wildcard _ other => exact absurd other (notAfter _ _)
      | base _ _ other =>
          rw [← baseModule?_eq_some] at leads other
          exact leads.symm.trans other
      | nothing _ _ notFromBase => exact absurd leads (notFromBase _)
  | nothing notExactly notAfter notFromBase =>
      cases second with
      | exact other => exact absurd other (notExactly _)
      | wildcard _ other => exact absurd other (notAfter _ _)
      | base _ _ other => exact absurd other (notFromBase _)
      | nothing => rfl

/-- A specifier that is not relative denotes what it is resolved to. -/
theorem denotes_iff (unambiguous : IsUnambiguous paths)
    (declares : resolver.Declares paths) (nonempty : specifier ≠ "")
    (notRelative : isRelative specifier = false)
    (anchored : resolver.aliasBase = some base) (importer : Location)
    {denoted : Option Location} :
    resolver.resolve importer specifier = denoted ↔
      resolver.Denotes paths base specifier denoted := by
  have holds := @denotes_of_declares _ resolver base specifier declares
  rw [← resolve_of_not_isRelative nonempty notRelative anchored importer] at holds
  constructor
  · intro same
    rw [← same]
    exact holds
  · intro denotes
    exact holds.unique unambiguous denotes

end Denoting

/-- Unambiguous aliases may be declared in any order: a specifier denotes the
same.  If it is not relative, that is what the aliases and the base directory
make of it, unless the lookup comes to the null character, and it is a module
if it is anything. -/
theorem locate_declared (unambiguous : IsUnambiguous paths) (importer : Location)
    (specifier : String) :
    let resolver := build modules baseUrl paths aliasBase
    (∀ others : List (String × List WideText), others.Perm paths →
      (build modules baseUrl others aliasBase).locate importer specifier =
        resolver.locate importer specifier) ∧
    (resolver.MeetsNull importer specifier →
      resolver.locate importer specifier = .error .nullCharacter) ∧
    (∀ base, resolver.aliasBase = some base → specifier ≠ "" →
      isRelative specifier = false → ¬ resolver.MeetsNull importer specifier →
        ∀ denoted, resolver.locate importer specifier = .ok denoted ↔
          resolver.Denotes paths base specifier denoted) ∧
    (∀ found, resolver.locate importer specifier = .ok (some found) →
      found ∈ modules) := by
  intro resolver
  refine ⟨?_, locate_of_meetsNull, ?_, fun _ => mem_modules_of_locate⟩
  · intro others permuted
    exact locate_build_perm unambiguous permuted importer specifier
  · intro base anchored nonempty notRelative clean denoted
    rw [locate_of_not_meetsNull clean, Except.ok.injEq]
    exact denotes_iff unambiguous declares_build nonempty notRelative anchored
      importer

end Declared

/-- Aliases that all match one specifier, in the order in which they are
tried; the first one leads nowhere. -/
def layeredPaths : List (String × List WideText) :=
  [("@/lib/a", ["gone"]), ("@/lib/*", ["old/*", "lib/*"]), ("@/*", ["src/*"])]

/-- Modules to which two of these aliases lead. -/
def layeredModules : List Location :=
  [⟨["lib", "a.ts"]⟩, ⟨["src", "lib", "a.ts"]⟩, ⟨["src", "main.ts"]⟩]

theorem locate_declared_layered :
    (build layeredModules none layeredPaths.reverse (some .root)).locate
        ⟨["src", "main.ts"]⟩ "@/lib/a" = .ok (some ⟨["lib", "a.ts"]⟩) ∧
    (build layeredModules none layeredPaths (some .root)).Denotes layeredPaths
      .root "@/lib/a" (some ⟨["lib", "a.ts"]⟩) := by
  have declared := @locate_declared layeredModules none (some .root) layeredPaths
    (by decide) ⟨["src", "main.ts"]⟩ "@/lib/a"
  have sorted : (build layeredModules none layeredPaths (some .root)).paths
      ⟨["src", "main.ts"]⟩ "@/lib/a" =
        [⟨.single, ["gone"]⟩, ⟨.single, ["old", "a"]⟩, ⟨.single, ["lib", "a"]⟩,
          ⟨.single, ["src", "lib", "a"]⟩] := by
    rw [build, List.mergeSort_of_pairwise (by decide)]
    decide
  have clean : ¬ (build layeredModules none layeredPaths (some .root)).MeetsNull
      ⟨["src", "main.ts"]⟩ "@/lib/a" := by
    intro null
    obtain ⟨path, member, holds⟩ := null.exists_mem
    rw [sorted] at member
    revert path
    decide
  have located : (build layeredModules none layeredPaths (some .root)).locate
      ⟨["src", "main.ts"]⟩ "@/lib/a" = .ok (some ⟨["lib", "a.ts"]⟩) := by
    rw [locate, sorted]
    decide
  constructor
  · rw [declared.1 _ layeredPaths.reverse_perm]
    exact located
  · exact (declared.2.2.1 .root rfl (by decide) (by decide) clean _).mp located

end Resolver

end ExportAudit
