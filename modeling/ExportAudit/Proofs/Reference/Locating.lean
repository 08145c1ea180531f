import ExportAudit.Proofs.Failure.Propagation
import ExportAudit.Reference.Classification

/-!
# Locating specifiers

Locating the specifiers of a module gives what resolving them gives, unless a
lookup comes to a path with the null character before it finds a module.  A
target of an alias can also hold a lone surrogate, which counts as that.
-/

namespace ExportAudit

namespace Resolver

variable {resolver : Resolver}

/-- Looking up paths in order comes to one that holds the null character. -/
def ComesToNull (resolver : Resolver) (paths : List Path) : Prop :=
  ∃ before path after, paths = before ++ path :: after ∧
    (∀ earlier ∈ before, resolver.probe earlier.resolve = none) ∧
    path.holdsNull = true

/-- The lookup of a specifier comes to a path that holds the null character. -/
def MeetsNull (resolver : Resolver) (importer : Location) (specifier : String) :
    Prop :=
  resolver.ComesToNull (resolver.paths importer specifier)

@[simp] theorem not_comesToNull_nil : ¬ resolver.ComesToNull [] := by
  rintro ⟨before, path, after, split, _⟩
  simp at split

theorem comesToNull_cons {path : Path} {rest : List Path} :
    resolver.ComesToNull (path :: rest) ↔
      path.holdsNull = true ∨
        resolver.probe path.resolve = none ∧ resolver.ComesToNull rest := by
  constructor
  · rintro ⟨before, found, after, split, missed, null⟩
    cases before with
    | nil =>
        cases split
        exact .inl null
    | cons first others =>
        cases split
        rw [List.forall_mem_cons] at missed
        exact .inr ⟨missed.1, others, found, after, rfl, missed.2, null⟩
  · rintro (null | ⟨missed, before, found, after, rfl, others, null⟩)
    · exact ⟨[], path, rest, rfl, by simp, null⟩
    · refine ⟨path :: before, found, after, rfl, ?_, null⟩
      rw [List.forall_mem_cons]
      exact ⟨missed, others⟩

theorem ComesToNull.exists_mem {paths : List Path}
    (null : resolver.ComesToNull paths) :
    ∃ path ∈ paths, path.holdsNull = true := by
  obtain ⟨before, path, after, rfl, _, null⟩ := null
  exact ⟨path, by simp, null⟩

theorem locateFirst_of_comesToNull {paths : List Path}
    (null : resolver.ComesToNull paths) :
    resolver.locateFirst paths = .error .nullCharacter := by
  induction paths with
  | nil => exact absurd null not_comesToNull_nil
  | cons path rest ih =>
      unfold locateFirst Path.locate
      rcases comesToNull_cons.mp null with here | ⟨missed, later⟩
      · simp [here]
      · cases path.holdsNull with
        | true => rfl
        | false => simp [missed, ih later]

theorem locateFirst_of_not_comesToNull {paths : List Path}
    (fine : ¬ resolver.ComesToNull paths) :
    resolver.locateFirst paths =
      .ok (paths.findSome? fun path => resolver.probe path.resolve) := by
  induction paths with
  | nil => rfl
  | cons path rest ih =>
      rw [comesToNull_cons, not_or, not_and] at fine
      unfold locateFirst Path.locate
      rw [List.findSome?_cons]
      cases probed : resolver.probe path.resolve with
      | some module => simp [fine.1, probed, pure, Except.pure]
      | none => simp [fine.1, probed, ih (fine.2 probed)]

variable {importer : Location} {specifier : String}

theorem locate_of_meetsNull (null : resolver.MeetsNull importer specifier) :
    resolver.locate importer specifier = .error .nullCharacter :=
  locateFirst_of_comesToNull null

theorem locate_of_not_meetsNull
    (fine : ¬ resolver.MeetsNull importer specifier) :
    resolver.locate importer specifier =
      .ok (resolver.resolve importer specifier) :=
  locateFirst_of_not_comesToNull fine

end Resolver

namespace Module

variable {module : Module} {resolver : Resolver}

/-- The lookup of one of a module's specifiers comes to a path that holds the
null character. -/
def MeetsNull (module : Module) (resolver : Resolver) : Prop :=
  ∃ specifier ∈ module.specifiers,
    resolver.MeetsNull module.location specifier

theorem locateReferences_of_not_meetsNull (fine : ¬ module.MeetsNull resolver) :
    module.locateReferences resolver = .ok (module.references resolver) := by
  have each : ∀ specifier ∈ module.specifiers,
      resolver.locate module.location specifier =
        .ok (resolver.resolve module.location specifier) :=
    fun specifier member => Resolver.locate_of_not_meetsNull
      fun null => fine ⟨specifier, member, null⟩
  unfold locateReferences
  rw [mapM_eq_ok_map each]
  rfl

theorem locateReferences_of_meetsNull (null : module.MeetsNull resolver) :
    module.locateReferences resolver = .error .nullCharacter := by
  have only : ∀ specifier ∈ module.specifiers, ∀ failure,
      resolver.locate module.location specifier = .error failure →
        failure = .nullCharacter := by
    intro specifier _ failure failed
    by_cases known : resolver.MeetsNull module.location specifier
    · rw [Resolver.locate_of_meetsNull known] at failed
      cases failed
      rfl
    · rw [Resolver.locate_of_not_meetsNull known] at failed
      cases failed
  obtain ⟨specifier, member, met⟩ := null
  have failing : Fails (resolver.locate module.location specifier) := by
    rw [Resolver.locate_of_meetsNull met]
    exact ⟨.nullCharacter, rfl, trivial⟩
  unfold locateReferences
  rw [mapM_eq_error only ⟨specifier, member, failing⟩]
  rfl

end Module

end ExportAudit
