import ExportAudit.Proofs.Pattern.Reaching

/-!
# Names on paths

A path leads name by name, and each `..` takes back the name before it.  A step
back after a step onward therefore leads nowhere else, and as many steps up as
there are names below a directory lead back to that directory.

The names that two paths share are those before the first difference.
-/

namespace ExportAudit

open Pattern

/-- A name that a file or a directory can have. -/
def IsName (name : String) : Prop := IsPart name.toList ∧ '\x00' ∉ name.toList

instance (name : String) : Decidable (IsName name) :=
  inferInstanceAs (Decidable (_ ∧ _))

/-- Files and directories can have all names of the location. -/
def Location.IsNormal (location : Location) : Prop :=
  ∀ name ∈ location.names, IsName name

instance (location : Location) : Decidable location.IsNormal :=
  inferInstanceAs (Decidable (∀ name ∈ location.names, IsName name))

/-- A name as it can stand between the slashes of a path: it is not empty, not
`.`, and holds no slash.  It may be `..`. -/
def IsProperName (name : String) : Prop :=
  name ≠ "" ∧ name ≠ "." ∧ '/' ∉ name.toList

instance (name : String) : Decidable (IsProperName name) :=
  inferInstanceAs (Decidable (_ ∧ _ ∧ _))

theorem isProperName_iff {name : String} :
    IsProperName name ↔
      name.toList ≠ [] ∧ name.toList ≠ ['.'] ∧ '/' ∉ name.toList := by
  rw [IsProperName, ne_eq, ne_eq, ← String.toList_inj, ← String.toList_inj]
  rfl

theorem IsName.isProperName {name : String} (isName : IsName name) :
    IsProperName name :=
  isProperName_iff.mpr ⟨isName.1.1, isName.1.2.1, isName.1.2.2.2⟩

theorem map_ofList_toList (names : List String) :
    (names.map String.toList).map String.ofList = names := by
  rw [List.map_map]
  exact (List.map_congr_left fun _ _ => String.ofList_toList).trans (List.map_id _)

theorem IsName.ne_up {name : String} (isName : IsName name) : name ≠ ".." := by
  intro same
  rw [same] at isName
  exact isName.1.2.2.1 rfl

namespace Path

/-! ## Steps up -/

/-- A step onward and back leads nowhere else. -/
theorem collapse_back {name : String} (onward : name ≠ "..")
    (left right : List String) :
    collapse (left ++ name :: ".." :: right) = collapse (left ++ right) := by
  simp only [collapse, List.foldl_append, List.foldl_cons, if_neg onward,
    if_true, List.drop_one, List.tail_cons]

/-- A step up for each name below a directory leads back to that directory. -/
theorem collapse_up {above passed onward : List String}
    (named : ∀ name ∈ above ++ passed ++ onward, name ≠ "..") :
    collapse (above ++ passed ++ (List.replicate passed.length ".." ++ onward)) =
      above ++ onward := by
  induction passed using List.reverseRecOn with
  | nil =>
      rw [List.append_nil] at named
      simpa using collapse_eq named
  | append_singleton others name ih =>
      have onwardName : name ≠ ".." := named name (by simp)
      have later : ∀ other ∈ above ++ others ++ onward, other ≠ ".." := by
        intro other member
        apply named other
        simp only [List.mem_append] at member ⊢
        tauto
      have shape : above ++ (others ++ [name]) ++
          (List.replicate (others ++ [name]).length ".." ++ onward) =
            (above ++ others) ++ name :: ".." ::
              (List.replicate others.length ".." ++ onward) := by
        rw [List.length_append, List.length_singleton, List.replicate_succ]
        simp
      rw [shape, collapse_back onwardName]
      exact ih later

/-! ## Shared names -/

/-- The names that two lists have before they first differ. -/
def sharedNames : List String → List String → List String
  | left :: lefts, right :: rights =>
      if left = right then left :: sharedNames lefts rights else []
  | _, _ => []

theorem sharedNames_left (left right : List String) :
    sharedNames left right <+: left := by
  fun_induction sharedNames left right with
  | case1 lefts name rights ih => exact (List.prefix_cons_inj name).mpr ih
  | case2 => exact List.nil_prefix
  | case3 => exact List.nil_prefix

theorem sharedNames_right (left right : List String) :
    sharedNames left right <+: right := by
  fun_induction sharedNames left right with
  | case1 lefts name rights ih => exact (List.prefix_cons_inj name).mpr ih
  | case2 => exact List.nil_prefix
  | case3 => exact List.nil_prefix

/-- Names that begin both lists are among the shared ones. -/
theorem prefix_sharedNames {names left right : List String}
    (beginsLeft : names <+: left) (beginsRight : names <+: right) :
    names <+: sharedNames left right := by
  induction names generalizing left right with
  | nil => exact List.nil_prefix
  | cons name rest ih =>
      obtain ⟨lefts, rfl, restLeft⟩ := List.cons_prefix_iff.mp beginsLeft
      obtain ⟨rights, rfl, restRight⟩ := List.cons_prefix_iff.mp beginsRight
      rw [sharedNames, if_pos rfl]
      exact (List.prefix_cons_inj name).mpr (ih restLeft restRight)

/-- A list shares all its names with a list that it begins. -/
theorem sharedNames_of_prefix {left right : List String}
    (begins : left <+: right) : sharedNames left right = left :=
  (sharedNames_left left right).eq_of_length
    (Nat.le_antisymm (sharedNames_left left right).length_le
      (prefix_sharedNames (List.prefix_refl left) begins).length_le)

/-! ## Names as a text -/

/-- Texts that slashes join are found again between the slashes. -/
theorem properParts_joined {texts : List (List Char)}
    (proper : ∀ text ∈ texts, text ≠ [] ∧ text ≠ ['.'] ∧ '/' ∉ text) :
    properParts (joined texts) = texts := by
  cases texts with
  | nil => rfl
  | cons first rest =>
      have noSlash : ∀ text ∈ first :: rest, '/' ∉ text :=
        fun text member => (proper text member).2.2
      rw [properParts, joined,
        List.splitOn_intercalate '/' noSlash (List.cons_ne_nil _ _)]
      apply List.filter_eq_self.mpr
      intro text member
      simpa using ⟨(proper text member).1, (proper text member).2.1⟩

/-- Proper names that slashes join are found again between the slashes. -/
theorem properParts_names {names : List String}
    (proper : ∀ name ∈ names, IsProperName name) :
    properParts (joined (names.map String.toList)) =
      names.map String.toList := by
  apply properParts_joined
  intro text listed
  obtain ⟨name, member, rfl⟩ := List.mem_map.mp listed
  exact isProperName_iff.mp (proper name member)

theorem toList_joinNames (names : List String) :
    (joinNames names).toList = joined (names.map String.toList) := by
  rw [joinNames, String.toList_intercalate]
  rfl

theorem joinNames_concat_append (names : List String) (name ending : String) :
    joinNames (names ++ [name ++ ending]) =
      joinNames (names ++ [name]) ++ ending := by
  apply String.toList_injective
  rw [String.toList_append, toList_joinNames, toList_joinNames, List.map_append,
    List.map_append, List.map_singleton, List.map_singleton, String.toList_append]
  by_cases none : names.map String.toList = []
  · rw [none, List.nil_append, List.nil_append, joined_singleton,
      joined_singleton]
  · rw [joined_append none (List.cons_ne_nil _ _),
      joined_append none (List.cons_ne_nil _ _),
      joined_singleton, joined_singleton, List.append_assoc,
      List.cons_append]

/-- A relative text leads on from its base. -/
theorem names_join {base : Path} {text : String}
    (relative : PathRoot.ofText? text.toList = none) :
    (base.join text).names = base.names ++ splitNames text := by
  rw [join, relative]

/-- A text without the null character has no name that holds it. -/
theorem not_null_of_mem_splitNames {text : List Char} (clean : '\x00' ∉ text)
    {name : String} (member : name ∈ splitNames (String.ofList text)) :
    '\x00' ∉ name.toList := by
  rw [splitNames_ofList] at member
  obtain ⟨part, listed, rfl⟩ := List.mem_map.mp member
  rw [String.toList_ofList]
  intro inside
  exact clean (Text.mem_of_mem_splitOn (List.mem_of_mem_filter listed) inside)

end Path

end ExportAudit
