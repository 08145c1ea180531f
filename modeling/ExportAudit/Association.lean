/-!
# Association lists

A finite map kept as a list of pairs in the order in which its keys were first
inserted.  Inserting a key again replaces its value and keeps its place.
-/

namespace ExportAudit.Association

universe u v

/-- The keys of a map, in order. -/
def keys {κ : Type u} {ν : Type v} (entries : List (κ × ν)) : List κ :=
  entries.map Prod.fst

variable {κ : Type u} {ν : Type v} [DecidableEq κ]

/-- Give a key a value: in its place if the key is present, at the end
otherwise. -/
def insert (key : κ) (value : ν) : List (κ × ν) → List (κ × ν)
  | [] => [(key, value)]
  | (other, previous) :: rest =>
      if other = key then (key, value) :: rest
      else (other, previous) :: insert key value rest

/-- Apply a function to the value of a key, or to `missing` if the key is
absent. -/
def update (key : κ) (missing : ν) (change : ν → ν) :
    List (κ × ν) → List (κ × ν)
  | [] => [(key, change missing)]
  | (other, previous) :: rest =>
      if other = key then (key, change previous) :: rest
      else (other, previous) :: update key missing change rest

/-- The value of a key. -/
def find? (key : κ) : List (κ × ν) → Option ν
  | [] => none
  | (other, value) :: rest => if other = key then some value else find? key rest

/-- The map of a list of pairs. -/
def ofList (pairs : List (κ × ν)) : List (κ × ν) :=
  pairs.foldl (fun entries pair => insert pair.1 pair.2 entries) []

@[simp] theorem find?_insert (key other : κ) (value : ν)
    (entries : List (κ × ν)) :
    find? other (insert key value entries) =
      if key = other then some value else find? other entries := by
  induction entries with
  | nil => simp [insert, find?]
  | cons entry rest ih => unfold insert; grind [find?]

@[simp] theorem find?_update (key other : κ) (missing : ν) (change : ν → ν)
    (entries : List (κ × ν)) :
    find? other (update key missing change entries) =
      if key = other then some (change ((find? other entries).getD missing))
      else find? other entries := by
  induction entries with
  | nil => simp [update, find?]
  | cons entry rest ih => unfold update; grind [find?]

theorem exists_mem_of_find?_isSome {key : κ} {entries : List (κ × ν)}
    (present : (find? key entries).isSome) :
    ∃ entry ∈ entries, entry.1 = key := by
  induction entries with
  | nil => simp [find?] at present
  | cons entry rest ih => grind [find?]

theorem find?_isSome_of_mem {entry : κ × ν} {entries : List (κ × ν)}
    (listed : entry ∈ entries) : (find? entry.1 entries).isSome := by
  induction entries with
  | nil => cases listed
  | cons first rest ih => grind [find?]

theorem keys_insert (key : κ) (value : ν) (entries : List (κ × ν)) :
    keys (insert key value entries) =
      if key ∈ keys entries then keys entries else keys entries ++ [key] := by
  induction entries with
  | nil => simp [keys, insert]
  | cons entry rest ih => unfold insert; grind [keys]

theorem keys_update (key : κ) (missing : ν) (change : ν → ν)
    (entries : List (κ × ν)) :
    keys (update key missing change entries) =
      if key ∈ keys entries then keys entries else keys entries ++ [key] := by
  induction entries with
  | nil => simp [keys, update]
  | cons entry rest ih => unfold update; grind [keys]

theorem find?_eq_none_of_notMem {key : κ} {entries : List (κ × ν)}
    (absent : key ∉ keys entries) : find? key entries = none := by
  induction entries with
  | nil => rfl
  | cons entry rest ih => grind [find?, keys]

theorem find?_append (key : κ) (entries later : List (κ × ν)) :
    find? key (entries ++ later) = (find? key entries).or (find? key later) := by
  induction entries with
  | nil => rfl
  | cons entry rest ih => grind [find?]

/-- In a map without repeated keys every entry is found. -/
theorem find?_eq_some_of_nodup {entry : κ × ν} {entries : List (κ × ν)}
    (distinct : (keys entries).Nodup) (listed : entry ∈ entries) :
    find? entry.1 entries = some entry.2 := by
  induction entries with
  | nil => cases listed
  | cons first rest ih =>
      obtain ⟨absent, others⟩ := List.nodup_cons.mp distinct
      cases listed with
      | head => simp [find?]
      | tail _ later =>
          have differs : first.1 ≠ entry.1 := by
            intro same
            rw [same] at absent
            exact absent (List.mem_map_of_mem later)
          simp [find?, differs, ih others later]

end ExportAudit.Association
