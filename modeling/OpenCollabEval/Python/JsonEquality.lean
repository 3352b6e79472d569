import OpenCollabEval.Python.JsonDocument

/-!
# Equality of JSON values

Equality of values can be decided. Two values are alike when they are equal up to the order of the
keys of their objects.
-/

namespace Python

namespace Json

section Same

mutual

/-- Whether two values are the same. -/
def same : Json → Json → Bool
  | null, null => true
  | bool b, bool b' => b == b'
  | int n, int n' => n == n'
  | float x, float x' => x == x'
  | str s, str s' => s == s'
  | list items, list items' => sameItems items items'
  | dict entries, dict entries' => sameEntries entries entries'
  | _, _ => false

/-- Whether two arrays have the same items. -/
def sameItems : List Json → List Json → Bool
  | [], [] => true
  | v :: rest, v' :: rest' => same v v' && sameItems rest rest'
  | _, _ => false

/-- Whether two objects have the same entries in the same order. -/
def sameEntries : List (Str × Json) → List (Str × Json) → Bool
  | [], [] => true
  | (key, v) :: rest, (key', v') :: rest' => key == key' && same v v' && sameEntries rest rest'
  | _, _ => false

end

mutual

theorem same_iff (v v' : Json) : same v v' = true ↔ v = v' := by
  cases v with
  | list items =>
    cases v' with
    | list items' => simp [same, sameItems_iff items items']
    | _ => simp [same]
  | dict entries =>
    cases v' with
    | dict entries' => simp [same, sameEntries_iff entries entries']
    | _ => simp [same]
  | _ => cases v' <;> simp [same]

theorem sameItems_iff (items items' : List Json) :
    sameItems items items' = true ↔ items = items' := by
  cases items with
  | nil => cases items' <;> simp [sameItems]
  | cons v rest =>
    cases items' with
    | nil => simp [sameItems]
    | cons v' rest' => simp [sameItems, same_iff v v', sameItems_iff rest rest']

theorem sameEntries_iff (entries entries' : List (Str × Json)) :
    sameEntries entries entries' = true ↔ entries = entries' := by
  cases entries with
  | nil => cases entries' <;> simp [sameEntries]
  | cons entry rest =>
    obtain ⟨key, v⟩ := entry
    cases entries' with
    | nil => simp [sameEntries]
    | cons entry' rest' =>
      obtain ⟨key', v'⟩ := entry'
      simp [sameEntries, same_iff v v', sameEntries_iff rest rest', and_assoc]

end

instance : DecidableEq Json := fun v v' => decidable_of_iff _ (same_iff v v')

end Same

/-- Equality of JSON values without regard to the order of the keys. -/
inductive Alike : Json → Json → Prop where
  | refl (v : Json) : Alike v v
  | list (items items' : List Json) (length : items.length = items'.length)
    (each : ∀ (i : Nat) (v v' : Json), items[i]? = some v → items'[i]? = some v' → Alike v v') :
    Alike (.list items) (.list items')
  | dict (entries entries' : Obj) (keys : ∀ key, entries.has key = entries'.has key)
    (each : ∀ (key : Str) (v v' : Json), entries.lookup key = some v →
      entries'.lookup key = some v' → Alike v v') :
    Alike (.dict entries) (.dict entries')

namespace Alike

variable {entries entries' : Obj} {items items' : List Json}

/-- Alike objects have alike values. -/
theorem get_of_dict (h : (Json.dict entries).Alike (.dict entries')) (key : Str) :
    (Obj.get entries key).Alike (Obj.get entries' key) := by
  cases h with
  | refl => exact .refl _
  | dict _ _ keys each =>
    have hkey := keys key
    rw [Obj.has, Obj.has] at hkey
    rw [Obj.get, Obj.get]
    cases hv : entries.lookup key with
    | none =>
      have hnone : entries'.lookup key = none := by simpa [hv] using hkey.symm
      rw [hnone]
      exact .refl _
    | some v =>
      obtain ⟨v', hv'⟩ : ∃ v', entries'.lookup key = some v' := by
        rw [← Option.isSome_iff_exists, ← hkey, hv]
        rfl
      rw [hv']
      exact each key v v' hv hv'

/-- Alike arrays have alike items. -/
theorem getElem_of_list (h : (Json.list items).Alike (.list items')) (i : Nat) {v v' : Json}
    (hv : items[i]? = some v) (hv' : items'[i]? = some v') : v.Alike v' := by
  cases h with
  | refl =>
    rw [hv] at hv'
    rw [Option.some.inj hv']
    exact .refl _
  | list _ _ _ each => exact each i v v' hv hv'

end Alike

end Json

end Python
