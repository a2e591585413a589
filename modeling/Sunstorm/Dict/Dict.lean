import Mathlib.Data.List.Nodup

/-!
# Dictionaries that keep the order of their keys

A dictionary lists its entries in the order in which their keys were added; setting a key again
keeps its place.
-/

/-- A dictionary. No key has two entries. -/
structure Dict (κ α : Type) where
  entries : List (κ × α)
  nodup : (entries.map Prod.fst).Nodup

namespace Dict

variable {κ α β : Type} [DecidableEq κ]

/-- The dictionary without entries. -/
def empty : Dict κ α := ⟨[], List.nodup_nil⟩

/-- The keys, in their order. -/
def keys (d : Dict κ α) : List κ := d.entries.map Prod.fst

/-- The value of a key, if it has one. -/
def get? (d : Dict κ α) (k : κ) : Option α := (d.entries.find? fun e => e.1 = k).map Prod.snd

/-- Put `v` in the place of the value of `k`. -/
def overwrite (k : κ) (v : α) (e : κ × α) : κ × α := if e.1 = k then (k, v) else e

theorem overwrite_fst (k : κ) (v : α) (e : κ × α) : (overwrite k v e).1 = e.1 := by
  unfold overwrite
  by_cases h : e.1 = k
  · rw [if_pos h, h]
  · rw [if_neg h]

theorem map_fst_overwrite (k : κ) (v : α) (l : List (κ × α)) :
    (l.map (overwrite k v)).map Prod.fst = l.map Prod.fst := by
  rw [List.map_map]
  exact List.map_congr_left fun e _ => overwrite_fst k v e

/-- Set the value of a key. -/
def set (d : Dict κ α) (k : κ) (v : α) : Dict κ α :=
  if h : k ∈ d.keys then ⟨d.entries.map (overwrite k v), by rw [map_fst_overwrite]; exact d.nodup⟩
  else ⟨d.entries ++ [(k, v)], by
    rw [List.map_append, List.nodup_append']
    refine ⟨d.nodup, List.nodup_singleton _, fun k' hk' heq => ?_⟩
    rw [List.mem_singleton.mp heq] at hk'
    exact h hk'⟩

/-- Set the values of all entries of the list, one after the other. -/
def setAll (d : Dict κ α) (l : List (κ × α)) : Dict κ α := l.foldl (fun d e => d.set e.1 e.2) d

/-- Change every value. -/
def map (f : κ → α → β) (d : Dict κ α) : Dict κ β :=
  ⟨d.entries.map fun e => (e.1, f e.1 e.2), by
    rw [List.map_map]
    exact d.nodup⟩

end Dict
