/-!
# PeerCache — finite tables

A `Table` holds at most one entry per key; the newest entry comes first. The type carries the
fact that no key occurs twice, so every operation has to keep it.

The view of a table is the function `find?`. Each operation has one equation for it:
`find?_insert`, `find?_erase` and `find?_empty`; `mem_iff_find?` leads back to the entries.
-/

namespace PeerCache

/-- A finite table from `κ` to `ν` with one entry per key, newest first. -/
structure Table (κ ν : Type) where
  entries : List (κ × ν)
  nodup : (entries.map Prod.fst).Nodup
deriving DecidableEq, Repr

namespace Table

variable {κ ν : Type}

/-- The table without entries. -/
def empty : Table κ ν := ⟨[], by simp⟩

instance : Inhabited (Table κ ν) := ⟨empty⟩

/-- The number of keys. -/
def size (t : Table κ ν) : Nat := t.entries.length

/-- The keys, newest first. -/
def keys (t : Table κ ν) : List κ := t.entries.map Prod.fst

/-- The values, newest first. -/
def values (t : Table κ ν) : List ν := t.entries.map Prod.snd

/-- The same keys with new values. -/
def map {μ : Type} (f : κ → ν → μ) (t : Table κ ν) : Table κ μ where
  entries := t.entries.map fun e => (e.1, f e.1 e.2)
  nodup := by
    have h : ((t.entries.map fun e => (e.1, f e.1 e.2)).map Prod.fst)
        = t.entries.map Prod.fst := by simp [List.map_map, Function.comp_def]
    rw [h]
    exact t.nodup

variable [DecidableEq κ]

/-- The value of a key. -/
def find? (t : Table κ ν) (k : κ) : Option ν :=
  (t.entries.find? fun e => e.1 = k).map Prod.snd

/-- Whether the key has an entry. -/
def contains (t : Table κ ν) (k : κ) : Bool := (t.find? k).isSome

/-- Drops the entry of a key. -/
def erase (t : Table κ ν) (k : κ) : Table κ ν where
  entries := t.entries.filter fun e => e.1 ≠ k
  nodup := t.nodup.sublist (List.filter_sublist.map _)

/-- Sets the value of a key; its entry becomes the newest. -/
def insert (t : Table κ ν) (k : κ) (v : ν) : Table κ ν where
  entries := (k, v) :: (t.erase k).entries
  nodup := by
    rw [List.map_cons, List.nodup_cons]
    refine ⟨?_, (t.erase k).nodup⟩
    intro h
    obtain ⟨e, he, hk⟩ := List.mem_map.1 h
    have hne := (List.mem_filter.1 he).2
    simp [hk] at hne

/-- Changes the value of a key that has one, in place. -/
def modify (t : Table κ ν) (k : κ) (f : ν → ν) : Table κ ν :=
  t.map fun k' v => if k' = k then f v else v

/-- The table of a list of entries; of several entries for one key the last one stays. -/
def ofList (es : List (κ × ν)) : Table κ ν :=
  es.foldl (fun t e => t.insert e.1 e.2) empty

/-! ## The view -/

@[simp] theorem find?_empty (k : κ) : (empty : Table κ ν).find? k = none := rfl

/-- Taking a key out is felt at that key only. -/
theorem find?_erase (t : Table κ ν) (k k' : κ) :
    (t.erase k).find? k' = if k' = k then none else t.find? k' := by
  unfold find? erase
  by_cases h : k' = k
  · subst h
    simp
  · have hsame : (t.entries.filter fun e => e.1 ≠ k).find? (fun e => e.1 = k')
        = t.entries.find? (fun e => e.1 = k') := by
      rw [List.find?_filter]
      congr 1
      funext e
      by_cases he : e.1 = k'
      · simp [he, h]
      · simp [he]
    rw [hsame, if_neg h]

/-- Putting a value in is felt at its key only. -/
theorem find?_insert (t : Table κ ν) (k k' : κ) (v : ν) :
    (t.insert k v).find? k' = if k' = k then some v else t.find? k' := by
  by_cases h : k' = k
  · subst h
    simp [find?, insert]
  · have hk : ¬ k = k' := fun e => h e.symm
    have herase := find?_erase t k k'
    rw [if_neg h] at herase ⊢
    rw [← herase]
    simp [find?, insert, hk]

@[simp] theorem find?_insert_self (t : Table κ ν) (k : κ) (v : ν) :
    (t.insert k v).find? k = some v := by rw [find?_insert, if_pos rfl]

@[simp] theorem find?_erase_self (t : Table κ ν) (k : κ) : (t.erase k).find? k = none := by
  rw [find?_erase, if_pos rfl]

/-- A change is made at its key only, and only if there is something to change. -/
theorem find?_modify (t : Table κ ν) (k k' : κ) (f : ν → ν) :
    (t.modify k f).find? k' = if k' = k then (t.find? k').map f else t.find? k' := by
  unfold find? modify map
  rw [List.find?_map]
  have hsame : ((fun e : κ × ν => decide (e.1 = k')) ∘ fun e : κ × ν =>
      (e.1, if e.1 = k then f e.2 else e.2)) = fun e => decide (e.1 = k') := rfl
  rw [hsame]
  cases hfind : t.entries.find? fun e => e.1 = k' with
  | none => simp
  | some e =>
    have hk := List.find?_some hfind
    rw [decide_eq_true_eq] at hk
    by_cases h : k' = k
    · simp [hk, h]
    · simp [hk, h]

/-- An entry is in the table exactly when looking its key up gives its value. -/
theorem mem_iff_find? (t : Table κ ν) (k : κ) (v : ν) :
    (k, v) ∈ t.entries ↔ t.find? k = some v := by
  unfold find?
  obtain ⟨es, hes⟩ := t
  induction es with
  | nil => simp
  | cons e r ih =>
    obtain ⟨k', v'⟩ := e
    rw [List.map_cons, List.nodup_cons] at hes
    have ih := ih hes.2
    by_cases h : k' = k
    · subst h
      have hnot : (k', v) ∉ r := fun hm => hes.1 (List.mem_map.2 ⟨(k', v), hm, rfl⟩)
      constructor
      · intro hm
        rcases List.mem_cons.1 hm with heq | hm
        · simp [(Prod.mk.inj heq).2]
        · exact absurd hm hnot
      · intro hf
        simp at hf
        simp [hf]
    · have hne : (k, v) ≠ (k', v') := fun heq => h (Prod.mk.inj heq).1.symm
      simp only [List.mem_cons, hne, false_or, List.find?_cons, h, decide_false]
      exact ih

/-- A table is its list of entries; that the keys are distinct is no more data. -/
theorem eq_of_entries {κ ν : Type} {t u : Table κ ν} (h : t.entries = u.entries) : t = u := by
  obtain ⟨entries, hnodup⟩ := t
  cases h
  rfl

/-- A key that comes and goes leaves no trace. -/
theorem erase_insert {t : Table κ ν} {k : κ} (h : t.find? k = none) (v : ν) :
    (t.insert k v).erase k = t := by
  have hfree : ∀ e ∈ t.entries, decide (e.1 ≠ k) = true := by
    intro e he
    rw [decide_eq_true_iff]
    rintro rfl
    rw [(t.mem_iff_find? e.1 e.2).1 he] at h
    cases h
  apply eq_of_entries
  show ((k, v) :: t.entries.filter fun e => e.1 ≠ k).filter (fun e => e.1 ≠ k) = t.entries
  rw [List.filter_cons_of_neg (by simp), List.filter_eq_self.2 hfree, List.filter_eq_self.2 hfree]

/-- A second value of a key takes the place of the first one. -/
theorem insert_insert (t : Table κ ν) (k : κ) (v w : ν) :
    (t.insert k v).insert k w = t.insert k w := by
  apply eq_of_entries
  show (k, w) :: ((k, v) :: t.entries.filter fun e => e.1 ≠ k).filter (fun e => e.1 ≠ k) =
    (k, w) :: t.entries.filter fun e => e.1 ≠ k
  rw [List.filter_cons_of_neg (by simp), List.filter_filter]
  simp

end Table

end PeerCache
