import PeerCache.Proofs.Lru.Recency
/-!
# PeerCache — one list for all budgets

What a recency list keeps under a budget is the longest prefix that fits of the list it would be
without one:

* **`kept_touch`** — the budget can wait: to put an entry in front of what is kept and to cut again
  gives the same as to put it in front of the whole list.
* **`mem_kept_iff`** — an entry is kept exactly when the part of the list up to it fits, so what a
  budget keeps is kept by a larger one (`Fits.mono`).
-/

namespace PeerCache

namespace Recency

variable {ν : Type}

/-! ## Getting and touching -/

theorem without_cons_self (key : String) (value : ν) (es : List (String × ν)) :
    without key ((key, value) :: es) = without key es := by
  simp [without]

theorem without_cons_of_ne {key : String} {e : String × ν} (h : e.1 ≠ key)
    (es : List (String × ν)) : without key (e :: es) = e :: without key es := by
  simp [without, h]

/-- A hit moves its entry to the front. -/
theorem get_eq_some {r : Recency ν} {key : String} {value : ν} (h : (r.get key).2 = some value) :
    (key, value) ∈ r.entries ∧
      (r.get key).1 = { r with entries := (key, value) :: without key r.entries } := by
  unfold get at h ⊢
  cases hpeek : r.peek key with
  | none => simp [hpeek] at h
  | some v =>
    obtain rfl : v = value := by simpa [hpeek] using h
    exact ⟨mem_of_peek hpeek, rfl⟩

/-- A miss changes nothing. -/
theorem get_eq_none {r : Recency ν} {key : String} (h : (r.get key).2 = none) :
    (∀ e ∈ r.entries, e.1 ≠ key) ∧ (r.get key).1 = r := by
  unfold get at h ⊢
  cases hpeek : r.peek key with
  | none => exact ⟨by simpa [peek] using hpeek, rfl⟩
  | some v => simp [hpeek] at h

/-- A lookup answers what is there. -/
theorem get_eq_peek (r : Recency ν) (key : String) : (r.get key).2 = r.peek key := by
  unfold get
  cases r.peek key <;> rfl

/-- An entry that comes to the front, and is not anywhere else then, leaves the keys distinct. -/
theorem nodup_touch (key : String) (value : ν) {es : List (String × ν)}
    (h : (es.map Prod.fst).Nodup) :
    (((key, value) :: without key es).map Prod.fst).Nodup := by
  refine List.nodup_cons.2 ⟨?_, h.sublist (List.filter_sublist.map Prod.fst)⟩
  simp [without]

variable [Sized ν]

/-- What an addition keeps and what it evicts are together the new entry and the others. -/
theorem add_parts (r : Recency ν) (key : String) (value : ν) :
    (r.add key value).1.entries ++ (r.add key value).2.reverse =
      (key, value) :: without key r.entries := by
  have hkept := (kept_spec r.maxBytes ((key, value) :: without key r.entries)).1
  unfold add
  rw [List.reverse_reverse]
  exact List.prefix_iff_eq_append.1 hkept

/-! ## What a touch costs -/

theorem cost_without_le (key : String) (es : List (String × ν)) :
    cost (without key es) ≤ cost es := by
  induction es with
  | nil => simp [without, cost]
  | cons e es ih =>
    by_cases hkey : e.1 = key
    · subst hkey
      rw [without_cons_self]
      simp only [cost]
      omega
    · rw [without_cons_of_ne hkey]
      simp only [cost]
      omega

/-- To move an entry to the front costs nothing. -/
theorem cost_touch_le {e : String × ν} {es : List (String × ν)} (h : e ∈ es) :
    cost (e :: without e.1 es) ≤ cost es := by
  induction es with
  | nil => simp at h
  | cons f es ih =>
    -- Bringing an entry to the front adds its cost once, and `without` takes it off at least once.
    have hless := cost_without_le e.1 es
    by_cases hkey : f.1 = e.1
    · rw [← hkey, without_cons_self, hkey]
      rcases List.mem_cons.1 h with rfl | h
      · simp only [cost]
        omega
      · have hrest := ih h
        simp only [cost] at hrest ⊢
        omega
    · rcases List.mem_cons.1 h with rfl | h
      · exact absurd rfl hkey
      · have hrest := ih h
        rw [without_cons_of_ne hkey]
        simp only [cost] at hrest ⊢
        omega

/-- What fits a budget fits a larger one, and anything fits where the budget is zero, which is
none. -/
theorem Fits.mono {maxBytes larger : Nat} {es : List (String × ν)} (h : Fits maxBytes es)
    (hle : larger = 0 ∨ maxBytes ≠ 0 ∧ maxBytes ≤ larger) : Fits larger es := by
  unfold Fits at h ⊢
  omega

/-- If a list fits, so does its front. -/
theorem Fits.of_prefix {maxBytes : Nat} {p es : List (String × ν)} (h : Fits maxBytes es)
    (hp : p <+: es) : Fits maxBytes p := by
  obtain ⟨rest, rfl⟩ := hp
  unfold Fits at h ⊢
  rw [cost_append] at h
  omega

/-- Moving an entry to the front does not change whether the list fits. -/
theorem Fits.touch {maxBytes : Nat} {e : String × ν} {es : List (String × ν)}
    (h : Fits maxBytes es) (he : e ∈ es) : Fits maxBytes (e :: without e.1 es) := by
  have hcost := cost_touch_le he
  unfold Fits at h ⊢
  omega

/-! ## The front that fits -/

/-- Cutting before a key is deleted makes no difference to what is left next to its entry. -/
theorem within_without {key : String} {value : ν} {budget total : Nat} {es : List (String × ν)}
    (hbudget : total = budget + Lru.cost key value)
    (hsame : ∀ e ∈ es, e.1 = key → e = (key, value)) (hnodup : (es.map Prod.fst).Nodup) :
    within budget (without key (within total es)) = within budget (without key es) := by
  subst hbudget
  induction es generalizing budget with
  | nil => rfl
  | cons e es ih =>
    obtain ⟨hout, hnodup⟩ := List.nodup_cons.1 hnodup
    have hrest : ∀ f ∈ es, f.1 = key → f = (key, value) :=
      fun f hf => hsame f (List.mem_cons_of_mem e hf)
    by_cases hkey : e.1 = key
    · -- the old entry makes room for exactly the new one, and the key is not met again
      obtain rfl : e = (key, value) := hsame e List.mem_cons_self hkey
      have hkept : key ∉ (within budget es).map Prod.fst := fun hmem =>
        hout (List.map_subset Prod.fst (within_isPrefix budget es).subset hmem)
      have hcut : within (budget + Lru.cost key value) ((key, value) :: es) =
          (key, value) :: within budget es := by
        simp [within]
      rw [hcut, without_cons_self, without_cons_self, without_of_not_mem hkept,
        without_of_not_mem hout, within_of_fits (cost_within_le budget es)]
    · rw [without_cons_of_ne hkey]
      by_cases hfits : Lru.cost e.1 e.2 ≤ budget
      · have hcut : within (budget + Lru.cost key value) (e :: es) =
            e :: within (budget - Lru.cost e.1 e.2 + Lru.cost key value) es := by
          have hle : Lru.cost e.1 e.2 ≤ budget + Lru.cost key value := by omega
          have hrest : budget + Lru.cost key value - Lru.cost e.1 e.2 =
              budget - Lru.cost e.1 e.2 + Lru.cost key value := by omega
          simp [within, hle, hrest]
        rw [hcut, without_cons_of_ne hkey]
        simp only [within, hfits, if_true]
        rw [ih hrest hnodup]
      · -- an entry that does not fit without the key's old entry ends both runs
        simp only [within, hfits, if_false]
        split
        · simp [without_cons_of_ne hkey, within, hfits]
        · rfl

/-- The budget can wait until an entry has been put in front. -/
theorem kept_touch {maxBytes : Nat} {key : String} {value : ν} {es : List (String × ν)}
    (hsame : ∀ e ∈ es, e.1 = key → e = (key, value)) (hnodup : (es.map Prod.fst).Nodup) :
    kept maxBytes ((key, value) :: without key (kept maxBytes es)) =
      kept maxBytes ((key, value) :: without key es) := by
  unfold kept
  split
  next => rfl
  next =>
    simp only [within]
    split
    next hfits =>
      have hbudget : maxBytes = maxBytes - Lru.cost key value + Lru.cost key value := by omega
      rw [within_without hbudget hsame hnodup]
    next => rfl

/-- An entry is kept exactly if it fits together with all that are newer. -/
theorem mem_kept_iff {maxBytes : Nat} {e : String × ν} {before after : List (String × ν)}
    (hout : e ∉ before) :
    e ∈ kept maxBytes (before ++ e :: after) ↔ Fits maxBytes (before ++ [e]) := by
  obtain ⟨hkept, hfits, hlongest⟩ := kept_spec maxBytes (before ++ e :: after)
  have hupto : before ++ [e] <+: before ++ e :: after := ⟨after, by simp⟩
  constructor
  · intro hmem
    -- of two prefixes of one list, the one that lacks `e` is the shorter
    rcases List.prefix_or_prefix_of_prefix hkept hupto with hshort | hlong
    · rcases List.prefix_concat_iff.1 hshort with heq | hbefore
      · rw [← heq]
        exact hfits
      · exact absurd (hbefore.subset hmem) hout
    · exact hfits.of_prefix hlong
  · intro hfits
    exact (hlongest _ hupto hfits).subset (by simp)

end Recency

end PeerCache
