import PeerCache.Lru.Recency
/-!
# PeerCache — laws of the recency list

* **The budget** — `kept_spec`: what a budget keeps of a list of entries is a prefix that fits it,
  and every prefix that fits is a prefix of it. `kept_of_fits` and `kept_concat` are the two steps
  of a loop that drops entries from the far end until the rest fits.
* **One key** — `without_mid`, `peek_mid` and their companions for a key that has no entry: in a
  list with one entry per key, looking up and deleting concern that entry alone.
-/

namespace PeerCache

namespace Recency

variable {ν : Type}

section Budget

variable [Sized ν]

theorem cost_append (es fs : List (String × ν)) : cost (es ++ fs) = cost es + cost fs := by
  induction es with
  | nil => simp [cost]
  | cons e es ih =>
    rw [List.cons_append]
    simp only [cost, ih]
    omega

/-- Whether entries fit a budget; zero is no budget at all. -/
def Fits (maxBytes : Nat) (es : List (String × ν)) : Prop := maxBytes = 0 ∨ cost es ≤ maxBytes

/-- What a budget keeps is the front of the list. -/
theorem within_isPrefix (budget : Nat) (es : List (String × ν)) : within budget es <+: es := by
  induction es generalizing budget with
  | nil => exact List.prefix_refl _
  | cons e es ih =>
    simp only [within]
    split
    · exact List.cons_prefix_cons.2 ⟨rfl, ih _⟩
    · exact List.nil_prefix

/-- What a budget keeps is within it. -/
theorem cost_within_le (budget : Nat) (es : List (String × ν)) :
    cost (within budget es) ≤ budget := by
  induction es generalizing budget with
  | nil => simp [within, cost]
  | cons e es ih =>
    simp only [within]
    split
    next h =>
      have hrest := ih (budget - Lru.cost e.1 e.2)
      simp only [cost]
      omega
    next => simp [cost]

/-- A prefix that fits ends no later than the longest run that fits. -/
theorem prefix_within {budget : Nat} {p es : List (String × ν)} (hp : p <+: es)
    (hcost : cost p ≤ budget) : p <+: within budget es := by
  induction es generalizing budget p with
  | nil => exact hp
  | cons e es ih =>
    cases p with
    | nil => exact List.nil_prefix
    | cons f p =>
      obtain ⟨rfl, hrest⟩ := List.cons_prefix_cons.1 hp
      simp only [cost] at hcost
      have hhead : Lru.cost f.1 f.2 ≤ budget := by omega
      simp only [within, hhead, if_true]
      exact List.cons_prefix_cons.2 ⟨rfl, ih hrest (by omega)⟩

theorem within_of_fits {budget : Nat} {es : List (String × ν)} (h : cost es ≤ budget) :
    within budget es = es :=
  List.IsPrefix.eq_of_length_le (within_isPrefix budget es)
    (prefix_within (List.prefix_refl es) h).length_le

/-- **The budget.** What is kept is the longest prefix that fits. -/
theorem kept_spec (maxBytes : Nat) (es : List (String × ν)) :
    kept maxBytes es <+: es ∧ Fits maxBytes (kept maxBytes es) ∧
      ∀ p, p <+: es → Fits maxBytes p → p <+: kept maxBytes es := by
  unfold kept Fits
  split
  next h => exact ⟨List.prefix_refl es, .inl h, fun p hp _ => hp⟩
  next h =>
    refine ⟨within_isPrefix maxBytes es, .inr (cost_within_le maxBytes es), fun p hp hfits => ?_⟩
    exact prefix_within hp (hfits.resolve_left h)

/-- Entries that fit are all kept. -/
theorem kept_of_fits {maxBytes : Nat} {es : List (String × ν)} (h : Fits maxBytes es) :
    kept maxBytes es = es := by
  unfold kept
  split
  next => rfl
  next h0 => exact within_of_fits (h.resolve_left h0)

/-- The last entry of a list that does not fit is not kept. -/
theorem kept_concat {maxBytes : Nat} {es : List (String × ν)} {e : String × ν}
    (h : ¬ Fits maxBytes (es ++ [e])) : kept maxBytes (es ++ [e]) = kept maxBytes es := by
  have hlong := kept_spec maxBytes (es ++ [e])
  have hshort := kept_spec maxBytes es
  -- A prefix of the longer list is one of the shorter list or the whole, which does not fit.
  have hprefix : kept maxBytes (es ++ [e]) <+: es := by
    rcases List.prefix_concat_iff.1 hlong.1 with heq | hp
    · exact absurd (heq ▸ hlong.2.1) h
    · exact hp
  have hle := hshort.2.2 _ hprefix hlong.2.1
  have hge := hlong.2.2 _ (hshort.1.trans (List.prefix_append es [e])) hshort.2.1
  exact hle.eq_of_length_le hge.length_le

end Budget

/-! ## One key -/

theorem without_of_not_mem {key : String} {es : List (String × ν)} (h : key ∉ es.map Prod.fst) :
    without key es = es := by
  refine List.filter_eq_self.2 fun e he => ?_
  have hne : e.1 ≠ key := fun heq => h (heq ▸ List.mem_map_of_mem he)
  simpa using hne

/-- With one entry per key, deleting a key deletes its entry. -/
theorem without_mid {key : String} {value : ν} {es fs : List (String × ν)}
    (hes : key ∉ es.map Prod.fst) (hfs : key ∉ fs.map Prod.fst) :
    without key (es ++ (key, value) :: fs) = es ++ fs := by
  have h₁ := without_of_not_mem hes
  have h₂ := without_of_not_mem hfs
  unfold without at h₁ h₂ ⊢
  rw [List.filter_append, List.filter_cons, h₁, h₂]
  simp

theorem peek_of_not_mem {r : Recency ν} {key : String} (h : key ∉ r.keys) :
    r.peek key = none := by
  unfold peek
  rw [Option.map_eq_none_iff, List.find?_eq_none]
  intro e he heq
  exact h (List.mem_map.2 ⟨e, he, by simpa using heq⟩)

/-- With one entry per key, looking a key up finds its entry. -/
theorem peek_mid {maxBytes : Nat} {key : String} {value : ν} {es fs : List (String × ν)}
    (hes : key ∉ es.map Prod.fst) :
    (⟨maxBytes, es ++ (key, value) :: fs⟩ : Recency ν).peek key = some value := by
  have hnone : es.find? (fun e => decide (e.1 = key)) = none := by
    rw [List.find?_eq_none]
    intro e he heq
    exact hes (List.mem_map.2 ⟨e, he, by simpa using heq⟩)
  simp [peek, List.find?_append, hnone]

/-! ## What an operation can bring in -/

/-- What is found under a key is an entry. -/
theorem mem_of_peek {r : Recency ν} {key : String} {value : ν} (h : r.peek key = some value) :
    (key, value) ∈ r.entries := by
  unfold peek at h
  obtain ⟨e, he, rfl⟩ := Option.map_eq_some_iff.1 h
  have hkey := List.find?_some he
  rw [decide_eq_true_eq] at hkey
  rw [← hkey]
  exact List.mem_of_find?_eq_some he

theorem mem_of_mem_without {key : String} {es : List (String × ν)} {e : String × ν}
    (h : e ∈ without key es) : e ∈ es :=
  (List.mem_filter.1 h).1

/-- A hit gives an entry of the list; looking up neither adds entries nor changes the budget. -/
theorem get_spec (r : Recency ν) (key : String) :
    (∀ value, (r.get key).2 = some value → (key, value) ∈ r.entries) ∧
      (∀ e, e ∈ (r.get key).1.entries → e ∈ r.entries) ∧
      (r.get key).1.maxBytes = r.maxBytes := by
  unfold get
  cases hpeek : r.peek key with
  | none =>
    refine ⟨?_, fun e he => he, rfl⟩
    intro value hvalue
    cases hvalue
  | some v =>
    have hmem := mem_of_peek hpeek
    refine ⟨?_, ?_, rfl⟩
    · intro value hvalue
      cases hvalue
      exact hmem
    · intro e he
      rcases List.mem_cons.1 he with rfl | he
      · exact hmem
      · exact mem_of_mem_without he

/-- An addition brings in the entry that is added, and no other. -/
theorem mem_entries_add [Sized ν] {r : Recency ν} {key : String} {value : ν} {e : String × ν}
    (h : e ∈ (r.add key value).1.entries) : e = (key, value) ∨ e ∈ r.entries := by
  have hkept := (kept_spec r.maxBytes ((key, value) :: without key r.entries)).1.subset h
  rcases List.mem_cons.1 hkept with heq | hmem
  · exact Or.inl heq
  · exact Or.inr (mem_of_mem_without hmem)

end Recency

end PeerCache
