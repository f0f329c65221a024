import PeerCache.Proofs.Lru.Refinement
import PeerCache.Store.Basic
/-!
# PeerCache — the store as a recency list

A store is a cache that may not have been set up yet. `Store.Models s r` relates it to the recency
list `r` of its budget, which is empty as long as there is no cache; `get` and `insert` answer what
the list answers and keep the relation.

The lemmas on `Sound` stores are what provenance arguments need of it: a store holds nothing but
what it held before and what was just put into it.
-/

namespace PeerCache

namespace Store

/-- The store holds the entries of the recency list. -/
structure Models (s : Store) (r : Recency ByteView) : Prop where
  budget : r.maxBytes = s.cacheBytes
  unused : s.lru = none → r.entries = []
  used : ∀ c, s.lru = some c → Lru.Models c r

theorem models_new (cacheBytes : Nat) : Models (new cacheBytes) (.new cacheBytes) where
  budget := rfl
  unused := fun _ => rfl
  used := by
    intro c hc
    cases hc

/-- The entries of a store are those of its list, in the same order. -/
theorem Models.entries_eq {s : Store} {r : Recency ByteView} (h : Models s r) :
    s.entries = r.entries := by
  unfold Store.entries
  cases hc : s.lru with
  | none => exact (h.unused hc).symm
  | some c => exact (h.used c hc).entries_eq

/-- A lookup answers as the list does, and the list goes on modelling the store. -/
theorem Models.get {s : Store} {r : Recency ByteView} (h : Models s r) (key : String) :
    (s.get key).2 = (r.get key).2 ∧ Models (s.get key).1 (r.get key).1 := by
  obtain ⟨cacheBytes, lru⟩ := s
  cases lru with
  | none =>
    -- Before the first add there is no cache, and the list that it stands for is empty.
    have hempty := h.unused rfl
    have hmiss : r.peek key = none := by
      unfold Recency.peek
      rw [hempty]
      rfl
    have hget : r.get key = (r, none) := by
      unfold Recency.get
      rw [hmiss]
    rw [hget]
    exact ⟨rfl, h⟩
  | some c =>
    obtain ⟨hvalue, hmodels⟩ := (h.used c rfl).get key
    refine ⟨hvalue, ?_, ?_, ?_⟩
    · show (r.get key).1.maxBytes = cacheBytes
      rw [(Recency.get_spec r key).2.2]
      exact h.budget
    · intro hnone
      cases hnone
    · intro d hd
      cases hd
      exact hmodels

/-- An addition evicts what the list evicts, and the list goes on modelling the store. -/
theorem Models.insert {s : Store} {r : Recency ByteView} (h : Models s r) (key : String)
    (value : ByteView) :
    (s.insert key value).2 = (r.add key value).2 ∧
      Models (s.insert key value).1 (r.add key value).1 := by
  have hcache : Lru.Models (s.lru.getD (.new s.cacheBytes)) r := by
    cases hc : s.lru with
    | none =>
      have hr : r = .new s.cacheBytes := by
        obtain ⟨maxBytes, entries⟩ := r
        exact congr (congrArg Recency.mk h.budget) (h.unused hc)
      rw [hr]
      exact Lru.models_new s.cacheBytes
    | some c => exact h.used c hc
  obtain ⟨hevicted, hmodels⟩ := hcache.add key value
  refine ⟨hevicted, h.budget, ?_, ?_⟩
  · intro hnone
    cases hnone
  · intro c hc
    cases hc
    exact hmodels

/-! ## What a store holds -/

/-- The store is one that `get` and `insert` can produce. -/
def Sound (s : Store) : Prop := ∃ r, Models s r

theorem sound_new (cacheBytes : Nat) : Sound (new cacheBytes) := ⟨_, models_new cacheBytes⟩

theorem Sound.get {s : Store} (h : Sound s) (key : String) : Sound (s.get key).1 := by
  obtain ⟨r, hr⟩ := h
  exact ⟨_, (hr.get key).2⟩

theorem Sound.insert {s : Store} (h : Sound s) (key : String) (value : ByteView) :
    Sound (s.insert key value).1 := by
  obtain ⟨r, hr⟩ := h
  exact ⟨_, (hr.insert key value).2⟩

/-- A lookup that finds nothing changes nothing. -/
theorem Sound.get_of_miss {s : Store} (h : Sound s) {key : String} (hmiss : (s.get key).2 = none) :
    (s.get key).1 = s := by
  obtain ⟨r, hr⟩ := h
  obtain ⟨cacheBytes, lru⟩ := s
  cases lru with
  | none => rfl
  | some c =>
    have hsame : (c.get key).1 = c := (hr.used c rfl).get_of_miss hmiss
    show (⟨cacheBytes, some (c.get key).1⟩ : Store) = _
    rw [hsame]

/-- What a lookup finds is an entry of the store. -/
theorem Sound.get_mem {s : Store} (h : Sound s) {key : String} {value : ByteView}
    (hget : (s.get key).2 = some value) : (key, value) ∈ s.entries := by
  obtain ⟨r, hr⟩ := h
  rw [(hr.get key).1] at hget
  rw [hr.entries_eq]
  exact (Recency.get_spec r key).1 value hget

/-- A lookup brings no entry in. -/
theorem Sound.mem_get {s : Store} (h : Sound s) {key : String} {e : String × ByteView}
    (he : e ∈ (s.get key).1.entries) : e ∈ s.entries := by
  obtain ⟨r, hr⟩ := h
  rw [(hr.get key).2.entries_eq] at he
  rw [hr.entries_eq]
  exact (Recency.get_spec r key).2.1 e he

/-- An addition brings in the entry that is added, and no other. -/
theorem Sound.mem_insert {s : Store} (h : Sound s) {key : String} {value : ByteView}
    {e : String × ByteView} (he : e ∈ (s.insert key value).1.entries) :
    e = (key, value) ∨ e ∈ s.entries := by
  obtain ⟨r, hr⟩ := h
  rw [(hr.insert key value).2.entries_eq] at he
  rw [hr.entries_eq]
  exact Recency.mem_entries_add he

end Store

end PeerCache
