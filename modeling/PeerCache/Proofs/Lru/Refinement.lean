import PeerCache.Lru.Run
import PeerCache.Proofs.Lru.Layout
/-!
# PeerCache — the slab cache is the recency list

Seen from outside, `Lru` and `Recency` are one cache. `Models c r` relates a slab cache to the
list it stands for: some cells lay `c` out, and their entries are those of `r`.

* **One operation** — `Models.add`, `Models.get`, `Models.remove` and `Models.removeOldest`: the
  two give the same answer, evict the same entries in the same order, and are related afterwards.
* **One report** — `Models.report_eq`: related caches show the same keys and sizes.
* **Whole runs** — `trace_eq`: related caches report the same, whatever the operations. The last
  theorem starts from the empty caches, and says that what a budget keeps is the longest prefix
  that fits.
-/

namespace PeerCache

namespace Lru

variable {ν : Type}

theorem keys_map_entry (cells : List (Cell ν)) :
    (cells.map Cell.entry).map Prod.fst = cells.map Cell.key := by
  rw [List.map_map]
  rfl

variable [Sized ν]

/-- The slab cache `c` holds the entries of the list `r`, in that order, under the same budget. -/
structure Models (c : Lru ν) (r : Recency ν) : Prop where
  maxBytes : r.maxBytes = c.maxBytes
  layout : ∃ cells, Layout c cells ∧ r.entries = cells.map Cell.entry

theorem models_new (maxBytes : Nat) : Models (new maxBytes : Lru ν) (.new maxBytes) :=
  ⟨rfl, [], layout_new maxBytes, rfl⟩

namespace Models

variable {c : Lru ν} {r : Recency ν}

/-! ## One operation -/

/-- A key has a cell, and then the list has its entry at the same place, or neither has it. -/
theorem key_cases (h : Models c r) (key : String) :
    (c.index.find? key = none ∧ key ∉ r.entries.map Prod.fst) ∨
      ∃ before x after, x.key = key ∧ c.index.find? key = some x.id ∧
        Layout c (before ++ x :: after) ∧
        r.entries = before.map Cell.entry ++ (key, x.value) :: after.map Cell.entry := by
  obtain ⟨cells, hlayout, hentries⟩ := h.layout
  cases hfind : c.index.find? key with
  | none =>
    refine .inl ⟨rfl, ?_⟩
    rw [hentries, keys_map_entry]
    exact hlayout.find?_eq_none_iff.1 hfind
  | some id =>
    obtain ⟨before, value, after, rfl⟩ := hlayout.exists_mid hfind
    refine .inr ⟨before, ⟨id, key, value⟩, after, rfl, rfl, hlayout, ?_⟩
    rw [hentries, List.map_append, List.map_cons]
    rfl

/-- With a cell, looking up and deleting in the list meet that cell's entry. -/
theorem mid_spec {before after : List (Cell ν)} {x : Cell ν}
    (hlayout : Layout c (before ++ x :: after))
    (hentries : r.entries = before.map Cell.entry ++ (x.key, x.value) :: after.map Cell.entry) :
    r.peek x.key = some x.value ∧
      Recency.without x.key r.entries = (before ++ after).map Cell.entry := by
  have hout := hlayout.key_not_mem
  rw [← keys_map_entry, ← keys_map_entry] at hout
  obtain ⟨maxBytes, entries⟩ := r
  subst hentries
  refine ⟨Recency.peek_mid hout.1, ?_⟩
  rw [Recency.without_mid hout.1 hout.2, List.map_append]

/-- Looking at a key gives what the list has. -/
theorem peek_eq (h : Models c r) (key : String) : c.peek key = r.peek key := by
  rcases h.key_cases key with ⟨hnone, hout⟩ | ⟨before, x, after, rfl, -, hlayout, hentries⟩
  · rw [Recency.peek_of_not_mem hout]
    simp [Lru.peek, hnone]
  · rw [(mid_spec hlayout hentries).1]
    exact hlayout.peek_eq_some (by simp)

theorem contains_eq (h : Models c r) (key : String) : c.contains key = r.contains key := by
  unfold Recency.contains Lru.contains Table.contains
  rcases h.key_cases key with ⟨hnone, hout⟩ | ⟨before, x, after, rfl, hsome, hlayout, hentries⟩
  · rw [hnone, Recency.peek_of_not_mem hout]
    rfl
  · rw [hsome, (mid_spec hlayout hentries).1]
    rfl

/-- Before anything is evicted, the new entry is in front of the others. -/
theorem put (h : Models c r) (key : String) (value : ν) :
    Models (c.put key value)
      { r with entries := (key, value) :: Recency.without key r.entries } := by
  rcases h.key_cases key with ⟨hnone, hout⟩ | ⟨before, x, after, rfl, -, hlayout, hentries⟩
  · obtain ⟨cells, hlayout, hentries⟩ := h.layout
    obtain ⟨id, hnew, hmax⟩ := hlayout.put_new (hlayout.find?_eq_none_iff.1 hnone) value
    refine ⟨h.maxBytes.trans hmax.symm, _, hnew, ?_⟩
    rw [Recency.without_of_not_mem hout, hentries]
    rfl
  · obtain ⟨hfront, hmax⟩ := hlayout.put_old value
    refine ⟨h.maxBytes.trans hmax.symm, _, hfront, ?_⟩
    rw [(mid_spec hlayout hentries).2]
    rfl

/-- An addition evicts what the list evicts, and the list goes on modelling the cache. -/
theorem add (h : Models c r) (key : String) (value : ν) :
    (c.add key value).2 = (r.add key value).2 ∧
      Models (c.add key value).1 (r.add key value).1 := by
  have hput := h.put key value
  obtain ⟨cells, hlayout, hentries⟩ := hput.layout
  have hmax : r.maxBytes = (c.put key value).maxBytes := hput.maxBytes
  obtain ⟨left, gone, rfl, hleft, hmax', hgone, hkept⟩ :=
    hlayout.evict (Nat.le_of_eq hlayout.length_eq.symm)
  simp only at hentries
  rw [← hentries, ← hmax] at hkept
  unfold Lru.add Recency.add
  simp only
  constructor
  · -- What the list drops is what is behind the cells that are left.
    rw [hgone, ← hkept, hentries, List.map_append, List.drop_left]
  · exact ⟨hmax.trans hmax'.symm, left, hleft, hkept.symm⟩

/-- A lookup answers as the list does, and the list goes on modelling the cache. -/
theorem get (h : Models c r) (key : String) :
    (c.get key).2 = (r.get key).2 ∧ Models (c.get key).1 (r.get key).1 := by
  rcases h.key_cases key with ⟨hnone, hout⟩ | ⟨before, x, after, rfl, hsome, hlayout, hentries⟩
  · have hmiss := Recency.peek_of_not_mem hout
    simp only [Lru.get, hnone, Recency.get, hmiss]
    exact ⟨trivial, h⟩
  · obtain ⟨hpeek, hwithout⟩ := mid_spec hlayout hentries
    have hfront := hlayout.moveToFront
    have hchained : Chained (c.moveToFront x.id) ([] ++ x :: (before ++ after)) := hfront.chained
    have hslot := hchained.slot?_mid
    simp only [Lru.get, hsome, Recency.get, hpeek, hwithout, hslot]
    refine ⟨rfl, ?_, _, hfront, rfl⟩
    exact h.maxBytes.trans (sameFrame_moveToFront c x.id).maxBytes.symm

/-- A lookup that finds nothing changes nothing. -/
theorem get_of_miss (h : Models c r) {key : String} (hmiss : (c.get key).2 = none) :
    (c.get key).1 = c := by
  rcases h.key_cases key with ⟨hnone, -⟩ | ⟨before, x, after, rfl, -, hlayout, hentries⟩
  · simp only [Lru.get, hnone]
  · have hvalue := (h.get x.key).1
    rw [hmiss, Recency.get, (mid_spec hlayout hentries).1] at hvalue
    cases hvalue

theorem remove (h : Models c r) (key : String) :
    (c.remove key).2 = (r.remove key).2 ∧ Models (c.remove key).1 (r.remove key).1 := by
  rcases h.key_cases key with ⟨hnone, hout⟩ | ⟨before, x, after, rfl, hsome, hlayout, hentries⟩
  · have hmiss := Recency.peek_of_not_mem hout
    simp only [Lru.remove, hnone, Recency.remove, hmiss, Recency.without_of_not_mem hout]
    exact ⟨trivial, h⟩
  · obtain ⟨hpeek, hwithout⟩ := mid_spec hlayout hentries
    obtain ⟨hanswer, hrest, hmax⟩ := hlayout.remove
    simp only [Recency.remove, hpeek, hwithout]
    exact ⟨hanswer, h.maxBytes.trans hmax.symm, _, hrest, rfl⟩

/-- The oldest entry that goes is the last of the list, which goes on modelling the cache without
it. -/
theorem removeOldest (h : Models c r) :
    c.removeOldest.2 = r.removeOldest.2 ∧ Models c.removeOldest.1 r.removeOldest.1 := by
  obtain ⟨cells, hlayout, hentries⟩ := h.layout
  unfold Recency.removeOldest Lru.removeOldest
  rcases List.eq_nil_or_concat cells with rfl | ⟨before, x, rfl⟩
  · have holdest : c.oldest = none := hlayout.chained.oldest
    simp only [Lru.popOldest, holdest, hentries]
    exact ⟨rfl, h.maxBytes, [], hlayout, rfl⟩
  · rw [List.concat_eq_append] at *
    obtain ⟨hanswer, hrest, hmax⟩ := hlayout.popOldest
    rw [hentries, List.map_append, List.map_singleton, List.dropLast_concat,
      List.getLast?_concat]
    exact ⟨hanswer, h.maxBytes.trans hmax.symm, before, hrest, rfl⟩

/-! ## One report -/

theorem entries_eq (h : Models c r) : c.entries = r.entries := by
  obtain ⟨cells, hlayout, hentries⟩ := h.layout
  rw [hlayout.entries_eq, hentries]

/-- Related caches show the same. -/
theorem report_eq (h : Models c r) :
    c.keys = r.keys ∧ c.length = r.length ∧ c.isEmpty = r.isEmpty ∧ c.bytes = r.bytes := by
  obtain ⟨cells, hlayout, hentries⟩ := h.layout
  refine ⟨?_, ?_, ?_, ?_⟩
  · rw [Lru.keys, hlayout.entries_eq, Recency.keys, hentries]
  · rw [hlayout.length_eq, Recency.length, hentries, List.length_map]
  · rw [hlayout.isEmpty_eq, Recency.isEmpty, hentries, List.isEmpty_map]
  · rw [hlayout.bytes, Recency.bytes, hentries]

/-- An operation answers the same, evicts the same, and keeps the two related. -/
theorem step (h : Models c r) (op : Op ν) :
    (c.step op).2 = (r.step op).2 ∧ Models (c.step op).1 (r.step op).1 := by
  cases op with
  | add key value =>
    obtain ⟨hevicted, hrest⟩ := h.add key value
    exact ⟨congrArg (Prod.mk Answer.nothing) hevicted, hrest⟩
  | get key =>
    obtain ⟨hvalue, hrest⟩ := h.get key
    exact ⟨congrArg (fun v => (Answer.value v, [])) hvalue, hrest⟩
  | peek key => exact ⟨congrArg (fun v => (Answer.value v, [])) (h.peek_eq key), h⟩
  | contains key => exact ⟨congrArg (fun b => (Answer.flag b, [])) (h.contains_eq key), h⟩
  | remove key =>
    obtain ⟨hvalue, hrest⟩ := h.remove key
    exact ⟨congrArg (fun v => (Answer.value v, [])) hvalue, hrest⟩
  | removeOldest =>
    obtain ⟨hentry, hrest⟩ := h.removeOldest
    exact ⟨congrArg (fun e => (Answer.flag e.isSome, e.toList)) hentry, hrest⟩

/-! ## Whole runs -/

/-- What is seen of the cache along a run is what is seen of the list. -/
theorem trace_eq (h : Models c r) (ops : List (Op ν)) : c.trace ops = r.trace ops := by
  induction ops generalizing c r with
  | nil => rfl
  | cons op ops ih =>
    obtain ⟨hanswer, hnext⟩ := h.step op
    obtain ⟨hkeys, hlength, hempty, hbytes⟩ := hnext.report_eq
    simp only [Lru.trace, Recency.trace, hanswer, hkeys, hlength, hempty, hbytes, ih hnext]

end Models

/-- **The slab cache is the recency list.** From the empty cache on, every run of operations
reports the same in both: the answers, the evicted entries in their order, the keys from the most
to the least recently used, and the sizes. What an addition keeps of the list is the longest prefix
that fits the budget, or all of it without one. -/
theorem trace_new_eq_recency (maxBytes : Nat) (ops : List (Op ν)) :
    (new maxBytes : Lru ν).trace ops = (Recency.new maxBytes).trace ops ∧
      ∀ es : List (String × ν),
        Recency.kept maxBytes es <+: es ∧ Recency.Fits maxBytes (Recency.kept maxBytes es) ∧
          ∀ p, p <+: es → Recency.Fits maxBytes p → p <+: Recency.kept maxBytes es :=
  ⟨(models_new maxBytes).trace_eq ops, Recency.kept_spec maxBytes⟩

end Lru

end PeerCache
