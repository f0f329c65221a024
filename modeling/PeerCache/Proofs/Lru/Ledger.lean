import Mathlib.Algebra.Order.Group.Multiset
import Mathlib.Tactic.Abel
import PeerCache.Lru.Ledger
import PeerCache.Proofs.Lru.Refinement
import PeerCache.Proofs.Lru.Stack
/-!
# PeerCache — nothing is lost and nothing is doubled

What is live in a cache and what has left it are together what was added:

* **`mem_iff_peek`**, **`perm_without`** — with one entry per key, a lookup finds what is there, and
  the entries are the one of a key and the others.
* **`Models.balance`** — one operation: what was live before and what it adds are what is live
  after and what it evicts, removes and replaces. An addition may replace one entry and evict many,
  its own among them.
* **`Models.balance_run`** — from this, a run of any length.

The slots, their numbers and the links between them do not occur here: the slab cache has the
entries of a recency list, and the balance is read off that list.
-/

namespace PeerCache

namespace Recency

variable {ν : Type}

/-! ## Accounts of the list -/

/-- With one entry per key, an entry stands between entries of other keys. -/
theorem exists_mid {key : String} {value : ν} {es : List (String × ν)}
    (hnodup : (es.map Prod.fst).Nodup) (hmem : (key, value) ∈ es) :
    ∃ before after, es = before ++ (key, value) :: after ∧
      key ∉ before.map Prod.fst ∧ key ∉ after.map Prod.fst := by
  obtain ⟨before, after, rfl⟩ := List.append_of_mem hmem
  rw [List.map_append, List.map_cons, List.nodup_middle, List.nodup_cons, List.mem_append,
    not_or] at hnodup
  exact ⟨before, after, rfl, hnodup.1⟩

/-- With distinct keys, an entry is in the list exactly if it is found under its key. -/
theorem mem_iff_peek {r : Recency ν} (hnodup : (r.entries.map Prod.fst).Nodup) {key : String}
    {value : ν} : (key, value) ∈ r.entries ↔ r.peek key = some value := by
  refine ⟨fun hmem => ?_, mem_of_peek⟩
  obtain ⟨before, after, hsplit, hbefore, -⟩ := exists_mid hnodup hmem
  obtain ⟨maxBytes, entries⟩ := r
  subst hsplit
  exact peek_mid hbefore

/-- With one entry per key, the entries are the one of `key`, if there is one, and the others. -/
theorem perm_without {r : Recency ν} (hnodup : (r.entries.map Prod.fst).Nodup) (key : String) :
    r.entries.Perm ((r.peek key).toList.map (Prod.mk key) ++ without key r.entries) := by
  cases hpeek : r.peek key with
  | none =>
    -- Not found, so there is nothing to take away.
    have hout : key ∉ r.entries.map Prod.fst := by
      intro hmem
      obtain ⟨e, he, rfl⟩ := List.mem_map.1 hmem
      have hnone := List.find?_eq_none.1 (Option.map_eq_none_iff.1 hpeek) e he
      exact hnone (decide_eq_true rfl)
    rw [without_of_not_mem hout]
    exact List.Perm.refl _
  | some v =>
    obtain ⟨before, after, hsplit, hbefore, hafter⟩ := exists_mid hnodup (mem_of_peek hpeek)
    rw [hsplit, without_mid hbefore hafter]
    exact List.perm_middle

/-- To look a key up moves at most its entry. -/
theorem perm_get {r : Recency ν} (hnodup : (r.entries.map Prod.fst).Nodup) (key : String) :
    r.entries.Perm (r.get key).1.entries := by
  have hparts := perm_without hnodup key
  unfold get
  cases hpeek : r.peek key with
  | none => exact List.Perm.refl _
  | some v =>
    rw [hpeek] at hparts
    exact hparts

/-- The oldest entry that is removed, and what is left, are all that there was. -/
theorem perm_removeOldest (r : Recency ν) :
    r.entries.Perm (r.removeOldest.1.entries ++ r.removeOldest.2.toList) := by
  show r.entries.Perm (r.entries.dropLast ++ r.entries.getLast?.toList)
  rcases List.eq_nil_or_concat r.entries with hnil | ⟨front, e, hconcat⟩
  · rw [hnil]
    exact List.Perm.refl _
  · rw [hconcat, List.concat_eq_append, List.dropLast_concat, List.getLast?_concat]
    exact List.Perm.refl _

open scoped List in
/-- An addition: the new entry and the old ones are what is kept, what is cut off, and the old entry
of the key. -/
theorem perm_add [Sized ν] (r : Recency ν) (key : String) (value : ν) :
    (r.entries ++ [(key, value)]).Perm ((r.add key value).1.entries ++ (r.add key value).2
      ++ r.entries.filter fun e => e.1 = key) := by
  -- What is replaced and what is kept besides make up the entries there were.
  have hothers :
      (r.entries.filter (fun e => e.1 = key) ++ without key r.entries).Perm r.entries := by
    have hsplit := List.filter_append_perm (fun e : String × ν => decide (e.1 = key)) r.entries
    simpa only [without, decide_not] using hsplit
  have hkept : ((r.add key value).1.entries ++ (r.add key value).2).Perm
      ((key, value) :: without key r.entries) := by
    rw [← add_parts r key value]
    exact (List.reverse_perm _).symm.append_left _
  calc r.entries ++ [(key, value)]
    _ ~ [(key, value)] ++ r.entries := List.perm_append_comm
    _ ~ [(key, value)] ++ (r.entries.filter (fun e => e.1 = key) ++ without key r.entries) :=
      hothers.symm.append_left _
    _ ~ [(key, value)] ++ (without key r.entries ++ r.entries.filter (fun e => e.1 = key)) :=
      List.perm_append_comm.append_left _
    _ = ((key, value) :: without key r.entries) ++ r.entries.filter (fun e => e.1 = key) := rfl
    _ ~ _ := hkept.symm.append_right _

end Recency

namespace Lru

variable {ν : Type} [Sized ν]

namespace Models

variable {c : Lru ν} {r : Recency ν}

/-- The keys of a cache that models a list are distinct. -/
theorem nodup (h : Models c r) : (r.entries.map Prod.fst).Nodup := by
  obtain ⟨cells, hlayout, hentries⟩ := h.layout
  rw [hentries, keys_map_entry]
  exact hlayout.keys_nodup

/-! ## One operation -/

/-- One operation moves entries from one place to another, and none comes or goes. -/
theorem balance (h : Models c r) (op : Op ν) :
    (c.entries ++ c.adds op).Perm
      ((c.step op).1.entries ++ c.evicts op ++ c.removes op ++ c.replaces op) := by
  have hnodup := h.nodup
  obtain ⟨hanswer, hnext⟩ := h.step op
  unfold evicts
  -- From here on every account is a statement about the list that the slab stands for.
  rw [hanswer, hnext.entries_eq, h.entries_eq]
  cases op with
  | add key value =>
    show (r.entries ++ [(key, value)]).Perm ((r.add key value).1.entries ++ (r.add key value).2
      ++ [] ++ c.entries.filter fun e => e.1 = key)
    rw [List.append_nil, h.entries_eq]
    exact Recency.perm_add r key value
  | get key =>
    show (r.entries ++ []).Perm ((r.get key).1.entries ++ [] ++ [] ++ [])
    simp only [List.append_nil]
    exact Recency.perm_get hnodup key
  | peek key =>
    show (r.entries ++ []).Perm (r.entries ++ [] ++ [] ++ [])
    simp only [List.append_nil, List.Perm.refl]
  | contains key =>
    show (r.entries ++ []).Perm (r.entries ++ [] ++ [] ++ [])
    simp only [List.append_nil, List.Perm.refl]
  | remove key =>
    -- A removal answers the value alone; its entry is that value under the key asked for.
    have hremoved : c.removes (.remove key) = (r.peek key).toList.map (Prod.mk key) := by
      show (c.step (.remove key)).2.1.entry key = _
      rw [hanswer]
      show (Answer.value (r.peek key)).entry key = _
      cases r.peek key with
      | none => rfl
      | some v => rfl
    show (r.entries ++ []).Perm
      (Recency.without key r.entries ++ [] ++ c.removes (.remove key) ++ [])
    simp only [hremoved, List.append_nil]
    exact (Recency.perm_without hnodup key).trans List.perm_append_comm
  | removeOldest =>
    show (r.entries ++ []).Perm (r.removeOldest.1.entries ++ r.removeOldest.2.toList ++ [] ++ [])
    simp only [List.append_nil]
    exact r.perm_removeOldest

/-! ## Whole runs -/

omit [Sized ν] in
/-- Two balances, one after the other: what is live in between drops out. -/
theorem balance_append {live mid last added evicted removed replaced added' evicted' removed'
    replaced' : List (String × ν)}
    (hone : (live ++ added).Perm (mid ++ evicted ++ removed ++ replaced))
    (hrest : (mid ++ added').Perm (last ++ evicted' ++ removed' ++ replaced')) :
    (live ++ (added ++ added')).Perm
      (last ++ (evicted ++ evicted') ++ (removed ++ removed') ++ (replaced ++ replaced')) := by
  rw [← Multiset.coe_eq_coe] at hone hrest ⊢
  simp only [← Multiset.coe_add] at hone hrest ⊢
  calc (live : Multiset (String × ν)) + (added + added')
    _ = live + added + added' := (add_assoc _ _ _).symm
    _ = mid + evicted + removed + replaced + added' := by rw [hone]
    _ = mid + added' + (evicted + removed + replaced) := by abel
    _ = last + evicted' + removed' + replaced' + (evicted + removed + replaced) := by rw [hrest]
    _ = last + (evicted + evicted') + (removed + removed') + (replaced + replaced') := by abel

theorem run (h : Models c r) (ops : List (Op ν)) : ∃ s, Models (c.run ops) s := by
  induction ops generalizing c r with
  | nil => exact ⟨r, h⟩
  | cons op ops ih => exact ih (h.step op).2

/-- Live entries and what is added make up, over a run, what is live then and what was evicted,
removed and replaced. -/
theorem balance_run (h : Models c r) (ops : List (Op ν)) :
    (c.entries ++ ledger adds c ops).Perm ((c.run ops).entries ++ ledger evicts c ops
      ++ ledger removes c ops ++ ledger replaces c ops) := by
  induction ops generalizing c r with
  | nil =>
    show (c.entries ++ []).Perm (c.entries ++ [] ++ [] ++ [])
    simp only [List.append_nil, List.Perm.refl]
  | cons op ops ih =>
    have hone := h.balance op
    have hrest := ih (h.step op).2
    show (c.entries ++ (c.adds op ++ ledger adds (c.step op).1 ops)).Perm
      (((c.step op).1.run ops).entries ++ (c.evicts op ++ ledger evicts (c.step op).1 ops)
        ++ (c.removes op ++ ledger removes (c.step op).1 ops)
        ++ (c.replaces op ++ ledger replaces (c.step op).1 ops))
    exact balance_append hone hrest

end Models

/-! ## From a new cache -/

/-- **Nothing is lost and nothing is doubled.** After any run of a cache, whatever its budget, the
entries that were ever added are, each as often as it was added, those now live, those the eviction
callback was given, those removals have answered with, and those replaced by a later addition of
their key. The live entries are those that a lookup finds, and no key is live twice. -/
theorem run_ledger (maxBytes : Nat) (ops : List (Op ν)) :
    (ledger adds (new maxBytes) ops).Perm
      (((new maxBytes).run ops).entries ++ ledger evicts (new maxBytes) ops
        ++ ledger removes (new maxBytes) ops ++ ledger replaces (new maxBytes) ops) ∧
    ((new maxBytes : Lru ν).run ops).keys.Nodup ∧
    ((new maxBytes : Lru ν).run ops).length = ((new maxBytes : Lru ν).run ops).entries.length ∧
    (∀ key value, (key, value) ∈ ((new maxBytes : Lru ν).run ops).entries ↔
      ((new maxBytes).run ops).peek key = some value) := by
  have hnew : Models (new maxBytes : Lru ν) (.new maxBytes) := models_new maxBytes
  obtain ⟨s, hrun⟩ := hnew.run ops
  refine ⟨?_, ?_, ?_, fun key value => ?_⟩
  · have hempty : (new maxBytes : Lru ν).entries = [] := hnew.entries_eq
    have hbalance := hnew.balance_run ops
    rwa [hempty, List.nil_append] at hbalance
  · rw [hrun.report_eq.1]
    exact hrun.nodup
  · rw [hrun.report_eq.2.1, hrun.entries_eq]
    rfl
  · rw [hrun.entries_eq, hrun.peek_eq]
    exact Recency.mem_iff_peek hrun.nodup

end Lru

end PeerCache
