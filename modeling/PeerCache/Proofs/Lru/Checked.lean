import PeerCache.Lru.Checked
import PeerCache.Lru.Intact
import PeerCache.Proofs.Lru.Refinement
/-!
# PeerCache — no check ever fails

`Checked` performs the operations with every slot number, every count and every loop looked at. On
a cache that is laid out no check fails, and the result is what the operation gives.

## The architecture

* **What one check asks** — `slotAt_eq`, `setSlot_eq`, `more_eq` and `less_eq`: with the number
  below the size of the slab, and the count in range, the check is passed.
* **The links** — `Chained.checked_detach`, `checked_attachFront` and `Chained.checked_release`:
  the neighbours of a cell are cells, and the slot of a cell is one of the slab.
* **The loops** — `Chained.checked_keysFrom` and `Layout.checked_evict`: the first goes over the
  cells from the newest on, the second takes one off the other end in every round. As long as the
  cells are over the budget there is a last one.
* **One operation, a run** — `Models.checked_step` and `Models.checked_run`.
-/

namespace PeerCache

namespace Lru

variable {ν : Type}

/-! ## What one check asks -/

namespace Checked

/-- A number below the size of the slab can be looked at. -/
theorem slotAt_eq {c : Lru ν} {id : Nat} (h : id < c.slots.size) :
    slotAt c id = pure (c.slot? id) :=
  if_pos h

theorem setSlot_eq {c : Lru ν} {id : Nat} (h : id < c.slots.size) (n : Option (Slot ν)) :
    setSlot c id n = pure { c with slots := c.slots.setIfInBounds id n } :=
  if_pos h

/-- A sum that fits is formed. -/
theorem more_eq {count bytes : Nat} (h : count + bytes < UInt64.size) :
    more count bytes = pure (count + bytes) :=
  if_pos h

theorem less_eq {count bytes : Nat} (h : bytes ≤ count) :
    less count bytes = pure (count - bytes) :=
  if_pos h

theorem modifySlot_eq {c : Lru ν} {id : Nat} (h : id < c.slots.size) (f : Slot ν → Slot ν) :
    modifySlot c id f = pure (c.modifySlot id f) := by
  unfold modifySlot Lru.modifySlot
  rw [slotAt_eq h, pure_bind]
  cases c.slot? id with
  | none => rfl
  | some n => exact setSlot_eq h _

/-- A link can be set where its end, if there is one, is in the slab. -/
theorem linkOlder_eq {c : Lru ν} {a : Option Nat} (h : ∀ j, a = some j → j < c.slots.size)
    (next? : Option Nat) : linkOlder c a next? = pure (c.linkOlder a next?) := by
  cases a with
  | none => rfl
  | some j => exact modifySlot_eq (h j rfl) _

theorem linkNewer_eq {c : Lru ν} {a : Option Nat} (h : ∀ j, a = some j → j < c.slots.size)
    (next? : Option Nat) : linkNewer c a next? = pure (c.linkNewer a next?) := by
  cases a with
  | none => rfl
  | some j => exact modifySlot_eq (h j rfl) _

/-- A slot is allocated, as the free numbers are in the slab. -/
theorem alloc_eq {c : Lru ν} (h : ∀ id ∈ c.free, id < c.slots.size) (n : Slot ν) :
    alloc c n = pure (c.alloc n) := by
  unfold alloc Lru.alloc
  cases hfree : c.free with
  | nil => rfl
  | cons id rest =>
    have hid : id < ({ c with free := rest } : Lru ν).slots.size :=
      h id (hfree ▸ List.mem_cons_self)
    simp only
    rw [setSlot_eq hid, pure_bind]

end Checked

/-! ## The links -/

/-- The slot of a cell is one of the slab. -/
theorem Chained.lt_size {c : Lru ν} {cells : List (Cell ν)} (h : Chained c cells) {id : Nat}
    (hid : id ∈ cells.map Cell.id) : id < c.slots.size := by
  obtain ⟨x, hx, rfl⟩ := List.mem_map.1 hid
  obtain ⟨newer, older, hslot⟩ := h.slot?_of_mem hx
  exact lt_size_of_slot? hslot

/-- So is the slot at either end of a part of the chain. -/
theorem Chained.head?_lt_size {c : Lru ν} {before after : List (Cell ν)}
    (h : Chained c (before ++ after)) {j : Nat} (hj : after.head?.map Cell.id = some j) :
    j < c.slots.size := by
  apply h.lt_size
  rw [← List.head?_map] at hj
  rw [List.map_append]
  exact List.mem_append_right _ (List.mem_of_head? hj)

/-- The neighbours of a cell are in the slab. -/
theorem Chained.getLast?_lt_size {c : Lru ν} {before after : List (Cell ν)}
    (h : Chained c (before ++ after)) {j : Nat} (hj : before.getLast?.map Cell.id = some j) :
    j < c.slots.size := by
  apply h.lt_size
  rw [← List.getLast?_map] at hj
  rw [List.map_append]
  exact List.mem_append_left _ (List.mem_of_getLast? hj)

/-- A cell is taken out of the chain without a failure: its neighbours are cells. -/
theorem Chained.checked_detach {c : Lru ν} {before after : List (Cell ν)} {x : Cell ν}
    (h : Chained c (before ++ x :: after)) :
    Checked.detach c x.id = pure (c.detach x.id) := by
  have hx := lt_size_of_slot? h.slot?_mid
  have hcells : Chained c ((before ++ [x]) ++ after) := by simpa using h
  have hnewer : ∀ j, before.getLast?.map Cell.id = some j → j < c.slots.size :=
    fun j hj => h.getLast?_lt_size hj
  have holder : ∀ j, after.head?.map Cell.id = some j → j < c.slots.size :=
    fun j hj => hcells.head?_lt_size hj
  unfold Checked.detach Lru.detach
  rw [Checked.slotAt_eq hx, pure_bind, h.slot?_mid]
  simp only
  -- No write on the way changes the number of slots.
  rw [Checked.linkOlder_eq hnewer, pure_bind]
  rw [Checked.linkNewer_eq (by rw [(sameFrame_linkOlder c _ _).size]; exact holder), pure_bind]
  apply Checked.modifySlot_eq
  rw [(sameFrame_linkNewer _ _ _).size, (sameFrame_linkOlder c _ _).size]
  exact hx

theorem Chained.checked_attachFront {c : Lru ν} {cells : List (Cell ν)} (h : Chained c cells)
    {id : Nat} (hid : id < c.slots.size) :
    Checked.attachFront c id = pure (c.attachFront id) := by
  have hfront : ∀ j, c.newest = some j → j < c.slots.size := by
    intro j hj
    have hcells : Chained c ([] ++ cells) := h
    exact hcells.head?_lt_size (h.newest ▸ hj)
  unfold Checked.attachFront Lru.attachFront
  simp only
  rw [Checked.modifySlot_eq hid, pure_bind]
  rw [Checked.linkNewer_eq (by rw [(sameFrame_modifySlot c id _).size]; exact hfront), pure_bind]
  rfl

/-- So a cell is moved to the front without one. -/
theorem Chained.checked_moveToFront {c : Lru ν} {before after : List (Cell ν)} {x : Cell ν}
    (h : Chained c (before ++ x :: after)) :
    Checked.moveToFront c x.id = pure (c.moveToFront x.id) := by
  unfold Checked.moveToFront Lru.moveToFront
  split
  next => rfl
  next =>
    rw [h.checked_detach, pure_bind]
    apply h.detach.checked_attachFront
    rw [(sameFrame_detach c x.id).size]
    exact lt_size_of_slot? h.slot?_mid

/-- A cell is given back without a failure. -/
theorem Chained.checked_release {c : Lru ν} {before after : List (Cell ν)} {x : Cell ν}
    (h : Chained c (before ++ x :: after)) :
    Checked.release c x.id = pure (c.release x.id) := by
  have hx : x.id < (c.detach x.id).slots.size := by
    rw [(sameFrame_detach c x.id).size]
    exact lt_size_of_slot? h.slot?_mid
  unfold Checked.release Lru.release
  rw [h.checked_detach, pure_bind, Checked.slotAt_eq hx, pure_bind]
  simp only
  cases (c.detach x.id).slot? x.id with
  | none => rfl
  | some n =>
    simp only
    rw [Checked.setSlot_eq hx, pure_bind]

/-- From a cell on, the loop reads the key of that cell and of all behind it. -/
theorem Chained.checked_keysFrom {c : Lru ν} {before after : List (Cell ν)}
    (h : Chained c (before ++ after)) {rounds : Nat} (hrounds : after.length ≤ rounds) :
    Checked.keysFrom c rounds (after.head?.map Cell.id) = pure (after.map Cell.key) := by
  induction after generalizing before rounds with
  | nil => cases rounds <;> rfl
  | cons x after ih =>
    cases rounds with
    | zero => simp at hrounds
    | succ rounds =>
      have hcells : Chained c ((before ++ [x]) ++ after) := by simpa using h
      have hrest := ih hcells (Nat.le_of_succ_le_succ hrounds)
      have hx := lt_size_of_slot? h.slot?_mid
      show Checked.keysFrom c (rounds + 1) (some x.id) = _
      unfold Checked.keysFrom
      rw [Checked.slotAt_eq hx, pure_bind, h.slot?_mid]
      simp only
      rw [hrest, pure_bind, List.map_cons]

/-! ## The operations -/

variable [Sized ν]

namespace Layout

variable {c : Lru ν} {cells : List (Cell ν)}

theorem checked_keys (h : Layout c cells) : Checked.keys c = pure c.keys := by
  have hall : Chained c ([] ++ cells) := h.chained
  have hkeys : c.keys = cells.map Cell.key := by
    rw [Lru.keys, h.entries_eq, keys_map_entry]
  rw [Checked.keys, h.chained.newest, hkeys]
  exact hall.checked_keysFrom (Nat.le_of_eq h.length_eq.symm)

theorem checked_peek (h : Layout c cells) (key : String) :
    Checked.peek c key = pure (c.peek key) := by
  unfold Checked.peek Lru.peek
  cases hfind : c.index.find? key with
  | none => rfl
  | some id =>
    obtain ⟨before, value, after, rfl⟩ := h.exists_mid hfind
    have hslot := h.chained.slot?_mid
    simp only at hslot ⊢
    rw [Checked.slotAt_eq (lt_size_of_slot? hslot), pure_bind, hslot]
    simp [hslot]

theorem checked_get (h : Layout c cells) (key : String) :
    Checked.get c key = pure (c.get key) := by
  unfold Checked.get Lru.get
  cases hfind : c.index.find? key with
  | none => rfl
  | some id =>
    obtain ⟨before, value, after, rfl⟩ := h.exists_mid hfind
    have hmove := h.chained.checked_moveToFront
    have hsize : id < (c.moveToFront id).slots.size := by
      rw [(sameFrame_moveToFront c id).size]
      exact lt_size_of_slot? h.chained.slot?_mid
    simp only at hmove ⊢
    rw [hmove, pure_bind, Checked.slotAt_eq hsize, pure_bind]

/-- What an entry costs has been counted, so it can be taken off the count. -/
theorem cost_le {before after : List (Cell ν)} {x : Cell ν}
    (h : Layout c (before ++ x :: after)) : cost x.key x.value ≤ c.bytes := by
  rw [h.bytes]
  simp only [List.map_append, List.map_cons, Recency.cost_append, Recency.cost, Cell.entry]
  omega

/-- The oldest cell is taken off without a failure, and its cost was counted before. -/
theorem checked_popOldest (h : Layout c cells) : Checked.popOldest c = pure c.popOldest := by
  rcases List.eq_nil_or_concat cells with rfl | ⟨before, x, rfl⟩
  · have holdest : c.oldest = none := h.chained.oldest
    unfold Checked.popOldest Lru.popOldest
    rw [holdest]
  · rw [List.concat_eq_append] at h
    have holdest : c.oldest = some x.id := by simpa using h.chained.oldest
    obtain ⟨hanswer, hreleased⟩ := h.chained.release
    unfold Checked.popOldest Lru.popOldest
    rw [holdest]
    simp only
    rw [h.chained.checked_release, pure_bind]
    generalize c.release x.id = a at hanswer hreleased
    obtain ⟨c', n⟩ := a
    subst hanswer
    -- The one subtraction: the cell that goes is counted, so its cost can be taken off.
    have hcost : cost x.key x.value ≤ c'.bytes := hreleased.bytes ▸ h.cost_le
    simp only
    rw [Checked.less_eq hcost, pure_bind]

/-- The loop ends in time, and never for want of an entry: cells that are over the budget include a
last one, and once all are gone nothing is over it. -/
theorem checked_evict (h : Layout c cells) {rounds : Nat} (hrounds : cells.length ≤ rounds) :
    Checked.evict rounds c = pure (Lru.evict rounds c) := by
  -- The induction takes one cell off the far end in every round.
  induction rounds generalizing c cells with
  | zero =>
    obtain rfl : cells = [] := List.length_eq_zero_iff.1 (Nat.le_zero.1 hrounds)
    have hover : ¬ c.overBudget = true := by
      rw [h.overBudget_iff, not_not]
      exact .inr (Nat.zero_le _)
    unfold Checked.evict
    rw [if_neg hover]
    rfl
  | succ rounds ih =>
    unfold Checked.evict Lru.evict
    by_cases hover : c.overBudget = true
    · rcases List.eq_nil_or_concat cells with rfl | ⟨before, x, rfl⟩
      · exact absurd (.inr (Nat.zero_le _)) (h.overBudget_iff.1 hover)
      · rw [List.concat_eq_append] at h hrounds
        obtain ⟨hpop, hlayout, -⟩ := h.popOldest
        have hrest := ih hlayout (by simpa using hrounds)
        rw [if_pos hover, if_pos hover]
        simp only
        rw [h.checked_popOldest, pure_bind]
        generalize c.popOldest = a at hpop hrest
        obtain ⟨c', e⟩ := a
        subst hpop
        simp only at hrest ⊢
        rw [hrest, pure_bind]
    · rw [if_neg hover, if_neg hover]

/-- A free number is one of the slab, like those of the cells. -/
theorem lt_size_of_free (h : Layout c cells) {id : Nat} (hid : id ∈ c.free) :
    id < c.slots.size := by
  apply List.mem_range.1
  apply h.slots.mem_iff.1
  exact List.mem_append_right _ hid

/-- An entry is put in without a failure if the count of bytes has room for it. -/
theorem checked_put (h : Layout c cells) {key : String} {value : ν}
    (hroom : c.bytes + cost key value < UInt64.size) :
    Checked.put c key value = pure (c.put key value) := by
  unfold Checked.put Lru.put
  cases hfind : c.index.find? key with
  | some id =>
    -- The key is there: what its old value costs is part of the count.
    obtain ⟨before, old, after, rfl⟩ := h.exists_mid hfind
    have hslot := h.chained.slot?_mid
    have hset := (h.setValue value).chained.checked_moveToFront
    have hcost := h.cost_le
    have hroom' : c.bytes + size value < UInt64.size := by
      unfold cost at hroom
      omega
    have hold : size old ≤ c.bytes + size value := by
      unfold cost at hcost
      simp only at hcost
      omega
    unfold Lru.modifySlot at hset ⊢
    simp only at hslot hset ⊢
    rw [Checked.slotAt_eq (lt_size_of_slot? hslot), pure_bind, hslot]
    simp only
    rw [Checked.setSlot_eq (lt_size_of_slot? hslot), pure_bind]
    rw [Checked.more_eq hroom', pure_bind, Checked.less_eq hold, pure_bind]
    rw [hslot] at hset
    exact hset
  | none =>
    have hfree : ∀ id ∈ c.free, id < c.slots.size := fun id hid => h.lt_size_of_free hid
    have hnew := alloc_spec (c := { c with bytes := c.bytes + cost key value })
      h.slots h.unused ⟨key, value, none, none⟩
    have hchained := hnew.chained (h.chained.congr (fun _ _ => rfl) rfl rfl)
    simp only
    rw [Checked.more_eq hroom, pure_bind,
      Checked.alloc_eq (c := { c with bytes := c.bytes + cost key value }) hfree, pure_bind]
    rw [hchained.checked_attachFront (lt_size_of_slot? hnew.slot), pure_bind]

theorem checked_remove (h : Layout c cells) (key : String) :
    Checked.remove c key = pure (c.remove key) := by
  unfold Checked.remove Lru.remove
  cases hfind : c.index.find? key with
  | none => rfl
  | some id =>
    obtain ⟨before, value, after, rfl⟩ := h.exists_mid hfind
    -- The table is written before the links here; the chain does not depend on it.
    have hfirst : Chained { c with index := c.index.erase key }
        (before ++ ⟨id, key, value⟩ :: after) :=
      h.chained.congr (fun _ _ => rfl) rfl rfl
    obtain ⟨hanswer, hreleased⟩ := hfirst.release
    have hchecked := hfirst.checked_release
    simp only at hchecked hanswer ⊢
    rw [hchecked, pure_bind]
    generalize Lru.release { c with index := c.index.erase key } id = a at hanswer hreleased
    obtain ⟨c', n⟩ := a
    subst hanswer
    have hcost : cost key value ≤ c'.bytes := hreleased.bytes ▸ h.cost_le
    simp only
    rw [Checked.less_eq hcost, pure_bind]

end Layout

/-! ## Runs -/

namespace Models

variable {c : Lru ν} {r : Recency ν}

/-- The count of bytes is the cost of the entries. -/
theorem bytes_eq (h : Models c r) : c.bytes = Recency.cost c.entries := by
  rw [h.report_eq.2.2.2, h.entries_eq]
  rfl

/-- An addition does not fail if the count has room for the entries and the new one together. -/
theorem checked_add (h : Models c r) {key : String} {value : ν}
    (hroom : Recency.cost (c.entries ++ [(key, value)]) < UInt64.size) :
    Checked.add c key value = pure (c.add key value) := by
  obtain ⟨cells, hlayout, -⟩ := h.layout
  obtain ⟨cells', hput, -⟩ := (h.put key value).layout
  have hcount : c.bytes + cost key value < UInt64.size := by
    rw [Recency.cost_append, ← h.bytes_eq] at hroom
    exact hroom
  unfold Checked.add Lru.add
  rw [hlayout.checked_put hcount, pure_bind]
  exact hput.checked_evict (Nat.le_of_eq hput.length_eq.symm)

/-- One operation does not fail if the count has room for what it adds. -/
theorem checked_step (h : Models c r) {op : Op ν}
    (hroom : Recency.cost (c.entries ++ c.adds op) < UInt64.size) :
    Checked.step c op = pure (c.step op) := by
  obtain ⟨cells, hlayout, -⟩ := h.layout
  unfold Checked.step Lru.step
  cases op with
  | add key value =>
    simp only
    rw [h.checked_add hroom, pure_bind]
  | get key =>
    simp only
    rw [hlayout.checked_get key, pure_bind]
  | peek key =>
    simp only
    rw [hlayout.checked_peek key, pure_bind]
  | contains key => rfl
  | remove key =>
    simp only
    rw [hlayout.checked_remove key, pure_bind]
  | removeOldest =>
    simp only
    rw [hlayout.checked_popOldest, pure_bind]
    rfl

/-- A run does not fail if there is room at each of its operations. -/
theorem checked_run (h : Models c r) {ops : List (Op ν)} (hroom : Roomy c ops) :
    Checked.run c ops = pure (c.run ops, c.trace ops) := by
  induction ops generalizing c r with
  | nil => rfl
  | cons op ops ih =>
    obtain ⟨hone, hrest⟩ := hroom
    have hnext := (h.step op).2
    obtain ⟨cells, hlayout, -⟩ := hnext.layout
    unfold Checked.run
    rw [h.checked_step hone, pure_bind]
    simp only
    rw [hlayout.checked_keys, pure_bind, ih hnext hrest, pure_bind]
    rfl

end Models

end Lru

end PeerCache
