import Mathlib.Data.List.Perm.Basic
import PeerCache.Proofs.Lru.Chain
import PeerCache.Proofs.Lru.Recency
/-!
# PeerCache — the layout of a cache

`Layout c cells` is the invariant of the slab cache: the chain spells the cells, the table leads
from every key to its cell, the slots in use and the free ones are together all slots, each once,
and the byte count is what the entries cost.

The operations of `Lru` take the cells apart and put them together again; each has one lemma that
says which cells there are afterwards:

* `Layout.moveToFront` — a cell goes to the front;
* `Layout.setValue` — a cell gets a new value;
* `Layout.put_new` — a new cell in front, in a freed slot or in a new one;
* `Layout.dropCell` — a cell leaves, whichever way the table and the count were brought in line.

`Layout.evict` puts the last one to work: the loop ends with the longest prefix that fits.
-/

namespace PeerCache

namespace Lru

variable {ν : Type}

/-! ## A slot for a new cell

The slot freed last is taken first; only when no slot is free does the slab grow. -/

/-- `c'` is `c` with an entry in the slot `id`, which none of the slots `ids` in use was. -/
structure Allocated (c : Lru ν) (ids : List Nat) (n : Slot ν) (c' : Lru ν) (id : Nat) : Prop where
  fresh : id ∉ ids
  slot : c'.slot? id = some n
  others : ∀ j, j ≠ id → c'.slot? j = c.slot? j
  slots : (id :: ids ++ c'.free).Perm (List.range c'.slots.size)
  unused : ∀ j ∈ c'.free, c'.slot? j = none
  newest : c'.newest = c.newest
  oldest : c'.oldest = c.oldest
  index : c'.index = c.index
  bytes : c'.bytes = c.bytes
  maxBytes : c'.maxBytes = c.maxBytes

/-- A new slot has a number that was not in use: one given back before, or the next one of the
slab. -/
theorem alloc_spec {c : Lru ν} {ids : List Nat}
    (hslots : (ids ++ c.free).Perm (List.range c.slots.size))
    (hunused : ∀ id ∈ c.free, c.slot? id = none) (n : Slot ν) :
    Allocated c ids n (c.alloc n).1 (c.alloc n).2 := by
  have hnodup := hslots.nodup_iff.2 List.nodup_range
  unfold alloc
  cases hfree : c.free with
  | nil =>
    -- All slots are in use; the new one has the next number.
    rw [hfree, List.append_nil] at hslots
    have hfresh : c.slots.size ∉ ids := by
      intro hmem
      have hlt := List.mem_range.1 (hslots.mem_iff.1 hmem)
      omega
    have hother : ∀ j, j ≠ c.slots.size → (c.slots.push (some n))[j]?.join = c.slot? j := by
      intro j hj
      rw [slot?_eq, Array.getElem?_push, if_neg hj]
    refine ⟨hfresh, by simp [slot?_eq], hother, ?_, by simp, rfl, rfl, rfl, rfl, rfl⟩
    simp only [List.append_nil, Array.size_push, List.range_succ]
    exact (hslots.cons _).trans (List.perm_append_singleton _ _).symm
  | cons id rest =>
    rw [hfree] at hslots hnodup hunused
    have hid : id < c.slots.size :=
      List.mem_range.1 (hslots.mem_iff.1 (List.mem_append_right _ (List.mem_cons_self ..)))
    rw [List.nodup_middle, List.nodup_cons, List.mem_append, not_or] at hnodup
    have hset := slot?_set hid (some n)
    refine ⟨hnodup.1.1, ?_, ?_, ?_, ?_, rfl, rfl, rfl, rfl, rfl⟩
    · exact (hset id).trans (if_pos rfl)
    · intro j hj
      exact (hset j).trans (if_neg hj)
    · simpa using List.perm_middle.symm.trans hslots
    · intro j hj
      have hne : j ≠ id := fun heq => hnodup.1.2 (heq ▸ hj)
      exact ((hset j).trans (if_neg hne)).trans (hunused j (List.mem_cons_of_mem _ hj))

/-- The chain does not lead through the new slot yet. -/
theorem Allocated.chained {c c' : Lru ν} {cells : List (Cell ν)} {n : Slot ν} {id : Nat}
    (h : Allocated c (cells.map Cell.id) n c' id) (hcells : Chained c cells) :
    Chained c' cells := by
  refine hcells.congr (fun x hx => h.others x.id ?_) h.newest h.oldest
  rintro rfl
  exact h.fresh (List.mem_map_of_mem hx)

/-! ## A slot that is given back -/

/-- `c'` is `c` without a cell, whose slot waits to be used again. -/
structure Released (c : Lru ν) (x : Cell ν) (cells : List (Cell ν)) (c' : Lru ν) : Prop where
  chained : Chained c' cells
  free : c'.free = x.id :: c.free
  size : c'.slots.size = c.slots.size
  unused : ∀ j, j = x.id ∨ c.slot? j = none → c'.slot? j = none
  index : c'.index = c.index
  bytes : c'.bytes = c.bytes
  maxBytes : c'.maxBytes = c.maxBytes

/-- Emptying the slot of a cell takes the cell off the chain, gives its entry and frees the
slot. -/
theorem Chained.release {c : Lru ν} {before after : List (Cell ν)} {x : Cell ν}
    (h : Chained c (before ++ x :: after)) :
    (c.release x.id).2 = some ⟨x.key, x.value, none, none⟩ ∧
      Released c x (before ++ after) (c.release x.id).1 := by
  have hframe := sameFrame_detach c x.id
  have hx : (c.detach x.id).slot? x.id = some ⟨x.key, x.value, none, none⟩ := by
    rw [slot?_detach h.slot?_mid, h.slot?_mid]
    simp
  have hset := slot?_set (lt_size_of_slot? hx) none
  have hout := not_mem_of_nodup h.nodup
  simp only [Lru.release, hx]
  refine ⟨trivial, ?_, congrArg _ hframe.free, ?_, ?_, hframe.index, hframe.bytes,
    hframe.maxBytes⟩
  · refine h.detach.congr (fun y hy => (hset y.id).trans (if_neg ?_)) rfl rfl
    rintro heq
    rcases List.mem_append.1 hy with hy | hy
    · exact hout.1 (heq ▸ List.mem_map_of_mem hy)
    · exact hout.2 (heq ▸ List.mem_map_of_mem hy)
  · rw [← hframe.size]
    exact Array.size_setIfInBounds
  · intro j hj
    refine (hset j).trans ?_
    split
    next => rfl
    next hne => exact (hframe.unused j).2 (hj.resolve_left hne)

/-! ## The invariant -/

variable [Sized ν]

/-- The cells, newest first, are all that a cache holds. -/
structure Layout (c : Lru ν) (cells : List (Cell ν)) : Prop where
  chained : Chained c cells
  index : c.index.entries.Perm (cells.map fun x => (x.key, x.id))
  slots : (cells.map Cell.id ++ c.free).Perm (List.range c.slots.size)
  unused : ∀ id ∈ c.free, c.slot? id = none
  bytes : c.bytes = Recency.cost (cells.map Cell.entry)

theorem layout_new (maxBytes : Nat) : Layout (new maxBytes : Lru ν) [] where
  chained := ⟨by simp, rfl, rfl, by simp⟩
  index := .refl _
  slots := .refl _
  unused := by simp [new]
  bytes := rfl

namespace Layout

variable {c : Lru ν} {cells : List (Cell ν)}

/-! ## Reading -/

/-- No key has two cells. -/
theorem keys_nodup (h : Layout c cells) : (cells.map Cell.key).Nodup := by
  have hkeys : (c.index.entries.map Prod.fst).Perm (cells.map Cell.key) := by
    simpa [List.map_map, Function.comp_def] using h.index.map Prod.fst
  exact hkeys.nodup_iff.1 c.index.nodup

/-- The table leads from a key to a slot exactly if that slot holds the key's cell. -/
theorem find?_eq_some_iff (h : Layout c cells) {key : String} {id : Nat} :
    c.index.find? key = some id ↔ ∃ value, ⟨id, key, value⟩ ∈ cells := by
  rw [← Table.mem_iff_find?, h.index.mem_iff, List.mem_map]
  constructor
  · rintro ⟨⟨id', key', value⟩, hx, heq⟩
    obtain ⟨rfl, rfl⟩ := Prod.mk.inj heq
    exact ⟨value, hx⟩
  · rintro ⟨value, hx⟩
    exact ⟨_, hx, rfl⟩

/-- A key is not in the index exactly if no cell has it. -/
theorem find?_eq_none_iff (h : Layout c cells) {key : String} :
    c.index.find? key = none ↔ key ∉ cells.map Cell.key := by
  rw [Option.eq_none_iff_forall_ne_some]
  constructor
  · intro hnone hmem
    obtain ⟨x, hx, rfl⟩ := List.mem_map.1 hmem
    exact hnone x.id (h.find?_eq_some_iff.2 ⟨x.value, hx⟩)
  · intro hout id hsome
    obtain ⟨value, hx⟩ := h.find?_eq_some_iff.1 hsome
    exact hout (List.mem_map_of_mem hx)

/-- Every slot is a cell's or free, so there are no more cells than slots. -/
theorem length_le (h : Layout c cells) : cells.length ≤ c.slots.size := by
  have hlen := h.slots.length_eq
  rw [List.length_append, List.length_map, List.length_range] at hlen
  omega

/-- The entries are those of the cells, from the newest to the oldest. -/
theorem entries_eq (h : Layout c cells) : c.entries = cells.map Cell.entry := by
  unfold entries
  rw [h.chained.newest]
  have hall : Chained c ([] ++ cells) := h.chained
  exact hall.walkOlder_from h.length_le

theorem length_eq (h : Layout c cells) : c.length = cells.length := by
  have hlen := h.index.length_eq
  rw [List.length_map] at hlen
  exact hlen

theorem isEmpty_eq (h : Layout c cells) : c.isEmpty = cells.isEmpty := by
  rw [isEmpty, h.index.isEmpty_eq, List.isEmpty_map]

/-- The value of a cell is what its slot holds. -/
theorem peek_eq_some (h : Layout c cells) {x : Cell ν} (hx : x ∈ cells) :
    c.peek x.key = some x.value := by
  have hfind : c.index.find? x.key = some x.id := h.find?_eq_some_iff.2 ⟨x.value, hx⟩
  obtain ⟨newer, older, hslot⟩ := h.chained.slot?_of_mem hx
  simp [peek, hfind, hslot]

/-- A key of the table has a cell, somewhere on the chain. -/
theorem exists_mid (h : Layout c cells) {key : String} {id : Nat}
    (hfind : c.index.find? key = some id) :
    ∃ before value after, cells = before ++ ⟨id, key, value⟩ :: after := by
  obtain ⟨value, hx⟩ := h.find?_eq_some_iff.1 hfind
  obtain ⟨before, after, rfl⟩ := List.append_of_mem hx
  exact ⟨before, value, after, rfl⟩

/-- The key of a cell is in no cell before it or after it. -/
theorem key_not_mem {before after : List (Cell ν)} {x : Cell ν}
    (h : Layout c (before ++ x :: after)) :
    x.key ∉ before.map Cell.key ∧ x.key ∉ after.map Cell.key := by
  have hnodup := h.keys_nodup
  rw [List.map_append, List.map_cons, List.nodup_middle, List.nodup_cons, List.mem_append,
    not_or] at hnodup
  exact hnodup.1

/-! ## Writing -/

/-- Moving a cell to the front lays the cache out with this cell first. -/
theorem moveToFront {before after : List (Cell ν)} {x : Cell ν}
    (h : Layout c (before ++ x :: after)) :
    Layout (c.moveToFront x.id) (x :: (before ++ after)) := by
  have hframe := sameFrame_moveToFront c x.id
  have hperm : (before ++ x :: after).Perm (x :: (before ++ after)) := List.perm_middle
  exact {
    chained := h.chained.moveToFront
    index := by
      rw [hframe.index]
      exact h.index.trans (hperm.map _)
    slots := by
      rw [hframe.size, hframe.free]
      exact ((hperm.symm.map Cell.id).append_right c.free).trans h.slots
    unused := by
      rw [hframe.free]
      exact fun id hid => (hframe.unused id).2 (h.unused id hid)
    bytes := by
      rw [hframe.bytes, h.bytes]
      simp only [List.map_append, List.map_cons, Recency.cost_append, Recency.cost]
      omega }

/-- A cell keeps its place when its value is replaced; the count changes by the costs of the two
values. -/
theorem setValue {before after : List (Cell ν)} {x : Cell ν}
    (h : Layout c (before ++ x :: after)) (value : ν) :
    Layout { c.modifySlot x.id fun m => { m with value := value } with
        bytes := c.bytes + size value - size x.value }
      (before ++ { x with value := value } :: after) := by
  have hframe := sameFrame_modifySlot c x.id fun m => { m with value := value }
  have hchained := h.chained.setValue value
  exact {
    chained := ⟨hchained.slots, hchained.newest, hchained.oldest, hchained.nodup⟩
    index := by
      simp only [hframe.index]
      simpa using h.index
    slots := by
      simp only [hframe.size, hframe.free]
      simpa using h.slots
    unused := by
      simp only [hframe.free]
      exact fun id hid => (hframe.unused id).2 (h.unused id hid)
    bytes := by
      -- What was there pays for the old value, so the subtraction takes nothing from the rest.
      rw [h.bytes]
      simp only [List.map_append, List.map_cons, Recency.cost_append, Recency.cost, Cell.entry,
        Lru.cost]
      omega }

/-- Setting the value of a key that has none puts a new cell in front. -/
theorem put_new (h : Layout c cells) {key : String} (hkey : key ∉ cells.map Cell.key)
    (value : ν) :
    ∃ id, Layout (c.put key value) (⟨id, key, value⟩ :: cells) ∧
      (c.put key value).maxBytes = c.maxBytes := by
  have hnew := alloc_spec (c := { c with bytes := c.bytes + cost key value })
    h.slots h.unused ⟨key, value, none, none⟩
  obtain ⟨c', id, halloc⟩ : ∃ c' id, ({ c with bytes := c.bytes + cost key value } : Lru ν).alloc
      ⟨key, value, none, none⟩ = (c', id) := ⟨_, _, rfl⟩
  simp only [halloc] at hnew
  have hput : c.put key value =
      { c'.attachFront id with index := (c'.attachFront id).index.insert key id } := by
    simp [put, h.find?_eq_none_iff.2 hkey, halloc]
  rw [hput]
  have hframe := sameFrame_attachFront c' id
  have hchained := hnew.chained (h.chained.congr (fun _ _ => rfl) rfl rfl)
  have hfront := hchained.attachFront (x := ⟨id, key, value⟩) hnew.fresh hnew.slot
  refine ⟨id, ⟨⟨hfront.slots, hfront.newest, hfront.oldest, hfront.nodup⟩, ?_, ?_, ?_, ?_⟩,
    hframe.maxBytes.trans hnew.maxBytes⟩
  · -- The key is new to the table, so inserting it removes nothing there.
    have hkeys : ∀ e ∈ c.index.entries, e.1 ≠ key := by
      rintro ⟨k, i⟩ he rfl
      have hfind := (Table.mem_iff_find? _ _ _).1 he
      rw [h.find?_eq_none_iff.2 hkey] at hfind
      exact absurd hfind (by simp)
    have hsame : c.index.entries.filter (fun e => decide (e.1 ≠ key)) = c.index.entries :=
      List.filter_eq_self.2 fun e he => by simpa using hkeys e he
    simp only [hframe.index, hnew.index, Table.insert, Table.erase, hsame, List.map_cons]
    exact h.index.cons _
  · simp only [hframe.size, hframe.free, List.map_cons]
    exact hnew.slots
  · simp only [hframe.free]
    exact fun j hj => (hframe.unused j).2 (hnew.unused j hj)
  · simp only [hframe.bytes, hnew.bytes, h.bytes, List.map_cons, Recency.cost, Cell.entry]
    omega

/-- Setting the value of a key that has one moves its cell to the front with the new value. -/
theorem put_old {before after : List (Cell ν)} {x : Cell ν}
    (h : Layout c (before ++ x :: after)) (value : ν) :
    Layout (c.put x.key value) ({ x with value := value } :: (before ++ after)) ∧
      (c.put x.key value).maxBytes = c.maxBytes := by
  have hfind : c.index.find? x.key = some x.id :=
    h.find?_eq_some_iff.2 ⟨x.value, by simp⟩
  have hput : c.put x.key value =
      ({ c.modifySlot x.id fun m => { m with value := value } with
          bytes := c.bytes + size value - size x.value } : Lru ν).moveToFront x.id := by
    simp [put, hfind, h.chained.slot?_mid]
  rw [hput]
  refine ⟨(h.setValue value).moveToFront, (sameFrame_moveToFront _ x.id).maxBytes.trans ?_⟩
  exact (sameFrame_modifySlot c x.id _).maxBytes

/-! ### A cell that leaves -/

/-- A cell has left once it is off the chain, its slot is empty and free, and the table and the
byte count no longer know it. -/
theorem dropCell {before after : List (Cell ν)} {x : Cell ν} {c' : Lru ν}
    (h : Layout c (before ++ x :: after)) (hchained : Chained c' (before ++ after))
    (hindex : c'.index = c.index.erase x.key) (hfree : c'.free = x.id :: c.free)
    (hsize : c'.slots.size = c.slots.size)
    (hunused : ∀ j, j = x.id ∨ c.slot? j = none → c'.slot? j = none)
    (hbytes : c'.bytes = c.bytes - cost x.key x.value) : Layout c' (before ++ after) where
  chained := hchained
  index := by
    have hout := h.key_not_mem
    have herase := h.index.filter fun e => decide (e.1 ≠ x.key)
    rw [hindex]
    refine herase.trans ?_
    rw [List.map_append, List.map_cons, List.filter_append, List.filter_cons]
    -- Keys are unique along the chain, so erasing one from the table touches no other cell.
    have hkeep : ∀ ys : List (Cell ν), x.key ∉ ys.map Cell.key →
        (ys.map fun y => (y.key, y.id)).filter (fun e => decide (e.1 ≠ x.key))
          = ys.map fun y => (y.key, y.id) := by
      intro ys hys
      refine List.filter_eq_self.2 fun e he => ?_
      obtain ⟨y, hy, rfl⟩ := List.mem_map.1 he
      have hne : y.key ≠ x.key := fun heq => hys (heq ▸ List.mem_map_of_mem hy)
      simpa using hne
    rw [hkeep before hout.1, hkeep after hout.2]
    simp
  slots := by
    rw [hfree, hsize]
    refine List.Perm.trans ?_ h.slots
    rw [List.map_append, List.map_append, List.map_cons, List.append_assoc, List.append_assoc]
    exact List.Perm.append_left _ List.perm_middle
  unused := by
    rw [hfree]
    intro j hj
    rcases List.mem_cons.1 hj with heq | hj
    · exact hunused j (.inl heq)
    · exact hunused j (.inr (h.unused j hj))
  bytes := by
    rw [hbytes, h.bytes]
    simp only [List.map_append, List.map_cons, Recency.cost_append, Recency.cost, Cell.entry]
    omega

/-- Taking out the least recently used entry takes out the last cell. -/
theorem popOldest {before : List (Cell ν)} {x : Cell ν} (h : Layout c (before ++ [x])) :
    c.popOldest.2 = some x.entry ∧ Layout c.popOldest.1 before ∧
      c.popOldest.1.maxBytes = c.maxBytes := by
  obtain ⟨hanswer, hreleased⟩ := h.chained.release
  have holdest : c.oldest = some x.id := by simpa using h.chained.oldest
  unfold Lru.popOldest
  rw [holdest]
  simp only
  generalize c.release x.id = a at hanswer hreleased
  obtain ⟨c', n⟩ := a
  subst hanswer
  have hchained := hreleased.chained
  refine ⟨rfl, ?_, hreleased.maxBytes⟩
  have hdrop : Layout
      { c' with index := c'.index.erase x.key, bytes := c'.bytes - cost x.key x.value }
      (before ++ []) := h.dropCell
    ⟨hchained.slots, hchained.newest, hchained.oldest, hchained.nodup⟩
    (congrArg (Table.erase · x.key) hreleased.index) hreleased.free hreleased.size
    hreleased.unused (congrArg (· - cost x.key x.value) hreleased.bytes)
  rwa [List.append_nil] at hdrop

/-- Removing a key takes out its cell. -/
theorem remove {before after : List (Cell ν)} {x : Cell ν}
    (h : Layout c (before ++ x :: after)) :
    (c.remove x.key).2 = some x.value ∧ Layout (c.remove x.key).1 (before ++ after) ∧
      (c.remove x.key).1.maxBytes = c.maxBytes := by
  have hfind : c.index.find? x.key = some x.id := h.find?_eq_some_iff.2 ⟨x.value, by simp⟩
  -- The table is written before the links here; the chain does not depend on it.
  have hfirst : Chained { c with index := c.index.erase x.key } (before ++ x :: after) :=
    ⟨h.chained.slots, h.chained.newest, h.chained.oldest, h.chained.nodup⟩
  obtain ⟨hanswer, hreleased⟩ := hfirst.release
  unfold Lru.remove
  rw [hfind]
  simp only
  generalize ({ c with index := c.index.erase x.key } : Lru ν).release x.id = a
    at hanswer hreleased
  obtain ⟨c', n⟩ := a
  subst hanswer
  have hchained := hreleased.chained
  refine ⟨rfl, ?_, hreleased.maxBytes⟩
  exact h.dropCell ⟨hchained.slots, hchained.newest, hchained.oldest, hchained.nodup⟩
    hreleased.index hreleased.free hreleased.size hreleased.unused
    (congrArg (· - cost x.key x.value) hreleased.bytes)

/-! ### Evicting -/

/-- Whether entries have to go is whether the cells fit the budget. -/
theorem overBudget_iff (h : Layout c cells) :
    c.overBudget = true ↔ ¬ Recency.Fits c.maxBytes (cells.map Cell.entry) := by
  unfold overBudget Recency.Fits
  rw [h.bytes, Bool.and_eq_true, bne_iff_ne, decide_eq_true_iff]
  omega

/-- Evicting keeps the longest run from the front that fits the budget, and answers with the rest,
last one first. -/
theorem evict (h : Layout c cells) {fuel : Nat} (hfuel : cells.length ≤ fuel) :
    ∃ left gone, cells = left ++ gone ∧ Layout (evict fuel c).1 left ∧
      (Lru.evict fuel c).1.maxBytes = c.maxBytes ∧
      (Lru.evict fuel c).2 = (gone.map Cell.entry).reverse ∧
      left.map Cell.entry = Recency.kept c.maxBytes (cells.map Cell.entry) := by
  -- The induction takes one cell off the far end in every round.
  induction fuel generalizing c cells with
  | zero =>
    obtain rfl : cells = [] := List.length_eq_zero_iff.1 (Nat.le_zero.1 hfuel)
    exact ⟨[], [], rfl, h, rfl, rfl, by simp [Recency.kept, Recency.within]⟩
  | succ fuel ih =>
    by_cases hfits : Recency.Fits c.maxBytes (cells.map Cell.entry)
    · have hdone : Lru.evict (fuel + 1) c = (c, []) := by
        have hover : c.overBudget = false := by
          rw [← Bool.not_eq_true, h.overBudget_iff, not_not]
          exact hfits
        simp [Lru.evict, hover]
      rw [hdone]
      exact ⟨cells, [], by simp, h, rfl, rfl, (Recency.kept_of_fits hfits).symm⟩
    · have hover := h.overBudget_iff.2 hfits
      -- The empty list fits every budget, so there is a last cell.
      rcases List.eq_nil_or_concat cells with rfl | ⟨before, x, rfl⟩
      · exact absurd (.inr (Nat.zero_le _)) hfits
      · rw [List.concat_eq_append] at *
        obtain ⟨hpop, hlayout, hmax⟩ := h.popOldest
        obtain ⟨left, gone, rfl, hleft, hmax', hgone, hkept⟩ :=
          ih hlayout (by simpa using hfuel)
        have hround : Lru.evict (fuel + 1) c =
            ((Lru.evict fuel c.popOldest.1).1,
              x.entry :: (Lru.evict fuel c.popOldest.1).2) := by
          simp only [Lru.evict, hover, if_true]
          generalize c.popOldest = a at hpop
          obtain ⟨c', e⟩ := a
          subst hpop
          rfl
        rw [hround]
        refine ⟨left, gone ++ [x], by simp, hleft, hmax'.trans hmax, by simp [hgone], ?_⟩
        rw [List.map_append, List.map_singleton] at hfits ⊢
        rw [hkept, hmax, Recency.kept_concat hfits]

end Layout

end Lru

end PeerCache
