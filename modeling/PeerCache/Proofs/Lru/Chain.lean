import Mathlib.Data.List.Nodup
import PeerCache.Lru.Basic
/-!
# PeerCache — the chain of a cache

The slots in use are linked in both directions. `Chained c cells` says that a list of cells, newest
first, is exactly what the links of `c` spell: every cell's slot holds its entry and points to the
cells before and after it, and the two ends of the chain are the ends of the list.

## The architecture

* **What one write does** — `slot?_modifySlot`, `slot?_detach` and `slot?_attachFront` give the
  content of every slot after an operation on the links, without any invariant.
* **What the chain does** — `Chained.detach`, `Chained.attachFront` and `Chained.moveToFront` are
  the operations on the list of cells: take one out, put one in front, and both.
* **What the chain reads** — `Chained.walkOlder_from`: following the links from the newest end gives
  the cells in order.
-/

namespace PeerCache

namespace Lru

variable {ν : Type}

/-! ## What one write does

An operation on the links writes at most three slots, and never changes which slots are in use. -/

/-- The slot of a number is what the slab has there, if that is in use. -/
theorem slot?_eq (c : Lru ν) (id : Nat) : c.slot? id = c.slots[id]?.join := rfl

/-- A slot in use has a number below the number of slots. -/
theorem lt_size_of_slot? {c : Lru ν} {id : Nat} {n : Slot ν} (h : c.slot? id = some n) :
    id < c.slots.size := by
  rcases Nat.lt_or_ge id c.slots.size with hlt | hge
  · exact hlt
  · rw [slot?_eq, Array.getElem?_eq_none hge] at h
    exact absurd h (by simp)

/-- Writing one slot changes that slot alone. -/
theorem slot?_set {c : Lru ν} {id : Nat} (hid : id < c.slots.size) (n : Option (Slot ν))
    (j : Nat) :
    ({ c with slots := c.slots.setIfInBounds id n } : Lru ν).slot? j
      = if j = id then n else c.slot? j := by
  by_cases hj : j = id
  · subst hj
    simp [slot?, hid]
  · simp [slot?, Array.getElem?_setIfInBounds_ne (Ne.symm hj), hj]

/-- A change to one slot is seen there, and nowhere else. -/
theorem slot?_modifySlot (c : Lru ν) (id : Nat) (f : Slot ν → Slot ν) (j : Nat) :
    (c.modifySlot id f).slot? j = (c.slot? j).map fun m => if j = id then f m else m := by
  unfold modifySlot
  cases hid : c.slot? id with
  | none =>
    -- Nothing is written; the slot itself has no content to change.
    by_cases hj : j = id
    · subst hj
      simp [hid]
    · simp [hj]
  | some n =>
    rw [slot?_set (lt_size_of_slot? hid)]
    by_cases hj : j = id
    · subst hj
      simp [hid]
    · simp [hj]

@[simp] theorem newest_modifySlot (c : Lru ν) (id : Nat) (f : Slot ν → Slot ν) :
    (c.modifySlot id f).newest = c.newest := by
  unfold modifySlot
  cases c.slot? id <;> rfl

@[simp] theorem oldest_modifySlot (c : Lru ν) (id : Nat) (f : Slot ν → Slot ν) :
    (c.modifySlot id f).oldest = c.oldest := by
  unfold modifySlot
  cases c.slot? id <;> rfl

/-- The slot that is linked gets a new older neighbour. -/
theorem slot?_linkOlder (c : Lru ν) (a next? : Option Nat) (j : Nat) :
    (c.linkOlder a next?).slot? j
      = (c.slot? j).map fun m => if a = some j then { m with older := next? } else m := by
  cases a with
  | none => simp [linkOlder, slot?_eq]
  | some i => simp only [linkOlder, slot?_modifySlot, Option.some.injEq, eq_comm]

theorem slot?_linkNewer (c : Lru ν) (a next? : Option Nat) (j : Nat) :
    (c.linkNewer a next?).slot? j
      = (c.slot? j).map fun m => if a = some j then { m with newer := next? } else m := by
  cases a with
  | none => simp [linkNewer, slot?_eq]
  | some i => simp only [linkNewer, slot?_modifySlot, Option.some.injEq, eq_comm]

/-- Linking at the front end makes the newest a new one. -/
@[simp] theorem newest_linkOlder (c : Lru ν) (a next? : Option Nat) :
    (c.linkOlder a next?).newest = if a = none then next? else c.newest := by
  cases a <;> simp [linkOlder]

@[simp] theorem oldest_linkOlder (c : Lru ν) (a next? : Option Nat) :
    (c.linkOlder a next?).oldest = c.oldest := by
  cases a <;> simp [linkOlder]

@[simp] theorem newest_linkNewer (c : Lru ν) (a next? : Option Nat) :
    (c.linkNewer a next?).newest = c.newest := by
  cases a <;> simp [linkNewer]

@[simp] theorem oldest_linkNewer (c : Lru ν) (a next? : Option Nat) :
    (c.linkNewer a next?).oldest = if a = none then next? else c.oldest := by
  cases a <;> simp [linkNewer]

/-- After a slot has left the chain its neighbours point to each other, and it to nothing. -/
theorem slot?_detach {c : Lru ν} {id : Nat} {n : Slot ν} (h : c.slot? id = some n) (j : Nat) :
    (c.detach id).slot? j = (c.slot? j).map fun m =>
      if j = id then { m with newer := none, older := none }
      else
        { m with
          newer := if n.older = some j then n.newer else m.newer
          older := if n.newer = some j then n.older else m.older } := by
  unfold detach
  simp only [h, slot?_modifySlot, slot?_linkNewer, slot?_linkOlder, Option.map_map]
  congr 1
  funext m
  -- The slot's own links are written last, so a link to itself would make no difference.
  by_cases hj : j = id
  · simp only [Function.comp_apply, hj, if_true]
    split <;> split <;> rfl
  · simp only [Function.comp_apply, hj, if_false]
    split <;> split <;> rfl

/-- Taking the newest slot out makes its older neighbour the newest. -/
theorem newest_detach {c : Lru ν} {id : Nat} {n : Slot ν} (h : c.slot? id = some n) :
    (c.detach id).newest = if n.newer = none then n.older else c.newest := by
  simp [detach, h]

theorem oldest_detach {c : Lru ν} {id : Nat} {n : Slot ν} (h : c.slot? id = some n) :
    (c.detach id).oldest = if n.older = none then n.newer else c.oldest := by
  simp [detach, h]

/-- A slot put in front points to the slot that was the newest, and that one points back. -/
theorem slot?_attachFront {c : Lru ν} {id : Nat} (h : c.newest ≠ some id) (j : Nat) :
    (c.attachFront id).slot? j = (c.slot? j).map fun m =>
      if j = id then { m with newer := none, older := c.newest }
      else { m with newer := if c.newest = some j then some id else m.newer } := by
  unfold attachFront
  simp only [slot?_modifySlot, slot?_linkNewer, slot?_linkOlder, Option.map_map]
  congr 1
  funext m
  by_cases hj : j = id
  · simp [hj, h]
  · simp only [Function.comp_apply, hj, if_false, reduceCtorEq]
    split <;> rfl

/-- The first slot of an empty chain is its oldest too. -/
theorem oldest_attachFront (c : Lru ν) (id : Nat) :
    (c.attachFront id).oldest = if c.newest = none then some id else c.oldest := by
  simp [attachFront]

/-! ## What no link touches -/

/-- `c'` differs from `c` in its links only: the table, the sizes and the free slots are the same,
and so are the numbers of the slots in use. -/
structure SameFrame (c c' : Lru ν) : Prop where
  maxBytes : c'.maxBytes = c.maxBytes
  bytes : c'.bytes = c.bytes
  free : c'.free = c.free
  index : c'.index = c.index
  size : c'.slots.size = c.slots.size
  unused : ∀ j, c'.slot? j = none ↔ c.slot? j = none

theorem SameFrame.refl (c : Lru ν) : SameFrame c c :=
  ⟨rfl, rfl, rfl, rfl, rfl, fun _ => Iff.rfl⟩

theorem SameFrame.trans {a b c : Lru ν} (hab : SameFrame a b) (hbc : SameFrame b c) :
    SameFrame a c where
  maxBytes := hbc.maxBytes.trans hab.maxBytes
  bytes := hbc.bytes.trans hab.bytes
  free := hbc.free.trans hab.free
  index := hbc.index.trans hab.index
  size := hbc.size.trans hab.size
  unused j := (hbc.unused j).trans (hab.unused j)

/-- A change to a slot leaves the frame. -/
theorem sameFrame_modifySlot (c : Lru ν) (id : Nat) (f : Slot ν → Slot ν) :
    SameFrame c (c.modifySlot id f) := by
  have hunused : ∀ j, (c.modifySlot id f).slot? j = none ↔ c.slot? j = none := by
    intro j
    rw [slot?_modifySlot, Option.map_eq_none_iff]
  cases hid : c.slot? id with
  | none =>
    have hsame : c.modifySlot id f = c := by simp [modifySlot, hid]
    rw [hsame]
    exact .refl c
  | some n =>
    refine ⟨?_, ?_, ?_, ?_, ?_, hunused⟩ <;> simp [modifySlot, hid]

theorem sameFrame_linkOlder (c : Lru ν) (a next? : Option Nat) :
    SameFrame c (c.linkOlder a next?) := by
  cases a with
  | none => exact ⟨rfl, rfl, rfl, rfl, rfl, fun _ => Iff.rfl⟩
  | some j => exact sameFrame_modifySlot c j _

theorem sameFrame_linkNewer (c : Lru ν) (a next? : Option Nat) :
    SameFrame c (c.linkNewer a next?) := by
  cases a with
  | none => exact ⟨rfl, rfl, rfl, rfl, rfl, fun _ => Iff.rfl⟩
  | some j => exact sameFrame_modifySlot c j _

theorem sameFrame_detach (c : Lru ν) (id : Nat) : SameFrame c (c.detach id) := by
  unfold detach
  cases c.slot? id with
  | none => exact .refl c
  | some n =>
    exact ((sameFrame_linkOlder c _ _).trans (sameFrame_linkNewer _ _ _)).trans
      (sameFrame_modifySlot _ _ _)

theorem sameFrame_attachFront (c : Lru ν) (id : Nat) : SameFrame c (c.attachFront id) :=
  ((sameFrame_modifySlot c id _).trans (sameFrame_linkNewer _ _ _)).trans
    (sameFrame_linkOlder _ _ _)

theorem sameFrame_moveToFront (c : Lru ν) (id : Nat) : SameFrame c (c.moveToFront id) := by
  unfold moveToFront
  split
  · exact .refl c
  · exact (sameFrame_detach c id).trans (sameFrame_attachFront _ id)

/-! ## The chain as a list of cells -/

/-- An entry with the number of its slot. -/
structure Cell (ν : Type) where
  id : Nat
  key : String
  value : ν

/-- The entry of a cell. -/
def Cell.entry (x : Cell ν) : String × ν := (x.key, x.value)

/-- The cells, newest first, are what the links of a cache spell: every cell is in its slot and
points to the cells around it, and the ends of the chain are the ends of the list. -/
structure Chained (c : Lru ν) (cells : List (Cell ν)) : Prop where
  slots : ∀ before x after, cells = before ++ x :: after →
    c.slot? x.id = some
      ⟨x.key, x.value, before.getLast?.map Cell.id, after.head?.map Cell.id⟩
  newest : c.newest = cells.head?.map Cell.id
  oldest : c.oldest = cells.getLast?.map Cell.id
  nodup : (cells.map Cell.id).Nodup

/-- The slot of a cell has its entry, and the numbers of the cells beside it. -/
theorem Chained.slot?_mid {c : Lru ν} {before after : List (Cell ν)} {x : Cell ν}
    (h : Chained c (before ++ x :: after)) :
    c.slot? x.id = some
      ⟨x.key, x.value, before.getLast?.map Cell.id, after.head?.map Cell.id⟩ :=
  h.slots before x after rfl

/-- Every cell is in its slot. -/
theorem Chained.slot?_of_mem {c : Lru ν} {cells : List (Cell ν)} (h : Chained c cells)
    {x : Cell ν} (hx : x ∈ cells) :
    ∃ newer older, c.slot? x.id = some ⟨x.key, x.value, newer, older⟩ := by
  obtain ⟨before, after, rfl⟩ := List.append_of_mem hx
  exact ⟨_, _, h.slot?_mid⟩

/-- A cell of a list that is cut out of a longer one is in front of the cut or behind it. -/
theorem cut_cases {before after before' after' : List (Cell ν)} {y : Cell ν}
    (h : before ++ after = before' ++ y :: after') :
    (∃ mid, before = before' ++ y :: mid ∧ after' = mid ++ after)
      ∨ ∃ mid, after = mid ++ y :: after' ∧ before' = before ++ mid := by
  rcases List.append_eq_append_iff.1 h with ⟨mid, hb, ha⟩ | ⟨mid, hb, ha⟩
  · exact .inr ⟨mid, ha, hb⟩
  · cases mid with
    | nil => exact .inr ⟨[], by simpa using ha.symm, by simpa using hb.symm⟩
    | cons z mid =>
      obtain ⟨rfl, rfl⟩ := List.cons.inj ha
      exact .inl ⟨mid, hb, rfl⟩

/-- A slot is on the chain once: no cell in front of it or behind it has its number. -/
theorem not_mem_of_nodup {before after : List (Cell ν)} {x : Cell ν}
    (h : ((before ++ x :: after).map Cell.id).Nodup) :
    x.id ∉ before.map Cell.id ∧ x.id ∉ after.map Cell.id := by
  rw [List.map_append, List.map_cons, List.nodup_middle, List.nodup_cons, List.mem_append,
    not_or] at h
  exact h.1

/-- A number that no cell has is not the one of the first. -/
theorem head?_ne_of_not_mem {cells : List (Cell ν)} {i : Nat} (h : i ∉ cells.map Cell.id) :
    cells.head?.map Cell.id ≠ some i := by
  intro heq
  rw [← List.head?_map] at heq
  exact h (List.mem_of_head? heq)

theorem getLast?_ne_of_not_mem {cells : List (Cell ν)} {i : Nat} (h : i ∉ cells.map Cell.id) :
    cells.getLast?.map Cell.id ≠ some i := by
  intro heq
  rw [← List.getLast?_map] at heq
  exact h (List.mem_of_getLast? heq)

/-- Taking a slot off the chain takes its cell out of the list. -/
theorem Chained.detach {c : Lru ν} {before after : List (Cell ν)} {x : Cell ν}
    (h : Chained c (before ++ x :: after)) : Chained (c.detach x.id) (before ++ after) where
  slots := by
    intro before' y after' heq
    have hx := h.slot?_mid
    have hnodup := h.nodup
    -- A cell in front of the gap may get a new older neighbour, one behind it a new newer one.
    rcases cut_cases heq with ⟨mid, rfl, rfl⟩ | ⟨mid, rfl, rfl⟩
    · have hcells : before' ++ y :: mid ++ x :: after = before' ++ y :: (mid ++ x :: after) := by
        simp
      have hy := h.slots before' y (mid ++ x :: after) hcells
      rw [hcells] at hnodup
      have hout := (not_mem_of_nodup hnodup).2
      rw [List.map_append, List.map_cons, List.mem_append, List.mem_cons, not_or, not_or] at hout
      obtain ⟨hmid, hne, hafter⟩ := hout
      have hhead := head?_ne_of_not_mem hafter
      rw [slot?_detach hx, hy]
      cases mid with
      | nil => simp [hne, hhead]
      | cons z mid =>
        have hlast := getLast?_ne_of_not_mem hmid
        rw [List.getLast?_append_of_ne_nil _ (List.cons_ne_nil y _), List.getLast?_cons_cons]
        simp [hne, hhead, hlast]
    · have hcells : before ++ x :: (mid ++ y :: after') = before ++ x :: mid ++ y :: after' := by
        simp
      have hy := h.slots (before ++ x :: mid) y after' hcells
      rw [hcells] at hnodup
      have hout := (not_mem_of_nodup hnodup).1
      rw [List.map_append, List.map_cons, List.mem_append, List.mem_cons, not_or, not_or] at hout
      obtain ⟨hbefore, hne, hmid⟩ := hout
      have hlast := getLast?_ne_of_not_mem hbefore
      rw [slot?_detach hx, hy]
      cases mid with
      | nil => simp [hne, hlast]
      | cons z mid =>
        have hhead : z.id ≠ y.id := by simpa using head?_ne_of_not_mem hmid
        simp [hne, hhead, hlast]
  newest := by
    rw [newest_detach h.slot?_mid, h.newest]
    cases before <;> simp
  oldest := by
    rw [oldest_detach h.slot?_mid, h.oldest]
    cases after <;> simp [List.getLast?_append]
  nodup := by
    have hnodup := h.nodup
    rw [List.map_append, List.map_cons] at hnodup
    rw [List.map_append]
    exact hnodup.sublist (List.Sublist.append_left (List.sublist_cons_self ..) _)

/-- Putting a slot in front puts its cell in front of the list. -/
theorem Chained.attachFront {c : Lru ν} {cells : List (Cell ν)} {x : Cell ν}
    {newer older : Option Nat} (h : Chained c cells) (hout : x.id ∉ cells.map Cell.id)
    (hx : c.slot? x.id = some ⟨x.key, x.value, newer, older⟩) :
    Chained (c.attachFront x.id) (x :: cells) where
  slots := by
    intro before y after heq
    have hnewest : c.newest ≠ some x.id := h.newest ▸ head?_ne_of_not_mem hout
    cases before with
    | nil =>
      obtain ⟨rfl, rfl⟩ := List.cons.inj heq
      rw [slot?_attachFront hnewest, hx]
      simp [h.newest]
    | cons z before =>
      obtain ⟨rfl, rfl⟩ := List.cons.inj heq
      have hy := h.slot?_mid
      have hne : y.id ≠ x.id := by
        rintro heq
        exact hout (heq ▸ List.mem_map_of_mem (by simp))
      have hbefore := (not_mem_of_nodup h.nodup).1
      rw [slot?_attachFront hnewest, hy, h.newest]
      -- Only the cell that was in front gets a newer neighbour.
      cases before with
      | nil => simp [hne]
      | cons w before =>
        have hw : w.id ≠ y.id := by simpa using head?_ne_of_not_mem hbefore
        simp [hne, hw]
  newest := rfl
  oldest := by
    rw [oldest_attachFront, h.newest, h.oldest]
    cases cells <;> simp
  nodup := by
    rw [List.map_cons, List.nodup_cons]
    exact ⟨hout, h.nodup⟩

/-- Making a slot the newest moves its cell to the front of the list. -/
theorem Chained.moveToFront {c : Lru ν} {before after : List (Cell ν)} {x : Cell ν}
    (h : Chained c (before ++ x :: after)) :
    Chained (c.moveToFront x.id) (x :: (before ++ after)) := by
  have hout := not_mem_of_nodup h.nodup
  unfold Lru.moveToFront
  split
  next hnewest =>
    -- The cell in front is the only one with the newest slot.
    cases before with
    | nil => exact h
    | cons z before =>
      have hz : z.id ≠ x.id := by simpa using head?_ne_of_not_mem hout.1
      rw [h.newest] at hnewest
      exact absurd hnewest (by simpa using hz)
  next =>
    have hx : (c.detach x.id).slot? x.id = some ⟨x.key, x.value, none, none⟩ := by
      rw [slot?_detach h.slot?_mid, h.slot?_mid]
      simp
    refine h.detach.attachFront ?_ hx
    rw [List.map_append, List.mem_append, not_or]
    exact hout

/-- Writing a value changes the value of one cell and no link. -/
theorem Chained.setValue {c : Lru ν} {before after : List (Cell ν)} {x : Cell ν}
    (h : Chained c (before ++ x :: after)) (value : ν) :
    Chained (c.modifySlot x.id fun m => { m with value := value })
      (before ++ { x with value := value } :: after) where
  slots := by
    intro before' y after' heq
    have hout := not_mem_of_nodup h.nodup
    rw [slot?_modifySlot]
    -- A cell's neighbours have the numbers they had, whichever cell got the value.
    rcases cut_cases heq with ⟨mid, rfl, rfl⟩ | ⟨mid, hmid, rfl⟩
    · have hy := h.slots before' y (mid ++ x :: after) (by simp)
      have hne : y.id ≠ x.id := fun heq => hout.1 (heq ▸ List.mem_map_of_mem (by simp))
      rw [hy, ← List.head?_map, ← List.head?_map]
      simp [hne]
    · cases mid with
      | nil =>
        obtain ⟨rfl, rfl⟩ := List.cons.inj hmid
        change (c.slot? x.id).map _ = _
        rw [h.slot?_mid]
        simp
      | cons z mid =>
        obtain ⟨rfl, rfl⟩ := List.cons.inj hmid
        have hy := h.slots (before ++ x :: mid) y after' (by simp)
        have hne : y.id ≠ x.id := fun heq => hout.2 (heq ▸ List.mem_map_of_mem (by simp))
        rw [hy, ← List.getLast?_map, ← List.getLast?_map]
        simp [hne]
  newest := by
    rw [newest_modifySlot, h.newest]
    cases before <;> simp
  oldest := by
    rw [oldest_modifySlot, h.oldest]
    cases after <;> simp
  nodup := by simpa using h.nodup

/-- A slot outside the chain may change as it likes. -/
theorem Chained.congr {c c' : Lru ν} {cells : List (Cell ν)} (h : Chained c cells)
    (hslots : ∀ x ∈ cells, c'.slot? x.id = c.slot? x.id) (hnewest : c'.newest = c.newest)
    (holdest : c'.oldest = c.oldest) : Chained c' cells where
  slots := by
    rintro before x after rfl
    rw [hslots x (by simp)]
    exact h.slot?_mid
  newest := hnewest.trans h.newest
  oldest := holdest.trans h.oldest
  nodup := h.nodup

/-! ## Walking the chain -/

/-- Walking toward older entries from a cell meets that cell and all behind it, in order. -/
theorem Chained.walkOlder_from {c : Lru ν} {before after : List (Cell ν)}
    (h : Chained c (before ++ after)) {fuel : Nat} (hfuel : after.length ≤ fuel) :
    (c.walkOlder fuel (after.head?.map Cell.id)).map (fun n => (n.key, n.value))
      = after.map Cell.entry := by
  induction after generalizing before fuel with
  | nil => cases fuel <;> simp [walkOlder]
  | cons x after ih =>
    cases fuel with
    | zero => simp at hfuel
    | succ fuel =>
      have hcells : Chained c ((before ++ [x]) ++ after) := by simpa using h
      have hrest := ih hcells (Nat.le_of_succ_le_succ hfuel)
      simp only [List.head?_cons, Option.map_some, walkOlder, h.slot?_mid, List.map_cons]
      rw [hrest]
      rfl

end Lru

end PeerCache
