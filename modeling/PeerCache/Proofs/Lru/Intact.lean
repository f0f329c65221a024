import Mathlib.Data.List.Induction
import PeerCache.Proofs.Lru.Checked
import PeerCache.Proofs.Lru.Ledger
/-!
# PeerCache — the slab stays intact

Whatever is done to a cache, its parts go on fitting together, and nothing that is done to it goes
wrong.

## The architecture

* **The parts** — `Layout.intact`: a cache that is laid out is intact. The links of the cells are
  walks from either end (`Chained.walk_older`, `Chained.walk_newer`), and as every number is a
  cell's or free, the slots in use are the cells' (`Layout.used_perm`).
* **The slab** — `Models.size_run`: it has as many slots as there were entries alive at once. Only
  `alloc` makes it larger, and only when no slot is free, which is when the new entry does not fit
  beside those that are live (`Layout.size_put`).
* **No fault** — `Models.checked_run`, from the module on checks.
-/

namespace PeerCache

namespace Lru

variable {ν : Type}

/-! ## The walks -/

/-- Toward older entries the links lead through a cell and all behind it. -/
theorem Chained.walk_older {c : Lru ν} {before after : List (Cell ν)}
    (h : Chained c (before ++ after)) :
    Walk c Slot.older (after.head?.map Cell.id) (after.map Cell.id) := by
  induction after generalizing before with
  | nil => exact .stop
  | cons x after ih =>
    have hcells : Chained c ((before ++ [x]) ++ after) := by simpa using h
    exact .visit h.slot?_mid (ih hcells)

/-- Toward newer entries the links lead through a cell and all in front of it, backward. -/
theorem Chained.walk_newer {c : Lru ν} {before after : List (Cell ν)}
    (h : Chained c (before ++ after)) :
    Walk c Slot.newer (before.getLast?.map Cell.id) (before.map Cell.id).reverse := by
  induction before using List.reverseRecOn generalizing after with
  | nil => exact .stop
  | append_singleton before x ih =>
    have hcells : Chained c (before ++ x :: after) := by simpa using h
    have hrest := ih hcells
    rw [List.getLast?_concat, List.map_append, List.reverse_append]
    exact .visit hcells.slot?_mid hrest

/-- The slots of the cells hold the entries of the cells, in the same order. -/
theorem Chained.entries_of_slots {c : Lru ν} {cells : List (Cell ν)} (h : Chained c cells) :
    ((cells.map Cell.id).filterMap c.slot?).map (fun n => (n.key, n.value))
      = cells.map Cell.entry := by
  have hslots : ∀ x ∈ cells, ∃ newer older,
      c.slot? x.id = some ⟨x.key, x.value, newer, older⟩ := fun x hx => h.slot?_of_mem hx
  clear h
  induction cells with
  | nil => rfl
  | cons x cells ih =>
    obtain ⟨newer, older, hx⟩ := hslots x List.mem_cons_self
    have hrest := ih fun y hy => hslots y (List.mem_cons_of_mem x hy)
    rw [List.map_cons, List.filterMap_cons_some hx, List.map_cons, hrest]
    rfl

/-! ## The parts -/

variable [Sized ν]

namespace Layout

variable {c : Lru ν} {cells : List (Cell ν)}

/-- The slots in use are those of the cells. -/
theorem used_perm (h : Layout c cells) : c.used.Perm (cells.map Cell.id) := by
  have hused : c.used.Nodup := List.nodup_range.filter _
  apply (List.perm_ext_iff_of_nodup hused h.chained.nodup).2
  intro id
  unfold used
  rw [List.mem_filter, List.mem_range]
  constructor
  · rintro ⟨hlt, hsome⟩
    have hmem := h.slots.mem_iff.2 (List.mem_range.2 hlt)
    rcases List.mem_append.1 hmem with hcell | hfree
    · exact hcell
    · -- a free slot is not in use
      rw [h.unused id hfree] at hsome
      cases hsome
  · intro hcell
    obtain ⟨x, hx, rfl⟩ := List.mem_map.1 hcell
    obtain ⟨newer, older, hslot⟩ := h.chained.slot?_of_mem hx
    exact ⟨lt_size_of_slot? hslot, by rw [hslot]; rfl⟩

/-- A cache that is laid out is intact, and its chain are the numbers of the cells. -/
theorem intact (h : Layout c cells) : Intact c (cells.map Cell.id) where
  older := by
    have hall : Chained c ([] ++ cells) := h.chained
    rw [h.chained.newest]
    exact hall.walk_older
  newer := by
    have hall : Chained c (cells ++ []) := by simpa using h.chained
    rw [h.chained.oldest]
    exact hall.walk_newer
  once := h.chained.nodup
  index := by
    have hvalues := h.index.map Prod.snd
    rwa [List.map_map] at hvalues
  own := by
    intro id hid
    obtain ⟨x, hx, rfl⟩ := List.mem_map.1 hid
    obtain ⟨newer, older, hslot⟩ := h.chained.slot?_of_mem hx
    exact ⟨_, hslot, h.find?_eq_some_iff.2 ⟨x.value, hx⟩⟩
  used := h.used_perm
  slots := (h.used_perm.append_right c.free).trans h.slots
  bytes := by
    rw [h.bytes, h.chained.entries_of_slots]

end Layout

/-! ## The slab

No operation but an addition of a new key touches the number of slots. -/

omit [Sized ν] in
/-- Giving a slot back does not make the slab smaller. -/
theorem size_release (c : Lru ν) (id : Nat) : (c.release id).1.slots.size = c.slots.size := by
  rw [← (sameFrame_detach c id).size]
  unfold release
  simp only
  cases (c.detach id).slot? id with
  | none => rfl
  | some n => exact Array.size_setIfInBounds

theorem size_popOldest (c : Lru ν) : c.popOldest.1.slots.size = c.slots.size := by
  unfold popOldest
  cases c.oldest with
  | none => rfl
  | some id =>
    have hsize := size_release c id
    simp only
    generalize c.release id = a at hsize
    obtain ⟨c', _ | n⟩ := a
    · exact hsize
    · exact hsize

theorem size_remove (c : Lru ν) (key : String) : (c.remove key).1.slots.size = c.slots.size := by
  unfold remove
  cases c.index.find? key with
  | none => rfl
  | some id =>
    have hsize := size_release { c with index := c.index.erase key } id
    simp only
    generalize Lru.release { c with index := c.index.erase key } id = a at hsize
    obtain ⟨c', _ | n⟩ := a
    · exact hsize
    · exact hsize

omit [Sized ν] in
theorem size_get (c : Lru ν) (key : String) : (c.get key).1.slots.size = c.slots.size := by
  unfold get
  cases c.index.find? key with
  | none => rfl
  | some id => exact (sameFrame_moveToFront c id).size

theorem size_evict (fuel : Nat) (c : Lru ν) : (evict fuel c).1.slots.size = c.slots.size := by
  induction fuel generalizing c with
  | zero => rfl
  | succ fuel ih =>
    unfold evict
    split
    next =>
      rw [← size_popOldest c]
      rcases c.popOldest with ⟨c', _ | e⟩
      · rfl
      · exact ih c'
    next => rfl

omit [Sized ν] in
/-- A new entry takes a free slot, and only without one does the slab grow. -/
theorem size_alloc (c : Lru ν) (n : Slot ν) :
    (c.alloc n).1.slots.size = if c.free = [] then c.slots.size + 1 else c.slots.size := by
  unfold alloc
  cases c.free with
  | nil => exact Array.size_push _
  | cons id rest => exact Array.size_setIfInBounds

/-- The slots are those of the live entries and the free ones. -/
theorem Layout.length_add_free {c : Lru ν} {cells : List (Cell ν)} (h : Layout c cells) :
    c.length + c.free.length = c.slots.size := by
  have hslots := h.slots.length_eq
  rw [List.length_append, List.length_map, List.length_range] at hslots
  rw [h.length_eq, hslots]

/-- After an addition there are as many slots as before, or as many as there are entries alive. -/
theorem Layout.size_put {c : Lru ν} {cells : List (Cell ν)} (h : Layout c cells) (key : String)
    (value : ν) :
    (c.put key value).slots.size = max c.slots.size (c.crowd (.add key value)) := by
  have hall := h.length_add_free
  cases hfind : c.index.find? key with
  | some id =>
    obtain ⟨before, old, after, rfl⟩ := h.exists_mid hfind
    have hput := (sameFrame_modifySlot c id fun m => { m with value := value }).size
    have hslot : c.slot? id = _ := h.chained.slot?_mid
    have hcrowd : c.crowd (.add key value) = c.length := by
      simp [crowd, contains, Table.contains, hfind]
    rw [hcrowd]
    simp only [put, hfind, hslot]
    rw [(sameFrame_moveToFront _ id).size, hput]
    omega
  | none =>
    have hgrown := size_alloc { c with bytes := c.bytes + cost key value } ⟨key, value, none, none⟩
    simp only at hgrown
    have hcrowd : c.crowd (.add key value) = c.length + 1 := by
      simp [crowd, contains, Table.contains, hfind]
    rw [hcrowd]
    simp only [put, hfind]
    rw [(sameFrame_attachFront _ _).size, hgrown]
    -- No slot is free exactly if the live entries take all of them.
    cases hfree : c.free with
    | nil =>
      rw [hfree, List.length_nil] at hall
      rw [if_pos rfl]
      omega
    | cons id rest =>
      rw [hfree, List.length_cons] at hall
      rw [if_neg (List.cons_ne_nil id rest)]
      omega

namespace Models

variable {c : Lru ν} {r : Recency ν}

/-- One operation leaves as many slots as before, or as many as it has entries alive at once. -/
theorem size_step (h : Models c r) (op : Op ν) :
    (c.step op).1.slots.size = max c.slots.size (c.crowd op) := by
  obtain ⟨cells, hlayout, -⟩ := h.layout
  have hall := hlayout.length_add_free
  -- Where an operation takes no slot, its crowd is the length, which never passes the slots.
  have hsame : c.slots.size = max c.slots.size c.length := by omega
  cases op with
  | add key value =>
    show (evict _ (c.put key value)).1.slots.size = _
    rw [size_evict]
    exact hlayout.size_put key value
  | get key => exact (size_get c key).trans hsame
  | peek key => exact hsame
  | contains key => exact hsame
  | remove key => exact (size_remove c key).trans hsame
  | removeOldest => exact (size_popOldest c).trans hsame

/-- The slab grows to the most entries that there were at one time, and not further. -/
theorem size_run (h : Models c r) (ops : List (Op ν)) :
    (c.run ops).slots.size = max c.slots.size (c.peak ops) := by
  induction ops generalizing c r with
  | nil =>
    obtain ⟨cells, hlayout, -⟩ := h.layout
    have hall := hlayout.length_add_free
    show c.slots.size = max c.slots.size c.length
    omega
  | cons op ops ih =>
    show ((c.step op).1.run ops).slots.size =
      max c.slots.size (max (c.crowd op) ((c.step op).1.peak ops))
    rw [ih (h.step op).2, h.size_step op]
    omega

end Models

/-- **The slab stays intact.** After any run of a cache whose entries fit a machine word, the parts
of the cache fit together: the links from the newest and from the oldest entry lead through the
same slots in opposite orders, once through each; these are the slots the table leads to, each by
the key of its entry, and the slots in use; they and the free ones are all slots of the slab; and
the count is what their entries cost.

Nothing goes wrong on the way. With every slot number, every count and every loop checked, the run
meets no fault and ends with the same cache and the same reports, and so does reading the keys. The
slab has as many slots as there were entries alive at once when most of them were, and no more. -/
theorem run_intact (maxBytes : Nat) (ops : List (Op ν)) (hroom : Roomy (new maxBytes) ops) :
    (∃ ids, Intact ((new maxBytes).run ops) ids) ∧
      Checked.run (new maxBytes) ops = .ok ((new maxBytes).run ops, (new maxBytes).trace ops) ∧
      Checked.keys ((new maxBytes : Lru ν).run ops) = .ok ((new maxBytes).run ops).keys ∧
      ((new maxBytes).run ops).slots.size = (new maxBytes).peak ops := by
  have hnew : Models (new maxBytes : Lru ν) (.new maxBytes) := models_new maxBytes
  obtain ⟨s, hrun⟩ := hnew.run ops
  obtain ⟨cells, hlayout, -⟩ := hrun.layout
  refine ⟨⟨_, hlayout.intact⟩, hnew.checked_run hroom, hlayout.checked_keys, ?_⟩
  rw [hnew.size_run ops]
  exact Nat.zero_max _

/-- Under six bytes: a freed slot is used again, a value grows, and entries are evicted to make
room. -/
def churn : List (Op ByteView) :=
  [.add "a" (.ofList [1]), .add "b" (.ofList [2]), .remove "a", .add "c" (.ofList [3, 3]),
    .get "b", .add "b" (.ofList [4, 4, 4]), .add "d" (.ofList [5]), .add "e" .empty]

/-- The slab of six bytes comes to three slots. -/
theorem run_intact_churn :
    Roomy (new 6) churn ∧ (new 6).peak churn = 3 ∧
      (∃ ids, Intact ((new 6).run churn) ids) ∧
      Checked.run (new 6) churn = .ok ((new 6).run churn, (new 6).trace churn) ∧
      Checked.keys ((new 6).run churn) = .ok ((new 6).run churn).keys ∧
      ((new 6).run churn).slots.size = (new 6).peak churn :=
  ⟨by decide, by decide, run_intact 6 churn (by decide)⟩

end Lru

end PeerCache
