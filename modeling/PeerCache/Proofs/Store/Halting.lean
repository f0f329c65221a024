import PeerCache.Proofs.Lru.Ledger
import PeerCache.Proofs.Store.Nesting
import PeerCache.Store.PutBack
/-!
# PeerCache — an addition comes to an end

Hooks add, and what they add evicts, while entries of the addition before are still to be told of.
What bounds all this is `load`, which prices live entries and tasks alike by their `Store.weight`:
four steps for each byte of a value and four for the entry.

* An insertion only moves weight from the new entry to the live and the evicted ones
  (`Holds.weight_insert`), and takes two steps.
* A call takes an entry off, and what its hook adds weighs less (`play_addsLess`): at least four
  steps are left over, three of which the addition needs.

So every step makes the load smaller (**`load_step_lt`**), and when it is zero nothing is left to
do.
-/

namespace PeerCache

namespace Store

/-- The weight is a sum over the entries, so it does not matter in which order they are. -/
theorem weight_eq_sum (es : List (String × ByteView)) :
    weight es = (es.map fun e => e.2.length + 1).sum := by
  induction es with
  | nil => rfl
  | cons e es ih => rw [List.map_cons, List.sum_cons, ← ih]; rfl

theorem weight_append (es fs : List (String × ByteView)) :
    weight (es ++ fs) = weight es + weight fs := by
  simp [weight_eq_sum]

theorem weight_perm {es fs : List (String × ByteView)} (h : es.Perm fs) :
    weight es = weight fs := by
  rw [weight_eq_sum, weight_eq_sum]
  exact (h.map _).sum_nat

namespace Holds

variable {maxBytes : Nat} {s : Store}

/-- A lookup moves an entry to the front and leaves the weight. -/
theorem weight_get (h : Holds maxBytes s) (key : String) :
    weight (s.get key).1.entries = weight s.entries := by
  rw [(h.get key).2.2]
  exact (weight_perm (Recency.perm_get (r := ⟨maxBytes, s.entries⟩) h.nodup key)).symm

/-- What is live and what was evicted after an addition weighs no more than what was live before and
the new entry. -/
theorem weight_insert (h : Holds maxBytes s) (key : String) (value : ByteView) :
    weight (s.insert key value).1.entries + weight (s.insert key value).2 ≤
      weight s.entries + (value.length + 1) := by
  obtain ⟨hevicted, hmodels⟩ := h.models.insert key value
  have hparts := weight_perm (Recency.perm_add ⟨maxBytes, s.entries⟩ key value)
  rw [weight_append, weight_append, weight_append] at hparts
  rw [hevicted, hmodels.entries_eq]
  -- the entry that the new one replaces is in neither list
  calc weight _ + weight _
    _ ≤ weight _ + weight _ + weight _ := Nat.le_add_right _ _
    _ = weight s.entries + weight [(key, value)] := hparts.symm
    _ = weight s.entries + (value.length + 1) := rfl

end Holds

end Store

open Store (weight)

/-- The number of steps that a task can bring about; a hook goes on only to look. -/
def Task.load : Task → Nat
  | .insert _ value => 4 * (value.length + 1) + 2
  | .unlock => 1
  | .tell _ value => 4 * (value.length + 1)
  | .resume _ => 1

/-- Every task has some load, so a step that only takes a task off makes progress. -/
theorem Task.load_pos (t : Task) : 0 < t.load := by
  cases t <;> simp [load]

/-- A hook that goes on adds nothing any more. -/
def Task.Spent : Task → Prop
  | .resume r => r.Looks
  | _ => True

namespace Session

/-- The number of steps that a session can still take. -/
def load (x : Session) : Nat := 4 * weight x.store.entries + (x.tasks.map Task.load).sum

/-- Entries that are still to be told of weigh as much as they did when they were live. -/
theorem sum_load_telling (evicted : List (String × ByteView)) :
    ((evicted.map telling).map Task.load).sum = 4 * weight evicted := by
  induction evicted with
  | nil => rfl
  | cons e evicted ih =>
    simp only [List.map_cons, List.sum_cons, ih, telling, Task.load, Store.weight]
    omega

variable {maxBytes : Nat}

/-! ## One step -/

/-- A hook that only looks leaves no task behind and moves entries at most. -/
theorem play_looks {r : Reaction} (hr : r.Looks) {s : Store} (h : s.Holds maxBytes)
    (notes : List Note) :
    (play r s notes).2.2 = [] ∧ weight (play r s notes).1.entries = weight s.entries := by
  induction hr generalizing s notes with
  | done => exact ⟨rfl, rfl⟩
  | @note n next hnext ih => exact ih h (notes ++ [n])
  | @get key next hnext ih =>
    obtain ⟨htasks, hweight⟩ := ih (s.get key).2 (h.get key).1 notes
    exact ⟨htasks, hweight.trans (h.weight_get key)⟩
  | stats hnext ih => exact ih s.stats h notes

/-- What is left to do of a hook that was told of `n` bytes costs less than the call did. -/
theorem play_addsLess {n : Nat} {r : Reaction} (hr : r.AddsLess n) {s : Store}
    (h : s.Holds maxBytes) (notes : List Note) :
    ((play r s notes).2.2.map Task.load).sum < 4 * (n + 1) ∧
      (∀ t ∈ (play r s notes).2.2, t.Spent) ∧
      weight (play r s notes).1.entries = weight s.entries := by
  induction hr generalizing s notes with
  | looks hlooks =>
    obtain ⟨htasks, hweight⟩ := play_looks hlooks h notes
    rw [htasks]
    exact ⟨Nat.succ_pos _, by simp, hweight⟩
  | @note m next hnext ih => exact ih h (notes ++ [m])
  | @get key next hnext ih =>
    obtain ⟨hload, hspent, hweight⟩ := ih (s.get key).2 (h.get key).1 notes
    exact ⟨hload, hspent, hweight.trans (h.weight_get key)⟩
  | stats hnext ih => exact ih s.stats h notes
  | @add key value next hless hnext =>
    refine ⟨?_, ?_, rfl⟩
    · simp only [play, List.map_cons, List.map_nil, List.sum_cons, List.sum_nil, Task.load]
      omega
    · simp [play, Task.Spent, hnext]

/-- Every step makes the load smaller. -/
theorem load_step_lt {x y : Session} {hook : Hook} (h : Proper maxBytes x)
    (hspent : ∀ t ∈ x.tasks, t.Spent) (hhook : hook.AddsLess) (hstep : x.step hook = some y) :
    y.load < x.load ∧ ∀ t ∈ y.tasks, t.Spent := by
  obtain ⟨store, locked, tasks, notes⟩ := x
  have hholds : store.Holds maxBytes := h.holds
  cases tasks with
  | nil => cases hstep
  | cons task rest =>
    obtain ⟨htask, hrest⟩ := List.forall_mem_cons.1 hspent
    -- a task that needs the lock does not go on while it is held
    have hfree : task ≠ .unlock → locked = false := by
      intro hne
      cases locked with
      | false => rfl
      | true => cases task <;> simp [step] at hstep hne
    cases task with
    | unlock =>
      cases hstep
      refine ⟨?_, hrest⟩
      simp only [load, List.map_cons, List.sum_cons, Task.load]
      omega
    | insert key value =>
      obtain rfl := hfree (by simp)
      have hweight := hholds.weight_insert key value
      have htold := sum_load_telling (store.insert key value).2
      cases hstep
      constructor
      · show 4 * weight (store.insert key value).1.entries + ((Task.unlock ::
          ((store.insert key value).2.map telling ++ rest)).map Task.load).sum < _
        simp only [load, List.map_cons, List.map_append, List.sum_cons, List.sum_append, Task.load,
          htold]
        omega
      · refine List.forall_mem_cons.2 ⟨trivial, List.forall_mem_append.2 ⟨?_, hrest⟩⟩
        intro t ht
        obtain ⟨e, -, rfl⟩ := List.mem_map.1 ht
        trivial
    | tell key value =>
      obtain rfl := hfree (by simp)
      obtain ⟨hload, hmore, hweight⟩ := play_addsLess (hhook key value) hholds notes
      cases hstep
      refine ⟨?_, List.forall_mem_append.2 ⟨hmore, hrest⟩⟩
      show 4 * weight (play (hook key value) store notes).1.entries +
        (((play (hook key value) store notes).2.2 ++ rest).map Task.load).sum < _
      simp only [load, List.map_cons, List.map_append, List.sum_cons, List.sum_append, Task.load,
        hweight]
      omega
    | resume r =>
      obtain rfl := hfree (by simp)
      obtain ⟨hmore, hweight⟩ := play_looks htask hholds notes
      cases hstep
      have htasks : (play r store notes).2.2 ++ rest = rest := by rw [hmore, List.nil_append]
      refine ⟨?_, fun t ht => hrest t (htasks ▸ ht)⟩
      show 4 * weight (play r store notes).1.entries +
        (((play r store notes).2.2 ++ rest).map Task.load).sum < _
      rw [htasks, hweight]
      simp only [load, List.map_cons, List.sum_cons, Task.load]
      omega

/-! ## The whole addition -/

/-- Where nothing is left to do, no hook is called. -/
theorem after_of_finished {x : Session} (h : x.isFinished) (hooks : List Hook) :
    x.after hooks = x := by
  have hstep : ∀ hook, x.step hook = none := by
    intro hook
    simp [step, List.isEmpty_iff.1 h]
  induction hooks with
  | nil => rfl
  | cons hook hooks ih =>
    simp only [after, hstep, Option.getD_none]
    exact ih

/-- Whoever has enough steps for the load comes to the end. -/
theorem finished_of_load_le {x : Session} (h : Proper maxBytes x) (hspent : ∀ t ∈ x.tasks, t.Spent)
    {hooks : List Hook} (hless : ∀ hook ∈ hooks, hook.AddsLess) (hload : x.load ≤ hooks.length) :
    (x.after hooks).isFinished := by
  -- Each step takes at least one from the load, and a task left has a load of its own.
  induction hooks generalizing x with
  | nil =>
    cases htasks : x.tasks with
    | nil => simp [after, isFinished, htasks]
    | cons task rest =>
      have hpos := task.load_pos
      simp only [load, htasks, List.map_cons, List.sum_cons, List.length_nil] at hload
      omega
  | cons hook hooks ih =>
    obtain ⟨hhook, hhooks⟩ := List.forall_mem_cons.1 hless
    cases hstep : x.step hook with
    | none =>
      have hend := (h.step_eq_none_iff hook).1 hstep
      rw [after_of_finished hend]
      exact hend
    | some y =>
      obtain ⟨hlt, hmore⟩ := load_step_lt h hspent hhook hstep
      simp only [after, hstep, Option.getD_some]
      rw [List.length_cons] at hload
      exact ih (h.step hstep).1 hmore hhooks (by omega)

theorem Proper.start {s : Store} (h : s.Holds maxBytes) (key : String) (value : ByteView) :
    Proper maxBytes (start s key value) where
  holds := h
  seat := ⟨[.insert key value], by simp, .inl ⟨rfl, rfl⟩⟩

/-- An addition that is done has told of every entry that it has evicted. -/
theorem calls_perm_of_finished {s : Store} (h : s.Holds maxBytes) {key : String} {value : ByteView}
    {hooks : List Hook} (hend : ((Session.start s key value).after hooks).isFinished) :
    (calls ((Session.start s key value).trace hooks)).Perm
      (evictions ((Session.start s key value).trace hooks)) := by
  obtain ⟨-, hplays⟩ := (Proper.start h key value).run hooks
  rw [List.isEmpty_iff.1 hend] at hplays
  have hall := hplays .nil
  rw [List.append_nil] at hall
  generalize (Session.start s key value).trace hooks = tr at hall
  cases hall with
  | insert hparts hkept htold hrest =>
    cases hrest with
    | nil =>
      rw [List.append_nil]
      exact htold.calls_perm

/-- **An addition comes to an end.** Take a store with any content, whatever client and hooks it
comes from, and add an entry, where every hook that is called adds less than it was told of; the
hook may be another one at each call. Count four steps for every byte and every entry, live ones and
the new one, and two more. By then nothing is left to do, however many entries were evicted on the
way and whoever added them, and the hook has been told of each. So `addWith` cuts no such hook
off. -/
theorem add_halts (cacheBytes : Nat) (client : Reaction) (earlier : List Hook) (key : String)
    (value : ByteView) (hooks : List Hook) (hless : ∀ hook ∈ hooks, hook.AddsLess) :
    let s := ((ofClient cacheBytes client).after earlier).store
    let x := start s key value
    (4 * (weight s.entries + value.length + 1) + 2 ≤ hooks.length →
      (x.after hooks).isFinished ∧ (calls (x.trace hooks)).Perm (evictions (x.trace hooks))) ∧
    ∀ hook, hook.AddsLess → (s.addWith hook key value).isFinished := by
  intro s x
  have hholds : s.Holds cacheBytes := ((Proper.ofClient cacheBytes client).run earlier).1.holds
  have hproper : Proper cacheBytes x := .start hholds key value
  have hload : x.load = 4 * (weight s.entries + value.length + 1) + 2 := by
    simp only [x, start, load, List.map_cons, List.map_nil, List.sum_cons, List.sum_nil, Task.load]
    omega
  -- At the start no hook is under way.
  have hspent : ∀ t ∈ x.tasks, t.Spent := by
    intro t ht
    rw [List.mem_singleton.1 ht]
    trivial
  refine ⟨fun hsteps => ?_, fun hook hhook => ?_⟩
  · have hend := finished_of_load_le hproper hspent hless (hload ▸ hsteps)
    exact ⟨hend, calls_perm_of_finished hholds hend⟩
  · unfold Store.addWith
    rw [run_eq_after]
    refine finished_of_load_le hproper hspent ?_ (by rw [List.length_replicate, hload])
    intro other hmem
    rw [List.eq_of_mem_replicate hmem]
    exact hhook

/-- A store for 8 bytes that holds two entries. -/
def twoHeld : Session := (ofClient 8
  (.add "a" ⟨[1, 1, 1]⟩ (.add "b" ⟨[2, 2, 2]⟩ .done))).after (List.replicate 16 Hook.silent)

/-- Both entries have to go for the new one, which then goes for the part of the first that comes
back, before the hook is told of the second. -/
theorem add_halts_halve :
    (∀ hook ∈ List.replicate 66 Hook.halve, hook.AddsLess) ∧ weight twoHeld.store.entries = 8 ∧
    ((start twoHeld.store "c" ⟨[3, 3, 3, 3, 3, 3, 3]⟩).after
      (List.replicate 66 Hook.halve)).isFinished ∧
    calls ((start twoHeld.store "c" ⟨[3, 3, 3, 3, 3, 3, 3]⟩).trace (List.replicate 66 Hook.halve)) =
      [("a", ⟨[1, 1, 1]⟩), ("c", ⟨[3, 3, 3, 3, 3, 3, 3]⟩), ("b", ⟨[2, 2, 2]⟩)] ∧
    (twoHeld.store.addWith Hook.halve "c" ⟨[3, 3, 3, 3, 3, 3, 3]⟩).isFinished := by
  have hless : ∀ hook ∈ List.replicate 66 Hook.halve, hook.AddsLess := by
    intro hook hmem
    rw [List.eq_of_mem_replicate hmem]
    exact Hook.addsLess_halve
  have hweight : weight twoHeld.store.entries = 8 := by decide
  obtain ⟨hall, hhook⟩ := add_halts 8
    (.add "a" ⟨[1, 1, 1]⟩ (.add "b" ⟨[2, 2, 2]⟩ .done)) (List.replicate 16 Hook.silent) "c"
    ⟨[3, 3, 3, 3, 3, 3, 3]⟩ (List.replicate 66 Hook.halve) hless
  have hend := (hall (by decide)).1
  exact ⟨hless, hweight, hend, by decide, hhook _ Hook.addsLess_halve⟩

/-! ## A hook that puts back all of it -/

/-- An entry that does not fit is evicted by its own addition. -/
theorem insert_too_large {s : Store} (h : s.Holds maxBytes) (hempty : s.entries = [])
    {key : String} {value : ByteView} (hlarge : ¬ Recency.Fits maxBytes [(key, value)]) :
    (s.insert key value).1.entries = [] ∧ (s.insert key value).2 = [(key, value)] := by
  obtain ⟨-, hparts, hkept⟩ := h.insert key value
  rw [hempty] at hparts hkept
  have hempty : Recency.kept maxBytes ([] : List (String × ByteView)) = [] :=
    Recency.kept_of_fits (.inr (Nat.zero_le maxBytes))
  have hcut : Recency.kept maxBytes ([] ++ [(key, value)]) = Recency.kept maxBytes [] :=
    Recency.kept_concat hlarge
  have hnone : (s.insert key value).1.entries = [] := hkept.trans (hcut.trans hempty)
  rw [hnone] at hparts
  refine ⟨hnone, ?_⟩
  rw [← List.reverse_reverse (s.insert key value).2]
  exact congrArg List.reverse hparts.symm

/-- The store is empty, and the entry is about to be added to it, or was evicted and is to be told
of. -/
inductive Restless (maxBytes : Nat) (key : String) (value : ByteView) : Session → Prop
  | insert {s : Store} {tasks : List Task} {notes : List Note} (hholds : s.Holds maxBytes)
    (hempty : s.entries = []) :
    Restless maxBytes key value ⟨s, false, .insert key value :: tasks, notes⟩
  | unlock {s : Store} {tasks : List Task} {notes : List Note} (hholds : s.Holds maxBytes)
    (hempty : s.entries = []) :
    Restless maxBytes key value ⟨s, true, .unlock :: .tell key value :: tasks, notes⟩
  | tell {s : Store} {tasks : List Task} {notes : List Note} (hholds : s.Holds maxBytes)
    (hempty : s.entries = []) :
    Restless maxBytes key value ⟨s, false, .tell key value :: tasks, notes⟩

/-- A value that is too large and is put back comes around again: each step leads to the next
place. -/
theorem Restless.step {key : String} {value : ByteView} {x : Session}
    (h : Restless maxBytes key value x) (hlarge : ¬ Recency.Fits maxBytes [(key, value)]) :
    ∃ y, x.step Hook.putBack = some y ∧ Restless maxBytes key value y := by
  cases h with
  | @insert s tasks notes hholds hempty =>
    obtain ⟨hnone, hgone⟩ := insert_too_large hholds hempty hlarge
    refine ⟨_, rfl, ?_⟩
    show Restless maxBytes key value ⟨(s.insert key value).1, true,
      .unlock :: ((s.insert key value).2.map telling ++ tasks), notes⟩
    rw [hgone]
    exact .unlock (hholds.insert key value).1 hnone
  | unlock hholds hempty => exact ⟨_, rfl, .tell hholds hempty⟩
  | tell hholds hempty => exact ⟨_, rfl, .insert hholds hempty⟩

/-- That the value which comes back is smaller is needed: if an entry that does not fit comes back
as it was, there is always something left to do. -/
theorem run_putBack (maxBytes : Nat) (key : String) (value : ByteView) (hbudget : maxBytes ≠ 0)
    (hlarge : maxBytes < Lru.cost key value) (fuel : Nat) :
    ¬ (run Hook.putBack fuel (start (.new maxBytes) key value)).isFinished := by
  have hfits : ¬ Recency.Fits maxBytes [(key, value)] := by
    simp only [Recency.Fits, Recency.cost]
    omega
  -- The invariant: the entry is about to go in, where it cannot stay, or about to be handed to the
  -- hook, which puts it back.
  have hrun : ∀ x, Restless maxBytes key value x →
      Restless maxBytes key value (run Hook.putBack fuel x) := by
    induction fuel with
    | zero => exact fun x hx => hx
    | succ fuel ih =>
      intro x hx
      obtain ⟨y, hstep, hy⟩ := hx.step hfits
      simp only [run, hstep]
      exact ih y hy
  have hfirst : Restless maxBytes key value (start (.new maxBytes) key value) :=
    .insert (.new maxBytes) rfl
  generalize hlast : run Hook.putBack fuel (start (.new maxBytes) key value) = x
  have hx := hrun _ hfirst
  rw [hlast] at hx
  cases hx <;> simp [isFinished]

end Session

end PeerCache
