import PeerCache.Proofs.Lru.Stack
import PeerCache.Proofs.Store.Refinement
import PeerCache.Store.History
/-!
# PeerCache — hooks nest

A store with hooks works off a stack of tasks, and hooks that add put new tasks on top while the
calls of the outer `add` are still below. Three things hold at every moment (`Proper`): the store
keeps its budget and reports what it holds, the lock is held only where giving it back is the next
task, and so no task ever finds it held.

What a run does is read off the stack from the bottom up: `Plays` says what traces the tasks on a
stack can still give, one task after the other.

* **`Proper.step`** — a step puts what happens in front of a trace that the new stack can give, and
  the whole is one that the old stack can give.
* **`Proper.exists_finish`** — from everywhere the session can be brought to its end.
* **`hooks_nest`** — both together, from a client at an unused store on.
-/

namespace PeerCache

namespace Store

/-- The store works, with the entries it shows, one for each key, and keeps its budget. -/
structure Holds (maxBytes : Nat) (s : Store) : Prop where
  models : Models s ⟨maxBytes, s.entries⟩
  nodup : (s.entries.map Prod.fst).Nodup
  fits : Recency.Fits maxBytes s.entries

namespace Holds

variable {maxBytes : Nat} {s : Store}

/-- A store that models a recency list within its budget holds that list. -/
theorem of_models {es : List (String × ByteView)} (h : Models s ⟨maxBytes, es⟩)
    (hnodup : (es.map Prod.fst).Nodup) (hfits : Recency.Fits maxBytes es) :
    Holds maxBytes s := by
  obtain rfl : s.entries = es := h.entries_eq
  exact ⟨h, hnodup, hfits⟩

theorem new (maxBytes : Nat) : Holds maxBytes (.new maxBytes) :=
  of_models (models_new maxBytes) List.nodup_nil (.inr (Nat.zero_le maxBytes))

/-- What is reported is what is there. -/
theorem stats_eq (h : Holds maxBytes s) :
    s.stats = ⟨s.entries.length, Recency.cost s.entries⟩ := by
  unfold Store.stats
  cases hc : s.lru with
  | none =>
    have hempty : s.entries = [] := h.models.unused hc
    rw [hempty]
    rfl
  | some c =>
    obtain ⟨-, hlength, -, hbytes⟩ := (h.models.used c hc).report_eq
    show Stats.mk c.length c.bytes = _
    rw [hlength, hbytes]
    rfl

/-- A lookup answers as the list does and leaves its entries. -/
theorem get (h : Holds maxBytes s) (key : String) :
    Holds maxBytes (s.get key).1 ∧
      (s.get key).2 = ((Recency.mk maxBytes s.entries).get key).2 ∧
      (s.get key).1.entries = ((Recency.mk maxBytes s.entries).get key).1.entries := by
  obtain ⟨hvalue, hmodels⟩ := h.models.get key
  refine ⟨?_, hvalue, hmodels.entries_eq⟩
  cases hget : ((Recency.mk maxBytes s.entries).get key).2 with
  | none =>
    rw [(Recency.get_eq_none hget).2] at hmodels
    exact of_models hmodels h.nodup h.fits
  | some value =>
    obtain ⟨hmem, hfront⟩ := Recency.get_eq_some hget
    rw [hfront] at hmodels
    exact of_models hmodels (Recency.nodup_touch key value h.nodup) (h.fits.touch hmem)

/-- An addition evicts what the list does, and leaves its entries. -/
theorem insert (h : Holds maxBytes s) (key : String) (value : ByteView) :
    Holds maxBytes (s.insert key value).1 ∧
      (key, value) :: Recency.without key s.entries =
        (s.insert key value).1.entries ++ (s.insert key value).2.reverse ∧
      (s.insert key value).1.entries =
        Recency.kept maxBytes ((key, value) :: Recency.without key s.entries) := by
  obtain ⟨hevicted, hmodels⟩ := h.models.insert key value
  obtain ⟨hrun, hfits, -⟩ :=
    Recency.kept_spec maxBytes ((key, value) :: Recency.without key s.entries)
  have hnodup := (Recency.nodup_touch key value h.nodup).sublist
    (hrun.sublist.map Prod.fst)
  refine ⟨of_models hmodels hnodup hfits, ?_, hmodels.entries_eq⟩
  rw [hevicted, hmodels.entries_eq]
  exact (Recency.add_parts ⟨maxBytes, s.entries⟩ key value).symm

end Holds

end Store

namespace Session

/-! ## What a stack of tasks can give -/

/-- The task of telling the hook of an entry. -/
def telling (e : String × ByteView) : Task := .tell e.1 e.2

/-- `Plays maxBytes tasks es tr fs`: with the entries `es`, the tasks can be done one after the
other so that `tr` happens and the entries `fs` are left. -/
inductive Plays (maxBytes : Nat) : List Task → List (String × ByteView) → List Event →
    List (String × ByteView) → Prop
  | nil {es} : Plays maxBytes [] es [] es
  | unlock {es fs : List (String × ByteView)} {tasks : List Task} {rest : List Event}
      (hrest : Plays maxBytes tasks es rest fs) :
      Plays maxBytes (.unlock :: tasks) es (.unlock :: rest) fs
  | insert {es fs hs kept evicted : List (String × ByteView)} {key : String} {value : ByteView}
      {tasks : List Task} {told rest : List Event}
      (hparts : (key, value) :: Recency.without key es = kept ++ evicted.reverse)
      (hkept : kept = Recency.kept maxBytes ((key, value) :: Recency.without key es))
      (htold : Tells maxBytes kept evicted told hs)
      (hrest : Plays maxBytes tasks hs rest fs) :
      Plays maxBytes (.insert key value :: tasks) es
        (.insert key value evicted :: .unlock :: (told ++ rest)) fs
  | tell {es fs hs : List (String × ByteView)} {key : String} {value : ByteView}
      {tasks : List Task} {body rest : List Event}
      (hfits : maxBytes = 0 ∨ Recency.cost es ≤ maxBytes)
      (hbody : Acts maxBytes es body hs)
      (hrest : Plays maxBytes tasks hs rest fs) :
      Plays maxBytes (.tell key value :: tasks) es (.call key value :: (body ++ rest)) fs
  | resume {es fs hs : List (String × ByteView)} {r : Reaction} {tasks : List Task}
      {body rest : List Event}
      (hbody : Acts maxBytes es body hs)
      (hrest : Plays maxBytes tasks hs rest fs) :
      Plays maxBytes (.resume r :: tasks) es (body ++ rest) fs

variable {maxBytes : Nat} {es fs : List (String × ByteView)} {tr : List Event}

/-- What the tasks of telling some entries can give starts with a telling of just these. -/
theorem Plays.tells {evicted : List (String × ByteView)} {tasks : List Task}
    (h : Plays maxBytes (evicted.map telling ++ tasks) es tr fs) :
    ∃ told hs rest, tr = told ++ rest ∧ Tells maxBytes es evicted told hs ∧
      Plays maxBytes tasks hs rest fs := by
  induction evicted generalizing es tr with
  | nil => exact ⟨[], es, tr, rfl, .nil, h⟩
  | cons e evicted ih =>
    cases h with
    | tell hfits hbody hrest =>
      obtain ⟨told, hs, rest, rfl, htold, hplays⟩ := ih hrest
      refine ⟨_, hs, rest, ?_, .cons hfits hbody htold, hplays⟩
      simp

/-! ## One step -/

/-- What a hook does until it ends or adds, and what the tasks it leaves can give, make up one
body. -/
theorem plays_play (r : Reaction) {s : Store} (h : s.Holds maxBytes) (notes : List Note) :
    (play r s notes).1.Holds maxBytes ∧ .unlock ∉ (play r s notes).2.2 ∧
      ∀ {tasks tr fs},
        Plays maxBytes ((play r s notes).2.2 ++ tasks) (play r s notes).1.entries tr fs →
        ∃ body hs rest, played r s ++ tr = body ++ rest ∧ Acts maxBytes s.entries body hs ∧
          Plays maxBytes tasks hs rest fs := by
  -- only an addition leaves tasks: itself, and below it the rest of the body
  induction r generalizing s notes with
  | done =>
    refine ⟨h, by simp [play], fun {tasks tr fs} hplays => ?_⟩
    exact ⟨[.done], s.entries, tr, rfl, .done, hplays⟩
  | note n next ih => exact ih h (notes ++ [n])
  | get key next ih =>
    obtain ⟨hnext, hanswer, hentries⟩ := h.get key
    obtain ⟨hholds, hfree, hbody⟩ := ih (s.get key).2 hnext notes
    refine ⟨hholds, hfree, fun hplays => ?_⟩
    obtain ⟨body, hs, rest, heq, hacts, hrest⟩ := hbody hplays
    rw [hentries] at hacts
    refine ⟨_, hs, rest, ?_, .get hacts, hrest⟩
    rw [← hanswer]
    exact congrArg (List.cons _) heq
  | stats next ih =>
    obtain ⟨hholds, hfree, hbody⟩ := ih s.stats h notes
    refine ⟨hholds, hfree, fun hplays => ?_⟩
    obtain ⟨body, hs, rest, heq, hacts, hrest⟩ := hbody hplays
    refine ⟨_, hs, rest, ?_, .stats h.fits hacts, hrest⟩
    rw [← h.stats_eq]
    exact congrArg (List.cons _) heq
  | add key value next _ =>
    refine ⟨h, by simp [play], fun hplays => ?_⟩
    cases hplays with
    | insert hparts hkept htold hrest =>
      cases hrest with
      | resume hbody hrest =>
        refine ⟨_, _, _, ?_, .add hparts hkept htold hbody, hrest⟩
        simp [played]

/-- The store keeps its budget, and the lock is held just where giving it back is next. -/
structure Proper (maxBytes : Nat) (x : Session) : Prop where
  holds : x.store.Holds maxBytes
  seat : ∃ tasks, .unlock ∉ tasks ∧
    (x.locked = false ∧ x.tasks = tasks ∨ x.locked = true ∧ x.tasks = .unlock :: tasks)

theorem Proper.ofClient (cacheBytes : Nat) (client : Reaction) :
    Proper cacheBytes (ofClient cacheBytes client) where
  holds := .new cacheBytes
  seat := ⟨[.resume client], by simp, .inl ⟨rfl, rfl⟩⟩

/-- The lock is held exactly where giving it back is next. -/
theorem Proper.locked_iff {x : Session} (h : Proper maxBytes x) :
    x.locked = true ↔ ∃ rest, x.tasks = .unlock :: rest := by
  obtain ⟨tasks, hfree, ⟨hlocked, htasks⟩ | ⟨hlocked, htasks⟩⟩ := h.seat
  · subst htasks
    constructor
    · simp [hlocked]
    · rintro ⟨rest, hrest⟩
      simp [hrest] at hfree
  · exact ⟨fun _ => ⟨tasks, htasks⟩, fun _ => hlocked⟩

/-- No task finds the lock held, so only a session that is at its end does not go on. -/
theorem Proper.step_eq_none_iff {x : Session} (h : Proper maxBytes x) (hook : Hook) :
    x.step hook = none ↔ x.isFinished := by
  obtain ⟨tasks, hfree, ⟨hlocked, htasks⟩ | ⟨-, htasks⟩⟩ := h.seat
  · subst htasks
    cases hhead : x.tasks with
    | nil => simp [step, isFinished, hhead]
    | cons task rest => cases task <;> simp [step, isFinished, hhead, hlocked]
  · simp [step, isFinished, htasks]

/-- The tasks of an `add` hold the lock for their first one only. -/
theorem unlock_notMem_tells {evicted : List (String × ByteView)} {tasks : List Task}
    (hfree : .unlock ∉ tasks) : .unlock ∉ evicted.map telling ++ tasks := by
  intro hmem
  rcases List.mem_append.1 hmem with htold | hmem
  · obtain ⟨e, -, he⟩ := List.mem_map.1 htold
    cases he
  · exact hfree hmem

/-- A step keeps a session proper, and what happens in it comes before all that the tasks left can
give. -/
theorem Proper.step {x y : Session} {hook : Hook} (h : Proper maxBytes x)
    (hstep : x.step hook = some y) :
    Proper maxBytes y ∧ ∀ {tr fs}, Plays maxBytes y.tasks y.store.entries tr fs →
      Plays maxBytes x.tasks x.store.entries (x.happens hook ++ tr) fs := by
  obtain ⟨store, locked, all, notes⟩ := x
  obtain ⟨tasks, hfree, ⟨hlocked, htasks⟩ | ⟨hlocked, htasks⟩⟩ := h.seat
  · obtain rfl : locked = false := hlocked
    obtain rfl : all = tasks := htasks
    cases all with
    | nil => cases hstep
    | cons task rest =>
      have hrest : .unlock ∉ rest := fun hmem => hfree (List.mem_cons_of_mem task hmem)
      cases task with
      | unlock => simp at hfree
      | insert key value =>
        obtain ⟨hholds, hparts, hkept⟩ := h.holds.insert key value
        cases hstep
        refine ⟨⟨hholds, _, unlock_notMem_tells hrest, .inr ⟨rfl, rfl⟩⟩, fun hplays => ?_⟩
        -- the calls stand on the tasks that were there before
        cases hplays with
        | unlock hplays =>
          obtain ⟨told, hs, tr, rfl, htold, hplays⟩ := hplays.tells
          exact .insert hparts hkept htold hplays
      | tell key value =>
        obtain ⟨hholds, hmore, hbody⟩ := plays_play (hook key value) h.holds notes
        cases hstep
        refine ⟨⟨hholds, _, by simp [hmore, hrest], .inl ⟨rfl, rfl⟩⟩, fun hplays => ?_⟩
        obtain ⟨body, hs, tr, heq, hacts, hplays⟩ := hbody hplays
        show Plays _ _ _ (.call key value :: (played (hook key value) store ++ _)) _
        rw [heq]
        exact .tell h.holds.fits hacts hplays
      | resume r =>
        obtain ⟨hholds, hmore, hbody⟩ := plays_play r h.holds notes
        cases hstep
        refine ⟨⟨hholds, _, by simp [hmore, hrest], .inl ⟨rfl, rfl⟩⟩, fun hplays => ?_⟩
        obtain ⟨body, hs, tr, heq, hacts, hplays⟩ := hbody hplays
        show Plays _ _ _ (played r store ++ _) _
        rw [heq]
        exact .resume hacts hplays
  · obtain rfl : all = .unlock :: tasks := htasks
    cases hstep
    exact ⟨⟨h.holds, tasks, hfree, .inl ⟨rfl, rfl⟩⟩, fun hplays => .unlock hplays⟩

/-! ## A whole run -/

theorem after_append (x : Session) (hooks more : List Hook) :
    x.after (hooks ++ more) = (x.after hooks).after more := by
  induction hooks generalizing x with
  | nil => rfl
  | cons hook hooks ih => exact ih _

/-- A session without a next step stays as it is. -/
theorem after_of_stuck {x : Session} {hook : Hook} (h : x.step hook = none) (n : Nat) :
    x.after (List.replicate n hook) = x := by
  induction n with
  | zero => rfl
  | succ n ih => simpa [List.replicate_succ, after, h] using ih

/-- To run a session is to go on with the same hook at every step. -/
theorem run_eq_after (hook : Hook) (fuel : Nat) (x : Session) :
    run hook fuel x = x.after (List.replicate fuel hook) := by
  induction fuel generalizing x with
  | zero => rfl
  | succ fuel ih =>
    rw [List.replicate_succ]
    simp only [run, after]
    cases hstep : x.step hook with
    | none => exact (after_of_stuck hstep fuel).symm
    | some y => exact ih y

theorem trace_append (x : Session) (hooks more : List Hook) :
    x.trace (hooks ++ more) = x.trace hooks ++ (x.after hooks).trace more := by
  induction hooks generalizing x with
  | nil => rfl
  | cons hook hooks ih =>
    show _ ++ trace _ (hooks ++ more) = _ ++ trace _ hooks ++ _
    rw [ih, List.append_assoc]
    rfl

/-- A run keeps a session proper, and what is played after it can be played as a whole from its
start. -/
theorem Proper.run {x : Session} (h : Proper maxBytes x) (hooks : List Hook) :
    Proper maxBytes (x.after hooks) ∧ ∀ {tr fs},
      Plays maxBytes (x.after hooks).tasks (x.after hooks).store.entries tr fs →
      Plays maxBytes x.tasks x.store.entries (x.trace hooks ++ tr) fs := by
  induction hooks generalizing x with
  | nil => exact ⟨h, fun hplays => hplays⟩
  | cons hook hooks ih =>
    cases hstep : x.step hook with
    | none =>
      have hend : x.tasks = [] := List.isEmpty_iff.1 ((h.step_eq_none_iff hook).1 hstep)
      obtain ⟨hafter, hplays⟩ := ih h
      simp only [after, trace, happens, hstep, hend, Option.getD_none, List.nil_append] at hplays ⊢
      exact ⟨hafter, hplays⟩
    | some y =>
      obtain ⟨hy, hfirst⟩ := h.step hstep
      obtain ⟨hafter, hplays⟩ := ih hy
      simp only [after, trace, hstep, Option.getD_some]
      refine ⟨hafter, fun hrest => ?_⟩
      rw [List.append_assoc]
      exact hfirst (hplays hrest)

/-! ## Every session comes to an end if the hooks let it -/

/-- With nothing but these tasks to do, and the lock free, a session can be brought to its end. -/
def Ends (tasks : List Task) : Prop :=
  ∀ store notes, ∃ more, ((Session.mk store false tasks notes).after more).isFinished

theorem ends_nil : Ends [] := fun _ _ => ⟨[], rfl⟩

/-- Entries to be told of may stand in front: a silent hook is done with each in one step. -/
theorem ends_tells (evicted : List (String × ByteView)) {tasks : List Task} (h : Ends tasks) :
    Ends (evicted.map telling ++ tasks) := by
  induction evicted with
  | nil => exact h
  | cons e evicted ih =>
    intro store notes
    obtain ⟨more, hmore⟩ := ih store notes
    exact ⟨Hook.silent :: more, hmore⟩

/-- An addition may stand in front, and what it evicts is told of by silent hooks. -/
theorem ends_insert {key : String} {value : ByteView} {tasks : List Task} (h : Ends tasks) :
    Ends (.insert key value :: tasks) := by
  intro store notes
  obtain ⟨more, hmore⟩ :=
    ends_tells (store.insert key value).2 h (store.insert key value).1 notes
  -- one step takes the lock and one gives it back
  exact ⟨Hook.silent :: Hook.silent :: more, hmore⟩

/-- Induction on the hook: every add it makes comes to an end, and so does what it does then. -/
theorem ends_resume (r : Reaction) {tasks : List Task} (h : Ends tasks) :
    Ends (.resume r :: tasks) := by
  have hplay : ∀ store notes, ∃ more, ((Session.mk (play r store notes).1 false
      ((play r store notes).2.2 ++ tasks) (play r store notes).2.1).after more).isFinished := by
    induction r with
    | done => exact h
    | note n next ih => exact fun store notes => ih store (notes ++ [n])
    | get key next ih => exact fun store notes => ih (store.get key).2 (store.get key).1 notes
    | stats next ih => exact fun store notes => ih store.stats store notes
    | add key value next ih =>
      have hnext : Ends (.resume next :: tasks) := by
        intro store notes
        obtain ⟨more, hmore⟩ := ih store notes
        exact ⟨Hook.silent :: more, hmore⟩
      exact ends_insert hnext
  intro store notes
  obtain ⟨more, hmore⟩ := hplay store notes
  exact ⟨Hook.silent :: more, hmore⟩

/-- Whatever there is to do, it can be brought to its end, as long as the lock is free and no task
gives it back. -/
theorem ends_of_unlock_notMem {tasks : List Task} (hfree : .unlock ∉ tasks) : Ends tasks := by
  induction tasks with
  | nil => exact ends_nil
  | cons task tasks ih =>
    have hrest := ih fun hmem => hfree (List.mem_cons_of_mem task hmem)
    cases task with
    | unlock => simp at hfree
    | insert key value => exact ends_insert hrest
    | tell key value => exact ends_tells [(key, value)] hrest
    | resume r => exact ends_resume r hrest

/-- Every proper session can be brought to its end, by hooks that do nothing. -/
theorem Proper.exists_finish {x : Session} (h : Proper maxBytes x) :
    ∃ more, (x.after more).isFinished := by
  obtain ⟨store, locked, all, notes⟩ := x
  obtain ⟨tasks, hfree, ⟨hlocked, htasks⟩ | ⟨hlocked, htasks⟩⟩ := h.seat
  · obtain rfl : locked = false := hlocked
    obtain rfl : all = tasks := htasks
    exact ends_of_unlock_notMem hfree store notes
  · obtain rfl : all = .unlock :: tasks := htasks
    obtain ⟨more, hmore⟩ := ends_of_unlock_notMem hfree store notes
    exact ⟨Hook.silent :: more, hmore⟩

/-! ## What a body's trace says of every eviction -/

@[simp] theorem calls_append (tr tr' : List Event) : calls (tr ++ tr') = calls tr ++ calls tr' :=
  List.filterMap_append

@[simp] theorem evictions_append (tr tr' : List Event) :
    evictions (tr ++ tr') = evictions tr ++ evictions tr' :=
  List.flatMap_append

mutual

/-- Every evicted entry is told once, and nothing else is. -/
theorem Acts.calls_perm {es fs : List (String × ByteView)} {tr : List Event}
    (h : Acts maxBytes es tr fs) : (calls tr).Perm (evictions tr) := by
  cases h with
  | done => exact .nil
  | get hrest => exact hrest.calls_perm
  | stats hfits hrest => exact hrest.calls_perm
  | @add _ _ hs kept evicted key value told rest hparts hkept htold hrest =>
    show (calls (told ++ rest)).Perm (evicted ++ evictions (told ++ rest))
    rw [calls_append, evictions_append, ← List.append_assoc]
    exact htold.calls_perm.append hrest.calls_perm
termination_by tr.length

/-- While entries are told of, the hooks may evict more; all of them are told of, in some order. -/
theorem Tells.calls_perm {es fs evicted : List (String × ByteView)} {tr : List Event}
    (h : Tells maxBytes es evicted tr fs) : (calls tr).Perm (evicted ++ evictions tr) := by
  cases h with
  | nil => exact .nil
  | @cons _ _ hs evicted key value body rest hfits hbody hrest =>
    show ((key, value) :: calls (body ++ rest)).Perm
      ((key, value) :: (evicted ++ evictions (body ++ rest)))
    rw [calls_append, evictions_append]
    -- what the hook brings about comes between the entry and those told after it
    have hswap : (evictions body ++ (evicted ++ evictions rest)).Perm
        (evicted ++ (evictions body ++ evictions rest)) := by
      rw [← List.append_assoc, ← List.append_assoc]
      exact List.perm_append_comm.append_right (evictions rest)
    exact .cons (key, value) ((hbody.calls_perm.append hrest.calls_perm).trans hswap)
termination_by tr.length

end

mutual

/-- Whatever a body or a hook adds, the entries it evicts are of the new entry and those of other
keys. -/
theorem Acts.evicted_value {es fs evicted : List (String × ByteView)} {tr : List Event}
    {key : String} {value old : ByteView} (h : Acts maxBytes es tr fs)
    (hmem : .insert key value evicted ∈ tr) (hold : (key, old) ∈ evicted) : old = value := by
  cases h with
  | done => simp at hmem
  | get hrest => exact hrest.evicted_value (by simpa using hmem) hold
  | stats hfits hrest => exact hrest.evicted_value (by simpa using hmem) hold
  | @add _ _ hs kept cut newKey new told rest hparts hkept htold hrest =>
    rcases List.mem_cons.1 hmem with hnew | hmem
    · obtain ⟨rfl, rfl, rfl⟩ := Event.insert.inj hnew
      have hall : (key, old) ∈ (key, value) :: Recency.without key es := by
        rw [hparts]
        simp [hold]
      simpa [Recency.without] using hall
    · rcases List.mem_append.1 (List.mem_of_ne_of_mem (by simp) hmem) with hmem | hmem
      · exact htold.evicted_value hmem hold
      · exact hrest.evicted_value hmem hold
termination_by tr.length

/-- The same while evicted entries are told of: an addition evicts its own key with the added value
only. -/
theorem Tells.evicted_value {es fs pending evicted : List (String × ByteView)} {tr : List Event}
    {key : String} {value old : ByteView} (h : Tells maxBytes es pending tr fs)
    (hmem : .insert key value evicted ∈ tr) (hold : (key, old) ∈ evicted) : old = value := by
  cases h with
  | nil => simp at hmem
  | @cons _ _ hs pending told new body rest hfits hbody hrest =>
    rcases List.mem_append.1 (List.mem_of_ne_of_mem (by simp) hmem) with hmem | hmem
    · exact hbody.evicted_value hmem hold
    · exact hrest.evicted_value hmem hold
termination_by tr.length

end

/-! ## From the client on -/

/-- The last body on the stack is all that is left to do. -/
theorem Plays.acts {r : Reaction} (h : Plays maxBytes [.resume r] es tr fs) :
    Acts maxBytes es tr fs := by
  cases h with
  | resume hbody hrest =>
    cases hrest with
    | nil =>
      rw [List.append_nil]
      exact hbody

/-- A finished run did what one body can do. -/
theorem acts_of_finished {cacheBytes : Nat} {client : Reaction} {hooks : List Hook}
    (hend : ((ofClient cacheBytes client).after hooks).isFinished) :
    Acts cacheBytes [] ((ofClient cacheBytes client).trace hooks)
      ((ofClient cacheBytes client).after hooks).store.entries := by
  obtain ⟨-, hplays⟩ := (Proper.ofClient cacheBytes client).run hooks
  rw [List.isEmpty_iff.1 hend] at hplays
  have hall := (hplays .nil).acts
  rwa [List.append_nil] at hall

/-- **Hooks nest.** Whatever a client does with an unused store, and whatever the hooks do with it
that are called, at every moment of the run:

* the lock is held only where giving it back is the next task, so nothing ever waits for it in vain,
  and to run the session on is to go on with one hook at every step;
* the report is the number and the cost of the entries, of which no key has two, a lookup finds
  just these, and their cost is in the budget if there is one;
* the run can be brought to an end, and what happens until then is what one body can do: each `add`
  evicts what no longer fits, gives the lock back, and then calls the hook with every evicted entry,
  the least recently used one first, each time to the end of the whole body. The calls are the
  evictions, and no value is among them that an `add` replaced. -/
theorem hooks_nest (cacheBytes : Nat) (client : Reaction) (hooks : List Hook) :
    let start := ofClient cacheBytes client
    let x := start.after hooks
    (x.locked = true ↔ ∃ rest, x.tasks = .unlock :: rest) ∧
      (∀ hook, x.step hook = none ↔ x.isFinished) ∧
      (∀ hook fuel, run hook fuel x = x.after (List.replicate fuel hook)) ∧
      x.store.stats = ⟨x.store.entries.length, Recency.cost x.store.entries⟩ ∧
      (x.store.entries.map Prod.fst).Nodup ∧
      (∀ key, (x.store.get key).2 = (x.store.entries.find? fun e => e.1 = key).map Prod.snd) ∧
      (cacheBytes = 0 ∨ x.store.stats.bytes ≤ cacheBytes) ∧
      ∃ more, (x.after more).isFinished ∧ (x.isFinished → more = []) ∧
        let tr := start.trace hooks ++ x.trace more
        Acts cacheBytes [] tr (x.after more).store.entries ∧
          (calls tr).Perm (evictions tr) ∧
          ∀ key value evicted old,
            .insert key value evicted ∈ tr → (key, old) ∈ evicted → old = value := by
  intro start x
  obtain ⟨hproper, -⟩ := (Proper.ofClient cacheBytes client).run hooks
  have hstats := hproper.holds.stats_eq
  have hlookup : ∀ key,
      (x.store.get key).2 = (x.store.entries.find? fun e => e.1 = key).map Prod.snd := by
    intro key
    rw [(hproper.holds.get key).2.1, Recency.get_eq_peek]
    rfl
  have hbudget : cacheBytes = 0 ∨ x.store.stats.bytes ≤ cacheBytes := by
    rw [hstats]
    exact hproper.holds.fits
  -- The nested order is a property of whole traces, so a trace under way is first run to its end by
  -- hooks that do nothing.
  obtain ⟨more, hend, hfirst⟩ : ∃ more, (x.after more).isFinished ∧ (x.isFinished → more = []) := by
    by_cases hx : x.isFinished
    · exact ⟨[], hx, fun _ => rfl⟩
    · obtain ⟨more, hmore⟩ := hproper.exists_finish
      exact ⟨more, hmore, fun h => absurd h hx⟩
  have hacts : Acts cacheBytes [] (start.trace hooks ++ x.trace more)
      (x.after more).store.entries := by
    rw [← trace_append, ← after_append]
    apply acts_of_finished
    rwa [after_append]
  exact ⟨hproper.locked_iff, hproper.step_eq_none_iff, fun hook fuel => run_eq_after hook fuel x,
    hstats, hproper.holds.nodup, hlookup, hbudget, more, hend, hfirst, hacts, hacts.calls_perm,
      fun _ _ _ _ => hacts.evicted_value⟩

/-- What the hook of `a` adds is evicted and told before `b`, which was evicted with `a`. -/
example :
    (ofClient 4 (.add "a" ⟨[1]⟩ (.add "b" ⟨[2]⟩ (.add "c" ⟨[3, 3, 3]⟩ .done)))).trace
      (List.replicate 16 fun key _ => if key = "a" then .add "d" ⟨[4, 4, 4]⟩ .done else .done) =
    [.insert "a" ⟨[1]⟩ [], .unlock, .insert "b" ⟨[2]⟩ [], .unlock,
      .insert "c" ⟨[3, 3, 3]⟩ [("a", ⟨[1]⟩), ("b", ⟨[2]⟩)], .unlock,
      .call "a" ⟨[1]⟩, .insert "d" ⟨[4, 4, 4]⟩ [("c", ⟨[3, 3, 3]⟩)], .unlock,
      .call "c" ⟨[3, 3, 3]⟩, .done, .done, .call "b" ⟨[2]⟩, .done, .done] := by decide

end Session

end PeerCache
