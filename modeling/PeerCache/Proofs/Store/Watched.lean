import PeerCache.Proofs.Store.Nesting
import PeerCache.Store.Watched
/-!
# PeerCache — deferred hooks and callbacks

A store sets its cache up late and calls its hook late, after the lock is given back. If the hook
leaves the store alone, neither can be told from a cache that was there before and calls back at
once:

* `cache_get` — what a store answers is what its cache would answer, set up or not.
* `Shows` — what a session has still to show, by the task it is at: the calls that the last `add`
  owes come before all that the client does then.
* **`Shows.step`** — a step shows the front part of it and leaves the rest.
-/

namespace PeerCache

namespace Store

/-- A store reports on its cache, also before there is one. -/
theorem cache_stats (s : Store) : s.stats = s.cache.stats := by
  obtain ⟨cacheBytes, lru⟩ := s
  cases lru with
  | none => rfl
  | some c => rfl

/-- A lookup in a store is a lookup in its cache. -/
theorem cache_get (s : Store) (key : String) :
    (s.get key).2 = (s.cache.get key).2 ∧ (s.get key).1.cache = (s.cache.get key).1 := by
  obtain ⟨cacheBytes, lru⟩ := s
  cases lru with
  | none => exact ⟨rfl, rfl⟩
  | some c => exact ⟨rfl, rfl⟩

theorem isInitialized_get (s : Store) (key : String) :
    (s.get key).1.isInitialized = s.isInitialized := by
  obtain ⟨cacheBytes, lru⟩ := s
  cases lru with
  | none => rfl
  | some c => rfl

end Store

namespace Session

/-! ## Set up by the first addition -/

/-- A body that plays up to its first addition sets no cache up. -/
theorem isInitialized_play (r : Reaction) (s : Store) (notes : List Note) :
    (play r s notes).1.isInitialized = s.isInitialized := by
  induction r generalizing s notes with
  | done => rfl
  | note n next ih => exact ih s (notes ++ [n])
  | get key next ih => exact (ih (s.get key).2 (s.get key).1 notes).trans (s.isInitialized_get key)
  | stats next ih => exact ih s.stats s notes
  | add key value next _ => rfl

/-- A body plays up to its first addition, which is a task of its own. -/
theorem insert_notMem_played (r : Reaction) (s : Store) (key : String) (value : ByteView)
    (evicted : List (String × ByteView)) : .insert key value evicted ∉ played r s := by
  induction r generalizing s with
  | done => simp [played]
  | note n next ih => exact ih s
  | get key' next ih => simpa [played] using ih (s.get key').2 (s.get key').1
  | stats next ih => simpa [played] using ih s.stats s
  | add key' value' next _ => simp [played]

/-- A step sets the cache up exactly if it is an addition. -/
theorem isInitialized_step {x y : Session} {hook : Hook} (hstep : x.step hook = some y) :
    y.store.isInitialized = true ↔ x.store.isInitialized = true ∨
      ∃ key value evicted, .insert key value evicted ∈ x.happens hook := by
  obtain ⟨store, locked, tasks, notes⟩ := x
  -- Only the insertion of an add sets the cache up: one case for each task.
  cases tasks with
  | nil => cases hstep
  | cons task rest =>
    cases task with
    | unlock =>
      cases hstep
      simp [happens]
    | insert key value =>
      cases locked with
      | true => cases hstep
      | false =>
        cases hstep
        simp [happens, Store.insert, Store.isInitialized]
    | tell key value =>
      cases locked with
      | true => cases hstep
      | false =>
        cases hstep
        have hnot := insert_notMem_played (hook key value) store
        simp [happens, isInitialized_play, hnot]
    | resume r =>
      cases locked with
      | true => cases hstep
      | false =>
        cases hstep
        have hnot := insert_notMem_played r store
        simp [happens, isInitialized_play, hnot]

/-- The cache of a store is set up by the first addition to it and is there ever after. -/
theorem isInitialized_after (x : Session) (hooks : List Hook) :
    (x.after hooks).store.isInitialized = true ↔ x.store.isInitialized = true ∨
      ∃ key value evicted, .insert key value evicted ∈ x.trace hooks := by
  induction hooks generalizing x with
  | nil => simp [after, trace]
  | cons hook hooks ih =>
    simp only [after, trace, ih, List.mem_append]
    cases hstep : x.step hook with
    | none =>
      have hnothing : ∀ key value evicted, .insert key value evicted ∉ x.happens hook := by
        intro key value evicted hmem
        unfold step at hstep
        unfold happens at hmem
        split at hstep <;> simp_all
      simp [hnothing]
    | some y =>
      simp only [Option.getD_some, isInitialized_step hstep, or_assoc, exists_or]

/-! ## What is still to be shown -/

/-- The number of steps that a client and quiet hooks take at a cache. -/
def rounds : Reaction → Lru ByteView → Nat
  | .done, _ => 1
  | .note _ next, c => rounds next c
  | .get key next, c => rounds (next (c.get key).2) (c.get key).1
  | .stats next, c => rounds (next c.stats) c
  | .add key value next, c => (c.add key value).2.length + rounds next (c.add key value).1 + 3

/-- `Shows x es n`: in `n` steps the session comes to its end, and by then all of `es` is seen. -/
inductive Shows : Session → List Event → Nat → Prop
  | idle {s : Store} {notes : List Note} : Shows ⟨s, false, [], notes⟩ [] 0
  | insert {s : Store} {key : String} {value : ByteView} {next : Reaction} {notes : List Note} :
    Shows ⟨s, false, [.insert key value, .resume next], notes⟩
      ((Reaction.add key value next).seen s.cache)
      ((s.cache.add key value).2.length + rounds next (s.cache.add key value).1 + 2)
  | unlock {s : Store} {evicted : List (String × ByteView)} {r : Reaction} {notes : List Note} :
    Shows ⟨s, true, .unlock :: (evicted.map telling ++ [.resume r]), notes⟩
      (evicted.map calling ++ r.seen s.cache) (evicted.length + rounds r s.cache + 1)
  | tell {s : Store} {evicted : List (String × ByteView)} {r : Reaction} {notes : List Note} :
    Shows ⟨s, false, evicted.map telling ++ [.resume r], notes⟩
      (evicted.map calling ++ r.seen s.cache) (evicted.length + rounds r s.cache)

/-- A hook that leaves the store alone leaves nothing to do. -/
theorem play_quiet {r : Reaction} (hr : r.Quiet) (s : Store) (notes : List Note) :
    (play r s notes).1 = s ∧ (play r s notes).2.2 = [] ∧ played r s = [.done] := by
  induction hr generalizing notes with
  | done => exact ⟨rfl, rfl, rfl⟩
  | @note n next hnext ih => exact ih (notes ++ [n])

/-- The client goes on up to its end or to the next thing it adds. -/
theorem shows_play (r : Reaction) (s : Store) (notes : List Note) :
    ∃ es n, Shows ⟨(play r s notes).1, false, (play r s notes).2.2, (play r s notes).2.1⟩ es n ∧
      r.seen s.cache = (played r s).filter Event.isSeen ++ es ∧ rounds r s.cache = n + 1 ∧
      (play r s notes).1.cache = (played r s).foldl Event.replay s.cache := by
  induction r generalizing s notes with
  | done => exact ⟨[], 0, .idle, rfl, rfl, rfl⟩
  | note n next ih => exact ih s (notes ++ [n])
  | get key next ih =>
    obtain ⟨hanswer, hcache⟩ := s.cache_get key
    obtain ⟨es, n, hshows, hseen, hrounds, hreplay⟩ := ih (s.get key).2 (s.get key).1 notes
    rw [hanswer, hcache] at hseen hrounds
    rw [hcache] at hreplay
    refine ⟨es, n, hshows, ?_, hrounds, hreplay⟩
    show .get key (s.cache.get key).2 :: _ = (.get key (s.get key).2 :: _) ++ es
    rw [hseen, hanswer]
    rfl
  | stats next ih =>
    obtain ⟨es, n, hshows, hseen, hrounds, hreplay⟩ := ih s.stats s notes
    rw [s.cache_stats] at hseen hrounds
    refine ⟨es, n, hshows, ?_, hrounds, hreplay⟩
    show .stats s.cache.stats :: _ = (.stats s.stats :: _) ++ es
    rw [hseen, s.cache_stats]
    rfl
  | add key value next _ => exact ⟨_, _, .insert, rfl, rfl, rfl⟩

/-- A step shows the front part of what is still to be shown. -/
theorem Shows.step {x : Session} {es : List Event} {n : Nat} (h : Shows x es n) {hook : Hook}
    (hquiet : hook.Quiet) :
    (x.isFinished ∧ es = [] ∧ n = 0) ∨ ∃ y, x.step hook = some y ∧ ∃ rest m, Shows y rest m ∧
      es = (x.happens hook).filter Event.isSeen ++ rest ∧ n = m + 1 ∧
      y.store.cache = (x.happens hook).foldl Event.replay x.store.cache := by
  cases h with
  | idle => exact .inl ⟨rfl, rfl, rfl⟩
  | @insert s key value next notes =>
    have hnext : Shows ⟨(s.insert key value).1, true, .unlock ::
        ((s.insert key value).2.map telling ++ [.resume next]), notes⟩ _ _ := .unlock
    exact .inr ⟨_, rfl, _, _, hnext, rfl, rfl, rfl⟩
  | unlock => exact .inr ⟨_, rfl, _, _, .tell, rfl, rfl, rfl⟩
  | @tell s evicted r notes =>
    -- Either the last of the evicted has been told and the client goes on, or one more is told and
    -- the quiet hook does nothing.
    cases evicted with
    | nil =>
      obtain ⟨es, n, hshows, hseen, hrounds, hreplay⟩ := shows_play r s notes
      refine .inr ⟨_, rfl, es, n, ?_, hseen, ?_, hreplay⟩
      · show Shows
          ⟨(play r s notes).1, false, (play r s notes).2.2 ++ [], (play r s notes).2.1⟩ es n
        rw [List.append_nil]
        exact hshows
      · rw [List.length_nil, Nat.zero_add, hrounds]
    | cons e evicted =>
      obtain ⟨hstore, hmore, hplayed⟩ := play_quiet (hquiet e.1 e.2) s notes
      have hhappens : happens hook ⟨s, false, (e :: evicted).map telling ++ [.resume r], notes⟩ =
          [calling e, .done] := congrArg (List.cons _) hplayed
      refine .inr ⟨_, rfl, evicted.map calling ++ r.seen s.cache, evicted.length + rounds r s.cache,
        ?_, ?_, ?_, ?_⟩
      · show Shows ⟨(play (hook e.1 e.2) s notes).1, false, (play (hook e.1 e.2) s notes).2.2 ++
          (evicted.map telling ++ [.resume r]), (play (hook e.1 e.2) s notes).2.1⟩ _ _
        rw [hstore, hmore]
        exact .tell
      · rw [hhappens]
        rfl
      · rw [List.length_cons]
        omega
      · rw [hhappens]
        exact congrArg Store.cache hstore

/-- The run lemma of `Shows.step`: what has been seen, and then what is still to show, is what there
was to show at first, and the cache is where what was seen leads. -/
theorem Shows.run {x : Session} {es : List Event} {n : Nat} (h : Shows x es n) {hooks : List Hook}
    (hquiet : ∀ hook ∈ hooks, hook.Quiet) :
    ∃ rest, Shows (x.after hooks) rest (n - hooks.length) ∧
      es = (x.trace hooks).filter Event.isSeen ++ rest ∧
      (x.after hooks).store.cache = (x.trace hooks).foldl Event.replay x.store.cache := by
  induction hooks generalizing x es n with
  | nil => exact ⟨es, h, rfl, rfl⟩
  | cons hook hooks ih =>
    obtain ⟨hhook, hhooks⟩ := List.forall_mem_cons.1 hquiet
    rcases h.step hhook with ⟨hend, rfl, rfl⟩ | ⟨y, hstep, rest, m, hshows, rfl, rfl, hcache⟩
    · obtain ⟨rest, hshows, hseen, hcache⟩ := ih h hhooks
      have htasks : x.tasks = [] := List.isEmpty_iff.1 hend
      have hstuck : x.step hook = none := by simp [Session.step, htasks]
      have hnothing : happens hook x = [] := by simp [happens, htasks]
      simp only [after, trace, hstuck, hnothing, Option.getD_none, List.nil_append]
      rw [Nat.zero_sub] at hshows ⊢
      exact ⟨rest, hshows, hseen, hcache⟩
    · obtain ⟨rest', hshows', hseen, hcache'⟩ := ih hshows hhooks
      simp only [after, trace, hstep, Option.getD_some]
      refine ⟨rest', ?_, ?_, ?_⟩
      · rw [List.length_cons, Nat.add_sub_add_right]
        exact hshows'
      · rw [hseen, List.filter_append, List.append_assoc]
      · rw [hcache', hcache, List.foldl_append]

/-! ## The end of a body -/

/-- A client takes a step at least, the one in which it stops. -/
theorem rounds_pos (r : Reaction) (c : Lru ByteView) : 0 < rounds r c := by
  induction r generalizing c with
  | done => exact Nat.one_pos
  | note n next ih => exact ih c
  | get key next ih => exact ih (c.get key).2 (c.get key).1
  | stats next ih => exact ih c.stats c
  | add key value next _ => exact Nat.succ_pos _

/-- At the end, and not before, nothing is left to be shown. -/
theorem Shows.finished_iff {x : Session} {es : List Event} {n : Nat} (h : Shows x es n) :
    (x.isFinished ↔ n = 0) ∧ (n = 0 → es = []) := by
  cases h with
  | idle => simp [isFinished]
  | insert => simp [isFinished]
  | unlock => simp [isFinished]
  | @tell s evicted r notes =>
    have hclient : rounds r s.cache ≠ 0 := Nat.pos_iff_ne_zero.1 (rounds_pos r s.cache)
    have hleft : evicted.length + rounds r s.cache ≠ 0 := fun hzero => hclient (by omega)
    exact ⟨by simp [isFinished, hclient], fun hzero => absurd hzero hleft⟩

/-- **A store is as good as a cache with a callback.** A client uses a store that nobody has used,
by additions, lookups and reports in any order, and the hooks leave the store alone; it may be
another hook at each call. Beside it, the same client uses a cache with the same budget that was set
up before and that gives each evicted entry to its callback at once. Then at every moment of the
run:

* what has been seen of the store, calls of the hook and answers alike, is in this order what is
  seen first of the cache, and by the end it is all of it;
* the store reports as many entries and bytes as the cache that has done the same so far, and looks
  keys up as this does;
* the store has been set up exactly if there has been an addition, whatever is left of it;

/-! ## Whole runs -/

and in a number of steps that is the same for all such hooks everything is done. -/
theorem seen_of_quiet (cacheBytes : Nat) (client : Reaction) (hooks : List Hook)
    (hquiet : ∀ hook ∈ hooks, hook.Quiet) :
    let start := ofClient cacheBytes client
    let x := start.after hooks
    let tr := start.trace hooks
    let c := tr.foldl Event.replay (.new cacheBytes)
    tr.filter Event.isSeen <+: client.seen (.new cacheBytes) ∧
      (x.isFinished → tr.filter Event.isSeen = client.seen (.new cacheBytes)) ∧
      (x.store.stats = c.stats ∧ ∀ key, (x.store.get key).2 = (c.get key).2) ∧
      (x.store.isInitialized = true ↔ ∃ key value evicted, .insert key value evicted ∈ tr) ∧
      ∃ n, ∀ more : List Hook, (∀ hook ∈ more, hook.Quiet) → n ≤ more.length →
        (start.after more).isFinished := by
  intro start x tr c
  have hstart : Shows start (client.seen (.new cacheBytes)) (rounds client (.new cacheBytes)) := by
    -- no calls are owed
    have htell : Shows ⟨.new cacheBytes, false, ([].map telling ++ [.resume client]), []⟩ _ _ :=
      .tell
    rwa [List.length_nil, Nat.zero_add] at htell
  obtain ⟨rest, hshows, hseen, hcache⟩ := hstart.run hquiet
  have hcache : x.store.cache = c := hcache
  refine ⟨⟨rest, hseen.symm⟩, fun hend => ?_, ⟨?_, fun key => ?_⟩, ?_, ?_⟩
  · obtain ⟨hfinished, hnothing⟩ := hshows.finished_iff
    rw [hseen, hnothing (hfinished.1 hend), List.append_nil]
  · rw [x.store.cache_stats, hcache]
  · rw [(x.store.cache_get key).1, hcache]
  · rw [isInitialized_after]
    exact or_iff_right Bool.false_ne_true
  · refine ⟨rounds client (.new cacheBytes), fun more hmore hsteps => ?_⟩
    obtain ⟨rest, hshows, -⟩ := hstart.run hmore
    rw [Nat.sub_eq_zero_of_le hsteps] at hshows
    exact hshows.finished_iff.1.2 rfl

/-- The second entry is larger than the budget: it drives out the first one and then itself. -/
def tooLarge : Reaction := .add "a" ⟨[1]⟩ (.add "b" ⟨[2, 2, 2, 2]⟩ (.stats fun _ => .done))

/-- A client adds a value, then one that has no room, which evicts both; each is told of once, and
the report shows an empty cache. -/
theorem seen_of_quiet_tooLarge :
    (∀ hook ∈ List.replicate 9 Hook.log, hook.Quiet) ∧
    ((ofClient 4 tooLarge).trace (List.replicate 9 Hook.log)).filter Event.isSeen =
      tooLarge.seen (.new 4) ∧
    tooLarge.seen (.new 4) = [.call "a" ⟨[1]⟩, .call "b" ⟨[2, 2, 2, 2]⟩, .stats ⟨0, 0⟩] ∧
    ((ofClient 4 tooLarge).after (List.replicate 9 Hook.log)).store.isInitialized = true := by
  have hquiet : ∀ hook ∈ List.replicate 9 Hook.log, hook.Quiet := by
    intro hook hmem
    rw [List.eq_of_mem_replicate hmem]
    exact fun key value => .note .done
  obtain ⟨-, hall, -, hset, -⟩ := seen_of_quiet 4 tooLarge (List.replicate 9 Hook.log) hquiet
  exact ⟨hquiet, hall (by decide), by decide, hset.2 ⟨"a", ⟨[1]⟩, [], by decide⟩⟩

end Session

end PeerCache
